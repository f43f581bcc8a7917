/-
# `TradePlatform.FundingSteps` — settled funding charged to a held sequence

`funding_steps_v1`: each settlement inside the span of a window is looked up among its opens.
At an open the position before it and the position after it decide what is paid, and the
amount is booked on the bar before, as a fraction of the equity that bar starts with; between
two opens nothing can be priced, and only a flat position is let pass.

The payments are stated in currency: the position carried into the open pays on its quantity at
the price of the open, a position taken at the open pays on the equity there, and where the two
differ the larger of the payments leaves the equity.
-/
import TradePlatform.FundingCompleteness
import TradePlatform.StrategySdkPositions
import TradePlatform.Lib.DecimalNotation

namespace TradePlatform

namespace FundingHistory

open Decimal (Context Parts)
open ForwardFunding (EventRecord FundingEventV1)
open StrategySdk (BarsV1 NoneDueEarly heldPositionsV1 positionBefore strategyStep)

/-! ## The code -/

/-- Funding of each bar, as a fraction of the equity it starts with, and what was decided. -/
structure FundingStepsV1 where
  steps : List Decimal
  eventsInSpan : ℕ
  charged : ℕ
  flat : ℕ
  ambiguousWorseCharged : ℕ
  notCostable : List String
deriving DecidableEq

def FundingHistoryV1.events (history : FundingHistoryV1) : List FundingEventV1 :=
  history.identity.events.map EventRecord.event

section Code

variable (c : Context) (charset : Parts.Charset) (env : ForwardFunding.Env) (bars : BarsV1)
  (held : List ℤ) (costFraction : Decimal)

/-- `event.rate`: a rate text is never anything but a finite number. -/
def rateOf (event : FundingEventV1) : Except Exn Decimal :=
  match Parts.number charset event.rateText.toList with
  | some (some d) => .ok d.value
  | _ => .error .arithmeticError

def perOpenBefore (k : ℕ) (amount : Decimal) : Except Exn Decimal :=
  if bars.openD (k - 1) = 0 then .error .arithmeticError
  else .ok (c.div amount (bars.openD (k - 1)))

def unchangedPay (k : ℕ) (before : ℤ) (rate : Decimal) : Except Exn Decimal :=
  perOpenBefore c bars k (c.mul (c.mul before rate) (bars.openD k))

def payBefore (k : ℕ) (before : ℤ) (rate : Decimal) : Except Exn Decimal :=
  if before = 0 then .ok 0 else unchangedPay c bars k before rate

def payAfter (after : ℤ) (rate growth : Decimal) : Decimal :=
  if after = 0 then 0 else c.mul (c.mul after rate) growth

def growth (k : ℕ) : Except Exn Decimal :=
  if k = 0 then .ok 1
  else do
    let relative ← perOpenBefore c bars k (bars.openD k)
    let previous := if 2 ≤ k then held.getD (k - 2) 0 else 0
    return c.add 1 (c.sub (c.mul (held.getD (k - 1) 0) (c.sub relative 1))
      (c.mul costFraction |held.getD (k - 1) 0 - previous|))

def FundingStepsV1.book (acc : FundingStepsV1) (k : ℕ) (amount : Decimal) : FundingStepsV1 :=
  { acc with steps := acc.steps.modify (k - 1) fun step => c.sub step amount }

def settleAtOpen (acc : FundingStepsV1) (rate : Decimal) (k : ℕ) : Except Exn FundingStepsV1 :=
  let before := if k = 0 then 0 else held.getD (k - 1) 0
  let after := held.getD k 0
  if k = 0 ∧ after ≠ 0 then refuse "position_at_the_first_bar_cannot_be_funded_exactly"
  else if before = 0 ∧ after = 0 then .ok { acc with flat := acc.flat + 1 }
  else if before = after then do
    let amount ← unchangedPay c bars k before rate
    return { acc.book c k amount with charged := acc.charged + 1 }
  else do
    let old ← payBefore c bars k before rate
    let growth ← growth c bars held costFraction k
    return { acc.book c k (max old (payAfter c after rate growth)) with
      ambiguousWorseCharged := acc.ambiguousWorseCharged + 1 }

def settleInside (acc : FundingStepsV1) (settledAtMs : ℤ) (j : ℕ) : Except Exn FundingStepsV1 :=
  if held.getD j 0 = 0 then .ok { acc with flat := acc.flat + 1 }
  else do
    let instant ← ForwardFunding.isoMs env settledAtMs
    return { acc with
      notCostable := acc.notCostable ++ ["NO_BAR_AT_FUNDING_INSTANT_WHILE_HELD:" ++ instant] }

def instantUs (event : FundingEventV1) : ℤ := event.settledAtMs * 1000

def InSpan (event : FundingEventV1) : Prop :=
  bars.openUs 0 ≤ instantUs event ∧ instantUs event < bars.closeUs (bars.size - 1)

instance : DecidablePred (InSpan bars) := fun _ => inferInstanceAs (Decidable (_ ∧ _))

def settle (acc : FundingStepsV1) (event : FundingEventV1) : Except Exn FundingStepsV1 :=
  if ¬ InSpan bars event then .ok acc
  else do
    let acc := { acc with eventsInSpan := acc.eventsInSpan + 1 }
    let rate ← rateOf charset event
    let k := Bisect.bisectLeft bars.opens (instantUs event)
    if k < bars.size ∧ bars.openUs k = instantUs event then
      settleAtOpen c bars held costFraction acc rate k
    else settleInside env held acc event.settledAtMs (k - 1)

def fundingStepsV1 (history : FundingHistoryV1) : Except Exn FundingStepsV1 :=
  if held.length ≠ bars.size then refuse "held_positions_must_match_bars"
  else if bars.size = 0 then .error .indexError
  else history.events.foldlM (settle c charset env bars held costFraction)
    ⟨List.replicate bars.size 0, 0, 0, 0, 0, []⟩

end Code

/-! ## What is paid -/

section Rule

variable (charset : Parts.Charset) (bars : BarsV1) (held : List ℤ) (cost rate equity : ℚ)

def rateValue (event : FundingEventV1) : ℚ := (rateOf charset event).toOption.getD 0

/-- The position carried into the open of bar `k` pays on its quantity, at the price of that
open.  The equity of the open before has set the quantity. -/
def carriedPays (k : ℕ) : ℚ :=
  positionBefore held k * equity / bars.openD (k - 1) * bars.openD k * rate

/-- The position taken at the open of bar `k` pays on what the equity has become by then. -/
def takenPays (k : ℕ) : ℚ :=
  held.getD k 0 * (equity * (1 + strategyStep bars held cost (k - 1))) * rate

def paid (k : ℕ) : ℚ :=
  if positionBefore held k = held.getD k 0 then carriedPays bars held rate equity k
  else max (carriedPays bars held rate equity k) (takenPays bars held cost rate equity k)

inductive Kind where
  | charged | flat | ambiguous | notCostable
deriving DecidableEq, Repr

def barAt (event : FundingEventV1) : ℕ :=
  (latest (fun j => bars.openUs j ≤ instantUs event) bars.size).getD 0

/-- At the open of its bar, by the positions before and after; inside it, by the one held. -/
def kindOf (event : FundingEventV1) : Kind :=
  let j := barAt bars event
  if held.getD j 0 = 0 ∧ (bars.openUs j = instantUs event → positionBefore held j = 0) then .flat
  else if bars.openUs j ≠ instantUs event then .notCostable
  else if positionBefore held j = held.getD j 0 then .charged
  else .ambiguous

def FundingStepsV1.count (result : FundingStepsV1) : Kind → ℕ
  | .charged => result.charged
  | .flat => result.flat
  | .ambiguous => result.ambiguousWorseCharged
  | .notCostable => result.notCostable.length

def settlements (history : FundingHistoryV1) : List FundingEventV1 :=
  history.events.filter fun event => InSpan bars event

def paidAt (history : FundingHistoryV1) (k : ℕ) : ℚ :=
  ((settlements bars history).map fun event =>
    if k < bars.size ∧ bars.openUs k = instantUs event then
      paid bars held cost (rateValue charset event) equity k
    else 0).sum

end Rule

/-! ## The records of a history -/

variable {charset : Parts.Charset} {bars : BarsV1} {held : List ℤ} {cost rate equity : ℚ}
  {event : FundingEventV1} {acc : FundingStepsV1} {j k : ℕ}

theorem rateOf_eq_ok (h : ForwardFunding.isRateText event.rateText = true) :
    rateOf charset event = .ok (rateValue charset event) := by
  have hdigits : ∀ {text : List Char}, ForwardFunding.isDigits text = true →
      text ≠ [] ∧ ∀ ch ∈ text, ch.isDigit = true := by
    intro text htext
    unfold ForwardFunding.isDigits at htext
    simpa using htext
  obtain ⟨negative, hunsigned⟩ : ∃ negative : Bool, event.rateText.toList =
      (if negative then ['-'] else []) ++ ForwardFunding.unsigned event.rateText.toList := by
    unfold ForwardFunding.unsigned
    split
    · rename_i htext
      exact ⟨true, htext⟩
    · exact ⟨false, rfl⟩
  obtain ⟨int, frac, hbody, hne, hint, hfrac⟩ : ∃ int frac : List Char,
      ForwardFunding.unsigned event.rateText.toList =
        int ++ (if frac = [] then [] else '.' :: frac) ∧ int ≠ [] ∧
      (∀ ch ∈ int, ch.isDigit = true) ∧ ∀ ch ∈ frac, ch.isDigit = true := by
    unfold ForwardFunding.isRateText at h
    dsimp only at h
    have hsplit := List.takeWhile_append_dropWhile (p := Char.isDigit)
      (l := ForwardFunding.unsigned event.rateText.toList)
    split at h
    · rename_i hnil
      obtain ⟨hne, hint⟩ := hdigits h
      rw [hnil, List.append_nil] at hsplit
      exact ⟨_, [], by rw [if_pos rfl, List.append_nil, hsplit], hne, hint, by simp⟩
    · rename_i frac hpoint
      obtain ⟨hint, hfrac⟩ := Bool.and_eq_true_iff.mp h
      obtain ⟨hne, hint⟩ := hdigits hint
      obtain ⟨hne', hfrac⟩ := hdigits hfrac
      exact ⟨_, frac, by rw [if_neg hne', ← hpoint, hsplit], hne, hint, hfrac⟩
    · cases h
  have hread : rateOf charset event = .ok (Parts.value
      ⟨negative, Nat.ofDigitChars 10 (int ++ frac) 0, -frac.length⟩) := by
    unfold rateOf
    rw [hunsigned, hbody, Parts.number_point hint hne hfrac]
  rw [rateValue, hread]
  rfl

theorem events_of_build {env : Env} {symbol : String} {first last : Date}
    {pages : List (String × ForwardFunding.Bytes)} {history : FundingHistoryV1}
    (h : build env symbol first last pages = .ok history) (hevent : event ∈ history.events) :
    ForwardFunding.isRateText event.rateText = true ∧
      ∃ text, ForwardFunding.isoMs env.evidence event.settledAtMs = .ok text := by
  obtain ⟨urls, -, h⟩ := Except.bind_eq_ok.mp h
  obtain ⟨-, h⟩ := Except.of_ite_error h
  obtain ⟨days, hdays, h⟩ := Except.bind_eq_ok.mp h
  obtain ⟨records, hrecords, h⟩ := Except.bind_eq_ok.mp h
  obtain ⟨judged, -, h⟩ := Except.bind_eq_ok.mp h
  obtain rfl := Except.ok.inj h
  rw [FundingHistoryV1.events, FundingEvidence.events_of_records hrecords] at hevent
  constructor
  · obtain ⟨parsed, hparsed, hmem⟩ := List.mem_flatten.mp hevent
    obtain ⟨page, -, hpage⟩ := Except.mem_of_mapM hdays hparsed
    obtain ⟨start, -, hparse⟩ := Except.bind_eq_ok.mp hpage
    exact rateText_of_parse hparse event hmem
  · obtain ⟨record, -, hrecord⟩ := Except.exists_of_mem_mapM hrecords hevent
    unfold ForwardFunding.eventRecord at hrecord
    cases htext : ForwardFunding.isoMs env.evidence event.settledAtMs with
    | error e =>
        rw [htext] at hrecord
        cases hrecord
    | ok text => exact ⟨text, rfl⟩

/-! ## One settlement -/

section Settlement

theorem barAt_spec (hwindow : bars.Window) (hin : InSpan bars event) :
    barAt bars event < bars.size ∧ bars.openUs (barAt bars event) ≤ instantUs event ∧
      ∀ i < bars.size, bars.openUs i ≤ instantUs event → i ≤ barAt bars event := by
  unfold barAt
  cases hlatest : latest (fun j => bars.openUs j ≤ instantUs event) bars.size with
  | none => exact absurd hin.1 (latest_eq_none.mp hlatest 0 hwindow.pos)
  | some j => exact latest_eq_some.mp hlatest

theorem bisectLeft_opens (hwindow : bars.Window) (hin : InSpan bars event) :
    Bisect.bisectLeft bars.opens (instantUs event) =
      if bars.openUs (barAt bars event) = instantUs event then barAt bars event
      else barAt bars event + 1 := by
  obtain ⟨hlt, hopen, hlast⟩ := barAt_spec hwindow hin
  have hcount := fun i (hi : i < bars.size) =>
    Bisect.lt_bisectLeft (x := instantUs event) hwindow.pairwise (StrategySdk.getElem?_opens hi)
  have hlength : Bisect.bisectLeft bars.opens (instantUs event) ≤ bars.size := by
    have h := Bisect.bisectLeft_le_length (x := instantUs event) hwindow.pairwise
    rwa [BarsV1.opens, List.length_map, List.length_range] at h
  split
  · rename_i heq
    have hle : Bisect.bisectLeft bars.opens (instantUs event) ≤ barAt bars event :=
      not_lt.mp fun h => absurd ((hcount _ hlt).mp h) heq.not_lt
    refine le_antisymm hle (not_lt.mp fun h => ?_)
    have hbefore := hwindow.opens _ _ h hlt
    rw [heq] at hbefore
    exact absurd ((hcount _ (h.trans hlt)).mpr hbefore) (lt_irrefl _)
  · rename_i hne
    refine le_antisymm (not_lt.mp fun h => ?_) ((hcount _ hlt).mpr (lt_of_le_of_ne hopen hne))
    have hnext := h.trans_le hlength
    exact absurd (hlast _ hnext ((hcount _ hnext).mp h).le) (Nat.not_succ_le_self _)

theorem settle_eq {env : ForwardFunding.Env} (hwindow : bars.Window) (hin : InSpan bars event)
    (hrate : ForwardFunding.isRateText event.rateText = true) :
    settle .exact charset env bars held cost acc event =
      let acc := { acc with eventsInSpan := acc.eventsInSpan + 1 }
      if bars.openUs (barAt bars event) = instantUs event then
        settleAtOpen .exact bars held cost acc (rateValue charset event) (barAt bars event)
      else settleInside env held acc event.settledAtMs (barAt bars event) := by
  obtain ⟨hlt, -, hlast⟩ := barAt_spec hwindow hin
  unfold settle
  rw [if_neg (not_not.mpr hin), rateOf_eq_ok hrate, bisectLeft_opens hwindow hin]
  dsimp only [bind, Except.bind]
  split
  · rename_i heq
    rw [if_pos ⟨hlt, heq⟩]
  · rw [if_neg fun h => absurd (hlast _ h.1 h.2.le) (Nat.not_succ_le_self _), Nat.add_sub_cancel]

/-- What one settlement does: it is counted once, and what is paid is taken off one bar. -/
structure Booked (charset : Parts.Charset) (bars : BarsV1) (held : List ℤ) (cost : ℚ)
    (event : FundingEventV1) (acc acc' : FundingStepsV1) : Prop where
  eventsInSpan : acc'.eventsInSpan = acc.eventsInSpan + 1
  count : ∀ kind, acc'.count kind = acc.count kind + if kindOf bars held event = kind then 1 else 0
  length : acc'.steps.length = acc.steps.length
  steps : ∀ j < bars.size, acc'.steps.getD j 0 = acc.steps.getD j 0 -
    if j + 1 < bars.size ∧ bars.openUs (j + 1) = instantUs event then
      paid bars held cost (rateValue charset event) 1 (j + 1)
    else 0

theorem positionBefore_eq (held : List ℤ) (k : ℕ) :
    (if k = 0 then 0 else held.getD (k - 1) 0) = positionBefore held k := by
  cases k with
  | zero => rfl
  | succ k => rfl

theorem getD_book {amount : ℚ} (hk : k < acc.steps.length) :
    (acc.book .exact (k + 1) amount).steps.getD j 0 =
      acc.steps.getD j 0 - if j = k then amount else 0 := by
  simp only [FundingStepsV1.book, Nat.add_sub_cancel, List.getD_eq_getElem?_getD,
    List.getElem?_modify]
  split
  · rename_i heq
    subst heq
    simp [hk, Context.sub]
  · rename_i hne
    rw [if_neg (Ne.symm hne), sub_zero, id_map']

theorem unchangedPay_eq (hopen : bars.openD k ≠ 0) :
    unchangedPay .exact bars (k + 1) (positionBefore held (k + 1)) rate =
      .ok (carriedPays bars held rate 1 (k + 1)) := by
  unfold unchangedPay perOpenBefore carriedPays
  rw [Nat.add_sub_cancel, if_neg hopen]
  simp only [Context.div, Context.mul, Context.round_exact]
  congr 1
  ring

theorem payBefore_eq (hopen : bars.openD k ≠ 0) :
    payBefore .exact bars (k + 1) (positionBefore held (k + 1)) rate =
      .ok (carriedPays bars held rate 1 (k + 1)) := by
  unfold payBefore
  split
  · rename_i hnone
    rw [carriedPays, hnone]
    simp
  · exact unchangedPay_eq hopen

theorem payAfter_eq :
    payAfter .exact (held.getD (k + 1) 0) rate (1 + strategyStep bars held cost k) =
      takenPays bars held cost rate 1 (k + 1) := by
  unfold payAfter takenPays
  split
  · rename_i hnone
    rw [hnone]
    simp
  · simp only [Context.mul, Context.round_exact, Nat.add_sub_cancel]
    ring

theorem growth_eq (hopen : bars.openD k ≠ 0) (hk : k + 1 < bars.size) :
    growth .exact bars held cost (k + 1) = .ok (1 + strategyStep bars held cost k) := by
  have hprevious : (if 2 ≤ k + 1 then held.getD (k + 1 - 2) 0 else 0) = positionBefore held k := by
    cases k with
    | zero => rfl
    | succ k => rfl
  unfold growth perOpenBefore strategyStep StrategySdk.openMove
  rw [if_neg (Nat.succ_ne_zero k), hprevious, Nat.add_sub_cancel, if_neg hopen, if_pos hk]
  simp only [bind, Except.bind, pure, Except.pure, Context.div, Context.mul, Context.add,
    Context.sub, Context.round_exact]
  push_cast
  rfl

variable (held) in
theorem kindOf_open (hat : bars.openUs (barAt bars event) = instantUs event) :
    kindOf bars held event =
      if positionBefore held (barAt bars event) = 0 ∧ held.getD (barAt bars event) 0 = 0 then .flat
      else if positionBefore held (barAt bars event) = held.getD (barAt bars event) 0 then .charged
      else .ambiguous := by
  unfold kindOf
  simp [hat, and_comm]

variable (held) in
theorem kindOf_inside (hat : bars.openUs (barAt bars event) ≠ instantUs event) :
    kindOf bars held event =
      if held.getD (barAt bars event) 0 = 0 then .flat else .notCostable := by
  unfold kindOf
  simp [hat]

theorem eq_barAt (hwindow : bars.Window) (hin : InSpan bars event) (hk : k < bars.size)
    (hat : bars.openUs k = instantUs event) : k = barAt bars event := by
  obtain ⟨hlt, hopen, hlast⟩ := barAt_spec hwindow hin
  refine le_antisymm (hlast k hk hat.le) (not_lt.mp fun h => ?_)
  exact absurd (hwindow.opens _ _ h hlt) (hat ▸ hopen).not_gt

theorem paid_eq_zero (hbefore : positionBefore held k = 0) (hafter : held.getD k 0 = 0) :
    paid bars held cost rate equity k = 0 := by
  unfold paid carriedPays
  rw [if_pos (hbefore.trans hafter.symm), hbefore]
  simp

theorem Booked.flat (hwindow : bars.Window) (hin : InSpan bars event)
    (hkind : kindOf bars held event = .flat)
    (hzero : bars.openUs (barAt bars event) = instantUs event →
      positionBefore held (barAt bars event) = 0 ∧ held.getD (barAt bars event) 0 = 0) :
    Booked charset bars held cost event acc
      { acc with eventsInSpan := acc.eventsInSpan + 1, flat := acc.flat + 1 } := by
  refine ⟨rfl, fun kind => ?_, rfl, fun j hj => ?_⟩
  · rw [hkind]
    cases kind <;> simp [FundingStepsV1.count]
  · rw [ite_eq_right_iff.mpr ?_, sub_zero]
    rintro ⟨hnext, hat⟩
    have hbar := eq_barAt hwindow hin hnext hat
    rw [hbar] at hat ⊢
    exact paid_eq_zero (hzero hat).1 (hzero hat).2

theorem Booked.of_book {acc' : FundingStepsV1} {amount : ℚ} (hwindow : bars.Window)
    (hin : InSpan bars event) (hlength : acc.steps.length = bars.size)
    (hbar : barAt bars event = k + 1) (hat : bars.openUs (barAt bars event) = instantUs event)
    (hamount : paid bars held cost (rateValue charset event) 1 (k + 1) = amount)
    (hspan : acc'.eventsInSpan = acc.eventsInSpan + 1)
    (hcount : ∀ kind,
      acc'.count kind = acc.count kind + if kindOf bars held event = kind then 1 else 0)
    (hsteps : acc'.steps = (acc.book .exact (k + 1) amount).steps) :
    Booked charset bars held cost event acc acc' := by
  have hk : k + 1 < bars.size := hbar ▸ (barAt_spec hwindow hin).1
  refine ⟨hspan, hcount, ?_, fun j hj => ?_⟩
  · rw [hsteps, FundingStepsV1.book, List.length_modify]
  · rw [hsteps, getD_book (by omega), ← hamount]
    by_cases hjk : j = k
    · subst hjk
      rw [if_pos rfl, if_pos ⟨hk, hbar ▸ hat⟩]
    · rw [if_neg hjk, if_neg]
      rintro ⟨hnext, hother⟩
      have heq := eq_barAt hwindow hin hnext hother
      omega

theorem settleAtOpen_booked (hwindow : bars.Window) (hin : InSpan bars event)
    (hopens : ∀ i < bars.size, bars.openD i ≠ 0) (hlength : acc.steps.length = bars.size)
    (hat : bars.openUs (barAt bars event) = instantUs event)
    (hstart : barAt bars event = 0 → held.getD 0 0 = 0) :
    ∃ acc', settleAtOpen .exact bars held cost { acc with eventsInSpan := acc.eventsInSpan + 1 }
        (rateValue charset event) (barAt bars event) = .ok acc' ∧
      Booked charset bars held cost event acc acc' := by
  obtain ⟨hlt, -, -⟩ := barAt_spec hwindow hin
  have hkind := kindOf_open held hat
  unfold settleAtOpen
  dsimp only
  rw [positionBefore_eq, if_neg fun h => h.2 (by rw [h.1]; exact hstart h.1)]
  split
  · rename_i hflat
    rw [if_pos hflat] at hkind
    exact ⟨_, rfl, .flat hwindow hin hkind fun _ => hflat⟩
  · rename_i hheld
    rw [if_neg hheld] at hkind
    -- a position before or after the open: the bar is not the first
    obtain ⟨k, hbar⟩ : ∃ k, barAt bars event = k + 1 := by
      refine Nat.exists_eq_succ_of_ne_zero fun hzero => hheld ?_
      rw [hzero]
      exact ⟨rfl, hstart hzero⟩
    have hopen : bars.openD k ≠ 0 := hopens k (by omega)
    split
    · rename_i hsame
      rw [if_pos hsame] at hkind
      rw [hbar] at hsame ⊢
      rw [unchangedPay_eq hopen]
      refine ⟨_, rfl, .of_book hwindow hin hlength hbar hat (if_pos hsame) rfl ?_ rfl⟩
      intro kind
      rw [hkind]
      cases kind <;> simp [FundingStepsV1.count, FundingStepsV1.book]
    · rename_i hchange
      rw [if_neg hchange] at hkind
      rw [hbar] at hchange ⊢
      rw [payBefore_eq hopen, growth_eq hopen (hbar ▸ hlt)]
      dsimp only [bind, Except.bind, pure, Except.pure]
      rw [payAfter_eq]
      refine ⟨_, rfl, .of_book hwindow hin hlength hbar hat (if_neg hchange) rfl ?_ rfl⟩
      intro kind
      rw [hkind]
      cases kind <;> simp [FundingStepsV1.count, FundingStepsV1.book]

theorem settleInside_booked {env : ForwardFunding.Env} {text : String} (hwindow : bars.Window)
    (hin : InSpan bars event) (hat : bars.openUs (barAt bars event) ≠ instantUs event)
    (htext : ForwardFunding.isoMs env event.settledAtMs = .ok text) :
    ∃ acc', settleInside env held { acc with eventsInSpan := acc.eventsInSpan + 1 }
        event.settledAtMs (barAt bars event) = .ok acc' ∧
      Booked charset bars held cost event acc acc' := by
  have hkind := kindOf_inside held hat
  unfold settleInside
  split
  · rename_i hflat
    rw [if_pos hflat] at hkind
    exact ⟨_, rfl, .flat hwindow hin hkind fun h => absurd h hat⟩
  · rename_i hheld
    rw [if_neg hheld] at hkind
    rw [htext]
    refine ⟨_, rfl, rfl, fun kind => ?_, rfl, fun j hj => ?_⟩
    · rw [hkind]
      cases kind <;> simp [FundingStepsV1.count]
    · rw [if_neg, sub_zero]
      rintro ⟨hnext, hother⟩
      rw [eq_barAt hwindow hin hnext hother] at hother
      exact hat hother

variable (charset cost) in
theorem settle_booked {env : ForwardFunding.Env} {text : String} (hwindow : bars.Window)
    (hin : InSpan bars event) (hopens : ∀ i < bars.size, bars.openD i ≠ 0)
    (hlength : acc.steps.length = bars.size)
    (hrate : ForwardFunding.isRateText event.rateText = true)
    (htext : ForwardFunding.isoMs env event.settledAtMs = .ok text)
    (hstart : held.getD 0 0 = 0 ∨ instantUs event ≠ bars.openUs 0) :
    ∃ acc', settle .exact charset env bars held cost acc event = .ok acc' ∧
      Booked charset bars held cost event acc acc' := by
  rw [settle_eq hwindow hin hrate]
  dsimp only
  split
  · rename_i hat
    refine settleAtOpen_booked hwindow hin hopens hlength hat fun hzero => ?_
    rw [hzero] at hat
    exact hstart.resolve_right fun h => h hat.symm
  · rename_i hat
    exact settleInside_booked hwindow hin hat htext

end Settlement

/-! ## All settlements -/

section Run

/-- What a run over records does: each settlement inside the span is counted once, and what is
paid at an open is taken off the bar before. -/
structure BookedAll (charset : Parts.Charset) (bars : BarsV1) (held : List ℤ) (cost : ℚ)
    (events : List FundingEventV1) (acc result : FundingStepsV1) : Prop where
  eventsInSpan : result.eventsInSpan =
    acc.eventsInSpan + (events.filter fun event => InSpan bars event).length
  count : ∀ kind, result.count kind = acc.count kind +
    (events.filter fun event => InSpan bars event).countP fun event => kindOf bars held event = kind
  length : result.steps.length = acc.steps.length
  steps : ∀ j < bars.size, result.steps.getD j 0 = acc.steps.getD j 0 -
    ((events.filter fun event => InSpan bars event).map fun event =>
      if j + 1 < bars.size ∧ bars.openUs (j + 1) = instantUs event then
        paid bars held cost (rateValue charset event) 1 (j + 1)
      else 0).sum

theorem BookedAll.cons {events : List FundingEventV1} {acc' result : FundingStepsV1}
    (hin : InSpan bars event) (h : Booked charset bars held cost event acc acc')
    (hall : BookedAll charset bars held cost events acc' result) :
    BookedAll charset bars held cost (event :: events) acc result := by
  have hfilter : (event :: events).filter (fun event => InSpan bars event) =
      event :: events.filter fun event => InSpan bars event :=
    List.filter_cons_of_pos (decide_eq_true hin)
  refine ⟨?_, fun kind => ?_, hall.length.trans h.length, fun j hj => ?_⟩
  · rw [hall.eventsInSpan, h.eventsInSpan, hfilter, List.length_cons]
    omega
  · rw [hall.count, h.count, hfilter, List.countP_cons]
    simp only [decide_eq_true_eq]
    omega
  · rw [hall.steps j hj, h.steps j hj, hfilter, List.map_cons, List.sum_cons]
    ring

variable (charset cost) in
theorem foldlM_settle {env : ForwardFunding.Env} (hwindow : bars.Window)
    (hopens : ∀ i < bars.size, bars.openD i ≠ 0) {events : List FundingEventV1}
    (hrecords : ∀ event ∈ events, ForwardFunding.isRateText event.rateText = true ∧
      ∃ text, ForwardFunding.isoMs env event.settledAtMs = .ok text)
    (hstart : ∀ event ∈ events, held.getD 0 0 = 0 ∨ instantUs event ≠ bars.openUs 0)
    (hlength : acc.steps.length = bars.size) :
    ∃ result, events.foldlM (settle .exact charset env bars held cost) acc = .ok result ∧
      BookedAll charset bars held cost events acc result := by
  induction events generalizing acc with
  | nil => exact ⟨acc, rfl, rfl, fun _ => rfl, rfl, fun j _ => (sub_zero _).symm⟩
  | cons event events ih =>
      obtain ⟨hrate, text, htext⟩ := hrecords event List.mem_cons_self
      have hrest := fun other hother => hrecords other (List.mem_cons_of_mem event hother)
      have hstartRest := fun other hother => hstart other (List.mem_cons_of_mem event hother)
      rw [List.foldlM_cons]
      by_cases hin : InSpan bars event
      · obtain ⟨acc', hsettle, hbooked⟩ := settle_booked charset cost hwindow hin hopens
          hlength hrate htext (hstart event List.mem_cons_self)
        obtain ⟨result, hrun, hall⟩ := ih hrest hstartRest (hbooked.length.trans hlength)
        rw [hsettle]
        exact ⟨result, hrun, .cons hin hbooked hall⟩
      · have hskip : settle .exact charset env bars held cost acc event = .ok acc := if_pos hin
        obtain ⟨result, hrun, hall⟩ := ih hrest hstartRest hlength
        rw [hskip]
        refine ⟨result, hrun, ?_⟩
        have hfilter : (event :: events).filter (fun event => InSpan bars event) =
            events.filter fun event => InSpan bars event :=
          List.filter_cons_of_neg fun h => hin (of_decide_eq_true h)
        constructor
        · rw [hfilter]
          exact hall.eventsInSpan
        · rw [hfilter]
          exact hall.count
        · exact hall.length
        · rw [hfilter]
          exact hall.steps

variable (bars held) in
theorem countP_kinds (l : List FundingEventV1) :
    (l.countP fun event => kindOf bars held event = .charged) +
      (l.countP fun event => kindOf bars held event = .flat) +
      (l.countP fun event => kindOf bars held event = .ambiguous) +
      (l.countP fun event => kindOf bars held event = .notCostable) = l.length := by
  induction l with
  | nil => rfl
  | cons event l ih =>
      simp only [List.countP_cons, List.length_cons]
      cases kindOf bars held event <;> simp <;> omega

theorem paid_eq_mul (hequity : 0 ≤ equity) :
    paid bars held cost rate equity k = equity * paid bars held cost rate 1 k := by
  have hcarried : carriedPays bars held rate equity k =
      equity * carriedPays bars held rate 1 k := by
    unfold carriedPays
    ring
  have htaken : takenPays bars held cost rate equity k =
      equity * takenPays bars held cost rate 1 k := by
    unfold takenPays
    ring
  unfold paid
  rw [hcarried, htaken]
  split
  · rfl
  · exact (mul_max_of_nonneg _ _ hequity).symm

theorem paidAt_eq_mul {history : FundingHistoryV1} (hequity : 0 ≤ equity) :
    paidAt charset bars held cost equity history k =
      equity * paidAt charset bars held cost 1 history k := by
  unfold paidAt
  rw [← List.sum_map_mul_left]
  congr 1
  refine List.map_congr_left fun event _ => ?_
  split
  · exact paid_eq_mul hequity
  · exact (mul_zero equity).symm

variable {env : Env} {symbol : String} {first last : Date}
  {pages : List (String × ForwardFunding.Bytes)} {history : FundingHistoryV1}
  {targets : ℕ → ℤ} {lagUs : ℤ}

/-- Settled funding of a held sequence, in a window whose opens are not zero: where no decision
is due before the first open, or nothing is settled at it, every settlement of the span is
counted once, by its kind, and any equity pays at each open what the positions there owe. -/
theorem fundingStepsV1_paid (hwindow : bars.Window) (hopens : ∀ i < bars.size, bars.openD i ≠ 0)
    (hheld : heldPositionsV1 bars targets lagUs = .ok held)
    (hhistory : build env symbol first last pages = .ok history)
    (hstart : NoneDueEarly bars lagUs ∨
      ∀ event ∈ history.events, instantUs event ≠ bars.openUs 0) :
    ∃ result, fundingStepsV1 .exact charset env.evidence bars held cost history = .ok result ∧
      result.eventsInSpan = (settlements bars history).length ∧
      (∀ kind, result.count kind =
        (settlements bars history).countP fun event => kindOf bars held event = kind) ∧
      result.charged + result.flat + result.ambiguousWorseCharged + result.notCostable.length =
        result.eventsInSpan ∧
      ∀ j < bars.size, ∀ equity, 0 ≤ equity →
        equity * (1 + strategyStep bars held cost j + result.steps.getD j 0) =
          equity * (1 + strategyStep bars held cost j) -
            paidAt charset bars held cost equity history (j + 1) := by
  have hlength := StrategySdk.heldPositionsV1_length hheld
  have hfirst : ∀ event ∈ history.events,
      held.getD 0 0 = 0 ∨ instantUs event ≠ bars.openUs 0 := by
    intro event hevent
    rcases hstart with hdue | hnone
    · exact .inl (StrategySdk.heldPositionsV1_first hwindow hheld hdue)
    · exact .inr (hnone event hevent)
  obtain ⟨result, hrun, hall⟩ := foldlM_settle charset cost hwindow hopens
    (fun event hevent => events_of_build hhistory hevent) hfirst
    (show (FundingStepsV1.mk (List.replicate bars.size 0) 0 0 0 0 []).steps.length = bars.size from
      List.length_replicate)
  have hspan : result.eventsInSpan = (settlements bars history).length :=
    hall.eventsInSpan.trans (Nat.zero_add _)
  have hcount : ∀ kind, result.count kind =
      (settlements bars history).countP fun event => kindOf bars held event = kind := by
    intro kind
    rw [hall.count kind]
    cases kind <;> exact Nat.zero_add _
  refine ⟨result, ?_, hspan, hcount, ?_, fun j hj equity hequity => ?_⟩
  · unfold fundingStepsV1
    rw [if_neg (not_not.mpr hlength), if_neg hwindow.pos.ne']
    exact hrun
  · rw [hspan, ← countP_kinds bars held, ← hcount, ← hcount, ← hcount,
      ← hcount]
    rfl
  · have hsteps : result.steps.getD j 0 = -paidAt charset bars held cost 1 history (j + 1) := by
      rw [hall.steps j hj]
      simp [hj, paidAt, settlements]
    rw [hsteps, paidAt_eq_mul hequity]
    ring

end Run

/-! ### Half a day of funding at the open of a bar -/

namespace Crossing

open FundingCompleteness
open StrategySdk (sampleBars)

def ascii : Parts.Charset := ⟨fun _ => false, fun _ => none, fun _ _ => rfl⟩

def fiveBars : BarsV1 := sampleBars [-6, -4, -2, 0, 2] [-5, -3, -1, 1, 3] []

theorem fiveBars_window : fiveBars.Window := by
  refine ⟨by decide, fun i j hij hj => ?_⟩
  change j < 5 at hj
  interval_cases j <;> interval_cases i <;> decide

theorem fiveBars_noneDueEarly : NoneDueEarly fiveBars 0 := by
  intro i hi
  change i < 5 at hi
  interval_cases i <;> decide

theorem paidAt_fiveBars :
    paidAt ascii fiveBars [0, 1, 1, 1, 0] (1 / 1000) 1 Settled.history 3 = 1 / 10 := by
  decide +kernel

def earlyBars : BarsV1 := sampleBars [0, 60] [-5, 120] []

theorem earlyBars_window : earlyBars.Window := by
  refine ⟨by decide, fun i j hij hj => ?_⟩
  change j < 2 at hj
  obtain ⟨rfl, rfl⟩ : i = 0 ∧ j = 1 := by omega
  decide

def worthlessBars : BarsV1 := { fiveBars with openD := 0 }

end Crossing

open Crossing FundingCompleteness in
/-- The position carried over the settlement pays a tenth of the equity. -/
theorem fundingStepsV1_paid_carried :
    ∃ result, fundingStepsV1 .exact ascii Settled.codec.evidence fiveBars [0, 1, 1, 1, 0]
        (1 / 1000) Settled.history = .ok result ∧
      result.charged = 1 ∧ result.steps.getD 2 0 = -(1 / 10) := by
  obtain ⟨result, hrun, -, hcount, -, hpaid⟩ := @fundingStepsV1_paid ascii fiveBars _
    (1 / 1000) _ _ _ _ _ _ (fun _ => 1) 0 fiveBars_window (fun _ _ => one_ne_zero)
    (show heldPositionsV1 fiveBars (fun _ => 1) 0 = .ok [0, 1, 1, 1, 0] by decide +kernel)
    Settled.build_eq (.inl fiveBars_noneDueEarly)
  refine ⟨result, hrun, ?_, ?_⟩
  · have hcharged := hcount .charged
    rwa [show ((settlements fiveBars Settled.history).countP fun event =>
      kindOf fiveBars [0, 1, 1, 1, 0] event = .charged) = 1 by decide +kernel] at hcharged
  · have hone := hpaid 2 (by decide) 1 zero_le_one
    rw [paidAt_fiveBars] at hone
    linarith

open Crossing FundingCompleteness in
/-- A decision that is due before the first open is held over the first bar, and a settlement
at that open is refused; at a price of zero there is nothing to divide by. -/
theorem fundingStepsV1_raises :
    (earlyBars.Window ∧ heldPositionsV1 earlyBars (fun _ => 1) 2 = .ok [1, 0] ∧
      fundingStepsV1 .exact ascii Settled.codec.evidence earlyBars [1, 0] 0 Settled.history =
        refuse "position_at_the_first_bar_cannot_be_funded_exactly") ∧
    (worthlessBars.Window ∧
      heldPositionsV1 worthlessBars (fun _ => 1) 0 = .ok [0, 1, 1, 1, 0] ∧
      fundingStepsV1 .exact ascii Settled.codec.evidence worthlessBars [0, 1, 1, 1, 0] 0
        Settled.history = .error .arithmeticError) :=
  ⟨⟨earlyBars_window, by decide +kernel, by decide +kernel⟩,
    ⟨⟨fiveBars_window.pos, fiveBars_window.opens⟩, by decide +kernel, by decide +kernel⟩⟩

end FundingHistory

end TradePlatform
