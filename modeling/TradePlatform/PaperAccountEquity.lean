/-
# `TradePlatform.PaperAccountEquity` — where the equity of a ledger comes from

The loop books a realized amount when a position is closed and only a fee when one is
opened.  In exact arithmetic the two agree with the cash that went in and out: at every
event, what is realized is what the open positions cost, less the signed cost of all legs
executed so far, less their fees.  The final equity follows, with the open positions at
their latest marks.
-/
import TradePlatform.PaperAccountSteps

namespace TradePlatform

/-! ## Cash flows -/

def LedgerOrder.executedLegs (o : LedgerOrder) : List (Decimal × Decimal) :=
  match o.decision with
  | .filled _ price _ legs => legs.map fun leg => (leg.quantity, price)
  | _ => []

def signedCost (legs : List (Decimal × Decimal)) : Decimal :=
  (legs.map fun leg => leg.1 * leg.2).sum

/-- The fees of the legs, at so many bps of their notional: the absolute quantity, at the
fill price. -/
def legFees (bps : Decimal) (legs : List (Decimal × Decimal)) : Decimal :=
  (legs.map fun leg => |leg.1| * leg.2 * bps / 10000).sum

@[simp] theorem signedCost_append (legs legs' : List (Decimal × Decimal)) :
    signedCost (legs ++ legs') = signedCost legs + signedCost legs' := by
  simp [signedCost]

@[simp] theorem legFees_append (bps : Decimal) (legs legs' : List (Decimal × Decimal)) :
    legFees bps (legs ++ legs') = legFees bps legs + legFees bps legs' := by
  simp [legFees]

def LedgerEvent.mark? (e : LedgerEvent) : Option Mark :=
  match e.kind with
  | .decision => none
  | .execution =>
      if e.fill.Filled then e.fill.fillPrice.map fun price => ⟨e.instant, e.fill.symbol, price⟩
      else none

def latestPrice (marks : List Mark) (symbol : String) : Option Decimal :=
  ((marks.filter fun m => decide (m.symbol = symbol)).getLast?).map Mark.price

def openValue (mark : String → Option Decimal) (positions : List OpenPosition) : Decimal :=
  (positions.map fun p => p.quantity * (mark p.symbol).getD p.entryPrice).sum

def cashFlowEquity (ledger : LedgerIdentity) (bps : Decimal) (mark : String → Option Decimal) :
    Decimal :=
  ledger.startingCapital - signedCost (ledger.orders.flatMap LedgerOrder.executedLegs)
    - legFees bps (ledger.orders.flatMap LedgerOrder.executedLegs)
    + openValue mark ledger.openPositions

def inMoney (value : Decimal) : Decimal := (Decimal.roundHalfEven (value * 10 ^ 8) : ℚ) / 10 ^ 8

theorem moneyText_exact (value : Decimal) : moneyText .exact value = .ok (inMoney value) := by
  rw [moneyText, Decimal.Arithmetic.quantize_exact]
  rfl

namespace LedgerState

variable {t : AccountTerms} {signals : Dict String SignalIdentity} {s s' : LedgerState}
  {fill : PaperFillV1} {key : StudyTrial} {legs : List (Decimal × Decimal)}

/-! ## What the open positions cost -/

def entryValue (s : LedgerState) : Decimal :=
  (s.positions.rows.map fun item => item.2.quantity * item.2.entryPrice).sum

theorem entryValue_set {r : LedgerState} {pos : AccountPosition}
    (h : r.positions = s.positions.set key pos) :
    r.entryValue = s.entryValue + pos.quantity * pos.entryPrice
      - (s.position key).quantity * (s.position key).entryPrice := by
  rw [entryValue, h, Dict.sum_set, entryValue, position, Dict.getD]
  cases s.positions.get? key with
  | none => simp [AccountPosition.flat]
  | some held => rfl

theorem entryValue_meet (a : Decimal.Arithmetic) (e : LedgerEvent) :
    (s.meet a t e).entryValue = s.entryValue := by
  rw [entryValue, positions_meet, Dict.setdefault]
  split
  · rfl
  · rename_i h
    have hnone : s.positions.get? e.fill.key = none := by simpa using h
    rw [Dict.sum_set, hnone]
    simp [entryValue, AccountPosition.flat]

/-! ## The books -/

/-- What is realized in every scenario is what the open positions cost, less what the legs
took and their fees. -/
def Balanced (t : AccountTerms) (s : LedgerState) (legs : List (Decimal × Decimal)) : Prop :=
  ∀ scenario ∈ t.scenarios.rows, s.realized.getD scenario.1 0 =
    s.entryValue - signedCost legs - legFees scenario.2 legs

def executedLegs (s : LedgerState) : List (Decimal × Decimal) :=
  s.orders.flatMap LedgerOrder.executedLegs

/-- The invariant of the books: a flat key holds nothing, and the realized amounts are
balanced. -/
structure Books (t : AccountTerms) (s : LedgerState) : Prop where
  flat : ∀ key, (s.position key).units = 0 → (s.position key).quantity = 0
  balanced : s.Balanced t s.executedLegs

def OpensTargets (s : LedgerState) : Prop :=
  ∀ id item, s.pending.get? id = some item → item.approvedOpen = true → item.desired ≠ 0

theorem getD_book (s : LedgerState) (f : Decimal → Decimal → Decimal)
    {scenario : String × Decimal} (h : scenario ∈ t.scenarios.rows) :
    (s.book t f).getD scenario.1 0 = f scenario.2 (s.realized.getD scenario.1 0) :=
  Dict.getD_foldl f t.scenarios.nodup h

/-- Moving a position keeps the balance when what is booked is the new cost of the position
less its old one, less what the new legs took and their fees. -/
theorem Balanced.move {r : LedgerState} {pos : AccountPosition} {new : List (Decimal × Decimal)}
    (hs : s.Balanced t legs) (hpositions : r.positions = s.positions.set key pos)
    (hrealized : ∀ scenario ∈ t.scenarios.rows, r.realized.getD scenario.1 0 =
      s.realized.getD scenario.1 0 + pos.quantity * pos.entryPrice
        - (s.position key).quantity * (s.position key).entryPrice
        - signedCost new - legFees scenario.2 new) :
    r.Balanced t (legs ++ new) := by
  intro scenario hscenario
  rw [hrealized scenario hscenario, hs scenario hscenario, entryValue_set hpositions,
    signedCost_append, legFees_append]
  ring

/-- The executed legs that an execution at `price` records. -/
def legsAt (price : Decimal) (legs : List Leg) : List (Decimal × Decimal) :=
  legs.map fun leg => (leg.quantity, price)

/-- What closing does to the books: it writes the gain of the position off against the
cash that the close leg brings in. -/
theorem closeHeld_books {price : Decimal} {closed : Booked}
    (h : s.closeHeld .exact t key price = .ok closed) (hs : s.Books t) :
    closed.state.orders = s.orders ∧
      (∀ j, (closed.state.position j).units = 0 → (closed.state.position j).quantity = 0) ∧
      (closed.state.position key).quantity = 0 ∧
      closed.state.Balanced t (s.executedLegs ++ legsAt price closed.legs) := by
  rcases closeHeld_cases h with ⟨hunits, rfl⟩ | ⟨_, notional, rfl⟩
  · refine ⟨rfl, hs.flat, hs.flat key hunits, ?_⟩
    rw [legsAt, List.map_nil, List.append_nil]
    exact hs.balanced
  · refine ⟨rfl, ?_, ?_, ?_⟩
    · intro j
      simp only [position, Dict.getD, Dict.get?_set]
      split
      · exact fun _ => rfl
      · exact hs.flat j
    · simp [position, Dict.getD, AccountPosition.flat]
    · refine hs.balanced.move rfl fun scenario hscenario => ?_
      dsimp only
      rw [getD_book s _ hscenario]
      simp only [legsAt, text, List.map_cons, List.map_nil, signedCost, legFees, List.sum_cons,
        List.sum_nil, AccountPosition.flat, Decimal.Arithmetic.add_exact,
        Decimal.Arithmetic.sub_exact, Decimal.Arithmetic.mul_exact, Decimal.Arithmetic.div_exact,
        Decimal.Arithmetic.neg_exact, Decimal.Arithmetic.abs_exact,
        Decimal.Arithmetic.round_exact, abs_neg]
      ring

theorem openApproved_books {item : PendingOrder} {quantity price : Decimal} {opened : Booked}
    (h : s.openApproved .exact t item key quantity price = .ok opened)
    (hflat : ∀ j, (s.position j).units = 0 → (s.position j).quantity = 0)
    (hheld : (s.position key).quantity = 0) (hdesired : item.desired ≠ 0)
    (hs : s.Balanced t legs) :
    opened.state.orders = s.orders ∧
      (∀ j, (opened.state.position j).units = 0 → (opened.state.position j).quantity = 0) ∧
      opened.state.Balanced t (legs ++ legsAt price opened.legs) := by
  obtain ⟨notional, rfl⟩ := openApproved_eq h
  refine ⟨rfl, ?_, ?_⟩
  · intro j
    simp only [position, Dict.getD, Dict.get?_set]
    split
    · exact fun hunits => absurd hunits hdesired
    · exact hflat j
  · refine hs.move rfl fun scenario hscenario => ?_
    dsimp only
    rw [getD_book s _ hscenario]
    simp only [legsAt, text, List.map_cons, List.map_nil, signedCost, legFees, List.sum_cons,
      List.sum_nil, hheld, Decimal.Arithmetic.sub_exact, Decimal.Arithmetic.mul_exact,
      Decimal.Arithmetic.div_exact, Decimal.Arithmetic.abs_exact, Decimal.Arithmetic.round_exact]
    ring

theorem Books.congr {r : LedgerState} (hs : s.Books t) (hpositions : r.positions = s.positions)
    (hrealized : r.realized = s.realized) (hlegs : r.executedLegs = s.executedLegs) :
    r.Books t := by
  refine ⟨fun key => ?_, fun scenario hscenario => ?_⟩
  · rw [position, hpositions]
    exact hs.flat key
  · rw [hrealized, entryValue, hpositions, hlegs]
    exact hs.balanced scenario hscenario

theorem executedLegs_record (order : AccountOrder) (decision : FilledDecision) (price : Decimal)
    (barOpen : ℤ) (legs : List Leg) :
    (s.record .exact order decision price barOpen legs).executedLegs =
      s.executedLegs ++ legsAt price legs := by
  simp [record, executedLegs, LedgerOrder.executedLegs, legsAt, text]

theorem books_record {r : LedgerState} {order : AccountOrder} {decision : FilledDecision}
    {price : Decimal} {barOpen : ℤ} {legs : List Leg} (horders : r.orders = s.orders)
    (hflat : ∀ key, (r.position key).units = 0 → (r.position key).quantity = 0)
    (hbalanced : r.Balanced t (s.executedLegs ++ legsAt price legs)) :
    (r.record .exact order decision price barOpen legs).Books t := by
  refine ⟨hflat, ?_⟩
  rw [executedLegs_record, executedLegs, horders]
  exact hbalanced

theorem execute_books {item : PendingOrder} (h : s.execute .exact t fill item key = .ok s')
    (hs : s.Books t) (hdesired : item.approvedOpen = true → item.desired ≠ 0) : s'.Books t := by
  rcases execute_cases h with ⟨_, rfl⟩ | ⟨_, price, closed, quantity, barOpen, _, hclosed, h⟩
  · refine hs.congr rfl rfl ?_
    simp [executedLegs, LedgerOrder.executedLegs]
  · obtain ⟨horders, hflat, hheld, hbalanced⟩ := closeHeld_books hclosed hs
    rcases h with rfl | ⟨happroved, opened, hopened, rfl⟩ | ⟨_, rfl⟩
    · exact books_record horders hflat hbalanced
    · obtain ⟨horders', hflat', hbalanced'⟩ :=
        openApproved_books hopened hflat hheld (hdesired happroved) hbalanced
      refine books_record (horders'.trans horders) hflat' ?_
      rw [legsAt, List.map_append, ← List.append_assoc]
      exact hbalanced'
    · exact books_record horders hflat hbalanced

theorem books_meet (a : Decimal.Arithmetic) (e : LedgerEvent) (hs : s.Books t) :
    (s.meet a t e).Books t := by
  refine ⟨fun key => ?_, fun scenario hscenario => ?_⟩
  · rw [position_meet]
    exact hs.flat key
  · rw [realized_meet, entryValue_meet, executedLegs, orders_meet]
    exact hs.balanced scenario hscenario

theorem books_step {e : LedgerEvent} (h : s.step .exact t signals e = .ok s') (hs : s.Books t)
    (hopens : s.OpensTargets) : s'.Books t := by
  have hmet : (s.meet .exact t e).Books t := books_meet _ e hs
  rcases step_cases h with ⟨_, h⟩ | ⟨_, h⟩
  · obtain ⟨executed, hexec, h⟩ := executionEvent_cases h
    have hexecuted : executed.Books t := by
      rcases executePending_cases hexec with ⟨_, rfl⟩ | ⟨item, done, hitem, hdone, rfl⟩
      · exact hmet
      · rw [pending_meet] at hitem
        have hbooks := execute_books hdone (hmet.congr rfl rfl rfl) (hopens _ _ hitem)
        unfold settleIntended
        split
        · exact hbooks.congr rfl rfl rfl
        · exact hbooks
    rcases h with ⟨_, rfl⟩ | ⟨_, price, _, rfl⟩
    · exact hexecuted.congr rfl rfl rfl
    · exact hexecuted.congr rfl rfl rfl
  · rcases decisionEvent_cases h with ⟨_, rfl⟩ | ⟨_, h⟩
    · refine hmet.congr rfl rfl ?_
      simp [executedLegs, LedgerOrder.executedLegs]
    · obtain ⟨_, _, _, _, ⟨_, _, reasons, rfl⟩ | ⟨_, item, _, rfl⟩⟩ := decideOrder_cases h
      · refine hmet.congr rfl rfl ?_
        simp [executedLegs, LedgerOrder.executedLegs]
      · exact hmet.congr rfl rfl rfl

theorem opensTargets_step {a : Decimal.Arithmetic} {e : LedgerEvent}
    (h : s.step a t signals e = .ok s') (hs : s.OpensTargets) : s'.OpensTargets := by
  intro id item hitem
  rcases pending_step h hitem with hold | ⟨_, hnew⟩
  · exact hs id item hold
  · exact hnew.desired

theorem books_initial (t : AccountTerms) : (initial t).Books t := by
  refine ⟨fun _ _ => rfl, fun scenario hscenario => ?_⟩
  have hzero : (initial t).realized.getD scenario.1 0 = 0 :=
    Dict.getD_foldl (fun _ _ => 0) t.scenarios.nodup hscenario
  rw [hzero]
  simp [entryValue, executedLegs, initial, signedCost, legFees, Dict.empty]

/-! ## Marks -/

theorem marks_step {a : Decimal.Arithmetic} {e : LedgerEvent}
    (h : s.step a t signals e = .ok s') : s'.marks = s.marks ++ e.mark?.toList := by
  rw [← marks_meet a t s e, LedgerEvent.mark?]
  rcases step_cases h with ⟨hkind, h⟩ | ⟨hkind, h⟩
  · obtain ⟨executed, hexec, h⟩ := executionEvent_cases h
    have hmarks : executed.marks = (s.meet a t e).marks := by
      rcases executePending_cases hexec with ⟨_, rfl⟩ | ⟨item, done, _, hdone, rfl⟩
      · rfl
      · obtain ⟨_, _, _, _, _, rfl⟩ := execute_frame hdone
        unfold settleIntended
        split <;> rfl
    rcases h with ⟨hfilled, rfl⟩ | ⟨hfilled, price, hprice, rfl⟩
    · simp [hkind, hfilled, hmarks]
    · have hsome : e.fill.fillPrice = some price := by
        unfold PaperFillV1.price at hprice
        split at hprice
        · rename_i hsome
          cases hprice
          exact hsome
        · cases hprice
      simp [hkind, hfilled, hmarks, hsome]
  · rcases decisionEvent_cases h with ⟨_, rfl⟩ | ⟨_, h⟩
    · simp [hkind]
    · obtain ⟨_, _, _, _, ⟨_, _, _, rfl⟩ | ⟨_, _, _, rfl⟩⟩ := decideOrder_cases h <;>
        simp [hkind]

theorem marks_replay {a : Decimal.Arithmetic} {events : List LedgerEvent}
    (h : Replay.replay (fun s e => step a t signals s e) s events = .ok s') :
    s'.marks = s.marks ++ events.filterMap LedgerEvent.mark? := by
  induction events generalizing s with
  | nil =>
      cases h
      simp
  | cons e events ih =>
      obtain ⟨met, hmet, h⟩ := Except.bind_eq_ok.mp h
      rw [ih h, marks_step hmet, List.append_assoc, List.filterMap_cons]
      cases e.mark? <;> rfl

theorem latestMark_eq {marks : List Mark} {before : ℤ} (h : ∀ m ∈ marks, m.knownAt < before)
    (symbol : String) : latestMark marks symbol before = latestPrice marks symbol := by
  rw [latestMark, latestPrice]
  congr 2
  refine List.filter_congr fun m hm => ?_
  simp [h m hm]

/-! ## Equity -/

def marked (s : LedgerState) (before : ℤ) (item : StudyTrial × AccountPosition) : Decimal :=
  item.2.quantity *
    (latestMark s.marks (s.symbolOf.getD item.1 "") before).getD item.2.entryPrice

theorem quantity_eq_zero {item : StudyTrial × AccountPosition} (hs : s.Books t)
    (hitem : item ∈ s.positions.rows) (hunits : item.2.units = 0) : item.2.quantity = 0 := by
  have hposition : s.position item.1 = item.2 := by
    rw [position, Dict.getD, Dict.mem_rows.mp hitem, Option.getD_some]
  rw [← hposition]
  exact hs.flat item.1 (by rw [hposition, hunits])

theorem unrealized_exact {item : StudyTrial × AccountPosition} (before : ℤ) (total : Decimal)
    (hflat : item.2.units = 0 → item.2.quantity = 0) :
    s.unrealized .exact item.1 item.2 before total =
      total + (s.marked before item - item.2.quantity * item.2.entryPrice) := by
  unfold unrealized marked
  split
  · rename_i hunits
    rw [hflat hunits]
    ring
  · cases latestMark s.marks (s.symbolOf.getD item.1 "") before with
    | none => simp
    | some price =>
        simp only [Option.getD_some, Decimal.Arithmetic.add_exact, Decimal.Arithmetic.mul_exact,
          Decimal.Arithmetic.sub_exact]
        ring

theorem foldl_unrealized (before : ℤ) {items : List (StudyTrial × AccountPosition)}
    (hflat : ∀ item ∈ items, item.2.units = 0 → item.2.quantity = 0) (total : Decimal) :
    items.foldl (fun total item => s.unrealized .exact item.1 item.2 before total) total =
      total - (items.map fun item => item.2.quantity * item.2.entryPrice).sum
        + (items.map (s.marked before)).sum := by
  induction items generalizing total with
  | nil => simp
  | cons item items ih =>
      rw [List.foldl_cons, unrealized_exact before total (hflat item List.mem_cons_self),
        ih fun i hi => hflat i (List.mem_cons_of_mem _ hi)]
      simp only [List.map_cons, List.sum_cons]
      ring

/-- The equity: the capital and what is realized, with the positions at their marks in the
place of what they cost. -/
theorem equity_exact (hs : s.Books t) (name : String) (before : ℤ) :
    s.equity .exact t name before =
      t.capital + s.realized.getD name 0 - s.entryValue
        + (s.positions.rows.map (s.marked before)).sum :=
  foldl_unrealized before (fun _ hitem => quantity_eq_zero hs hitem) _

theorem openValue_openPositions (hs : s.Books t) {before : ℤ}
    (hbefore : ∀ m ∈ s.marks, m.knownAt < before) :
    openValue (latestPrice s.marks) (s.openPositions .exact) =
      (s.positions.rows.map (s.marked before)).sum := by
  have hopen : openValue (latestPrice s.marks) (s.openPositions .exact) =
      ((s.sortedPositions.filter fun item => decide (item.2.units ≠ 0)).map
        (s.marked before)).sum := by
    rw [openValue, openPositions, List.map_map]
    congr 1
    refine List.map_congr_left fun item _ => ?_
    simp [marked, latestMark_eq hbefore, text]
  have hperm : s.sortedPositions.Perm s.positions.rows := sortBy_perm _ _
  have hclosed : ((s.sortedPositions.filter fun item => decide ¬item.2.units ≠ 0).map
      (s.marked before)).sum = 0 := by
    refine List.sum_eq_zero fun value hvalue => ?_
    obtain ⟨item, hitem, rfl⟩ := List.mem_map.mp hvalue
    obtain ⟨hmem, hunits⟩ := List.mem_filter.mp hitem
    rw [marked, quantity_eq_zero hs (hperm.mem_iff.mp hmem) (by simpa using hunits), zero_mul]
  have hsplit := List.sum_map_filter_add_sum_map_filter_not (fun item => item.2.units ≠ 0)
    (s.marked before) s.sortedPositions
  rw [hopen, ← (hperm.map _).sum_eq, ← hsplit, hclosed, add_zero]

end LedgerState

/-! ## The ledger -/

theorem accountTerms_scenarios {a : Decimal.Arithmetic} {policy : AccountPolicyV1}
    {cost : CostPolicyV1} {t : AccountTerms} (h : accountTerms a policy cost = .ok t) :
    t.scenarios = cost.scenarios a := by
  simp only [accountTerms, Except.bind_eq_ok, Except.ok.injEq] at h
  obtain ⟨_, _, _, _, _, _, _, _, _, _, _, _, _, _, _, _, _, _, _, _, _, _, rfl⟩ := h
  rfl

theorem moneyByScenario_exact (t : AccountTerms) (value : String → Decimal) :
    LedgerState.moneyByScenario .exact t value =
      .ok (t.scenarios.rows.map fun scenario => (scenario.1, inMoney (value scenario.1))) := by
  simp only [LedgerState.moneyByScenario, moneyText_exact, Except.ok_bind]
  exact List.mapM_pure

namespace Built

variable {hash : IdentityHash LedgerIdentity} {policy : AccountPolicyV1} {fills : List PaperFillV1}
  {signals : Dict String SignalIdentity} {cost : CostPolicyV1} {asOf : ℤ}
  {ledger : PaperAccountLedger} {t : AccountTerms} {events : List LedgerEvent}
  {final : LedgerState}

theorem books (hb : Built .exact hash policy fills signals cost asOf ledger t events final) :
    final.Books t := by
  have hinitial : (LedgerState.initial t).Books t ∧ (LedgerState.initial t).OpensTargets :=
    ⟨LedgerState.books_initial t, fun _ _ h => by cases h⟩
  refine (Replay.replay_inv (P := fun s => s.Books t ∧ s.OpensTargets) ?_ hinitial hb.run).1
  rintro s e s' ⟨hbooks, hopens⟩ hstep
  exact ⟨LedgerState.books_step hstep hbooks hopens, LedgerState.opensTargets_step hstep hopens⟩

theorem marks {a : Decimal.Arithmetic}
    (hb : Built a hash policy fills signals cost asOf ledger t events final) :
    final.marks = events.filterMap LedgerEvent.mark? :=
  LedgerState.marks_replay hb.run

theorem knownAt_lt {a : Decimal.Arithmetic}
    (hb : Built a hash policy fills signals cost asOf ledger t events final) {m : Mark}
    (hm : m ∈ final.marks) : m.knownAt < cutoffOf asOf + 1 := by
  rw [hb.marks] at hm
  obtain ⟨e, he, hmark⟩ := List.mem_filterMap.mp hm
  obtain ⟨_, _, _, hinstant⟩ := mem_ledgerEvents hb.accepted he
  unfold LedgerEvent.mark? at hmark
  cases hkind : e.kind with
  | decision =>
      rw [hkind] at hmark
      cases hmark
  | execution =>
      rw [hkind] at hmark hinstant
      dsimp only at hmark hinstant
      split at hmark
      · obtain ⟨price, _, rfl⟩ := Option.map_eq_some_iff.mp hmark
        exact Int.lt_add_one_of_le hinstant.2
      · cases hmark

theorem legs_perm {a : Decimal.Arithmetic}
    (hb : Built a hash policy fills signals cost asOf ledger t events final) :
    (ledger.orders.flatMap LedgerOrder.executedLegs).Perm final.executedLegs := by
  have hpending : (final.pending.values.map fun item : PendingOrder =>
      (⟨item.order, .pendingExecution⟩ : LedgerOrder)).flatMap LedgerOrder.executedLegs = [] := by
    simp [LedgerOrder.executedLegs]
  have hall : final.allOrders.flatMap LedgerOrder.executedLegs = final.executedLegs := by
    rw [LedgerState.allOrders, List.flatMap_append, hpending, List.append_nil,
      LedgerState.executedLegs]
  rw [hb.orders, ← hall]
  exact (sortBy_perm _ _).flatMap_right _

theorem equity_eq (hb : Built .exact hash policy fills signals cost asOf ledger t events final)
    {scenario : String × Decimal} (hscenario : scenario ∈ t.scenarios.rows) :
    final.equity .exact t scenario.1 (cutoffOf asOf + 1) =
      cashFlowEquity ledger.toLedgerIdentity scenario.2
        (latestPrice (events.filterMap LedgerEvent.mark?)) := by
  have hcost : signedCost (ledger.orders.flatMap LedgerOrder.executedLegs) =
      signedCost final.executedLegs := (hb.legs_perm.map _).sum_eq
  have hfees : legFees scenario.2 (ledger.orders.flatMap LedgerOrder.executedLegs) =
      legFees scenario.2 final.executedLegs := (hb.legs_perm.map _).sum_eq
  have hvalue : openValue (latestPrice (events.filterMap LedgerEvent.mark?)) ledger.openPositions =
      (final.positions.rows.map (final.marked (cutoffOf asOf + 1))).sum := by
    rw [hb.openPositions, ← hb.marks]
    exact LedgerState.openValue_openPositions hb.books fun m hm => hb.knownAt_lt hm
  have hcapital : ledger.startingCapital = t.capital := hb.startingCapital
  rw [LedgerState.equity_exact hb.books, hb.books.balanced scenario hscenario, cashFlowEquity,
    hcost, hfees, hvalue, hcapital]
  ring

end Built

/-- In exact arithmetic the final equity of every scenario is the starting capital, less the
signed cost of the executed legs and their fees, with the open positions at their latest
known marks; the ledger holds it in money. -/
theorem final_equity_is_cash_flow {hash : IdentityHash LedgerIdentity} {policy : AccountPolicyV1}
    {fills : List PaperFillV1} {signals : Dict String SignalIdentity} {cost : CostPolicyV1}
    {asOf : ℤ} {ledger : PaperAccountLedger}
    (h : buildPaperAccountLedgerV1 .exact hash policy fills signals cost asOf = .ok ledger) :
    ∃ t events final, Built .exact hash policy fills signals cost asOf ledger t events final ∧
      t.scenarios = cost.scenarios .exact ∧
      (∀ scenario ∈ t.scenarios.rows,
        final.equity .exact t scenario.1 (cutoffOf asOf + 1) =
          cashFlowEquity ledger.toLedgerIdentity scenario.2
            (latestPrice (events.filterMap LedgerEvent.mark?))) ∧
      ledger.equityByScenario = t.scenarios.rows.map fun scenario =>
        (scenario.1, inMoney (cashFlowEquity ledger.toLedgerIdentity scenario.2
          (latestPrice (events.filterMap LedgerEvent.mark?)))) := by
  obtain ⟨t, events, final, hb⟩ := built_of_build h
  refine ⟨t, events, final, hb, accountTerms_scenarios hb.terms, fun _ hs => hb.equity_eq hs, ?_⟩
  have hmoney := hb.equity
  rw [moneyByScenario_exact, Except.ok.injEq] at hmoney
  rw [← hmoney]
  refine List.map_congr_left fun scenario hscenario => ?_
  rw [hb.equity_eq hscenario]

def twoHoldings : List PaperFillV1 :=
  [smallFill "first" 1 10 70 100, { smallFill "second" 1 80 150 120 with trialId := "other" }]

/-- Two holdings, the first of them worth `200` more than it cost, less fees of `3`. -/
theorem equity_of_two_holdings :
    ∃ ledger,
      buildPaperAccountLedgerV1 .exact smallHash smallPolicy twoHoldings (smallSignals twoHoldings)
        smallCost (1000 * 10 ^ 6) = .ok ledger ∧
      ledger.equityByScenario = [("stress", 10197)] ∧
      ∃ events, ledgerEvents smallHash.ofSignal (smallSignals twoHoldings)
          (cutoffOf (1000 * 10 ^ 6)) twoHoldings = .ok events ∧
        ledger.equityByScenario = [("stress", inMoney (cashFlowEquity ledger.toLedgerIdentity 15
          (latestPrice (events.filterMap LedgerEvent.mark?))))] := by
  have hrun : (buildPaperAccountLedgerV1 .exact smallHash smallPolicy twoHoldings
      (smallSignals twoHoldings) smallCost (1000 * 10 ^ 6)).toOption.map
        (fun ledger => ledger.equityByScenario) = some [("stress", 10197)] := by
    decide +kernel
  obtain ⟨ledger, hledger, hequity⟩ := Option.map_eq_some_iff.mp hrun
  have hbuild := Except.toOption_eq_some.mp hledger
  obtain ⟨t, events, final, hb, hscenarios, _, hcash⟩ := final_equity_is_cash_flow hbuild
  have hrows : t.scenarios.rows = [("stress", 15)] := by
    rw [hscenarios]
    decide +kernel
  rw [hrows] at hcash
  exact ⟨ledger, hbuild, hequity, events, hb.accepted, hcash⟩

end TradePlatform
