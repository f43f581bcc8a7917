/-
# `TradePlatform.FundingSchedule` — the funding instants of a convention

`funding_instant_matches_convention` and `expected_funding_instants` of
`crypto_market_observations.py`.  The one decides of an instant whether it is on the schedule,
in decimals; the other lists the schedule between two instants, in whole seconds.  A window is
cut to whole seconds towards 1970, and so is moved outwards after 1970 at its start, before 1970
at its end: the list is that of the window unless the moved bound is on the schedule itself.
-/
import TradePlatform.Domain
import TradePlatform.Lib.DecimalSum
import TradePlatform.Lib.Grid
import TradePlatform.Lib.Replay
import TradePlatform.Lib.TotalSeconds
import TradePlatform.Lib.UtcDays

namespace TradePlatform

namespace FundingSchedule

open IsoText (Stamp)
open Binary64 (wholeSeconds)
open Decimal (roundDown roundHalfEven roundSig)

/-! ## The code -/

/-- The schedule of a convention, with the checks of its `__post_init__` on it. -/
structure CryptoFundingConvention where
  intervalHours : Decimal
  firstFundingOffsetHours : Decimal
  interval_pos : 0 < intervalHours
  offset_nonneg : 0 ≤ firstFundingOffsetHours
  offset_lt : firstFundingOffsetHours < intervalHours

def epoch : Stamp := .ofShown 1970 1 1 0 0 0 0 0

def IsWhole (value : Decimal) : Prop := value = roundHalfEven value

instance (value : Decimal) : Decidable (IsWhole value) := inferInstanceAs (Decidable (_ = _))

def remainder (dividend divisor : Decimal) : Decimal :=
  dividend - divisor * roundDown (dividend / divisor)

section Schedule

variable (convention : CryptoFundingConvention)

def intervalSeconds : Decimal := Decimal.Context.default.mul convention.intervalHours 3600

def offsetSeconds : Decimal :=
  Decimal.Context.default.mul convention.firstFundingOffsetHours 3600

def fundingInstantMatchesConvention (targetFundingAt : Stamp) : Option Bool :=
  if ¬ IsWhole (intervalSeconds convention) then none
  else if ¬ IsWhole (offsetSeconds convention) then none
  else
    let elapsed := targetFundingAt.instant - epoch.instant
    if elapsed % 10 ^ 6 ≠ 0 then some false
    else
      let difference :=
        Decimal.Context.default.sub (wholeSeconds elapsed) (offsetSeconds convention)
      some (decide (remainder difference (intervalSeconds convention) = 0))

/-- `_EPOCH + timedelta(seconds=elapsed)`, an `OverflowError` outside the years 1 to 9999. -/
def instantAt (elapsed : ℤ) : Except Exn Stamp :=
  match Stamp.utc? (epoch.instant + elapsed * 10 ^ 6) with
  | none => .error .arithmeticError
  | some instant => .ok instant

def instantLoop (interval : ℤ) (hpos : 0 < interval) (lastElapsed firstElapsed : ℤ) :
    Except Exn (List Stamp) :=
  if firstElapsed ≤ lastElapsed then do
    let instant ← instantAt firstElapsed
    let instants ← instantLoop interval hpos lastElapsed (firstElapsed + interval)
    return instant :: instants
  else .ok []
termination_by (lastElapsed + 1 - firstElapsed).toNat

def firstOnSchedule (interval offset elapsed : ℤ) : ℤ :=
  let rest := (elapsed - offset) % interval
  if rest ≠ 0 then elapsed + (interval - rest) else elapsed

def expectedFundingInstants (start finish : Stamp) : Except Exn (List Stamp) :=
  if finish.instant < start.instant then .error (.valueError "invalid_funding_window")
  else if ¬ IsWhole (intervalSeconds convention) then .ok []
  else if ¬ IsWhole (offsetSeconds convention) then .ok []
  else
    let interval := roundDown (intervalSeconds convention)
    let offset := roundDown (offsetSeconds convention)
    if hpos : 0 < interval then
      instantLoop interval hpos (wholeSeconds (finish.instant - epoch.instant))
        (firstOnSchedule interval offset (wholeSeconds (start.instant - epoch.instant)))
    else .error .arithmeticError

end Schedule

/-! ## Instants in whole seconds -/

def secondsAt (elapsed : ℤ) : ℤ := epoch.instant + elapsed * 10 ^ 6

theorem secondsAt_le_iff {m n : ℤ} : secondsAt m ≤ secondsAt n ↔ m ≤ n := by
  unfold secondsAt
  omega

theorem epoch_instant : epoch.instant = 62135683200 * 10 ^ 6 := by decide +kernel

theorem abs_elapsed_lt (x : Stamp) : |x.instant - epoch.instant| < 10 ^ 12 * 10 ^ 6 := by
  have hmax : x.ordinal ≤ 3652059 := x.ordinal_le_max
  have hhour := x.hour_lt
  have hminute := x.minute_lt
  have hsecond := x.second_lt
  have hmicro := x.micro_lt
  have hoffset := x.offset_lt
  rw [epoch_instant, abs_lt]
  unfold Stamp.instant Stamp.wallSeconds
  omega

variable {x : Stamp} {n : ℤ}

theorem abs_lt_of_between {y : Stamp} (hx : x.instant ≤ secondsAt n)
    (hy : secondsAt n ≤ y.instant) : |n| < 10 ^ 12 := by
  have hxlt := abs_lt.mp (abs_elapsed_lt x)
  have hylt := abs_lt.mp (abs_elapsed_lt y)
  unfold secondsAt at hx hy
  rw [abs_lt]
  omega

theorem wholeSeconds_between (x : Stamp) :
    secondsAt (wholeSeconds (x.instant - epoch.instant)) < x.instant + 10 ^ 6 ∧
      x.instant < secondsAt (wholeSeconds (x.instant - epoch.instant)) + 10 ^ 6 := by
  have hlt := abs_lt.mp (abs_elapsed_lt x)
  unfold secondsAt
  generalize hd : x.instant - epoch.instant = d at hlt ⊢
  have hlow := @Binary64.le_wholeSeconds d (d / 10 ^ 6) (by rw [abs_lt]; omega) (by omega)
  have hhigh := @Binary64.wholeSeconds_le d (-(-d / 10 ^ 6)) (by rw [abs_lt]; omega) (by omega)
  omega

theorem wholeSeconds_le_of_le (hn : |n| < 10 ^ 12) (h : x.instant ≤ secondsAt n) :
    wholeSeconds (x.instant - epoch.instant) ≤ n := by
  refine Binary64.wholeSeconds_le (hn.trans (by norm_num)) ?_
  unfold secondsAt at h
  omega

theorem le_wholeSeconds_of_le (hn : |n| < 10 ^ 12) (h : secondsAt n ≤ x.instant) :
    n ≤ wholeSeconds (x.instant - epoch.instant) := by
  refine Binary64.le_wholeSeconds (hn.trans (by norm_num)) ?_
  unfold secondsAt at h
  omega

/-! ## The loop -/

theorem instantAt_eq_ok : instantAt n = .ok x ↔ Stamp.utc? (secondsAt n) = some x := by
  unfold instantAt secondsAt
  split <;> simp_all

theorem instantLoop_ok {interval last : ℤ} (hpos : 0 < interval) (first : ℤ) :
    ∀ {instants : List Stamp}, instantLoop interval hpos last first = .ok instants →
      instants.Pairwise (·.instant < ·.instant) ∧
      (∀ x ∈ instants, ∃ n, instantAt n = .ok x ∧ first ≤ n ∧ n ≤ last ∧
        n ≡ first [ZMOD interval]) ∧
      ∀ n, first ≤ n → n ≤ last → n ≡ first [ZMOD interval] →
        ∃ x ∈ instants, instantAt n = .ok x := by
  induction first using instantLoop.induct interval hpos last with
  | case1 first hle ih =>
      intro instants hok
      rw [instantLoop, if_pos hle] at hok
      obtain ⟨x, hx, hok⟩ := Except.bind_eq_ok.mp hok
      obtain ⟨rest, hrest, hok⟩ := Except.bind_eq_ok.mp hok
      cases hok
      obtain ⟨hsorted, hsound, hall⟩ := ih hrest
      have hself : first + interval ≡ first [ZMOD interval] := Int.add_modEq_right
      refine ⟨List.pairwise_cons.mpr ⟨fun y hy => ?_, hsorted⟩, fun y hy => ?_,
        fun n hge hlast hmod => ?_⟩
      · obtain ⟨n, hn, hge, -⟩ := hsound y hy
        rw [(Stamp.utc?_eq_some (instantAt_eq_ok.mp hx)).2,
          (Stamp.utc?_eq_some (instantAt_eq_ok.mp hn)).2]
        refine lt_of_not_ge fun h => ?_
        have := secondsAt_le_iff.mp h
        omega
      · rcases List.mem_cons.mp hy with rfl | hy
        · exact ⟨first, hx, le_rfl, hle, rfl⟩
        · obtain ⟨n, hn, hge, hlast, hmod⟩ := hsound y hy
          exact ⟨n, hn, by omega, hlast, hmod.trans hself⟩
      · rcases hge.eq_or_lt with rfl | hlt
        · exact ⟨x, List.mem_cons_self, hx⟩
        · obtain ⟨y, hy, hn⟩ :=
            hall n (Grid.add_le_of_modEq hmod hlt) hlast (hmod.trans hself.symm)
          exact ⟨y, List.mem_cons_of_mem _ hy, hn⟩
  | case2 first hlt =>
      intro instants hok
      rw [instantLoop, if_neg hlt] at hok
      cases hok
      refine ⟨.nil, fun y hy => absurd hy List.not_mem_nil, fun n hge hlast => ?_⟩
      omega

theorem exists_instantLoop {interval last : ℤ} (hpos : 0 < interval) (first : ℤ)
    (h : ∀ n, first ≤ n → n ≤ last → n ≡ first [ZMOD interval] → ∃ x, instantAt n = .ok x) :
    ∃ instants, instantLoop interval hpos last first = .ok instants := by
  induction first using instantLoop.induct interval hpos last with
  | case1 first hle ih =>
      obtain ⟨x, hx⟩ := h first le_rfl hle rfl
      have hself : first + interval ≡ first [ZMOD interval] := Int.add_modEq_right
      obtain ⟨rest, hrest⟩ := ih fun n hge hlast hmod => h n (by omega) hlast (hmod.trans hself)
      refine ⟨x :: rest, ?_⟩
      rw [instantLoop, if_pos hle, hx, Except.ok_bind, hrest, Except.ok_bind]
      rfl
  | case2 first hlt =>
      refine ⟨[], ?_⟩
      rw [instantLoop, if_neg hlt]

theorem firstOnSchedule_spec {interval : ℤ} (hpos : 0 < interval) (offset elapsed : ℤ) :
    elapsed ≤ firstOnSchedule interval offset elapsed ∧
      firstOnSchedule interval offset elapsed < elapsed + interval ∧
      firstOnSchedule interval offset elapsed ≡ offset [ZMOD interval] := by
  have hnonneg := Int.emod_nonneg (elapsed - offset) hpos.ne'
  have hlt := Int.emod_lt_of_pos (elapsed - offset) hpos
  have hdvd : interval ∣ (elapsed - offset) - (elapsed - offset) % interval :=
    Int.dvd_self_sub_emod
  unfold firstOnSchedule
  dsimp only
  split
  · refine ⟨by omega, by omega, (Int.modEq_iff_dvd.mpr ?_).symm⟩
    have hsum := dvd_add hdvd (dvd_refl interval)
    rwa [show elapsed + (interval - (elapsed - offset) % interval) - offset =
      elapsed - offset - (elapsed - offset) % interval + interval by ring]
  · rename_i hzero
    rw [not_not] at hzero
    rw [hzero, sub_zero] at hdvd
    exact ⟨le_rfl, by omega, (Int.modEq_iff_dvd.mpr hdvd).symm⟩

theorem firstOnSchedule_le {interval offset elapsed : ℤ} (hpos : 0 < interval) (hge : elapsed ≤ n)
    (hmod : n ≡ offset [ZMOD interval]) : firstOnSchedule interval offset elapsed ≤ n := by
  obtain ⟨-, hlt, hfirst⟩ := firstOnSchedule_spec hpos offset elapsed
  by_contra hnot
  have hadd := Grid.add_le_of_modEq (hfirst.trans hmod.symm) (not_le.mp hnot)
  omega

/-! ## The schedule -/

section Exact

variable {convention : CryptoFundingConvention}

def intervalOf (convention : CryptoFundingConvention) : ℤ := roundDown (intervalSeconds convention)

def offsetOf (convention : CryptoFundingConvention) : ℤ := roundDown (offsetSeconds convention)

def OnSchedule (convention : CryptoFundingConvention) (elapsed : ℤ) : Prop :=
  elapsed ≡ offsetOf convention [ZMOD intervalOf convention]

instance (elapsed : ℤ) : Decidable (OnSchedule convention elapsed) :=
  inferInstanceAs (Decidable (_ = _))

theorem IsWhole.roundDown_eq {value : Decimal} (h : IsWhole value) :
    (roundDown value : ℚ) = value := by
  rw [h, Binary64.roundDown_intCast]

theorem intervalSeconds_pos (convention : CryptoFundingConvention) :
    0 < intervalSeconds convention := by
  have hpos : 0 < convention.intervalHours * 3600 := mul_pos convention.interval_pos (by norm_num)
  exact (zpow_pos (by norm_num) _).trans_le (Decimal.roundSig_bounds (by norm_num) hpos).1

theorem offsetSeconds_nonneg (convention : CryptoFundingConvention) :
    0 ≤ offsetSeconds convention :=
  Decimal.roundSig_nonneg (by norm_num) (mul_nonneg convention.offset_nonneg (by norm_num))

theorem offsetSeconds_le (convention : CryptoFundingConvention) :
    offsetSeconds convention ≤ intervalSeconds convention :=
  Decimal.roundSig_mono (by norm_num)
    (mul_le_mul_of_nonneg_right convention.offset_lt.le (by norm_num))

theorem intervalOf_pos (h : IsWhole (intervalSeconds convention)) : 0 < intervalOf convention := by
  have hpos := intervalSeconds_pos convention
  rw [← h.roundDown_eq] at hpos
  exact_mod_cast hpos

theorem offsetOf_bounds (h : IsWhole (intervalSeconds convention))
    (h' : IsWhole (offsetSeconds convention)) :
    0 ≤ offsetOf convention ∧ offsetOf convention ≤ intervalOf convention := by
  have hnonneg := offsetSeconds_nonneg convention
  have hle := offsetSeconds_le convention
  rw [← h'.roundDown_eq] at hnonneg hle
  rw [← h.roundDown_eq] at hle
  exact ⟨by exact_mod_cast hnonneg, by exact_mod_cast hle⟩

theorem round_intervalOf (h : IsWhole (intervalSeconds convention)) :
    roundSig 28 (intervalOf convention) = intervalOf convention := by
  have hidem : roundSig 28 (intervalSeconds convention) = intervalSeconds convention :=
    Decimal.roundSig_roundSig (by norm_num)
      (mul_nonneg convention.interval_pos.le (by norm_num))
  rw [← h.roundDown_eq] at hidem
  exact hidem

theorem remainder_mul {interval : ℤ} (hpos : 0 < interval) (k : ℤ) :
    remainder ((interval * k : ℤ) : ℚ) (interval : ℚ) = 0 := by
  have hne : (interval : ℚ) ≠ 0 := by exact_mod_cast hpos.ne'
  unfold remainder
  rw [Int.cast_mul, mul_div_cancel_left₀ _ hne, Binary64.roundDown_intCast, sub_self]

theorem round_intCast {m : ℤ} (h : |m| < 10 ^ 28) : roundSig 28 (m : ℚ) = m :=
  (Decimal.Fits.intCast m).roundSig_eq h

/-- The seconds from an offset to an instant of its schedule are not rounded: they have few
digits, or are the interval. -/
theorem round_multiple (h : IsWhole (intervalSeconds convention))
    (h' : IsWhole (offsetSeconds convention)) (hn : |n| < 10 ^ 12) {k : ℤ}
    (hk : n - offsetOf convention = intervalOf convention * k) :
    roundSig 28 ((n - offsetOf convention : ℤ) : ℚ) = (n - offsetOf convention : ℤ) := by
  have hpos := intervalOf_pos h
  obtain ⟨hnonneg, hle⟩ := offsetOf_bounds h h'
  rw [abs_lt] at hn
  by_cases hfew : |n - offsetOf convention| < 10 ^ 28
  · exact round_intCast hfew
  · have hlarge : 10 ^ 12 < intervalOf convention := by
      by_contra hnot
      refine hfew ?_
      rw [abs_lt]
      omega
    have hlow : -2 < k := by
      by_contra hnot
      nlinarith
    have hhigh : k < 2 := by
      by_contra hnot
      nlinarith
    rw [hk]
    obtain rfl | rfl | rfl : k = -1 ∨ k = 0 ∨ k = 1 := by omega
    · rw [mul_neg_one, Int.cast_neg, Decimal.roundSig_neg, round_intervalOf h]
    · rw [mul_zero]
      exact round_intCast (by norm_num)
    · rw [mul_one, round_intervalOf h]

theorem fundingInstantMatchesConvention_iff (h : IsWhole (intervalSeconds convention))
    (h' : IsWhole (offsetSeconds convention)) :
    fundingInstantMatchesConvention convention x = some true ↔
      ∃ n, x.instant = secondsAt n ∧
        remainder (roundSig 28 ((n - offsetOf convention : ℤ) : ℚ)) (intervalOf convention) =
          0 := by
  have hlt := abs_lt.mp (abs_elapsed_lt x)
  have hwhole : ∀ n, x.instant = secondsAt n →
      Decimal.Context.default.sub (wholeSeconds (x.instant - epoch.instant))
        (offsetSeconds convention) = roundSig 28 ((n - offsetOf convention : ℤ) : ℚ) := by
    intro n hn
    have helapsed : x.instant - epoch.instant = n * 10 ^ 6 := by
      rw [hn]
      unfold secondsAt
      ring
    rw [helapsed, Binary64.wholeSeconds_mul (by rw [abs_lt]; omega), ← h'.roundDown_eq,
      Int.cast_sub]
    rfl
  unfold fundingInstantMatchesConvention
  rw [if_neg (not_not.mpr h), if_neg (not_not.mpr h')]
  dsimp only
  by_cases hmicro : (x.instant - epoch.instant) % 10 ^ 6 = 0
  · have hn : x.instant = secondsAt ((x.instant - epoch.instant) / 10 ^ 6) := by
      unfold secondsAt
      omega
    rw [if_neg (not_not.mpr hmicro), hwhole _ hn, ← h.roundDown_eq, Option.some_inj,
      decide_eq_true_eq]
    refine ⟨fun hzero => ⟨_, hn, hzero⟩, ?_⟩
    rintro ⟨m, hm, hzero⟩
    rw [← hwhole _ hn, hwhole _ hm]
    exact hzero
  · rw [if_pos hmicro]
    refine iff_of_false (by simp) ?_
    rintro ⟨m, hm, -⟩
    refine hmicro ?_
    unfold secondsAt at hm
    omega

theorem matches_of_onSchedule (h : IsWhole (intervalSeconds convention))
    (h' : IsWhole (offsetSeconds convention)) (hn : |n| < 10 ^ 12) (hx : x.instant = secondsAt n)
    (hon : OnSchedule convention n) : fundingInstantMatchesConvention convention x = some true := by
  obtain ⟨k, hk⟩ := Int.ModEq.dvd hon.symm
  refine (fundingInstantMatchesConvention_iff h h').mpr ⟨n, hx, ?_⟩
  rw [round_multiple h h' hn hk, hk]
  exact remainder_mul (intervalOf_pos h) k

theorem onSchedule_of_matches (h : IsWhole (intervalSeconds convention))
    (h' : IsWhole (offsetSeconds convention)) (hinterval : intervalOf convention < 10 ^ 27)
    (hx : fundingInstantMatchesConvention convention x = some true) :
    ∃ n, x.instant = secondsAt n ∧ OnSchedule convention n := by
  obtain ⟨n, hn, hzero⟩ := (fundingInstantMatchesConvention_iff h h').mp hx
  obtain ⟨hnonneg, hle⟩ := offsetOf_bounds h h'
  have hfew := abs_lt.mp (abs_lt_of_between hn.le hn.ge)
  rw [round_intCast (by rw [abs_lt]; omega)] at hzero
  refine ⟨n, hn, (Int.modEq_iff_dvd.mpr ⟨roundDown
    (((n - offsetOf convention : ℤ) : ℚ) / (intervalOf convention : ℚ)), ?_⟩).symm⟩
  unfold remainder at hzero
  have heq := sub_eq_zero.mp hzero
  exact_mod_cast heq

/-! ## The list of a window -/

/-- The list of a window: in order, the timestamps of the window that the other function finds on
the schedule. -/
def ListsSchedule (convention : CryptoFundingConvention) (start finish : Stamp) : Prop :=
  ∃ instants, expectedFundingInstants convention start finish = .ok instants ∧
    instants.Pairwise (·.instant < ·.instant) ∧
    ∀ t : Stamp, (∃ x ∈ instants, x.instant = t.instant) ↔
      (start.instant ≤ t.instant ∧ t.instant ≤ finish.instant ∧
        fundingInstantMatchesConvention convention t = some true)

def secondsOf (x : Stamp) : ℤ := wholeSeconds (x.instant - epoch.instant)

/-- The conditions for a list: the bounds of the window are not moved to an instant of the
schedule, the calendar has the instants of the schedule, and the decisions are exact. -/
structure Listable (convention : CryptoFundingConvention) (start finish : Stamp) : Prop where
  startMoved : secondsAt (secondsOf start) < start.instant →
    ¬ OnSchedule convention (secondsOf start)
  finishMoved : finish.instant < secondsAt (secondsOf finish) →
    ¬ OnSchedule convention (secondsOf finish)
  calendar : ∀ n, start.instant ≤ secondsAt n → secondsAt n ≤ finish.instant →
    OnSchedule convention n → (Stamp.utc? (secondsAt n)).isSome = true
  exact : ∀ t : Stamp, start.instant ≤ t.instant → t.instant ≤ finish.instant →
    fundingInstantMatchesConvention convention t = some true →
      ∃ n, t.instant = secondsAt n ∧ OnSchedule convention n

variable {start finish : Stamp}

theorem expectedFundingInstants_eq (h : IsWhole (intervalSeconds convention))
    (h' : IsWhole (offsetSeconds convention)) (hle : start.instant ≤ finish.instant) :
    expectedFundingInstants convention start finish =
      instantLoop (intervalOf convention) (intervalOf_pos h) (secondsOf finish)
        (firstOnSchedule (intervalOf convention) (offsetOf convention) (secondsOf start)) := by
  unfold expectedFundingInstants
  rw [if_neg (not_lt.mpr hle), if_neg (not_not.mpr h), if_neg (not_not.mpr h')]
  exact dif_pos (intervalOf_pos h)

theorem expectedFundingInstants_ok {instants : List Stamp}
    (h : IsWhole (intervalSeconds convention)) (h' : IsWhole (offsetSeconds convention))
    (hle : start.instant ≤ finish.instant)
    (hok : expectedFundingInstants convention start finish = .ok instants) :
    instants.Pairwise (·.instant < ·.instant) ∧
      (∀ x ∈ instants, ∃ n, x.instant = secondsAt n ∧ secondsOf start ≤ n ∧
        n ≤ secondsOf finish ∧ OnSchedule convention n) ∧
      ∀ n, secondsOf start ≤ n → n ≤ secondsOf finish → OnSchedule convention n →
        ∃ x ∈ instants, Stamp.utc? (secondsAt n) = some x := by
  rw [expectedFundingInstants_eq h h' hle] at hok
  have hpos := intervalOf_pos h
  obtain ⟨hsorted, hsound, hall⟩ := instantLoop_ok hpos _ hok
  obtain ⟨hfirst, -, hmod⟩ := firstOnSchedule_spec hpos (offsetOf convention) (secondsOf start)
  refine ⟨hsorted, fun x hx => ?_, fun n hge hlast hon => ?_⟩
  · obtain ⟨n, hn, hge, hlast, hn'⟩ := hsound x hx
    exact ⟨n, (Stamp.utc?_eq_some (instantAt_eq_ok.mp hn)).2, hfirst.trans hge, hlast,
      hn'.trans hmod⟩
  · obtain ⟨x, hx, hn⟩ :=
      hall n (firstOnSchedule_le hpos hge hon) hlast (hon.trans hmod.symm)
    exact ⟨x, hx, instantAt_eq_ok.mp hn⟩

/-- For a convention in whole seconds and any window: the list is that of the schedule inside the
window if and only if neither bound is moved to an instant of the schedule, the calendar has every
instant of the schedule in the window, and no decision about an instant of it is rounded. -/
theorem listsSchedule_iff (convention : CryptoFundingConvention) (start finish : Stamp)
    (h : IsWhole (intervalSeconds convention)) (h' : IsWhole (offsetSeconds convention))
    (hle : start.instant ≤ finish.instant) :
    ListsSchedule convention start finish ↔ Listable convention start finish := by
  have hseconds : secondsOf start ≤ secondsOf finish :=
    Binary64.wholeSeconds_mono (sub_le_sub_right hle _)
  have hinside : ∀ n, start.instant ≤ secondsAt n → secondsAt n ≤ finish.instant →
      |n| < 10 ^ 12 ∧ secondsOf start ≤ n ∧ n ≤ secondsOf finish := by
    intro n hge hlast
    have hfew := abs_lt_of_between hge hlast
    exact ⟨hfew, wholeSeconds_le_of_le hfew hge, le_wholeSeconds_of_le hfew hlast⟩
  constructor
  · rintro ⟨instants, hok, -, hall⟩
    obtain ⟨-, hsound, hcomplete⟩ := expectedFundingInstants_ok h h' hle hok
    -- what the list has lies in the window
    have hlisted : ∀ n, secondsOf start ≤ n → n ≤ secondsOf finish → OnSchedule convention n →
        start.instant ≤ secondsAt n ∧ secondsAt n ≤ finish.instant := by
      intro n hge hlast hon
      obtain ⟨x, hx, hn⟩ := hcomplete n hge hlast hon
      have hbounds := (hall x).mp ⟨x, hx, rfl⟩
      rw [(Stamp.utc?_eq_some hn).2] at hbounds
      exact ⟨hbounds.1, hbounds.2.1⟩
    refine ⟨fun hlt hon => ?_, fun hlt hon => ?_, fun n hge hlast hon => ?_,
      fun t hge hlast hmatch => ?_⟩
    · exact absurd (hlisted _ le_rfl hseconds hon).1 (not_le.mpr hlt)
    · exact absurd (hlisted _ hseconds le_rfl hon).2 (not_le.mpr hlt)
    · obtain ⟨-, hge', hlast'⟩ := hinside n hge hlast
      obtain ⟨x, -, hn⟩ := hcomplete n hge' hlast' hon
      rw [hn]
      rfl
    · obtain ⟨x, hx, heq⟩ := (hall t).mpr ⟨hge, hlast, hmatch⟩
      obtain ⟨n, hn, -, -, hon⟩ := hsound x hx
      exact ⟨n, heq.symm.trans hn, hon⟩
  · intro hlistable
    have hwindow : ∀ n, secondsOf start ≤ n → n ≤ secondsOf finish → OnSchedule convention n →
        start.instant ≤ secondsAt n ∧ secondsAt n ≤ finish.instant := by
      intro n hge hlast hon
      have hstart := (wholeSeconds_between start).2
      have hfinish := (wholeSeconds_between finish).1
      constructor
      · rcases hge.eq_or_lt with rfl | hlt
        · exact not_lt.mp fun hbefore => hlistable.startMoved hbefore hon
        · unfold secondsOf at hlt
          unfold secondsAt at hstart ⊢
          omega
      · rcases hlast.eq_or_lt with rfl | hlt
        · exact not_lt.mp fun hafter => hlistable.finishMoved hafter hon
        · unfold secondsOf at hlt
          unfold secondsAt at hfinish ⊢
          omega
    have hpos := intervalOf_pos h
    obtain ⟨hfirst, -, hmod⟩ := firstOnSchedule_spec hpos (offsetOf convention) (secondsOf start)
    obtain ⟨instants, hok⟩ := @exists_instantLoop _ (secondsOf finish) hpos
      (firstOnSchedule (intervalOf convention) (offsetOf convention) (secondsOf start))
      fun n hge hlast hn => by
        have hon : OnSchedule convention n := hn.trans hmod
        obtain ⟨hin, hin'⟩ := hwindow n (hfirst.trans hge) hlast hon
        obtain ⟨x, hx⟩ := Option.isSome_iff_exists.mp (hlistable.calendar n hin hin' hon)
        exact ⟨x, instantAt_eq_ok.mpr hx⟩
    rw [← expectedFundingInstants_eq h h' hle] at hok
    obtain ⟨hsorted, hsound, hcomplete⟩ := expectedFundingInstants_ok h h' hle hok
    refine ⟨instants, hok, hsorted, fun t => ⟨?_, ?_⟩⟩
    · rintro ⟨x, hx, heq⟩
      obtain ⟨n, hn, hge, hlast, hon⟩ := hsound x hx
      have ht : t.instant = secondsAt n := heq.symm.trans hn
      obtain ⟨hin, hin'⟩ := hwindow n hge hlast hon
      rw [ht]
      exact ⟨hin, hin', matches_of_onSchedule h h' (hinside n hin hin').1 ht hon⟩
    · rintro ⟨hge, hlast, hmatch⟩
      obtain ⟨n, hn, hon⟩ := hlistable.exact t hge hlast hmatch
      rw [hn] at hge hlast ⊢
      obtain ⟨-, hge', hlast'⟩ := hinside n hge hlast
      obtain ⟨x, hx, hn'⟩ := hcomplete n hge' hlast' hon
      exact ⟨x, hx, (Stamp.utc?_eq_some hn').2⟩

theorem calendar_of_utc (hstart : start.offset = 0) (hfinish : finish.offset = 0)
    (hge : start.instant ≤ secondsAt n) (hlast : secondsAt n ≤ finish.instant) :
    (Stamp.utc? (secondsAt n)).isSome = true := by
  have hlow := Int.ediv_le_ediv Stamp.dayMicros_pos hge
  have hhigh := Int.ediv_le_ediv Stamp.dayMicros_pos hlast
  rw [start.instant_div_dayMicros hstart] at hlow
  rw [finish.instant_div_dayMicros hfinish] at hhigh
  have hfirst : 1 ≤ (start.ordinal : ℤ) := by exact_mod_cast start.ordinal_pos
  have hmax : (finish.ordinal : ℤ) ≤ Stamp.maxOrdinal := by exact_mod_cast finish.ordinal_le_max
  obtain ⟨x, hx⟩ := Stamp.exists_utc? (hfirst.trans hlow) (hhigh.trans hmax)
  rw [hx]
  rfl

/-! ### A convention of eight hours -/

theorem eight_pos : (0 : Decimal) < 8 := by norm_num

def everyEightHours : CryptoFundingConvention where
  intervalHours := 8
  firstFundingOffsetHours := 0
  interval_pos := eight_pos
  offset_nonneg := le_rfl
  offset_lt := eight_pos

theorem everyEightHours_interval : IsWhole (intervalSeconds everyEightHours) := by decide +kernel

theorem everyEightHours_offset : IsWhole (offsetSeconds everyEightHours) := by decide +kernel

def july10 : Stamp := .ofShown 2025 7 10 0 0 0 0 0

def july10Evening : Stamp := .ofShown 2025 7 10 23 59 0 0 0

theorem listsSchedule_iff_july10 : ListsSchedule everyEightHours july10 july10Evening :=
  (listsSchedule_iff everyEightHours july10 july10Evening everyEightHours_interval
    everyEightHours_offset (by decide +kernel)).mpr
    { startMoved := by decide +kernel
      finishMoved := by decide +kernel
      calendar := fun _ hge hlast _ => calendar_of_utc rfl rfl hge hlast
      exact := fun _ _ _ => onSchedule_of_matches everyEightHours_interval everyEightHours_offset
        (by decide +kernel) }

def pastEight : Stamp := .ofShown 1970 1 1 8 0 0 500000 0

def nineOClock : Stamp := .ofShown 1970 1 1 9 0 0 0 0

/-- The window from half a second past eight lists eight o'clock. -/
theorem a_funding_before_the_window : ∃ (convention : CryptoFundingConvention)
    (start finish : Stamp), IsWhole (intervalSeconds convention) ∧
      IsWhole (offsetSeconds convention) ∧ start.instant ≤ finish.instant ∧
      ¬ ListsSchedule convention start finish := by
  refine ⟨everyEightHours, pastEight, nineOClock, everyEightHours_interval,
    everyEightHours_offset, by decide +kernel, ?_⟩
  rintro ⟨instants, hok, -, hall⟩
  obtain ⟨x, hx, hn⟩ := (expectedFundingInstants_ok everyEightHours_interval
    everyEightHours_offset (by decide +kernel) hok).2.2 28800 (by decide +kernel)
    (by decide +kernel) (by decide +kernel)
  have hstart := ((hall x).mp ⟨x, hx, rfl⟩).1
  rw [(Stamp.utc?_eq_some hn).2] at hstart
  exact absurd hstart (by decide +kernel)

end Exact

end FundingSchedule

end TradePlatform
