/-
# `TradePlatform.StrategySdkExtremeRuns` — a window extreme over any run of its calls

`_PriorExtreme` is reset at each segment start and then moved on by any number of bars at a
time.  After every move its value is the extreme of the bars before the one it stands at, as
far as the window and the segment reach: no bar of an earlier segment counts, and not the bar
itself.
-/
import TradePlatform.StrategySdkLocality

namespace TradePlatform

namespace StrategySdk

namespace PriorExtreme

/-! ## Runs -/

inductive Call where
  | reset (start : ℕ)
  | advanceTo (i : ℕ)
deriving DecidableEq

def call (values : ℕ → Decimal) (extreme : PriorExtreme) : Call → PriorExtreme
  | .reset start => extreme.reset start
  | .advanceTo i => extreme.advanceTo values i

def run (values : ℕ → Decimal) (extreme : PriorExtreme) (calls : List Call) : PriorExtreme :=
  calls.foldl (call values) extreme

structure Place where
  start : ℕ := 0
  bar : ℕ := 0
deriving DecidableEq

def Place.after (place : Place) : Call → Place
  | .reset start => ⟨start, start⟩
  | .advanceTo i => ⟨place.start, i⟩

def Forward : Place → List Call → Prop
  | _, [] => True
  | place, .reset start :: calls => Forward (place.after (.reset start)) calls
  | place, .advanceTo i :: calls => place.bar ≤ i ∧ Forward (place.after (.advanceTo i)) calls

def decForward : (place : Place) → (calls : List Call) → Decidable (Forward place calls)
  | _, [] => .isTrue trivial
  | place, .reset start :: calls => decForward (place.after (.reset start)) calls
  | place, .advanceTo i :: calls =>
      have := decForward (place.after (.advanceTo i)) calls
      inferInstanceAs (Decidable (_ ∧ _))

instance (place : Place) (calls : List Call) : Decidable (Forward place calls) :=
  decForward place calls

/-- The segment that a window built anew is in after so many calls; before the first reset it is
the one from the first bar on. -/
def segmentOf (calls : List Call) : ℕ := (calls.foldl Place.after {}).start

/-! ## What holds over a run -/

variable {values : ℕ → Decimal} {extreme : PriorExtreme} {place : Place} {window : ℕ}
  {maximum : Bool}

theorem run_parameters (values : ℕ → Decimal) (extreme : PriorExtreme) (calls : List Call) :
    (run values extreme calls).window = extreme.window ∧
      (run values extreme calls).maximum = extreme.maximum := by
  induction calls generalizing extreme with
  | nil => exact ⟨rfl, rfl⟩
  | cons call calls ih =>
      cases call with
      | reset start => exact ih (extreme.reset start)
      | advanceTo i => exact ih (extreme.advanceTo values i)

theorem run_at {calls : List Call} (hforward : Forward place calls)
    (hle : place.start ≤ place.bar) (hat : extreme.At values place.start place.bar) :
    (run values extreme calls).At values (calls.foldl Place.after place).start
        (calls.foldl Place.after place).bar ∧
      (calls.foldl Place.after place).start ≤ (calls.foldl Place.after place).bar := by
  induction calls generalizing extreme place with
  | nil => exact ⟨hat, hle⟩
  | cons call calls ih =>
      cases call with
      | reset start => exact ih hforward le_rfl (reset_at values extreme start)
      | advanceTo i =>
          obtain ⟨hmoved, hforward⟩ := hforward
          exact ih hforward (hle.trans hmoved) (hat.advanceTo hle hmoved)

theorem isExtreme_iff {lo hi : ℕ} {x : Decimal} :
    SlidingWindow.IsExtreme (NoBetter maximum) values lo hi x ↔
      if maximum then IsGreatest (values '' Set.Ico lo hi) x
      else IsLeast (values '' Set.Ico lo hi) x := by
  have hattained : (∃ k, lo ≤ k ∧ k < hi ∧ values k = x) ↔ x ∈ values '' Set.Ico lo hi := by
    simp [and_assoc]
  constructor
  · intro h
    have hmem := hattained.mp h.attained
    cases maximum with
    | true => exact ⟨hmem, by rintro _ ⟨k, hk, rfl⟩; exact h.best k hk.1 hk.2⟩
    | false => exact ⟨hmem, by rintro _ ⟨k, hk, rfl⟩; exact h.best k hk.1 hk.2⟩
  · intro h
    cases maximum with
    | true => exact ⟨hattained.mpr h.1, fun k hlo hhi => h.2 ⟨k, ⟨hlo, hhi⟩, rfl⟩⟩
    | false => exact ⟨hattained.mpr h.1, fun k hlo hhi => h.2 ⟨k, ⟨hlo, hhi⟩, rfl⟩⟩

theorem run_isExtreme (values : ℕ → Decimal) (hwindow : 1 ≤ window) {calls : List Call} {i : ℕ}
    (hforward : Forward {} (calls ++ [.advanceTo i])) (hlt : segmentOf calls < i) :
    ∃ x, (run values { window, maximum } (calls ++ [.advanceTo i])).value values = some x ∧
      SlidingWindow.IsExtreme (NoBetter maximum) values (max (segmentOf calls) (i - window)) i
        x := by
  have hnew : At values 0 0 { window, maximum } := reset_at values { window, maximum } 0
  obtain ⟨hat, _⟩ := run_at hforward le_rfl hnew
  obtain ⟨hsame, hmaximum⟩ := run_parameters values { window, maximum } (calls ++ [.advanceTo i])
  rw [List.foldl_append] at hat
  change (run values _ _).At values (segmentOf calls) i at hat
  obtain ⟨x, hx, hextreme⟩ := hat.value (by rwa [hsame]) hlt
  rw [hsame, hmaximum] at hextreme
  exact ⟨x, hx, hextreme⟩

/-- After every run of resets and moves, the value is the greatest (least) of exactly the values
from the start of the segment or of the window on and before the bar: values elsewhere could be
any others. -/
theorem value_after_run (values : ℕ → Decimal) (maximum : Bool) (hwindow : 1 ≤ window)
    {calls : List Call} {i : ℕ} (hforward : Forward {} (calls ++ [.advanceTo i]))
    (hlt : segmentOf calls < i) :
    ∃ x, (run values { window, maximum } (calls ++ [.advanceTo i])).value values = some x ∧
      (if maximum then
        IsGreatest (values '' Set.Ico (max (segmentOf calls) (i - window)) i) x
      else IsLeast (values '' Set.Ico (max (segmentOf calls) (i - window)) i) x) ∧
      ∀ values' : ℕ → Decimal,
        Set.EqOn values' values (Set.Ico (max (segmentOf calls) (i - window)) i) →
        (run values' { window, maximum } (calls ++ [.advanceTo i])).value values' = some x := by
  obtain ⟨x, hx, hextreme⟩ := run_isExtreme values hwindow hforward hlt
  refine ⟨x, hx, isExtreme_iff.mp hextreme, fun values' hsame => ?_⟩
  obtain ⟨x', hx', hextreme'⟩ := run_isExtreme values' hwindow hforward hlt
  have hcongr : SlidingWindow.IsExtreme (NoBetter maximum) values
      (max (segmentOf calls) (i - window)) i x' :=
    hextreme'.congr (n := i - max (segmentOf calls) (i - window)) (by omega) (by omega)
      fun k hk => hsame ⟨by omega, by omega⟩
  rw [hx', hcongr.unique hextreme]

/-- Equal values, a skip past the window and a second segment before the first one. -/
theorem value_after_run_segments :
    let values : ℕ → Decimal := fun k => ([5, 5, 1, 9, 2, 2, 7].getD k 0 : ℚ)
    let calls := [.advanceTo 1, .advanceTo 2, .reset 3, .advanceTo 5, .reset 1]
    ∃ x, (run values { window := 2, maximum := true } (calls ++ [.advanceTo 6])).value values =
        some x ∧
      (if true then IsGreatest (values '' Set.Ico (max (segmentOf calls) (6 - 2)) 6) x
      else IsLeast (values '' Set.Ico (max (segmentOf calls) (6 - 2)) 6) x) ∧
      ∀ values' : ℕ → Decimal, Set.EqOn values' values (Set.Ico (max (segmentOf calls) (6 - 2)) 6) →
        (run values' { window := 2, maximum := true } (calls ++ [.advanceTo 6])).value values' =
          some x :=
  value_after_run _ true (by decide) (by decide) (by decide)

end PriorExtreme

end StrategySdk

end TradePlatform
