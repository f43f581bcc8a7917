/-
# `TradePlatform.Lib.Run` — runs of a machine, and invariants over them

A machine is a function `f : σ → α → σ`, one call, or one step of one of its parties,
at a time.  It comes with a guard `ok : σ → α → Prop` on the state before a step and the
step's input, so that "in every run whose steps all meet the condition" is one
notion and one induction.  Nothing here names the program.
-/
import Mathlib

namespace Run

variable {σ α : Type*}

/-- The state after `calls`, made one after another from `s`. -/
def exec (f : σ → α → σ) (s : σ) (calls : List α) : σ :=
  calls.foldl f s

@[simp] theorem exec_nil (f : σ → α → σ) (s : σ) : exec f s [] = s := rfl

@[simp] theorem exec_cons (f : σ → α → σ) (s : σ) (a : α) (as : List α) :
    exec f s (a :: as) = exec f (f s a) as := rfl

def Always (f : σ → α → σ) (P : σ → Prop) : σ → List α → Prop
  | s, [] => P s
  | s, a :: as => P s ∧ Always f P (f s a) as

def Each (f : σ → α → σ) (ok : σ → α → Prop) : σ → List α → Prop
  | _, [] => True
  | s, a :: as => ok s a ∧ Each f ok (f s a) as

instance Each.decidable {f : σ → α → σ} {ok : σ → α → Prop} [∀ s a, Decidable (ok s a)] :
    ∀ (s : σ) (as : List α), Decidable (Each f ok s as)
  | _, [] => inferInstanceAs (Decidable True)
  | s, a :: as =>
      have : Decidable (Each f ok (f s a) as) := Each.decidable (f s a) as
      inferInstanceAs (Decidable (_ ∧ _))

section Function

variable {f : σ → α → σ} {P J : σ → Prop} {ok : σ → α → Prop}

theorem Always.head {s : σ} : ∀ {as : List α}, Always f P s as → P s
  | [], h => h
  | _ :: _, h => h.1

theorem Always.exec : ∀ {s : σ} {as : List α}, Always f P s as → P (Run.exec f s as)
  | _, [], h => h
  | _, _ :: _, h => by
      rw [exec_cons]
      exact Always.exec h.2

theorem exec_inv (hstep : ∀ s a, J s → J (f s a)) {s : σ} (as : List α) (h : J s) :
    J (Run.exec f s as) := by
  induction as generalizing s with
  | nil => exact h
  | cons a as ih => exact ih (hstep s a h)

theorem Each.always (hstep : ∀ s a, J s → ok s a → J (f s a)) :
    ∀ {s : σ} {as : List α}, J s → Each f ok s as → Always f J s as
  | _, [], hJ, _ => hJ
  | _, _ :: _, hJ, h => ⟨hJ, Each.always hstep (hstep _ _ hJ h.1) h.2⟩

theorem Each.of_forall : ∀ {s : σ} {as : List α}, (∀ a ∈ as, ∀ t, ok t a) → Each f ok s as
  | _, [], _ => trivial
  | _, _ :: _, h =>
      ⟨h _ List.mem_cons_self _, Each.of_forall fun b hb => h b (List.mem_cons_of_mem _ hb)⟩

theorem Always.mono (h : ∀ s, P s → J s) :
    ∀ {s : σ} {as : List α}, Always f P s as → Always f J s as
  | _, [], hP => h _ hP
  | _, _ :: _, hP => ⟨h _ hP.1, Always.mono h hP.2⟩

/-- The exact rule.  If, in a state that satisfies the support `J` and `P`, a
call keeps `P` precisely when it meets `ok`, then a run satisfies `P`
throughout precisely when it starts in `P` and its calls all meet `ok`. -/
theorem always_iff_each
    (hJ : ∀ s a, J s → P s → ok s a → J (f s a))
    (hok : ∀ s a, J s → P s → (P (f s a) ↔ ok s a)) :
    ∀ {s : σ} {as : List α}, J s → (Always f P s as ↔ P s ∧ Each f ok s as)
  | s, [], _ => by simp [Always, Each]
  | s, a :: as, hs => by
      simp only [Always, Each]
      refine and_congr_right fun hP => ?_
      constructor
      · intro h
        have ha : ok s a := (hok s a hs hP).mp h.head
        exact ⟨ha, ((always_iff_each hJ hok (hJ s a hs hP ha)).mp h).2⟩
      · rintro ⟨ha, h⟩
        exact (always_iff_each hJ hok (hJ s a hs hP ha)).mpr
          ⟨(hok s a hs hP).mpr ha, h⟩

end Function

end Run
