/-
# `TradePlatform.Lib.Replay` — fallible steps, and a state rebuilt from its log

An event-sourced store keeps a log and rebuilds the state by folding the log with
a reducer that may refuse an event.  The lemmas say what an accepted sequence of
fallible steps did, and what an append does to a replay.
-/
import Mathlib

theorem List.Forall₂.exists_of_mem {α β : Type*} {R : α → β → Prop} {as : List α} {bs : List β}
    {a : α} (h : List.Forall₂ R as bs) (ha : a ∈ as) : ∃ b ∈ bs, R a b := by
  induction h with
  | nil => exact absurd ha List.not_mem_nil
  | @cons a' b' as bs hab _ ih =>
      rcases List.mem_cons.mp ha with rfl | ha
      · exact ⟨b', List.mem_cons_self, hab⟩
      · obtain ⟨b, hb, hab⟩ := ih ha
        exact ⟨b, List.mem_cons_of_mem _ hb, hab⟩

/-! ## Sequences of fallible steps -/

namespace Except

universe u v

variable {ε : Type u} {α β : Type v}

theorem bind_eq_ok {x : Except ε α} {f : α → Except ε β} {b : β} :
    (x >>= f) = .ok b ↔ ∃ a, x = .ok a ∧ f a = .ok b := by
  cases x with
  | error e => simp [bind, Except.bind]
  | ok a => simp [bind, Except.bind]

theorem bind_eq_error {x : Except ε α} {f : α → Except ε β} {e : ε} :
    (x >>= f) = .error e ↔ x = .error e ∨ ∃ a, x = .ok a ∧ f a = .error e := by
  cases x with
  | error e => simp [bind, Except.bind]
  | ok a => simp [bind, Except.bind]

@[simp] theorem ok_bind (a : α) (f : α → Except ε β) : ((.ok a : Except ε α) >>= f) = f a := rfl

@[simp] theorem error_bind (e : ε) (f : α → Except ε β) :
    ((.error e : Except ε α) >>= f) = .error e := rfl

theorem pure_eq_ok {a b : α} : (pure a : Except ε α) = .ok b ↔ a = b := by
  simp [pure, Except.pure]

theorem of_ite_error {p : Prop} [Decidable p] {e : ε} {x : Except ε α} {a : α}
    (h : (if p then .error e else x) = .ok a) : ¬ p ∧ x = .ok a := by
  split at h
  · cases h
  · rename_i hp
    exact ⟨hp, h⟩

theorem exists_of_isOk {x : Except ε α} (h : x.isOk = true) : ∃ a, x = .ok a := by
  cases x with
  | error e => cases h
  | ok a => exact ⟨a, rfl⟩

theorem mem_of_mapM {f : α → Except ε β} {as : List α} {bs : List β} {b : β}
    (h : as.mapM f = .ok bs) (hb : b ∈ bs) : ∃ a ∈ as, f a = .ok b := by
  induction as generalizing bs with
  | nil =>
      cases h
      cases hb
  | cons a as ih =>
      rw [List.mapM_cons] at h
      obtain ⟨b', ha, h⟩ := bind_eq_ok.mp h
      obtain ⟨bs', has, h⟩ := bind_eq_ok.mp h
      cases h
      rcases List.mem_cons.mp hb with rfl | hb
      · exact ⟨a, List.mem_cons_self, ha⟩
      · obtain ⟨a', ha', hf⟩ := ih has hb
        exact ⟨a', List.mem_cons_of_mem _ ha', hf⟩

theorem exists_of_mem_mapM {f : α → Except ε β} {as : List α} {bs : List β} {a : α}
    (h : as.mapM f = .ok bs) (ha : a ∈ as) : ∃ b ∈ bs, f a = .ok b := by
  induction as generalizing bs with
  | nil => cases ha
  | cons a' as ih =>
      rw [List.mapM_cons] at h
      obtain ⟨b', ha', h⟩ := bind_eq_ok.mp h
      obtain ⟨bs', has, h⟩ := bind_eq_ok.mp h
      cases h
      rcases List.mem_cons.mp ha with rfl | ha
      · exact ⟨b', List.mem_cons_self, ha'⟩
      · obtain ⟨b, hb, hf⟩ := ih has ha
        exact ⟨b, List.mem_cons_of_mem _ hb, hf⟩

theorem mapM_perm {f : α → Except ε β} {as as' : List α} {bs : List β} (hperm : as.Perm as')
    (h : as.mapM f = .ok bs) : ∃ bs', as'.mapM f = .ok bs' ∧ bs.Perm bs' := by
  induction hperm generalizing bs with
  | nil => exact ⟨bs, h, .refl _⟩
  | cons a _ ih =>
      rw [List.mapM_cons] at h
      obtain ⟨b, ha, h⟩ := bind_eq_ok.mp h
      obtain ⟨rest, hrest, h⟩ := bind_eq_ok.mp h
      cases h
      obtain ⟨rest', hrest', hp⟩ := ih hrest
      exact ⟨b :: rest', by rw [List.mapM_cons, ha, ok_bind, hrest']; rfl, hp.cons b⟩
  | swap a a' as =>
      rw [List.mapM_cons, List.mapM_cons] at h
      obtain ⟨b', ha', h⟩ := bind_eq_ok.mp h
      obtain ⟨rest, hrest, h⟩ := bind_eq_ok.mp h
      obtain ⟨b, ha, hrest⟩ := bind_eq_ok.mp hrest
      obtain ⟨tail, htail, hrest⟩ := bind_eq_ok.mp hrest
      cases hrest
      cases h
      refine ⟨b :: b' :: tail, ?_, .swap _ _ _⟩
      rw [List.mapM_cons, List.mapM_cons, ha, ok_bind, ha', ok_bind, htail]
      rfl
  | trans _ _ ih ih' =>
      obtain ⟨mid, hmid, hp⟩ := ih h
      obtain ⟨bs', hbs', hp'⟩ := ih' hmid
      exact ⟨bs', hbs', hp.trans hp'⟩

theorem mapM_forall₂ {α' β' : Type v} {f : α → Except ε β} {g : α' → Except ε β'}
    {R : α → α' → Prop} {S : β → β' → Prop} {as : List α} {as' : List α'} {bs : List β}
    (hstep : ∀ a a' b, R a a' → f a = .ok b → ∃ b', g a' = .ok b' ∧ S b b')
    (hrel : List.Forall₂ R as as') (h : as.mapM f = .ok bs) :
    ∃ bs', as'.mapM g = .ok bs' ∧ List.Forall₂ S bs bs' := by
  induction hrel generalizing bs with
  | nil =>
      cases h
      exact ⟨[], rfl, .nil⟩
  | cons ha _ ih =>
      rw [List.mapM_cons] at h
      obtain ⟨b, hb, h⟩ := bind_eq_ok.mp h
      obtain ⟨rest, hrest, h⟩ := bind_eq_ok.mp h
      cases h
      obtain ⟨b', hb', hS⟩ := hstep _ _ _ ha hb
      obtain ⟨rest', hrest', hall⟩ := ih hrest
      exact ⟨b' :: rest', by rw [List.mapM_cons, hb', ok_bind, hrest']; rfl, .cons hS hall⟩

theorem exists_error_of_mapM {f : α → Except ε β} {as : List α} {e : ε}
    (h : as.mapM f = .error e) : ∃ a ∈ as, f a = .error e := by
  induction as with
  | nil => cases h
  | cons a as ih =>
      rw [List.mapM_cons] at h
      rcases bind_eq_error.mp h with ha | ⟨_, _, h⟩
      · exact ⟨a, List.mem_cons_self, ha⟩
      · rcases bind_eq_error.mp h with has | ⟨_, _, h⟩
        · obtain ⟨a', ha', hf⟩ := ih has
          exact ⟨a', List.mem_cons_of_mem _ ha', hf⟩
        · cases h

theorem mapM_eq_ok {f : α → Except ε β} {g : α → β} {as : List α}
    (h : ∀ a ∈ as, f a = .ok (g a)) : as.mapM f = .ok (as.map g) := by
  induction as with
  | nil => rfl
  | cons a as ih =>
      rw [List.mapM_cons, h a List.mem_cons_self, ih fun b hb => h b (List.mem_cons_of_mem _ hb)]
      rfl

theorem forall₂_of_mapM {f : α → Except ε β} {as : List α} {bs : List β}
    (h : as.mapM f = .ok bs) : List.Forall₂ (fun a b => f a = .ok b) as bs := by
  induction as generalizing bs with
  | nil =>
      cases h
      exact .nil
  | cons a as ih =>
      rw [List.mapM_cons] at h
      obtain ⟨b, ha, h⟩ := bind_eq_ok.mp h
      obtain ⟨bs, has, h⟩ := bind_eq_ok.mp h
      cases h
      exact .cons ha (ih has)

theorem mapM_iff_forall₂ {f : α → Except ε β} {as : List α} {bs : List β} :
    as.mapM f = .ok bs ↔ List.Forall₂ (fun a b => f a = .ok b) as bs := by
  refine ⟨forall₂_of_mapM, fun h => ?_⟩
  induction h with
  | nil => rfl
  | cons ha _ ih =>
      rw [List.mapM_cons, ha, ih]
      rfl

theorem mapM_range_ok {f : ℕ → Except ε β} {n : ℕ} {ts : List β}
    (h : (List.range n).mapM f = .ok ts) :
    ts.length = n ∧ ∀ i < n, ∃ t, ts[i]? = some t ∧ f i = .ok t := by
  induction n generalizing ts with
  | zero =>
      cases h
      exact ⟨rfl, fun _ hi => absurd hi (Nat.not_lt_zero _)⟩
  | succ n ih =>
      rw [List.range_succ, List.mapM_append] at h
      obtain ⟨init, hinit, h⟩ := bind_eq_ok.mp h
      obtain ⟨last, hlast, h⟩ := bind_eq_ok.mp h
      cases pure_eq_ok.mp h
      rw [List.mapM_cons] at hlast
      obtain ⟨t, ht, hlast⟩ := bind_eq_ok.mp hlast
      cases hlast
      obtain ⟨hlength, hall⟩ := ih hinit
      refine ⟨by rw [List.length_append, hlength]; rfl, fun i hi => ?_⟩
      rcases Nat.lt_succ_iff_lt_or_eq.mp hi with hi | rfl
      · obtain ⟨t', ht', hf⟩ := hall i hi
        exact ⟨t', by rw [List.getElem?_append_left (by omega), ht'], hf⟩
      · refine ⟨t, ?_, ht⟩
        rw [List.getElem?_append_right (by omega), hlength, Nat.sub_self]
        rfl

theorem exists_mapM_range {f : ℕ → Except ε β} {n : ℕ}
    (h : ∀ i < n, (f i).isOk = true) : ∃ ts, (List.range n).mapM f = .ok ts := by
  induction n with
  | zero => exact ⟨[], rfl⟩
  | succ n ih =>
      obtain ⟨ts, hts⟩ := ih fun i hi => h i (by omega)
      obtain ⟨t, ht⟩ := exists_of_isOk (h n (Nat.lt_succ_self n))
      refine ⟨ts ++ [t], ?_⟩
      rw [List.range_succ, List.mapM_append, hts, ok_bind, List.mapM_cons, ht]
      rfl

theorem exists_mapM_ok {f : α → Except ε β} {as : List α} (h : ∀ a ∈ as, ∃ b, f a = .ok b) :
    ∃ bs, as.mapM f = .ok bs := by
  induction as with
  | nil => exact ⟨[], rfl⟩
  | cons a as ih =>
      obtain ⟨b, hb⟩ := h a List.mem_cons_self
      obtain ⟨bs, hbs⟩ := ih fun a' ha' => h a' (List.mem_cons_of_mem _ ha')
      exact ⟨b :: bs, by rw [List.mapM_cons, hb, ok_bind, hbs]; rfl⟩

theorem toOption_eq_some {x : Except ε α} {a : α} : x.toOption = some a ↔ x = .ok a := by
  cases x with
  | error e => simp [Except.toOption]
  | ok b => simp [Except.toOption]

end Except

/-! ## Replay -/

namespace Replay

variable {ε σ α : Type}

/-- The state rebuilt from `log`: every event in order, stopping at the first the
reducer refuses. -/
def replay (apply : σ → α → Except ε σ) (start : σ) (log : List α) : Except ε σ :=
  log.foldlM apply start

variable {apply : σ → α → Except ε σ} {start s t : σ} {log : List α} {a : α}

@[simp] theorem replay_nil : replay apply start [] = .ok start := rfl

theorem replay_append (as : List α) :
    replay apply start (log ++ as) = replay apply start log >>= fun s => replay apply s as :=
  List.foldlM_append ..

theorem replay_snoc : replay apply start (log ++ [a]) = replay apply start log >>= (apply · a) := by
  rw [replay_append]
  refine congrArg _ (funext fun s => ?_)
  show (apply s a >>= fun s => .ok s) = apply s a
  cases apply s a <;> rfl

theorem replay_snoc_ok (h : replay apply start log = .ok s) (ha : apply s a = .ok t) :
    replay apply start (log ++ [a]) = .ok t := by
  rw [replay_snoc, h]
  exact ha

theorem replay_inv {P : σ → Prop} (hstep : ∀ s a t, P s → apply s a = .ok t → P t) (h : P start)
    (hlog : replay apply start log = .ok s) : P s := by
  induction log generalizing start with
  | nil =>
      cases hlog
      exact h
  | cons a log ih =>
      obtain ⟨t, ha, hlog⟩ := Except.bind_eq_ok.mp hlog
      exact ih (hstep start a t h ha) hlog

theorem exists_of_mem (hlog : replay apply start log = .ok s) (ha : a ∈ log) :
    ∃ before after, apply before a = .ok after := by
  induction log generalizing start with
  | nil => cases ha
  | cons b log ih =>
      obtain ⟨t, hb, hlog⟩ := Except.bind_eq_ok.mp hlog
      rcases List.mem_cons.mp ha with rfl | ha
      · exact ⟨start, t, hb⟩
      · exact ih hlog ha

/-! ## A property of every event in the state it is met in -/

/-- Each event of `log` meets `ok` in the state that the events before it lead to. -/
def Along (apply : σ → α → Except ε σ) (ok : σ → α → Prop) : σ → List α → Prop
  | _, [] => True
  | s, a :: log => ok s a ∧ ∀ t, apply s a = .ok t → Along apply ok t log

instance Along.decidable {ok : σ → α → Prop} [∀ s a, Decidable (ok s a)] :
    ∀ (s : σ) (log : List α), Decidable (Along apply ok s log)
  | _, [] => inferInstanceAs (Decidable True)
  | s, a :: log =>
      match h : apply s a with
      | .error _ => decidable_of_iff (ok s a) (by simp [Along, h])
      | .ok t =>
          have : Decidable (Along apply ok t log) := Along.decidable t log
          decidable_of_iff (ok s a ∧ Along apply ok t log) (by simp [Along, h])

/-- The rule for a guarded log: `J` is kept by every event that meets `ok`, and with `ok`
gives `P`. -/
theorem Along.of_inv {ok P : σ → α → Prop} {J : σ → Prop} {log : List α}
    (hstep : ∀ s, ∀ a ∈ log, ∀ t, J s → ok s a → apply s a = .ok t → J t)
    (hP : ∀ s, ∀ a ∈ log, J s → ok s a → P s a) {s : σ} (hJ : J s)
    (h : Along apply ok s log) : Along apply P s log := by
  induction log generalizing s with
  | nil => trivial
  | cons a log ih =>
      refine ⟨hP s a List.mem_cons_self hJ h.1, fun t ht => ?_⟩
      refine ih (fun s b hb => hstep s b (List.mem_cons_of_mem _ hb))
        (fun s b hb => hP s b (List.mem_cons_of_mem _ hb))
        (hstep s a List.mem_cons_self t hJ h.1 ht) (h.2 t ht)

end Replay
