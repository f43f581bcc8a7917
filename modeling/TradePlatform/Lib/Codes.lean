/-
# `TradePlatform.Lib.Codes` — values that are read off a text

A code is read off (`ReadOff`) when a text that begins with the code of a value tells the value
and what follows it.  Fields that do not contain a separator are read off up to it, and the last
field of a line up to what the next line begins with (`fields_inj`).
-/
import Mathlib

namespace Codes

section ReadOff

variable {α β γ : Type*} {f : α → List γ} {g : β → List γ}

def ReadOff (f : α → List γ) : Prop :=
  ∀ ⦃a b : α⦄ ⦃r s : List γ⦄, f a ++ r = f b ++ s → a = b ∧ r = s

theorem ReadOff.pair (hf : ReadOff f) (hg : ReadOff g) :
    ReadOff fun x : α × β => f x.1 ++ g x.2 := by
  rintro ⟨a, b⟩ ⟨a', b'⟩ r s h
  simp only [List.append_assoc] at h
  obtain ⟨rfl, hrest⟩ := hf h
  obtain ⟨rfl, rfl⟩ := hg hrest
  exact ⟨rfl, rfl⟩

theorem ReadOff.comp {h : β → α} (hf : ReadOff f) (hh : Function.Injective h) :
    ReadOff fun b => f (h b) := by
  intro a b r s hcode
  obtain ⟨hab, hrest⟩ := hf hcode
  exact ⟨hh hab, hrest⟩

theorem ReadOff.cons (hf : ReadOff f) (c : γ) : ReadOff fun a => c :: f a := by
  intro a b r s h
  exact hf (List.cons.inj h).2

theorem ReadOff.stopped {stop : γ} (hf : ReadOff f)
    (hhead : ∀ a, ∃ c rest, f a = c :: rest ∧ c ≠ stop) :
    ReadOff fun as : List α => as.flatMap f ++ [stop] := by
  intro as
  induction as with
  | nil =>
      intro bs r s h
      cases bs with
      | nil => exact ⟨rfl, (List.cons.inj h).2⟩
      | cons b bs =>
          obtain ⟨c, rest, hb, hne⟩ := hhead b
          simp only [List.flatMap_nil, List.flatMap_cons, hb, List.nil_append,
            List.cons_append] at h
          exact absurd (List.cons.inj h).1.symm hne
  | cons a as ih =>
      intro bs r s h
      cases bs with
      | nil =>
          obtain ⟨c, rest, ha, hne⟩ := hhead a
          simp only [List.flatMap_nil, List.flatMap_cons, ha, List.nil_append,
            List.cons_append] at h
          exact absurd (List.cons.inj h).1 hne
      | cons b bs =>
          simp only [List.flatMap_cons, List.append_assoc] at h
          obtain ⟨rfl, htail⟩ := hf h
          rw [← List.append_assoc, ← List.append_assoc] at htail
          obtain ⟨rfl, rfl⟩ := ih htail
          exact ⟨rfl, rfl⟩

end ReadOff

/-! ## Fields between separators -/

section Fields

variable {γ : Type*} {sep : γ} {n : ℕ} {a b r s : List γ} {as bs : List (List γ)}

theorem field_inj (ha : sep ∉ a) (hb : sep ∉ b) (h : a ++ sep :: r = b ++ sep :: s) :
    a = b ∧ r = s := by
  induction a generalizing b with
  | nil =>
      cases b with
      | nil => exact ⟨rfl, (List.cons.inj h).2⟩
      | cons d b =>
          rw [(List.cons.inj h).1] at hb
          exact absurd List.mem_cons_self hb
  | cons c a ih =>
      cases b with
      | nil =>
          rw [← (List.cons.inj h).1] at ha
          exact absurd List.mem_cons_self ha
      | cons d b =>
          obtain ⟨rfl, htail⟩ := List.cons.inj h
          obtain ⟨rfl, rfl⟩ := ih (List.not_mem_of_not_mem_cons ha)
            (List.not_mem_of_not_mem_cons hb) htail
          exact ⟨rfl, rfl⟩

def Continues (sep : γ) (n : ℕ) (rest : List γ) : Prop :=
  rest = [] ∨ ∃ key t, key.length = n ∧ sep ∉ key ∧ rest = key ++ sep :: t

theorem Continues.head_ne (h : Continues sep n (sep :: r)) (hn : 0 < n) : False := by
  rcases h with h | ⟨key, t, hlength, hkey, h⟩
  · cases h
  · cases key with
    | nil => exact absurd hlength (by simpa using hn.ne)
    | cons c key =>
        rw [(List.cons.inj h).1] at hkey
        exact hkey List.mem_cons_self

theorem last_inj (ha : sep ∉ a) (hb : sep ∉ b) (hr : Continues sep n r) (hs : Continues sep n s)
    (h : a ++ r = b ++ s) : a = b ∧ r = s := by
  rcases hr with rfl | ⟨key, t, hlength, hkey, rfl⟩
  · rcases hs with rfl | ⟨key', t', -, -, rfl⟩
    · exact ⟨by simpa using h, rfl⟩
    · have hmem : sep ∈ a := by
        rw [List.append_nil] at h
        rw [h]
        simp
      exact absurd hmem ha
  · rcases hs with rfl | ⟨key', t', hlength', hkey', rfl⟩
    · have hmem : sep ∈ b := by
        rw [List.append_nil] at h
        rw [← h]
        simp
      exact absurd hmem hb
    · rw [← List.append_assoc, ← List.append_assoc] at h
      obtain ⟨hfront, rfl⟩ := field_inj (by simp [ha, hkey]) (by simp [hb, hkey']) h
      obtain ⟨rfl, rfl⟩ := List.append_inj' hfront (hlength.trans hlength'.symm)
      exact ⟨rfl, rfl⟩

theorem fields_inj (hlength : as.length = bs.length) (has : ∀ a ∈ as, sep ∉ a)
    (hbs : ∀ b ∈ bs, sep ∉ b) (hr : Continues sep n r) (hs : Continues sep n s)
    (h : as.flatMap (sep :: ·) ++ r = bs.flatMap (sep :: ·) ++ s) : as = bs ∧ r = s := by
  induction as generalizing bs with
  | nil =>
      obtain rfl := List.length_eq_zero_iff.mp hlength.symm
      exact ⟨rfl, h⟩
  | cons a as ih =>
      cases bs with
      | nil => cases hlength
      | cons b bs =>
          have ha := has a List.mem_cons_self
          have hb := hbs b List.mem_cons_self
          simp only [List.flatMap_cons, List.cons_append, List.append_assoc] at h
          have h := (List.cons.inj h).2
          cases as with
          | nil =>
              obtain rfl := List.length_eq_zero_iff.mp (Nat.succ.inj hlength).symm
              simp only [List.flatMap_nil, List.nil_append] at h
              obtain ⟨rfl, rfl⟩ := last_inj ha hb hr hs h
              exact ⟨rfl, rfl⟩
          | cons a' as =>
              cases bs with
              | nil => cases hlength
              | cons b' bs =>
                  simp only [List.flatMap_cons, List.cons_append, List.append_assoc] at h
                  obtain ⟨rfl, hrest⟩ := field_inj ha hb h
                  obtain ⟨htail, rfl⟩ := ih (Nat.succ.inj hlength)
                    (fun x hx => has x (List.mem_cons_of_mem _ hx))
                    (fun x hx => hbs x (List.mem_cons_of_mem _ hx))
                    (by simp [hrest])
                  rw [htail]
                  exact ⟨rfl, rfl⟩

end Fields

end Codes
