/-
# `TradePlatform.Lib.Stretches` — a list cut into stretches of linked elements

`List.splitBy` cuts a list where an element is not linked to the next.  Of two lists one after the
other, the last stretch of the first and the first of the second are one stretch if there is a
link between them; and a list in which what a test keeps lies together is cut in three by the
test.
-/
import Mathlib

namespace Stretches

variable {α β κ : Type*} {r : α → α → Bool} {l m : List α}

/-! ## Two lists one after the other -/

theorem exists_concat (hne : l ≠ []) :
    ∃ front x, l.splitBy r = front ++ [x] ∧ x ≠ [] ∧ x.getLast? = l.getLast? := by
  have hsplit : l.splitBy r ≠ [] := List.splitBy_ne_nil.mpr hne
  have hmem := List.getLast_mem hsplit
  have hx := List.ne_nil_of_mem_splitBy hmem
  refine ⟨_, _, (List.dropLast_append_getLast hsplit).symm, hx, ?_⟩
  rw [List.getLast?_eq_some_getLast hx, List.getLast?_eq_some_getLast hne,
    List.getLast_getLast_splitBy r hne]

theorem exists_cons (hne : l ≠ []) :
    ∃ x rest, l.splitBy r = x :: rest ∧ x ≠ [] ∧ x.head? = l.head? := by
  have hsplit : l.splitBy r ≠ [] := List.splitBy_ne_nil.mpr hne
  have hx := List.ne_nil_of_mem_splitBy (List.head_mem hsplit)
  refine ⟨_, _, (List.cons_head_tail hsplit).symm, hx, ?_⟩
  rw [List.head?_eq_some_head hx, List.head?_eq_some_head hne, List.head_head_splitBy r hne]

theorem splitBy_linked {front rest : List (List α)} {x y : List α}
    (hl : l.splitBy r = front ++ [x]) (hm : m.splitBy r = y :: rest)
    (h : ∀ a ∈ l.getLast?, ∀ b ∈ m.head?, r a b = true) :
    (l ++ m).splitBy r = front ++ (x ++ y) :: rest := by
  obtain ⟨hflat, hnil, hchain, hbreaks⟩ := List.splitBy_eq_iff.mp hl
  obtain ⟨hflat', hnil', hchain', hbreaks'⟩ := List.splitBy_eq_iff.mp hm
  have hx : x ≠ [] := fun heq => hnil (by simp [heq])
  have hy : y ≠ [] := fun heq => hnil' (by simp [heq])
  refine List.splitBy_eq_iff.mpr ⟨?_, ?_, ?_, ?_⟩
  · rw [hflat, hflat']
    simp
  · simp only [List.mem_append, List.mem_cons, not_or] at hnil hnil' ⊢
    exact ⟨hnil.1, fun heq => hx (List.append_eq_nil_iff.mp heq.symm).1, hnil'.2⟩
  · intro c hc
    rcases List.mem_append.mp hc with hc | hc
    · exact hchain c (List.mem_append_left _ hc)
    · rcases List.mem_cons.mp hc with rfl | hc
      · refine List.isChain_append.mpr ⟨hchain x (by simp), hchain' y List.mem_cons_self, ?_⟩
        intro a ha b hb
        refine h a ?_ b ?_
        · rw [hflat, List.flatten_append, List.flatten_singleton,
            List.getLast?_append_of_ne_nil _ hx]
          exact ha
        · rw [hflat', List.flatten_cons, List.head?_append_of_ne_nil _ hy]
          exact hb
      · exact hchain' c (List.mem_cons_of_mem _ hc)
  · obtain ⟨hfront, -, hjoin⟩ := List.isChain_append.mp hbreaks
    obtain ⟨hjoin', hrest⟩ := List.isChain_cons.mp hbreaks'
    refine List.isChain_append.mpr ⟨hfront, List.isChain_cons.mpr ⟨fun c hc => ?_, hrest⟩, ?_⟩
    · obtain ⟨_, hc', hbreak⟩ := hjoin' c hc
      refine ⟨List.append_ne_nil_of_right_ne_nil _ hy, hc', ?_⟩
      rwa [List.getLast_append_of_ne_nil _ hy]
    · intro c hc d hd
      obtain ⟨hc', _, hbreak⟩ := hjoin c hc x (by simp)
      cases hd
      refine ⟨hc', List.append_ne_nil_of_left_ne_nil hx _, ?_⟩
      rwa [List.head_append_of_ne_nil hx]

/-! ## What a test keeps -/

theorem filter_together {p : α → Bool}
    (h : ∀ a b c, [a, b, c].Sublist l → p a = true → p c = true → p b = true) :
    ∃ before after, l = before ++ l.filter p ++ after ∧ (∀ a ∈ before, p a = false) ∧
      ∀ a ∈ after, p a = false := by
  have hsplit := List.takeWhile_append_dropWhile (p := fun a => !p a) (l := l)
  have hbefore : ∀ a ∈ l.takeWhile fun a => !p a, p a = false := fun a ha => by
    simpa using List.mem_takeWhile_imp ha
  generalize hrest : l.dropWhile (fun a => !p a) = rest at hsplit
  generalize l.takeWhile (fun a => !p a) = before at hsplit hbefore
  have hsplit' := List.takeWhile_append_dropWhile (p := p) (l := rest)
  have hkept : ∀ a ∈ rest.takeWhile p, p a = true := fun a ha => List.mem_takeWhile_imp ha
  have hafter : ∀ c ∈ rest.dropWhile p, p c = false := by
    intro c hc
    by_contra hpc
    rw [Bool.not_eq_false] at hpc
    cases hdrop : rest.dropWhile p with
    | nil =>
        rw [hdrop] at hc
        cases hc
    | cons b after =>
        have hb : p b = false := by
          have hne : rest.dropWhile p ≠ [] := by
            rw [hdrop]
            exact List.cons_ne_nil _ _
          have hhead := List.head_dropWhile_not p (l := rest) hne
          simpa [hdrop] using hhead
        cases hkeep : rest.takeWhile p with
        | nil =>
            -- the rest starts with what is kept
            rw [hkeep, hdrop, List.nil_append] at hsplit'
            have hhead := List.head_dropWhile_not (fun a => !p a) (l := l)
              (by rw [hrest, ← hsplit']; exact List.cons_ne_nil _ _)
            simp [hrest, ← hsplit', hb] at hhead
        | cons a kept =>
            rw [hdrop] at hc hsplit'
            rcases List.mem_cons.mp hc with rfl | hc
            · rw [hb] at hpc
              cases hpc
            · have hsub : [a, b, c].Sublist l := by
                rw [← hsplit, ← hsplit', hkeep]
                refine List.Sublist.trans ?_ (List.sublist_append_right before _)
                refine List.Sublist.cons_cons a (List.Sublist.trans ?_
                  (List.sublist_append_right kept _))
                exact List.Sublist.cons_cons b (List.singleton_sublist.mpr hc)
              have hpb := h a b c hsub (hkept a (by rw [hkeep]; exact List.mem_cons_self)) hpc
              rw [hb] at hpb
              cases hpb
  refine ⟨before, rest.dropWhile p, ?_, hbefore, hafter⟩
  have hfilter : l.filter p = rest.takeWhile p := by
    rw [← hsplit, ← hsplit', List.filter_append, List.filter_append,
      List.filter_eq_nil_iff.mpr fun a ha => by simp [hbefore a ha],
      List.filter_eq_self.mpr hkept, List.filter_eq_nil_iff.mpr fun a ha => by simp [hafter a ha],
      List.nil_append, List.append_nil]
    rw [hsplit']
  rw [hfilter, List.append_assoc, hsplit', hsplit]

theorem filter_together_concat {p : α → Bool} {a : α}
    (h : ∀ x b c, [x, b, c].Sublist (l ++ [a]) → p x = true → p c = true → p b = true)
    (ha : p a = true) :
    ∃ before, l ++ [a] = before ++ (l ++ [a]).filter p ∧ ∀ x ∈ before, p x = false := by
  obtain ⟨before, after, hl, hbefore, hafter⟩ := filter_together h
  have hnil : after = [] := by
    by_contra hne
    have hlast := congrArg List.getLast? hl
    rw [List.getLast?_concat, List.getLast?_append_of_ne_nil _ hne] at hlast
    have hfalse := hafter a (List.mem_of_getLast? hlast.symm)
    rw [ha] at hfalse
    cases hfalse
  rw [hnil, List.append_nil] at hl
  exact ⟨before, hl, hbefore⟩

theorem filter_together_cons {p : α → Bool} {b : α}
    (h : ∀ x y c, [x, y, c].Sublist (b :: l) → p x = true → p c = true → p y = true)
    (hb : p b = true) :
    ∃ after, b :: l = (b :: l).filter p ++ after ∧ ∀ x ∈ after, p x = false := by
  obtain ⟨before, after, hl, hbefore, hafter⟩ := filter_together h
  have hnil : before = [] := by
    by_contra hne
    have hhead := congrArg List.head? hl
    rw [List.append_assoc, List.head?_append_of_ne_nil _ hne] at hhead
    have hfalse := hbefore b (List.mem_of_mem_head? hhead.symm)
    rw [hb] at hfalse
    cases hfalse
  rw [hnil, List.nil_append] at hl
  exact ⟨after, hl, hafter⟩

theorem flatten_filter {parts : List (List α)} {f : α → Bool} {g : List α → Bool}
    (h : ∀ p ∈ parts, ∀ a ∈ p, f a = g p) :
    (parts.filter g).flatten = parts.flatten.filter f := by
  induction parts with
  | nil => rfl
  | cons p parts ih =>
      have hrest := ih fun q hq => h q (List.mem_cons_of_mem _ hq)
      have hp := h p List.mem_cons_self
      rw [List.flatten_cons, List.filter_append, ← hrest]
      cases hg : g p with
      | true =>
          rw [List.filter_cons_of_pos hg, List.flatten_cons,
            List.filter_eq_self.mpr fun a ha => (hp a ha).trans hg]
      | false =>
          have hnone : p.filter f = [] :=
            List.filter_eq_nil_iff.mpr fun a ha => by simp [hp a ha, hg]
          rw [List.filter_cons_of_neg (by simp [hg]), hnone, List.nil_append]

theorem perm_flatMap_insert [DecidableEq κ] {keys : List κ} {k₀ : κ} (hkeys : keys.Nodup)
    (hk : k₀ ∈ keys) (a : α) (f : κ → List α) :
    (keys.flatMap fun k => if k₀ = k then a :: f k else f k).Perm (a :: keys.flatMap f) := by
  induction keys with
  | nil => cases hk
  | cons k keys ih =>
      obtain ⟨hnotMem, hnodup⟩ := List.nodup_cons.mp hkeys
      rw [List.flatMap_cons, List.flatMap_cons]
      by_cases heq : k₀ = k
      · subst heq
        have hrest : keys.flatMap (fun k => if k₀ = k then a :: f k else f k) = keys.flatMap f := by
          refine List.flatMap_congr fun k hk => if_neg ?_
          rintro rfl
          exact hnotMem hk
        rw [if_pos rfl, hrest, List.cons_append]
      · rw [if_neg heq]
        have hmem := (List.mem_cons.mp hk).resolve_left heq
        exact ((ih hnodup hmem).append_left (f k)).trans List.perm_middle

theorem perm_flatMap_key [DecidableEq κ] {keys : List κ} {key : α → κ} (hkeys : keys.Nodup)
    (h : ∀ a ∈ l, key a ∈ keys) :
    l.Perm (keys.flatMap fun k => l.filter fun a => decide (key a = k)) := by
  induction l with
  | nil => simp
  | cons a l ih =>
      have hcons : ∀ k, ((a :: l).filter fun b => decide (key b = k)) =
          if key a = k then a :: l.filter (fun b => decide (key b = k))
          else l.filter fun b => decide (key b = k) := by
        intro k
        by_cases hk : key a = k
        · simp [hk]
        · simp [hk]
      rw [List.flatMap_congr fun k _ => hcons k]
      exact ((ih fun b hb => h b (List.mem_cons_of_mem _ hb)).cons a).trans
        (perm_flatMap_insert hkeys (h a List.mem_cons_self) a _).symm

end Stretches
