/-
# `TradePlatform.PaperOmsStatus` — the status agrees with the quantities

`PaperOrder.fill` marks an order `FILLED` exactly when the filled quantity reaches
the quantity of the intent.  Two other operations write one side of that rule and
not the other: a bare transition to a fill status moves no quantity, and an
amendment down to what is filled moves no status.  `StatusSafe` says that a call is
not one of these; under it the rule is an invariant of every book (`Effect`), hence
of both stores.
-/
import TradePlatform.PostgresPaperOms

namespace TradePlatform

open OrderStatus

structure StatusSound (o : PaperOrder) : Prop where
  filled_iff : o.status = filled ↔
    o.filledQuantity = o.intent.quantity ∧ 0 < o.intent.quantity
  partially : o.status = partiallyFilled →
    0 < o.filledQuantity ∧ o.filledQuantity < o.intent.quantity

/-- The condition on a call, in the book it is made in: orders are created unfilled,
no bare transition leads to `FILLED` or from `ACKNOWLEDGED` to `PARTIALLY_FILLED`,
no amendment lands on a positive filled quantity, and the two sums of a fill need
no rounding. -/
def StatusSafe (c : Decimal.Context) (book : Book) : OmsCall → Prop
  | .create order => order.filledQuantity = 0
  | .transition id st _ => ∀ o ∈ book id,
      (st = filled → ¬ o.Working) ∧ (st = partiallyFilled → o.status ≠ acknowledged)
  | .ingestFill _ id q _ _ => ∀ o ∈ book id,
      c.Represents (o.intent.quantity - o.filledQuantity) ∧
      c.Represents (o.filledQuantity + q.value)
  | .cancel _ _ => True
  | .amend id q p _ => ∀ o ∈ book id,
      o.MayAmend q p → ¬ (q = o.filledQuantity ∧ 0 < q)

instance (c : Decimal.Context) (book : Book) : ∀ a, Decidable (StatusSafe c book a)
  | .create _ => inferInstanceAs (Decidable (_ = _))
  | .transition id _ _ => inferInstanceAs (Decidable (∀ o ∈ book id, _))
  | .ingestFill _ id _ _ _ => inferInstanceAs (Decidable (∀ o ∈ book id, _))
  | .cancel _ _ => inferInstanceAs (Decidable True)
  | .amend id _ _ _ => inferInstanceAs (Decidable (∀ o ∈ book id, _))

/-! ## One order -/

theorem mem_transitions_filled {st : OrderStatus} (h : filled ∈ transitions st) :
    st = acknowledged ∨ st = partiallyFilled := by
  cases st <;> simp_all [transitions]

theorem mem_transitions_partiallyFilled {st : OrderStatus}
    (h : partiallyFilled ∈ transitions st) : st = acknowledged ∨ st = partiallyFilled := by
  cases st <;> simp_all [transitions]

/-- `StatusSound`, with the sign that the arithmetic of a fill needs. -/
structure StatusInv (o : PaperOrder) : Prop extends StatusSound o where
  nonneg : 0 ≤ o.filledQuantity

namespace StatusInv

variable {c : Decimal.Context} {o o' : PaperOrder} {st : OrderStatus}

theorem created (hs : o.status = proposed) (hf : o.filledQuantity = 0) : StatusInv o where
  filled_iff := by
    rw [hs, hf]
    constructor
    · intro h
      cases h
    · rintro ⟨h, hpos⟩
      exact absurd h hpos.ne
  partially := by
    rw [hs]
    intro h
    cases h
  nonneg := hf.ge

theorem transition (h : StatusInv o) (ok : o.transition st = .ok o')
    (hfilled : st = filled → ¬ o.Working)
    (hpart : st = partiallyFilled → o.status ≠ acknowledged) : StatusInv o' := by
  obtain ⟨hmem, rfl⟩ := PaperOrder.transition_eq_ok.mp ok
  have hst : st ≠ filled := by
    rintro rfl
    exact hfilled rfl (mem_transitions_filled hmem)
  have ho : o.status ≠ filled := by
    intro e
    rw [e] at hmem
    simp [transitions] at hmem
  refine ⟨⟨?_, ?_⟩, h.nonneg⟩
  · exact ⟨fun e => absurd e hst, fun e => absurd (h.filled_iff.mpr e) ho⟩
  · rintro rfl
    rcases mem_transitions_partiallyFilled hmem with e | e
    · exact absurd e (hpart rfl)
    · exact h.partially e

theorem fill {q p : Decimal} (h : StatusInv o) (ok : o.fill c q p = .ok o')
    (hrem : c.Represents (o.intent.quantity - o.filledQuantity))
    (hadd : c.Represents (o.filledQuantity + q)) : StatusInv o' := by
  obtain ⟨⟨_, hq, _, hr, _⟩, rfl⟩ := PaperOrder.fill_eq_ok.mp ok
  have hr' : q ≤ o.intent.quantity - o.filledQuantity := by
    simpa only [PaperOrder.remainingQuantity, Decimal.Context.sub_eq hrem] using hr
  have hpos : 0 < o.filledQuantity + q := add_pos_of_nonneg_of_pos h.nonneg hq
  have hle : o.filledQuantity + q ≤ o.intent.quantity := by linarith
  rw [Decimal.Context.add_eq hadd]
  refine ⟨⟨?_, ?_⟩, hpos.le⟩
  · show (if _ then _ else _) = filled ↔ o.filledQuantity + q = _ ∧ _
    split
    · rename_i heq
      exact iff_of_true rfl ⟨heq, heq ▸ hpos⟩
    · rename_i hne
      exact iff_of_false (by simp) fun e => hne e.1
  · show (if _ then _ else _) = partiallyFilled → 0 < o.filledQuantity + q ∧ _
    split
    · intro e
      cases e
    · rename_i hne
      exact fun _ => ⟨hpos, lt_of_le_of_ne hle hne⟩

theorem withTerms {q p : Decimal} (h : StatusInv o) (may : o.MayAmend q p)
    (hq : ¬ (q = o.filledQuantity ∧ 0 < q)) : StatusInv (o.withTerms q p) := by
  obtain ⟨hw, hle, _⟩ := PaperOrder.mayAmend_iff.mp may
  have ho : o.status ≠ filled := by
    rcases hw with e | e <;> rw [e] <;> simp
  refine ⟨⟨?_, ?_⟩, h.nonneg⟩
  · exact ⟨fun e => absurd e ho, fun e => absurd ⟨e.1.symm, e.2⟩ hq⟩
  · intro e
    have hpos : 0 < o.filledQuantity := (h.partially e).1
    exact ⟨hpos, lt_of_le_of_ne hle fun heq : o.filledQuantity = q => hq ⟨heq.symm, heq ▸ hpos⟩⟩

end StatusInv

/-! ## Every book -/

def BookSound (book : Book) : Prop := ∀ id o, book id = some o → StatusInv o

theorem BookSound.update {book : Book} {id : UUID} {o : PaperOrder} (h : BookSound book)
    (ho : StatusInv o) : BookSound (Function.update book id (some o)) := by
  intro k r hr
  by_cases hk : k = id
  · subst hk
    rw [Function.update_self] at hr
    exact Option.some.inj hr ▸ ho
  · rw [Function.update_of_ne hk] at hr
    exact h k r hr

theorem BookSound.effect {c : Decimal.Context} {book book' : Book} {a : OmsCall}
    (h : BookSound book) (safe : StatusSafe c book a) (he : Effect c book a book') :
    BookSound book' := by
  cases he with
  | none => exact h
  | @create order stored fresh hp average hf =>
      refine h.update (.created hp ?_)
      rcases hf with hf | hf
      · exact hf
      · exact hf.trans safe
  | transition row ok =>
      exact h.update ((h _ _ row).transition ok (safe _ row).1 (safe _ row).2)
  | fill row ok => exact h.update ((h _ _ row).fill ok (safe _ row).1 (safe _ row).2)
  | cancel row pending done =>
      have h₁ := (h _ _ row).transition pending (by simp) (by simp)
      exact h.update (h₁.transition done (by simp) (by simp))
  | amend row may => exact h.update ((h _ _ row).withTerms may (safe _ row may))

/-! ## Both stores -/

/-- The run lemma: in every run of safe calls, each store returns sound orders only. -/
theorem orders_status_sound (c : Decimal.Context) (env : PgEnv) (calls : List OmsCall) :
    (Run.Each (SQLitePaperOms.step c) (fun s => StatusSafe c s.book) .empty calls →
      Run.Always (SQLitePaperOms.step c) (fun s => ∀ id o, s.get id = .ok o → StatusSound o)
        .empty calls) ∧
    (Run.Each (PostgresPaperOms.step c env) (fun s => StatusSafe c (s.book c)) .empty calls →
      Run.Always (PostgresPaperOms.step c env)
        (fun s => ∀ id o, s.get c id = .ok o → StatusSound o) .empty calls) := by
  constructor
  · intro hsafe
    have hrun : Run.Always (SQLitePaperOms.step c) (fun s => BookSound s.book) .empty calls :=
      hsafe.always (fun s a h ha => h.effect ha (s.step_effect c a)) (fun id o ho => by
        simp [SQLitePaperOms.book, SQLitePaperOms.empty] at ho)
    exact hrun.mono fun s h id o ho => (h id o (SQLitePaperOms.get_eq_ok.mp ho)).toStatusSound
  · intro hsafe
    have hrun : Run.Always (PostgresPaperOms.step c env) (fun s => BookSound (s.book c)) .empty
        calls :=
      hsafe.always (fun s a h ha => h.effect ha (s.step_effect c env a)) (fun id o ho => by
        simp [PostgresPaperOms.book, PostgresPaperOms.order, PostgresPaperOms.empty,
          Except.toOption] at ho)
    exact hrun.mono fun s h id o ho => (h id o (PostgresPaperOms.book_eq_some.mpr
      (PostgresPaperOms.get_eq_ok.mp ho))).toStatusSound

/-- A partial fill, an amendment above it, the rest of the fill. -/
theorem orders_status_sound_filled :
    let calls := [.create (.limit 1 .buy 10 100)] ++ OmsCall.progressToAcknowledged 1 ++
      [.ingestFill "f1" 1 ⟨4, 0⟩ ⟨99, 0⟩ (.aware 0), .amend 1 6 101 "operator",
        .ingestFill "f2" 1 ⟨2, 0⟩ ⟨101, 0⟩ (.aware 0)]
    Run.Always (SQLitePaperOms.step .default) (fun s => ∀ id o, s.get id = .ok o → StatusSound o)
      .empty calls ∧
    Run.Always (PostgresPaperOms.step .default .sample)
      (fun s => ∀ id o, s.get .default id = .ok o → StatusSound o) .empty calls :=
  ⟨(orders_status_sound .default .sample _).1 (by decide +kernel),
    (orders_status_sound .default .sample _).2 (by decide +kernel)⟩

/-- An order of 10, filled for 4 and amended to 4, stays `PARTIALLY_FILLED` with
nothing left to fill; a bare transition makes an unfilled order `FILLED`. -/
theorem amend_to_filled_unsound :
    ¬ Run.Always (SQLitePaperOms.step .default)
      (fun s => ∀ id o, s.get id = .ok o → StatusSound o) .empty
      ([.create (.limit 1 .buy 10 100)] ++ OmsCall.progressToAcknowledged 1 ++
        [.ingestFill "f1" 1 ⟨4, 0⟩ ⟨99, 0⟩ (.aware 0), .amend 1 4 100 "operator"]) ∧
    ¬ Run.Always (PostgresPaperOms.step .default .sample)
      (fun s => ∀ id o, s.get .default id = .ok o → StatusSound o) .empty
      ([.create (.limit 1 .buy 10 100)] ++ OmsCall.progressToAcknowledged 1 ++
        [.transition 1 filled "system"]) := by
  constructor
  · intro h
    have hs := h.exec 1 { PaperOrder.limit 1 .buy 4 100 with
      status := partiallyFilled, filledQuantity := 4, averageFillPrice := some 99 }
      (by decide +kernel)
    exact absurd (hs.filled_iff.mpr (by decide)) (by decide)
  · intro h
    have hs := h.exec 1 { PaperOrder.limit 1 .buy 10 100 with status := filled }
      (by decide +kernel)
    exact absurd (hs.filled_iff.mp rfl).1 (by decide)

end TradePlatform
