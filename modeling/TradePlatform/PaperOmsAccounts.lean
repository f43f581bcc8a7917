/-
# `TradePlatform.PaperOmsAccounts` — the order row agrees with its fill log

The SQLite OMS keeps a filled quantity and an average price in the order row and
every fill in a table of its own; nothing but `fill` ties the two together.  Here
the arithmetic is exact.  The invariant is about one order and the list of its
fills (`Accounted`), each operation of `PaperOrder` keeps it, and the store's calls
keep it for every row because a call writes one row.
-/
import TradePlatform.PaperOms

namespace TradePlatform

open OrderStatus

structure Accounted (o : PaperOrder) (fills : List PaperFill) : Prop where
  filled : o.filledQuantity = (fills.map fun f => f.quantity.value).sum
  nonneg : 0 ≤ o.filledQuantity
  le : o.filledQuantity ≤ o.intent.quantity
  average_none : o.averageFillPrice = none ↔ fills = []
  average : ∀ a, o.averageFillPrice = some a →
    a * o.filledQuantity = (fills.map fun f => f.quantity.value * f.price.value).sum

namespace Accounted

variable {o o' : PaperOrder} {fills : List PaperFill}

/-! ## One order -/

theorem created (hf : o.filledQuantity = 0) (hq : 0 ≤ o.intent.quantity) :
    Accounted { o with averageFillPrice := none } [] where
  filled := hf
  nonneg := hf.ge
  le := by rw [hf]; exact hq
  average_none := by simp
  average := by simp

theorem transition {st : OrderStatus} (h : Accounted o fills)
    (ok : o.transition st = .ok o') : Accounted o' fills := by
  obtain ⟨_, rfl⟩ := PaperOrder.transition_eq_ok.mp ok
  exact ⟨h.filled, h.nonneg, h.le, h.average_none, h.average⟩

theorem withTerms {q p : Decimal} (h : Accounted o fills) (may : o.MayAmend q p) :
    Accounted (o.withTerms q p) fills :=
  ⟨h.filled, h.nonneg, (PaperOrder.mayAmend_iff.mp may).2.1, h.average_none, h.average⟩

/-- The weighted sum that `fill` divides by the filled quantity is the sum over
the fills with the new one. -/
theorem weighted_eq (h : Accounted o fills) (f : PaperFill) :
    o.weighted .exact f.quantity.value f.price.value =
      ((fills ++ [f]).map fun f => f.quantity.value * f.price.value).sum := by
  rw [List.map_append, List.sum_append]
  unfold PaperOrder.weighted
  cases ha : o.averageFillPrice with
  | none =>
      rw [h.average_none.mp ha]
      simp [Decimal.Context.mul]
  | some a =>
      show a * o.filledQuantity + f.quantity.value * f.price.value = _
      rw [h.average a ha]
      simp

theorem fill (h : Accounted o fills) (f : PaperFill)
    (ok : o.fill .exact f.quantity.value f.price.value = .ok o') :
    Accounted o' (fills ++ [f]) := by
  obtain ⟨⟨_, hq, _, hr, hne⟩, rfl⟩ := PaperOrder.fill_eq_ok.mp ok
  have hadd : Decimal.Context.exact.add o.filledQuantity f.quantity.value =
      o.filledQuantity + f.quantity.value := rfl
  have hrem : f.quantity.value ≤ o.intent.quantity - o.filledQuantity := hr
  rw [hadd] at hne
  constructor
  · show o.filledQuantity + f.quantity.value = _
    rw [h.filled]
    simp
  · exact add_nonneg h.nonneg hq.le
  · show o.filledQuantity + f.quantity.value ≤ o.intent.quantity
    linarith
  · simp
  · intro a ha
    have ha' : o.weighted .exact f.quantity.value f.price.value /
        (o.filledQuantity + f.quantity.value) = a := Option.some.inj ha
    show a * (o.filledQuantity + f.quantity.value) = _
    rw [← ha', div_mul_cancel₀ _ hne, h.weighted_eq f]

end Accounted

namespace SQLitePaperOms

/-! ## The store -/

structure Accounts (s : SQLitePaperOms) : Prop where
  order : ∀ {id o}, s.orders.find? id = some o → Accounted o (s.fillsOf id)
  owned : ∀ f ∈ s.fills.rows, s.orders.find? f.intentId ≠ none

variable {s : SQLitePaperOms} {o : PaperOrder} {ev : List (UUID × OmsEvent)}

theorem Accounts.put (h : s.Accounts) (ho : Accounted o (s.fillsOf o.intentId)) :
    Accounts ⟨s.orders.put o, ev, s.fills⟩ where
  order := by
    intro id r hr
    rw [Table.find?_put] at hr
    split at hr
    · rename_i hid
      cases hr
      exact hid ▸ ho
    · exact h.order hr
  owned := by
    intro f hf
    rw [Table.find?_put]
    split
    · exact Option.some_ne_none _
    · exact h.owned f hf

theorem Accounts.fillsOf_fresh (h : s.Accounts) {id : UUID} (hn : s.orders.find? id = none) :
    s.fillsOf id = [] := by
  refine List.filter_eq_nil_iff.mpr fun f hf => ?_
  simp only [decide_eq_true_eq]
  intro hid
  exact h.owned f hf (hid ▸ hn)

theorem fillsOf_put {f : PaperFill} {t : Table PaperOrder.intentId}
    (fresh : s.fills.find? f.externalFillId = none) (id : UUID) :
    fillsOf ⟨t, ev, s.fills.put f⟩ id =
      if f.intentId = id then s.fillsOf id ++ [f] else s.fillsOf id := by
  simp only [fillsOf, Table.rows_put_of_none fresh, List.filter_append]
  by_cases h : f.intentId = id
  · simp [h]
  · simp [h]

theorem Accounts.put_fill (h : s.Accounts) {f : PaperFill}
    (fresh : s.fills.find? f.externalFillId = none) (hid : o.intentId = f.intentId)
    (ho : Accounted o (s.fillsOf f.intentId ++ [f])) :
    Accounts ⟨s.orders.put o, ev, s.fills.put f⟩ where
  order := by
    intro id r hr
    rw [fillsOf_put fresh]
    rw [Table.find?_put, hid] at hr
    split at hr
    · rename_i heq
      cases hr
      rw [if_pos heq, ← heq]
      exact ho
    · rename_i hne
      rw [if_neg hne]
      exact h.order hr
  owned := by
    intro g hg
    rw [Table.find?_put, hid]
    split
    · exact Option.some_ne_none _
    · rename_i hne
      rcases Table.mem_put.mp hg with rfl | ⟨hg, _⟩
      · exact absurd rfl hne
      · exact h.owned g hg

/-- The condition on the calls: an order is created unfilled and not for a negative
quantity. -/
def CreatesUnfilled : OmsCall → Prop
  | .create order => order.filledQuantity = 0 ∧ 0 ≤ order.intent.quantity
  | _ => True

theorem Accounts.step {a : OmsCall} (h : s.Accounts) (ha : CreatesUnfilled a) :
    (s.step .exact a).Accounts := by
  have hs := step_spec .exact s a
  revert hs
  generalize s.step .exact a = s'
  intro hs
  cases hs with
  | none => exact h
  | @create order ev hp fresh =>
      refine h.put ?_
      have hnil : s.fillsOf ({ order with averageFillPrice := none } : PaperOrder).intentId = [] :=
        h.fillsOf_fresh fresh
      rw [hnil]
      exact .created ha.1 ha.2
  | transition row ok =>
      refine h.put ?_
      rw [(PaperOrder.intentId_of_transition ok).trans (Table.key_of_find? row)]
      exact (h.order row).transition ok
  | @fill ext id q p at_ o o' ev fresh row ok =>
      exact h.put_fill (f := ⟨ext, id, at_, q, p⟩) fresh
        ((PaperOrder.intentId_of_fill ok).trans (Table.key_of_find? row))
        ((h.order row).fill ⟨ext, id, at_, q, p⟩ ok)
  | @cancel id actor o o₁ o₂ ev row pending done =>
      have h₁ : o₁.intentId = id :=
        (PaperOrder.intentId_of_transition pending).trans (Table.key_of_find? row)
      have hput : Accounts ⟨s.orders.put o₁, ev, s.fills⟩ := by
        refine h.put ?_
        rw [h₁]
        exact (h.order row).transition pending
      refine hput.put ?_
      rw [(PaperOrder.intentId_of_transition done).trans h₁]
      exact (hput.order (h₁ ▸ Table.find?_put_self _ _)).transition done
  | amend row may =>
      refine h.put ?_
      rw [PaperOrder.withTerms_intentId, Table.key_of_find? row]
      exact (h.order row).withTerms may

theorem accounts_empty : Accounts empty where
  order := by
    intro id o h
    simp [empty] at h
  owned := by
    intro f hf
    simp [empty] at hf

def OrdersAccounted (s : SQLitePaperOms) : Prop :=
  ∀ id o, s.get id = .ok o → Accounted o (s.fillsOf id)

/-- The run lemma, over any sequence of calls, rejected ones included. -/
theorem orders_accounted (calls : List OmsCall)
    (unfilled : ∀ order, OmsCall.create order ∈ calls →
      order.filledQuantity = 0 ∧ 0 ≤ order.intent.quantity) :
    Run.Always (step .exact) OrdersAccounted empty calls := by
  have hcalls : ∀ a ∈ calls, CreatesUnfilled a := by
    intro a ha
    cases a with
    | create order => exact unfilled order ha
    | _ => trivial
  have heach : Run.Each (step .exact) (fun _ a => CreatesUnfilled a) empty calls :=
    .of_forall fun a ha _ => hcalls a ha
  have hrun : Run.Always (step .exact) Accounts empty calls :=
    heach.always (fun _ _ h ha => h.step ha) accounts_empty
  refine hrun.mono fun s h => ?_
  intro id o ho
  exact h.order (get_eq_ok.mp ho)

/-- A partial fill and an amendment under it. -/
theorem orders_accounted_partial_fill :
    Run.Always (step .exact) OrdersAccounted empty
      ([.create (.limit 1 .buy 10 100)] ++ OmsCall.progressToAcknowledged 1 ++
        [.ingestFill "f1" 1 ⟨4, 0⟩ ⟨99, 0⟩ (.aware 0), .amend 1 6 101 "operator"]) :=
  orders_accounted _ fun order h => by
    simp only [OmsCall.progressToAcknowledged, List.map_cons, List.map_nil, List.cons_append,
      List.nil_append, List.mem_cons, OmsCall.create.injEq, reduceCtorEq, List.not_mem_nil,
      or_false] at h
    subst h
    decide

/-- `create` checks the status of the order only: a negative quantity is stored, and
so is a filled quantity without a fill. -/
theorem create_unaccounted :
    ¬ Run.Always (step .exact) OrdersAccounted empty [.create (.limit 1 .buy (-1) 100)] ∧
    ¬ Run.Always (step .exact) OrdersAccounted empty
      [.create { PaperOrder.limit 1 .buy 10 100 with filledQuantity := 3 }] := by
  constructor
  · intro h
    exact absurd (h.2 1 (.limit 1 .buy (-1) 100) rfl).le (by decide)
  · intro h
    have hf := (h.2 1 { PaperOrder.limit 1 .buy 10 100 with filledQuantity := 3 } rfl).filled
    exact absurd hf (by decide)

end SQLitePaperOms

end TradePlatform
