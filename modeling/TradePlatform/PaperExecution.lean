/-
# `TradePlatform.PaperExecution` — the paper-order lifecycle

`paper_execution.py`: the transition table, and the two operations of a
`PaperOrder`.  Both stores of the OMS, the broker adapter and the replay of an
event log go through these two functions, so what they keep is proved here once,
in the terms of one order.
-/
import TradePlatform.Domain

namespace TradePlatform

open OrderStatus

def transitions : OrderStatus → List OrderStatus
  | proposed => [riskPending, cancelled]
  | riskPending => [approved, riskRejected]
  | approved => [submissionPending, cancelled]
  | submissionPending => [submitted, rejected, unknown]
  | submitted => [acknowledged, rejected, unknown]
  | acknowledged => [partiallyFilled, filled, cancelPending, expired]
  | partiallyFilled => [partiallyFilled, filled, cancelPending]
  | cancelPending => [cancelled, unknown]
  | _ => []

structure PaperOrder where
  intent : OrderIntent
  status : OrderStatus := proposed
  filledQuantity : Decimal := 0
  averageFillPrice : Option Decimal := none
deriving DecidableEq

namespace PaperOrder

/-- `PaperOrder(OrderIntent(..))` for a limit order of one account: the order of the
runs on fixed inputs below. -/
def limit (id : UUID) (side : OrderSide) (quantity limitPrice : Decimal) : PaperOrder where
  intent := ⟨id, 1, "00000000-0000-0000-0000-000000000001", "account", side, quantity, limitPrice,
    .aware 0⟩

def intentId (order : PaperOrder) : UUID := order.intent.intentId

def remainingQuantity (c : Decimal.Context) (order : PaperOrder) : Decimal :=
  c.sub order.intent.quantity order.filledQuantity

def transition (order : PaperOrder) (nextStatus : OrderStatus) : Except Exn PaperOrder :=
  if nextStatus ∉ transitions order.status then
    .error (.orderTransitionError
      (order.status.value ++ "->" ++ nextStatus.value ++ " is not allowed"))
  else .ok { order with status := nextStatus }

def Working (order : PaperOrder) : Prop :=
  order.status = acknowledged ∨ order.status = partiallyFilled

instance (order : PaperOrder) : Decidable order.Working :=
  inferInstanceAs (Decidable (_ ∨ _))

/-- `quantity * price`, added to what the average so far stands for. -/
def weighted (c : Decimal.Context) (order : PaperOrder) (quantity price : Decimal) : Decimal :=
  match order.averageFillPrice with
  | none => c.mul quantity price
  | some average => c.add (c.mul average order.filledQuantity) (c.mul quantity price)

def fill (c : Decimal.Context) (order : PaperOrder) (quantity price : Decimal) :
    Except Exn PaperOrder :=
  if ¬ order.Working then .error (.orderTransitionError "fill requires acknowledged order")
  else if quantity ≤ 0 ∨ price ≤ 0 ∨ quantity > order.remainingQuantity c then
    .error (.orderTransitionError "invalid_fill")
  else
    let filled := c.add order.filledQuantity quantity
    -- the division raises when a negative `filled_quantity` is brought to zero
    if filled = 0 then .error .arithmeticError
    else
      .ok { order with
        status := if filled = order.intent.quantity then .filled else .partiallyFilled
        filledQuantity := filled
        averageFillPrice := some (c.div (order.weighted c quantity price) filled) }

def withTerms (order : PaperOrder) (quantity limitPrice : Decimal) : PaperOrder :=
  { order with intent := { order.intent with quantity := quantity, limitPrice := limitPrice } }

def MayAmend (order : PaperOrder) (quantity limitPrice : Decimal) : Prop :=
  ¬ (¬ order.Working ∨ quantity < order.filledQuantity ∨ limitPrice ≤ 0)

instance (order : PaperOrder) (quantity limitPrice : Decimal) :
    Decidable (order.MayAmend quantity limitPrice) :=
  inferInstanceAs (Decidable (¬ _))

/-! ## What each operation can do -/

variable {c : Decimal.Context} {order updated : PaperOrder} {st : OrderStatus}
  {quantity price limitPrice : Decimal}

theorem transition_eq_ok : order.transition st = .ok updated ↔
    st ∈ transitions order.status ∧ updated = { order with status := st } := by
  unfold transition
  split <;> rename_i h
  · simp [h]
  · rw [not_not] at h
    simp [h, eq_comm]

/-- An accepted fill: the order works, the numbers are positive and fit, and the
updated order has the sum and the new average. -/
theorem fill_eq_ok : order.fill c quantity price = .ok updated ↔
    (order.Working ∧ 0 < quantity ∧ 0 < price ∧ quantity ≤ order.remainingQuantity c ∧
      c.add order.filledQuantity quantity ≠ 0) ∧
    updated = { order with
      status := if c.add order.filledQuantity quantity = order.intent.quantity
        then .filled else .partiallyFilled
      filledQuantity := c.add order.filledQuantity quantity
      averageFillPrice := some
        (c.div (order.weighted c quantity price) (c.add order.filledQuantity quantity)) } := by
  unfold fill
  split <;> rename_i hw
  · simp [hw]
  · rw [not_not] at hw
    split <;> rename_i hn
    · simp only [reduceCtorEq, false_iff, not_and]
      rintro ⟨_, hq, hp, hr, _⟩
      rcases hn with h | h | h
      · exact absurd hq (not_lt.mpr h)
      · exact absurd hp (not_lt.mpr h)
      · exact absurd hr (not_le.mpr h)
    · push Not at hn
      obtain ⟨hq, hp, hr⟩ := hn
      by_cases h0 : c.add order.filledQuantity quantity = 0
      · simp [h0]
      · simp [h0, hw, hq, hp, hr, eq_comm]

theorem mayAmend_iff : order.MayAmend quantity limitPrice ↔
    order.Working ∧ order.filledQuantity ≤ quantity ∧ 0 < limitPrice := by
  simp [MayAmend]

@[simp] theorem withTerms_status :
    (order.withTerms quantity limitPrice).status = order.status := rfl

@[simp] theorem withTerms_filledQuantity :
    (order.withTerms quantity limitPrice).filledQuantity = order.filledQuantity := rfl

@[simp] theorem withTerms_averageFillPrice :
    (order.withTerms quantity limitPrice).averageFillPrice = order.averageFillPrice := rfl

@[simp] theorem withTerms_quantity :
    (order.withTerms quantity limitPrice).intent.quantity = quantity := rfl

@[simp] theorem withTerms_intentId :
    (order.withTerms quantity limitPrice).intentId = order.intentId := rfl

theorem intentId_of_transition (h : order.transition st = .ok updated) :
    updated.intentId = order.intentId := by
  obtain ⟨_, rfl⟩ := transition_eq_ok.mp h
  rfl

theorem intentId_of_fill (h : order.fill c quantity price = .ok updated) :
    updated.intentId = order.intentId := by
  obtain ⟨_, rfl⟩ := fill_eq_ok.mp h
  rfl

theorem working_of_mem (h : cancelPending ∈ transitions order.status) : order.Working := by
  unfold Working
  revert h
  cases order.status <;> simp [transitions]

theorem mem_of_working (h : order.Working) : cancelPending ∈ transitions order.status := by
  rcases h with h | h <;> rw [h] <;> simp [transitions]

theorem transition_cancelled (h : order.transition cancelPending = .ok updated) :
    updated.transition cancelled = .ok { updated with status := cancelled } := by
  obtain ⟨_, rfl⟩ := transition_eq_ok.mp h
  exact transition_eq_ok.mpr ⟨by simp [transitions], rfl⟩

end PaperOrder

/-! ## Positions and cash -/

structure Position where
  instrumentId : String
  quantity : Decimal
  averageCost : Decimal
deriving DecidableEq

structure CashBalance where
  currency : String
  amount : Decimal
deriving DecidableEq

end TradePlatform
