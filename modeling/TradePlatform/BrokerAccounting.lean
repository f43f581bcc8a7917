/-
# `TradePlatform.BrokerAccounting` — cash, positions at cost and realized P&L

The sandbox broker moves cash by the notional of every fill, and splits what a
reduction earns into the position's cost and the realized P&L.  In exact arithmetic
the books balance through opening, adding, reducing and flattening.  They do not
through zero: the part of a fill beyond the old position keeps the old average cost,
where `EventDrivenBacktester._apply_fill_to_portfolio` restarts at the fill price.
The balance is kept by a fill precisely when the two agree.
-/
import TradePlatform.BrokerAdapter

namespace TradePlatform

namespace SandboxPaperBrokerAdapter

def bookValue (s : SandboxPaperBrokerAdapter) : Decimal :=
  (s.positions.rows.map fun position => position.quantity * position.averageCost).sum

def Balanced (initial : Decimal) (s : SandboxPaperBrokerAdapter) : Prop :=
  s.cash.amount + s.bookValue = initial + s.realizedPnl - s.fees

def Crosses (position : Position) (signed quantity : Decimal) : Prop :=
  position.quantity * signed < 0 ∧ |position.quantity| < quantity

/-- The condition on a call: a fill that is accepted and takes the position of its
instrument through zero is priced at the average cost of that position. -/
def KeepsBasis (s : SandboxPaperBrokerAdapter) : BrokerCall → Prop
  | .simulateFill ext id q p fee _ =>
      blank ext = false → 0 ≤ fee.value → ext ∉ s.fillIds →
      ∀ o, s.orders.find? id = some o → (∃ o', o.fill .exact q.value p.value = .ok o') →
      Crosses (s.position o.intent.instrumentId) (signedQuantity .exact o.intent.side q.value)
        q.value →
      p.value = (s.position o.intent.instrumentId).averageCost
  | _ => True

/-! ## One position -/

section Position

variable {position : Position} {signed quantity price : Decimal}

theorem signedQuantity_abs (side : OrderSide) (hq : 0 < quantity) :
    |signedQuantity .exact side quantity| = quantity := by
  cases side with
  | buy => exact abs_of_pos hq
  | sell => exact (abs_neg quantity).trans (abs_of_pos hq)

/-- A fill that opens or adds: the cost of the new position is the old cost and the
signed notional. -/
theorem cost_adds (hs : |signed| = quantity) (hq : 0 < quantity)
    (h : Adds .exact position signed) :
    (position.quantity + signed) * averageCost .exact position signed quantity price =
      position.quantity * position.averageCost + price * signed := by
  have habs : |position.quantity + signed| = |position.quantity| + quantity := by
    rw [← hs]
    refine (abs_add_eq_add_abs_iff _ _).mpr ?_
    rcases h with h | h
    · rw [h]
      exact (le_total 0 signed).imp (fun e => ⟨le_rfl, e⟩) (fun e => ⟨le_rfl, e⟩)
    · exact (pos_and_pos_or_neg_and_neg_of_mul_pos h).imp
        (fun e => ⟨e.1.le, e.2.le⟩) (fun e => ⟨e.1.le, e.2.le⟩)
  have hne : |position.quantity| + quantity ≠ 0 := by positivity
  have hcost : averageCost .exact position signed quantity price =
      (position.averageCost * |position.quantity| + price * quantity) /
        (|position.quantity| + quantity) := by
    rw [← habs]
    exact if_pos h
  rw [hcost]
  -- the sign of the new position is the sign of both parts
  have hsign : (position.quantity + signed) *
      (position.averageCost * |position.quantity| + price * quantity) =
      (position.quantity * position.averageCost + price * signed) *
        (|position.quantity| + quantity) := by
    rw [← hs]
    rcases h with h | h
    · rw [h]
      simp
      ring
    · rcases pos_and_pos_or_neg_and_neg_of_mul_pos h with ⟨h₁, h₂⟩ | ⟨h₁, h₂⟩
      · rw [abs_of_pos h₁, abs_of_pos h₂]
        ring
      · rw [abs_of_neg h₁, abs_of_neg h₂]
        ring
  rw [← mul_div_assoc, hsign, mul_div_assoc, div_self hne, mul_one]

/-- A fill that reduces: the cost of the position moves by the fill at the old
average, even when the fill is larger than the position. -/
theorem cost_reduces (h : ¬ Adds .exact position signed) :
    (position.quantity + signed) * averageCost .exact position signed quantity price =
      position.quantity * position.averageCost + position.averageCost * signed := by
  have hcost : averageCost .exact position signed quantity price =
      if position.quantity + signed ≠ 0 then position.averageCost else 0 := if_neg h
  rw [hcost]
  by_cases h0 : position.quantity + signed = 0
  · have hneg : signed = -position.quantity := by linarith
    rw [h0, hneg]
    ring
  · rw [if_pos h0]
    ring

/-- What a reduction realizes is the gain on the whole fill, unless it crosses zero
away from the average cost. -/
theorem realized_iff (hs : |signed| = quantity) (hq : 0 < quantity)
    (h : ¬ Adds .exact position signed) :
    realized .exact position quantity price = -(price - position.averageCost) * signed ↔
      (Crosses position signed quantity → price = position.averageCost) := by
  have hzero : position.quantity ≠ 0 := fun e => h (.inl e)
  have hneg : position.quantity * signed < 0 := by
    refine lt_of_le_of_ne (not_lt.mp fun e => h (.inr e)) (mul_ne_zero hzero ?_)
    rintro rfl
    rw [abs_zero] at hs
    exact hq.ne hs
  -- the sign of the position turns the signed quantity into minus the quantity
  have hsigned : -signed = quantity * (if 0 < position.quantity then 1 else -1) := by
    rw [← hs]
    split
    · rename_i hpos
      rw [abs_of_neg ((pos_iff_neg_of_mul_neg hneg).mp hpos)]
      ring
    · rename_i hpos
      have hq' : position.quantity < 0 := lt_of_le_of_ne (not_lt.mp hpos) hzero
      rw [abs_of_pos ((neg_iff_pos_of_mul_neg hneg).mp hq')]
      ring
  have hreal : realized .exact position quantity price =
      (price - position.averageCost) * min |position.quantity| quantity *
        (if 0 < position.quantity then 1 else -1) := rfl
  have hgain : -(price - position.averageCost) * signed =
      (price - position.averageCost) * quantity *
        (if 0 < position.quantity then 1 else -1) := by
    calc -(price - position.averageCost) * signed
        = (price - position.averageCost) * (-signed) := by ring
      _ = _ := by rw [hsigned]; ring
  have hunit : (if 0 < position.quantity then (1 : ℚ) else -1) ≠ 0 := by
    split <;> norm_num
  rw [hreal, hgain, mul_left_inj' hunit]
  constructor
  · rintro e ⟨_, hlt⟩
    rw [min_eq_left hlt.le] at e
    by_contra hne
    exact hlt.ne (mul_left_cancel₀ (sub_ne_zero.mpr hne) e)
  · intro hcross
    by_cases hlt : |position.quantity| < quantity
    · rw [hcross ⟨hneg, hlt⟩, sub_self, zero_mul, zero_mul]
    · rw [min_eq_right (not_lt.mp hlt)]

end Position

/-! ## One call -/

variable {initial : Decimal} {s : SandboxPaperBrokerAdapter} {o o' : PaperOrder}
  {q p fee : Decimal.Numeral} {ext : String} {stamp : EventStamp}

theorem bookValue_put (position : Position) :
    ((s.positions.put position).rows.map fun r => r.quantity * r.averageCost).sum =
      s.bookValue + position.quantity * position.averageCost -
        (s.position position.instrumentId).quantity *
          (s.position position.instrumentId).averageCost := by
  have hold : (s.positions.find? position.instrumentId).elim 0
      (fun r => r.quantity * r.averageCost) =
      (s.position position.instrumentId).quantity *
        (s.position position.instrumentId).averageCost := by
    unfold SandboxPaperBrokerAdapter.position
    cases s.positions.find? position.instrumentId with
    | none => simp
    | some r => rfl
  rw [Table.sum_put, hold]
  rfl

theorem cash_applyFill : (s.applyFill .exact o o' ext q p fee stamp).cash.amount =
    s.cash.amount - p.value * signedQuantity .exact o.intent.side q.value - fee.value := by
  unfold applyFill
  cases hside : o.intent.side with
  | buy =>
      show s.cash.amount + -(q.value * p.value) - fee.value =
        s.cash.amount - p.value * q.value - fee.value
      ring
  | sell =>
      show s.cash.amount + q.value * p.value - fee.value =
        s.cash.amount - p.value * -q.value - fee.value
      ring

/-- The step lemma for a fill: the books stay balanced precisely when the fill does not
cross zero away from the average cost. -/
theorem applyFill_balanced_iff (hq : 0 < q.value) (h : s.Balanced initial) :
    (s.applyFill .exact o o' ext q p fee stamp).Balanced initial ↔
      (Crosses (s.position o.intent.instrumentId) (signedQuantity .exact o.intent.side q.value)
        q.value → p.value = (s.position o.intent.instrumentId).averageCost) := by
  have hs := signedQuantity_abs o.intent.side hq
  have hbook : (s.applyFill .exact o o' ext q p fee stamp).bookValue = s.bookValue +
      ((s.position o.intent.instrumentId).quantity +
        signedQuantity .exact o.intent.side q.value) *
      averageCost .exact (s.position o.intent.instrumentId)
        (signedQuantity .exact o.intent.side q.value) q.value p.value -
      (s.position o.intent.instrumentId).quantity *
        (s.position o.intent.instrumentId).averageCost :=
    bookValue_put _
  have hreal : (s.applyFill .exact o o' ext q p fee stamp).realizedPnl =
      if Adds .exact (s.position o.intent.instrumentId)
          (signedQuantity .exact o.intent.side q.value) then s.realizedPnl
      else s.realizedPnl +
        realized .exact (s.position o.intent.instrumentId) q.value p.value := rfl
  have hfees : (s.applyFill .exact o o' ext q p fee stamp).fees = s.fees + fee.value := rfl
  unfold Balanced at h ⊢
  rw [cash_applyFill, hbook, hreal, hfees]
  generalize s.position o.intent.instrumentId = position at *
  generalize signedQuantity .exact o.intent.side q.value = signed at *
  by_cases hadds : Adds .exact position signed
  · rw [if_pos hadds, cost_adds hs hq hadds]
    refine iff_of_true (by linarith) fun hcross => ?_
    have hneg := hcross.1
    rcases hadds with e | e
    · simp [e] at hneg
    · exact absurd e (not_lt.mpr hneg.le)
  · rw [if_neg hadds, cost_reduces hadds, ← realized_iff hs hq hadds]
    constructor
    · intro e
      linarith
    · intro e
      rw [e]
      linarith

structure SameBooks (s s' : SandboxPaperBrokerAdapter) : Prop where
  cash : s'.cash = s.cash
  positions : s'.positions = s.positions
  realizedPnl : s'.realizedPnl = s.realizedPnl
  fees : s'.fees = s.fees

theorem Balanced.of_books {s' : SandboxPaperBrokerAdapter} (h : s.Balanced initial)
    (hs : SameBooks s s') : s'.Balanced initial := by
  unfold Balanced bookValue
  rw [hs.cash, hs.positions, hs.realizedPnl, hs.fees]
  exact h

theorem step_books (a : BrokerCall) (ha : ∀ ext id q p fee stamp,
    a ≠ .simulateFill ext id q p fee stamp) : SameBooks s (s.step .exact a) := by
  unfold step
  cases hc : s.call .exact a with
  | error e => exact ⟨rfl, rfl, rfl, rfl⟩
  | ok r =>
      obtain ⟨o', s'⟩ := r
      cases a with
      | submit order stamp =>
          obtain ⟨_, _, _, rfl⟩ := submit_eq_ok.mp hc
          exact ⟨rfl, rfl, rfl, rfl⟩
      | cancel id stamp =>
          obtain ⟨_, _, _, _, rfl⟩ := cancel_eq_ok.mp hc
          exact ⟨rfl, rfl, rfl, rfl⟩
      | replace id q p stamp =>
          obtain ⟨_, _, _, _, rfl⟩ := replace_eq_ok.mp hc
          exact ⟨rfl, rfl, rfl, rfl⟩
      | simulateFill ext id q p fee stamp => exact absurd rfl (ha ext id q p fee stamp)

theorem step_balanced_iff (a : BrokerCall) (h : s.Balanced initial) :
    (s.step .exact a).Balanced initial ↔ s.KeepsBasis a := by
  cases a with
  | simulateFill ext id q p fee stamp =>
      unfold step KeepsBasis
      cases hc : s.call .exact (.simulateFill ext id q p fee stamp) with
      | error e =>
          refine iff_of_true h ?_
          rintro hb hfee hext o row ⟨o', hfill⟩ _
          have hok : s.call .exact (.simulateFill ext id q p fee stamp) = .ok (o', _) :=
            simulateFill_eq_ok.mpr ⟨⟨hb, hfee, hext⟩, o, row, hfill, rfl⟩
          rw [hc] at hok
          cases hok
      | ok r =>
          obtain ⟨hv, o, row, hfill, hr⟩ := simulateFill_eq_ok.mp hc
          have hq : 0 < q.value := (PaperOrder.fill_eq_ok.mp hfill).1.2.1
          show r.2.Balanced initial ↔ _
          rw [hr, applyFill_balanced_iff hq h]
          constructor
          · intro hcross _ _ _ o₂ row₂ _
            cases row.symm.trans row₂
            exact hcross
          · intro hcross
            exact hcross hv.1 hv.2.1 hv.2.2 o row ⟨_, hfill⟩
  | submit order stamp =>
      exact iff_of_true (h.of_books (step_books (.submit order stamp) (by simp))) trivial
  | cancel id stamp =>
      exact iff_of_true (h.of_books (step_books (.cancel id stamp) (by simp))) trivial
  | replace id q p stamp =>
      exact iff_of_true (h.of_books (step_books (.replace id q p stamp) (by simp))) trivial

/-! ## Runs -/

/-- The run lemma: the books balance throughout precisely when no accepted fill crosses
zero away from the average cost. -/
theorem balanced_iff_keepsBasis (configuration : BrokerConfiguration) (cash : CashBalance)
    (calls : List BrokerCall) :
    Run.Always (step .exact) (Balanced cash.amount) (opened configuration cash) calls ↔
      Run.Each (step .exact) KeepsBasis (opened configuration cash) calls := by
  have hopened : (opened configuration cash).Balanced cash.amount := by
    simp [Balanced, bookValue, opened]
  rw [Run.always_iff_each (J := fun _ => True) (fun _ _ _ _ _ => trivial)
    (fun s a _ h => step_balanced_iff a h) trivial]
  exact and_iff_right hopened

/-- Long 10 at 100, then 15 sold at 120: the short 5 is carried at 100. -/
theorem crossing_unbalanced :
    ¬ Run.Always (step .exact) (Balanced 1000)
      (opened ⟨"sandbox", .sandboxPaper, "account", none⟩ ⟨"USD", 1000⟩)
      [.submit { PaperOrder.limit 1 .buy 10 100 with status := .approved } ⟨1, .aware 0⟩,
        .simulateFill "f1" 1 ⟨10, 0⟩ ⟨100, 0⟩ ⟨0, 0⟩ ⟨2, .aware 1⟩,
        .submit { PaperOrder.limit 2 .sell 15 120 with status := .approved } ⟨3, .aware 2⟩,
        .simulateFill "f2" 2 ⟨15, 0⟩ ⟨120, 0⟩ ⟨0, 0⟩ ⟨4, .aware 3⟩] := by
  intro h
  exact absurd h.exec (by unfold Balanced; decide +kernel)

end SandboxPaperBrokerAdapter

end TradePlatform
