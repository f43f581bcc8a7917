/-
# `TradePlatform.PaperAccountSteps` — what one event of the loop may do

Inversion lemmas: an event that does not raise leaves one of a few states, written out as
updates of the state it was met in.  Everything that is proved about a whole ledger is
derived from these, and no later proof opens the event loop again.
-/
import TradePlatform.PaperAccountEvents

namespace TradePlatform

namespace LedgerState

variable {a : Decimal.Arithmetic} {t : AccountTerms} {signals : Dict String SignalIdentity}
  {s s' : LedgerState} {fill : PaperFillV1} {instant : ℤ}

/-! ## Meeting an event -/

section Meet

variable (a t s) (e : LedgerEvent)

theorem samplePeak_eq (instant : ℤ) :
    ∃ peak executedAt, s.samplePeak a t instant =
      { s with peak := peak, executedAt := executedAt } := by
  unfold samplePeak
  split
  · exact ⟨_, _, rfl⟩
  · split
    · exact ⟨_, _, rfl⟩
    · exact ⟨_, _, rfl⟩

theorem meet_eq : ∃ peak executedAt, s.meet a t e =
    { s with
      symbolOf := s.symbolOf.set e.fill.key e.fill.symbol
      positions := s.positions.setdefault e.fill.key .flat
      peak := peak
      executedAt := executedAt } := by
  obtain ⟨peak, executedAt, h⟩ := samplePeak_eq a t s e.instant
  refine ⟨peak, executedAt, ?_⟩
  unfold meet
  rw [h]
  rfl

@[simp] theorem pending_meet : (s.meet a t e).pending = s.pending := by
  obtain ⟨_, _, h⟩ := meet_eq a t s e
  rw [h]

@[simp] theorem orders_meet : (s.meet a t e).orders = s.orders := by
  obtain ⟨_, _, h⟩ := meet_eq a t s e
  rw [h]

@[simp] theorem intended_meet : (s.meet a t e).intended = s.intended := by
  obtain ⟨_, _, h⟩ := meet_eq a t s e
  rw [h]

@[simp] theorem latest_meet : (s.meet a t e).latest = s.latest := by
  obtain ⟨_, _, h⟩ := meet_eq a t s e
  rw [h]

@[simp] theorem realized_meet : (s.meet a t e).realized = s.realized := by
  obtain ⟨_, _, h⟩ := meet_eq a t s e
  rw [h]

@[simp] theorem marks_meet : (s.meet a t e).marks = s.marks := by
  obtain ⟨_, _, h⟩ := meet_eq a t s e
  rw [h]

theorem positions_meet :
    (s.meet a t e).positions = s.positions.setdefault e.fill.key .flat := by
  obtain ⟨_, _, h⟩ := meet_eq a t s e
  rw [h]

@[simp] theorem position_meet (key : StudyTrial) :
    (s.meet a t e).position key = s.position key := by
  simp only [position, Dict.getD, positions_meet, Dict.get?_setdefault]
  split
  · rename_i h
    rw [← h]
    rfl
  · rfl

@[simp] theorem intendedUnits_meet (key : StudyTrial) :
    (s.meet a t e).intendedUnits key = s.intendedUnits key := by
  simp only [intendedUnits, intended_meet, position_meet]

@[simp] theorem pendingOf_meet (key : StudyTrial) :
    (s.meet a t e).pendingOf key = s.pendingOf key := by
  simp only [pendingOf, pending_meet]

end Meet

/-! ## Executions -/

section Execution

variable {item : PendingOrder} {key : StudyTrial} {price quantity : Decimal}
  {closed opened : Booked}

theorem closeHeld_cases (h : s.closeHeld a t key price = .ok closed) :
    ((s.position key).units = 0 ∧ closed = ⟨s, []⟩) ∨
      ((s.position key).units ≠ 0 ∧ ∃ notional, closed =
        ⟨{ s with
            realized := s.book t fun bps realized =>
              a.add realized (a.sub
                (a.mul (s.position key).quantity (a.sub price (s.position key).entryPrice))
                (a.div (a.mul (a.mul (a.abs (s.position key).quantity) price) bps) 10000))
            positions := s.positions.set key .flat },
          [⟨.closeLeg, text a (a.neg (s.position key).quantity), notional⟩]⟩) := by
  simp only [closeHeld] at h
  split_ifs at h with hunits
  · cases h
    exact .inl ⟨hunits, rfl⟩
  · obtain ⟨notional, _, h⟩ := Except.bind_eq_ok.mp h
    cases h
    exact .inr ⟨hunits, notional, rfl⟩

theorem openApproved_eq (h : s.openApproved a t item key quantity price = .ok opened) :
    ∃ notional, opened =
      ⟨{ s with
          realized := s.book t fun bps realized =>
            a.sub realized (a.div (a.mul (a.mul (a.abs quantity) price) bps) 10000)
          positions := s.positions.set key
            ⟨item.desired, quantity, price, a.mul (a.abs quantity) price⟩ },
        [⟨.openLeg, text a quantity, notional⟩]⟩ := by
  obtain ⟨notional, _, h⟩ := Except.bind_eq_ok.mp h
  cases h
  exact ⟨notional, rfl⟩

/-- What executing an order does: nothing but a record when there was no fill; else the
position is closed, and then a refusal, an opening or neither. -/
theorem execute_cases (h : s.execute a t fill item key = .ok s') :
    (¬ fill.Filled ∧
      s' = { s with orders := s.orders ++ [⟨item.order, .notFilled fill.status⟩] }) ∨
    (fill.Filled ∧ ∃ price closed quantity barOpen,
      fill.price = .ok price ∧ s.closeHeld a t key price = .ok closed ∧
      (s' = closed.state.record a item.order.atZeroQuantity
            .openingRefusedZeroQuantityAfterRounding price barOpen closed.legs ∨
        (item.approvedOpen = true ∧ ∃ opened,
          closed.state.openApproved a t item key quantity price = .ok opened ∧
          s' = opened.state.record a item.order .approvedFilled price barOpen
            (closed.legs ++ opened.legs)) ∨
        (item.approvedOpen = false ∧
          s' = closed.state.record a item.order (unopenedDecision item closed.legs) price barOpen
            closed.legs))) := by
  unfold execute at h
  split at h
  · rename_i hfilled
    cases h
    exact .inl ⟨hfilled, rfl⟩
  · rename_i hfilled
    obtain ⟨price, hprice, h⟩ := Except.bind_eq_ok.mp h
    obtain ⟨closed, hclosed, h⟩ := Except.bind_eq_ok.mp h
    obtain ⟨quantity, _, h⟩ := Except.bind_eq_ok.mp h
    obtain ⟨barOpen, _, h⟩ := Except.bind_eq_ok.mp h
    refine .inr ⟨not_not.mp hfilled, price, closed, quantity, barOpen, hprice, hclosed, ?_⟩
    split at h
    · cases h
      exact .inl rfl
    split at h
    · rename_i happroved
      obtain ⟨opened, hopened, h⟩ := Except.bind_eq_ok.mp h
      cases h
      exact .inr (.inl ⟨happroved, opened, hopened, rfl⟩)
    · rename_i happroved
      cases h
      exact .inr (.inr ⟨Bool.eq_false_iff.mpr happroved, rfl⟩)

def Records (order : AccountOrder) (o : LedgerOrder) : Prop :=
  o.order = order ∨ o.order = order.atZeroQuantity

theorem record_eq {r : LedgerState} {positions : Dict StudyTrial AccountPosition}
    {realized : Dict String Decimal} {order : AccountOrder} {decision : FilledDecision}
    {barOpen : ℤ} {legs : List Leg}
    (h : r = { s with positions := positions, realized := realized }) :
    r.record a order decision price barOpen legs = { s with
      positions := positions
      realized := realized
      orders := s.orders ++ [⟨order, .filled decision (text a price) barOpen legs⟩] } := by
  rw [record, h]

theorem execute_frame (h : s.execute a t fill item key = .ok s') :
    ∃ positions realized o, Records item.order o ∧
      (∀ j, key ≠ j → positions.get? j = s.positions.get? j) ∧
      s' = { s with
        positions := positions
        realized := realized
        orders := s.orders ++ [o] } := by
  have closing : ∀ {price closed}, s.closeHeld a t key price = .ok closed →
      ∃ positions realized, (∀ j, key ≠ j → positions.get? j = s.positions.get? j) ∧
        closed.state = { s with positions := positions, realized := realized } := by
    intro price closed hclosed
    rcases closeHeld_cases hclosed with ⟨_, rfl⟩ | ⟨_, notional, rfl⟩
    · exact ⟨s.positions, s.realized, fun _ _ => rfl, rfl⟩
    · exact ⟨_, _, fun j hj => Dict.get?_set_of_ne hj, rfl⟩
  rcases execute_cases h with ⟨_, rfl⟩ | ⟨_, price, closed, quantity, barOpen, _, hclosed, h⟩
  · exact ⟨s.positions, s.realized, _, .inl rfl, fun _ _ => rfl, rfl⟩
  · obtain ⟨positions, realized, hpos, hstate⟩ := closing hclosed
    rcases h with rfl | ⟨_, opened, hopened, rfl⟩ | ⟨_, rfl⟩
    · refine ⟨positions, realized, _, ?_, hpos, record_eq hstate⟩
      exact .inr rfl
    · obtain ⟨notional, rfl⟩ := openApproved_eq hopened
      refine ⟨_, _, _, ?_, fun j hj => ?_, record_eq (by rw [hstate])⟩
      · exact .inl rfl
      · rw [Dict.get?_set_of_ne hj]
        exact hpos j hj
    · refine ⟨positions, realized, _, ?_, hpos, record_eq hstate⟩
      exact .inl rfl

theorem executePending_cases (h : s.executePending a t fill = .ok s') :
    (s.pending.get? fill.signalId = none ∧ s' = s) ∨
    (∃ item executed, s.pending.get? fill.signalId = some item ∧
      { s with pending := s.pending.erase fill.signalId }.execute a t fill item fill.key
        = .ok executed ∧
      s' = executed.settleIntended fill) := by
  unfold executePending at h
  cases hitem : s.pending.get? fill.signalId with
  | none =>
      rw [hitem] at h
      cases h
      exact .inl ⟨rfl, rfl⟩
  | some item =>
      rw [hitem] at h
      obtain ⟨executed, hexecuted, h⟩ := Except.bind_eq_ok.mp h
      cases h
      exact .inr ⟨item, executed, rfl, hexecuted, rfl⟩

theorem executionEvent_cases (h : s.executionEvent a t fill instant = .ok s') :
    ∃ executed, s.executePending a t fill = .ok executed ∧
      ((¬ fill.Filled ∧ s' = { executed with executedAt := some instant }) ∨
        (fill.Filled ∧ ∃ price, fill.price = .ok price ∧ s' = { executed with
          marks := executed.marks ++ [⟨instant, fill.symbol, price⟩]
          executedAt := some instant })) := by
  obtain ⟨executed, hexecuted, h⟩ := Except.bind_eq_ok.mp h
  obtain ⟨marked, hmarked, h⟩ := Except.bind_eq_ok.mp h
  cases h
  refine ⟨executed, hexecuted, ?_⟩
  unfold addMark at hmarked
  split_ifs at hmarked with hfilled
  · obtain ⟨price, hprice, hmarked⟩ := Except.bind_eq_ok.mp hmarked
    cases hmarked
    exact .inr ⟨hfilled, price, hprice, rfl⟩
  · cases hmarked
    exact .inl ⟨hfilled, rfl⟩

end Execution

/-! ## Decisions -/

structure Enqueued (s : LedgerState) (fill : PaperFillV1) (decided : ℤ) (item : PendingOrder) :
    Prop where
  key : item.key = fill.key
  signalId : item.signalId = fill.signalId
  order : ∃ reasons, item.order = { s.newOrder fill decided with reasons := reasons }
  desired : item.approvedOpen = true → item.desired ≠ 0

/-- An order that is not at its target is rejected, from a flat key with nothing pending,
or is pending from now on. -/
theorem decideOrder_cases (h : s.decideOrder a t signals fill instant = .ok s') :
    ∃ rejections reservedByDay dayStartEquity peak,
      ((s.position fill.key).units = 0 ∧ s.pendingOf fill.key = [] ∧ ∃ reasons, s' = { s with
        rejections := rejections
        reservedByDay := reservedByDay
        dayStartEquity := dayStartEquity
        peak := peak
        intended := s.intended.set fill.key 0
        orders := s.orders ++
          [⟨{ s.newOrder fill instant with reasons := reasons }, .rejected⟩] }) ∨
      (∃ target item, Enqueued s fill instant item ∧ s' = { s with
        rejections := rejections
        reservedByDay := reservedByDay
        dayStartEquity := dayStartEquity
        peak := peak
        intended := s.intended.set fill.key target
        latest := s.latest.set fill.key fill.signalId
        pending := s.pending.set fill.signalId item }) := by
  unfold decideOrder at h
  obtain ⟨reasons, _, h⟩ := Except.bind_eq_ok.mp h
  dsimp only at h
  split at h
  · rename_i hrejected
    obtain ⟨_, hnot, hunits, hpending⟩ := hrejected
    rw [hnot] at h
    cases h
    exact ⟨_, _, _, _, .inl ⟨hunits, hpending, reasons, rfl⟩⟩
  · cases h
    refine ⟨_, _, _, _, .inr ⟨_, _, ⟨rfl, rfl, ⟨reasons, rfl⟩, ?_⟩, rfl⟩⟩
    intro happroved
    exact (of_decide_eq_true happroved).1

theorem decisionEvent_cases (h : s.decisionEvent a t signals fill instant = .ok s') :
    (fill.targetTo = s.intendedUnits fill.key ∧ s' = { s with
      orders := s.orders ++ [⟨s.newOrder fill instant, .noOrderAlreadyAtTarget⟩] }) ∨
    (fill.targetTo ≠ s.intendedUnits fill.key ∧
      s.decideOrder a t signals fill instant = .ok s') := by
  unfold decisionEvent at h
  obtain ⟨decided, hdecided, h⟩ := Except.bind_eq_ok.mp h
  obtain rfl : instant = decided := by
    unfold at_ at hdecided
    split at hdecided
    · cases hdecided
      rfl
    · cases hdecided
  split at h
  · rename_i htarget
    cases h
    exact .inl ⟨htarget, rfl⟩
  · rename_i htarget
    exact .inr ⟨htarget, h⟩

/-! ## One event -/

theorem step_cases {e : LedgerEvent} (h : s.step a t signals e = .ok s') :
    (e.kind = .execution ∧ (s.meet a t e).executionEvent a t e.fill e.instant = .ok s') ∨
      (e.kind = .decision ∧ (s.meet a t e).decisionEvent a t signals e.fill e.instant = .ok s') := by
  unfold step at h
  cases hkind : e.kind with
  | execution =>
      rw [hkind] at h
      exact .inl ⟨rfl, h⟩
  | decision =>
      rw [hkind] at h
      exact .inr ⟨rfl, h⟩

theorem pending_step {e : LedgerEvent} (h : s.step a t signals e = .ok s') {id : String}
    {item : PendingOrder} (hitem : s'.pending.get? id = some item) :
    s.pending.get? id = some item ∨
      e.fill.signalId = id ∧ Enqueued (s.meet a t e) e.fill e.instant item := by
  rw [← pending_meet a t s e]
  rcases step_cases h with ⟨_, h⟩ | ⟨_, h⟩
  · obtain ⟨executed, hexec, hs'⟩ := executionEvent_cases h
    have hpending : s'.pending = executed.pending := by
      rcases hs' with ⟨_, rfl⟩ | ⟨_, _, _, rfl⟩ <;> rfl
    rw [hpending] at hitem
    rcases executePending_cases hexec with ⟨_, rfl⟩ | ⟨old, done, _, hdone, rfl⟩
    · exact .inl hitem
    · obtain ⟨_, _, _, _, _, rfl⟩ := execute_frame hdone
      have herase : ((s.meet a t e).pending.erase e.fill.signalId).get? id = some item := by
        unfold settleIntended at hitem
        split at hitem <;> exact hitem
      rw [Dict.get?_erase] at herase
      split at herase
      · cases herase
      · exact .inl herase
  · rcases decisionEvent_cases h with ⟨_, rfl⟩ | ⟨_, h⟩
    · exact .inl hitem
    · obtain ⟨_, _, _, _, ⟨_, _, _, rfl⟩ | ⟨_, new, hnew, rfl⟩⟩ := decideOrder_cases h
      · exact .inl hitem
      · simp only [Dict.get?_set] at hitem
        split at hitem
        · rename_i hid
          cases hitem
          exact .inr ⟨hid, hnew⟩
        · exact .inl hitem

end LedgerState

/-! ## The ledger -/

/-- The terms, events and last state that a ledger was built from, and what was read off
the state. -/
structure Built (a : Decimal.Arithmetic) (hash : IdentityHash LedgerIdentity)
    (policy : AccountPolicyV1) (fills : List PaperFillV1) (signals : Dict String SignalIdentity)
    (cost : CostPolicyV1) (asOf : ℤ) (ledger : PaperAccountLedger) (t : AccountTerms)
    (events : List LedgerEvent) (final : LedgerState) : Prop where
  terms : accountTerms a policy cost = .ok t
  accepted : ledgerEvents hash.ofSignal signals (cutoffOf asOf) fills = .ok events
  run : Replay.replay (fun s e => LedgerState.step a t signals s e) (LedgerState.initial t) events
    = .ok final
  startingCapital : ledger.startingCapital = text a t.capital
  orders : ledger.orders = sortBy LedgerOrder.sortKey final.allOrders
  openPositions : ledger.openPositions = final.openPositions a
  equity : LedgerState.moneyByScenario a t (fun name => final.equity a t name (cutoffOf asOf + 1))
    = .ok ledger.equityByScenario

theorem built_of_build {a : Decimal.Arithmetic} {hash : IdentityHash LedgerIdentity}
    {policy : AccountPolicyV1} {fills : List PaperFillV1} {signals : Dict String SignalIdentity}
    {cost : CostPolicyV1} {asOf : ℤ} {ledger : PaperAccountLedger}
    (h : buildPaperAccountLedgerV1 a hash policy fills signals cost asOf = .ok ledger) :
    ∃ t events final, Built a hash policy fills signals cost asOf ledger t events final := by
  unfold buildPaperAccountLedgerV1 at h
  split at h
  · cases h
  split at h
  · cases h
  obtain ⟨t, hterms, h⟩ := Except.bind_eq_ok.mp h
  obtain ⟨events, hevents, h⟩ := Except.bind_eq_ok.mp h
  obtain ⟨final, hrun, h⟩ := Except.bind_eq_ok.mp h
  obtain ⟨identity, hidentity, h⟩ := Except.bind_eq_ok.mp h
  obtain ⟨equity, hequity, hidentity⟩ := Except.bind_eq_ok.mp hidentity
  obtain ⟨realized, _, hidentity⟩ := Except.bind_eq_ok.mp hidentity
  cases hidentity
  cases h
  exact ⟨t, events, final, hterms, hevents, hrun, rfl, rfl, rfl, hequity⟩

end TradePlatform
