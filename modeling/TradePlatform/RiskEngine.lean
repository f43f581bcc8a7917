/-
# `TradePlatform.RiskEngine` — the gates of one risk assessment

`RiskEngine.assess` of `risk.py`, as `assess_pretrade` constructs it: in-memory ledgers,
no decision store and no PostgreSQL store.  The clock readings, the answer of the kill
switches and the generated ids are inputs.
-/
import TradePlatform.Domain
import TradePlatform.Lib.Table
import TradePlatform.Lib.Replay

namespace TradePlatform

def reasonIf (condition : Prop) [Decidable condition] (reason : String) : List String :=
  if condition then [reason] else []

def compared : Option Bool → Except Exn Bool
  | some answer => .ok answer
  | none => .error .typeError

/-- `status is not VALIDATED or is_expired`, where `is_expired` is `expires_at <= utc_now()`
at a reading of the clock of its own. -/
def Signal.unusable (signal : Signal) (expiryClock : ℤ) : Except Exn Bool :=
  if signal.status ≠ .validated then .ok true
  else compared (signal.expiresAt.before (expiryClock + 1))

/-! ## The loss at the stop -/

structure PerTradeRiskEvidence where
  entryPrice : Decimal
  stopPrice : Decimal
  stopDistanceFraction : Decimal
  lossAtStop : Decimal
  gapBufferFraction : Decimal
  gapAdjustedStopPrice : Decimal
  gapAdjustedLoss : Decimal
  maximumPerTradeLoss : Decimal
  maximumStopDistanceFraction : Decimal
deriving DecidableEq

def PerTradeRiskEvidence.checked (e : PerTradeRiskEvidence) : Except Exn PerTradeRiskEvidence :=
  if e.entryPrice ≤ 0 ∨ e.stopPrice ≤ 0 ∨ e.gapAdjustedStopPrice ≤ 0 ∨ e.lossAtStop < 0 ∨
      e.gapAdjustedLoss < 0 ∨ e.maximumPerTradeLoss ≤ 0 ∨ ¬ 0 ≤ e.stopDistanceFraction ∨
      ¬ (0 ≤ e.gapBufferFraction ∧ e.gapBufferFraction < 1) ∨
      ¬ (0 < e.maximumStopDistanceFraction ∧ e.maximumStopDistanceFraction ≤ 1) then
    .error (.valueError "invalid_per_trade_risk_evidence")
  else .ok e

def entryRangeReasons (signal : Signal) (entryPrice : Decimal) : List String :=
  match signal.entryLow, signal.entryHigh with
  | none, none => []
  | some low, some high =>
      if low ≤ 0 ∨ high < low then ["signal_entry_range_invalid"]
      else reasonIf (¬ (low ≤ entryPrice ∧ entryPrice ≤ high)) "intent_outside_signal_entry_range"
  | _, _ => ["signal_entry_range_incomplete"]

def evaluatePerTradeRisk (c : Decimal.Context) (intent : OrderIntent) (signal : Signal)
    (policy : RiskPolicy) : Except Exn (Option PerTradeRiskEvidence × List String) :=
  match policy.maximumPerTradeLoss, policy.maximumStopDistanceFraction,
      policy.stopGapBufferFraction with
  | none, none, none => .ok (none, [])
  | some maximumLoss, some maximumDistance, some gapBuffer =>
      if maximumLoss ≤ 0 ∨ ¬ (0 < maximumDistance ∧ maximumDistance ≤ 1) ∨
          ¬ (0 ≤ gapBuffer ∧ gapBuffer < 1) then
        .ok (none, ["per_trade_risk_policy_invalid"])
      else
        match signal.stopLevel with
        | none => .ok (none, ["protective_stop_required"])
        | some stopPrice =>
            if stopPrice ≤ 0 then .ok (none, ["protective_stop_required"])
            else if intent.limitPrice ≤ 0 ∨ intent.quantity ≤ 0 then .ok (none, [])
            else do
              let entryPrice := intent.limitPrice
              let stopDistance := c.abs (c.sub entryPrice stopPrice)
              let stopDistanceFraction := c.div stopDistance entryPrice
              let gapAdjustedStop := match intent.side with
                | .buy => c.mul stopPrice (c.sub 1 gapBuffer)
                | .sell => c.mul stopPrice (c.add 1 gapBuffer)
              let stopWrongSide := match intent.side with
                | .buy => decide (entryPrice ≤ stopPrice)
                | .sell => decide (stopPrice ≤ entryPrice)
              let lossAtStop := c.mul stopDistance intent.quantity
              let gapAdjustedLoss :=
                c.mul (c.abs (c.sub entryPrice gapAdjustedStop)) intent.quantity
              let evidence ← PerTradeRiskEvidence.checked ⟨entryPrice, stopPrice,
                stopDistanceFraction, lossAtStop, gapBuffer, gapAdjustedStop, gapAdjustedLoss,
                maximumLoss, maximumDistance⟩
              pure (some evidence,
                reasonIf (signal.direction ≠ intent.side) "signal_order_direction_mismatch" ++
                entryRangeReasons signal entryPrice ++
                reasonIf (stopWrongSide = true) "protective_stop_wrong_side" ++
                reasonIf (stopDistanceFraction > maximumDistance) "stop_distance_limit" ++
                reasonIf (lossAtStop > maximumLoss) "per_trade_loss_limit" ++
                reasonIf (gapAdjustedLoss > maximumLoss) "per_trade_gap_loss_limit")
  | _, _, _ => .ok (none, ["per_trade_risk_policy_incomplete"])

/-! ## The execution context -/

structure PreTradeExecutionContext where
  sessionOpen : Bool
  instrumentHalted : Bool
  quoteAvailable : Bool
  expectedSlippageFraction : Decimal
  eventRisk : Decimal
  availableBuyingPower : Decimal
  brokerStateCertain : Bool
  strategyEnabled : Bool
  modelApproved : Bool
deriving DecidableEq

def PreTradeExecutionContext.validate (execution : PreTradeExecutionContext) : Except Exn Unit :=
  if execution.expectedSlippageFraction < 0 ∨
      ¬ (0 ≤ execution.eventRisk ∧ execution.eventRisk ≤ 1) ∨
      execution.availableBuyingPower < 0 then
    .error (.valueError "invalid_pre_trade_execution_context")
  else .ok ()

def executionReasons (c : Decimal.Context) (policy : RiskPolicy) (intent : OrderIntent) :
    Option PreTradeExecutionContext → Except Exn (List String)
  | none => .ok ["missing_execution_context"]
  | some execution => do
      execution.validate
      pure (reasonIf (execution.sessionOpen = false) "invalid_trading_session" ++
        reasonIf (execution.instrumentHalted = true) "instrument_halted" ++
        reasonIf (execution.quoteAvailable = false) "quote_missing" ++
        reasonIf (execution.expectedSlippageFraction > policy.maximumExpectedSlippageFraction)
          "expected_slippage_limit" ++
        reasonIf (execution.eventRisk > policy.maximumEventRisk) "event_risk_limit" ++
        reasonIf (intent.side = .buy ∧ intent.notional c > execution.availableBuyingPower)
          "insufficient_buying_power" ++
        reasonIf (execution.brokerStateCertain = false) "broker_state_uncertain" ++
        reasonIf (execution.strategyEnabled = false) "strategy_disabled" ++
        reasonIf (execution.modelApproved = false) "model_not_approved")

/-! ## The ledgers -/

structure DailyTotal where
  accountId : String
  day : ℤ
  total : Decimal
deriving DecidableEq

def DailyTotal.key (row : DailyTotal) : String × ℤ := (row.accountId, row.day)

structure DailyNotionalLedger where
  reserved : Table DailyTotal.key
  intentIds : List UUID

namespace DailyNotionalLedger

def new : DailyNotionalLedger := ⟨.empty _, []⟩

def total (ledger : DailyNotionalLedger) (accountId : String) (day : ℤ) : Decimal :=
  ((ledger.reserved.find? (accountId, day)).map DailyTotal.total).getD 0

def reserve (c : Decimal.Context) (ledger : DailyNotionalLedger) (intent : OrderIntent) (day : ℤ)
    (maximum : Decimal) : Option DailyNotionalLedger :=
  if intent.intentId ∈ ledger.intentIds then none
  else
    let total := ledger.total intent.accountId day
    if c.add total (intent.notional c) > maximum then none
    else some ⟨ledger.reserved.put ⟨intent.accountId, day, c.add total (intent.notional c)⟩,
      ledger.intentIds ++ [intent.intentId]⟩

theorem reserve_new_eq_none {c : Decimal.Context} {intent : OrderIntent} {day : ℤ}
    {maximum : Decimal} : new.reserve c intent day maximum = none ↔
      maximum < c.add 0 (intent.notional c) := by
  unfold reserve
  rw [if_neg (by exact List.not_mem_nil)]
  show (if c.add 0 (intent.notional c) > maximum then none else some _) = none ↔ _
  by_cases h : maximum < c.add 0 (intent.notional c) <;> simp [h]

end DailyNotionalLedger

/-! ## The engine -/

structure RiskEngine where
  policy : RiskPolicy
  idempotencyLedger : List UUID
  dailyNotionalLedger : DailyNotionalLedger

/-- What an assessment reads besides its engine: the evidence, the answer of the kill
switches (`none` is a `PersistenceError`), the clock (`now`, and the reading of
`is_expired`), and the id and time of the decision. -/
structure RiskInput where
  intent : OrderIntent
  signal : Signal
  market : MarketSnapshot
  portfolio : PortfolioState
  execution : Option PreTradeExecutionContext
  killSwitch : Option Bool
  now : ℤ
  expiryClock : ℤ
  decisionId : UUID
  decidedAt : DateTime
deriving DecidableEq

namespace RiskEngine

def new (policy : RiskPolicy) : RiskEngine := ⟨policy, [], .new⟩

variable (c : Decimal.Context) (engine : RiskEngine)

def reasons (policy : RiskPolicy) (input : RiskInput) : Except Exn (List String) := do
  let intent := input.intent
  let signal := input.signal
  let market := input.market
  let invalid ← signal.unusable input.expiryClock
  let stale ← compared (market.observedAt.before (input.now - policy.maxMarketAgeSeconds * 10 ^ 6))
  let (_, perTradeReasons) ← evaluatePerTradeRisk c intent signal policy
  let notional := intent.notional c
  let signedNotional := match intent.side with
    | .buy => notional
    | .sell => c.neg notional
  let projected := c.add (input.portfolio.positionNotional intent.instrumentId) signedNotional
  let killSwitchReasons := match input.killSwitch with
    | some true => ["kill_switch_active"]
    | some false => []
    | none => ["kill_switch_state_uncertain"]
  let executionReasons ← executionReasons c policy intent input.execution
  pure (reasonIf (signal.signalId ≠ intent.signalId) "signal_intent_mismatch" ++
    reasonIf (signal.instrumentId ≠ intent.instrumentId) "signal_instrument_mismatch" ++
    reasonIf (invalid = true) "signal_not_validated_or_expired" ++
    reasonIf (market.instrumentId ≠ intent.instrumentId) "market_instrument_mismatch" ++
    reasonIf (stale = true) "stale_market_data" ++
    reasonIf (min market.dataQualityScore signal.dataQualityScore < policy.minimumDataQuality)
      "insufficient_data_quality" ++
    reasonIf ((market.spreadFraction c).all
      fun spread => decide (spread > policy.maximumSpreadFraction))
      "excessive_spread" ++
    reasonIf (intent.quantity ≤ 0 ∨ intent.limitPrice ≤ 0) "invalid_order_quantity_or_price" ++
    reasonIf (notional > policy.maximumOrderNotional) "order_notional_limit" ++
    perTradeReasons ++
    reasonIf (c.abs projected > policy.maximumPositionNotional) "position_notional_limit" ++
    reasonIf (input.portfolio.reconciliationComplete = false ∨
      input.portfolio.riskIncreaseAllowed = false) "reconciliation_or_risk_increase_block" ++
    killSwitchReasons ++
    executionReasons)

def decisionOf (input : RiskInput) (reasons : List String) : RiskDecision :=
  ⟨input.decisionId, input.intent.intentId, if reasons = [] then .approve else .reject, reasons,
    input.decidedAt⟩

def assess (input : RiskInput) : Except Exn (RiskDecision × RiskEngine) :=
  if input.intent.intentId ∈ engine.idempotencyLedger then
    .ok (decisionOf input ["duplicate_intent"], engine)
  else do
    let engine := { engine with
      idempotencyLedger := engine.idempotencyLedger ++ [input.intent.intentId] }
    let reasons ← reasons c engine.policy input
    if reasons = [] then
      match engine.dailyNotionalLedger.reserve c input.intent (utcDate input.now)
          engine.policy.maximumDailyOrderNotional with
      | some ledger => pure (decisionOf input [], { engine with dailyNotionalLedger := ledger })
      | none => pure (decisionOf input ["daily_order_notional_limit"], engine)
    else pure (decisionOf input reasons, engine)

def rejectUnassessable (intentId : UUID) (reason : String) (decisionId : UUID)
    (decidedAt : DateTime) : Except Exn RiskDecision :=
  if blank reason then .error (.valueError "unassessable_rejection_reason_required")
  else .ok ⟨decisionId, intentId, .reject, [reason], decidedAt⟩

variable {c} {policy : RiskPolicy} {input : RiskInput} {decision : RiskDecision}

/-- A fresh engine approves an intent against which there is no reason, and whose notional
alone is within the daily limit. -/
theorem assess_new_approve_iff : (∃ engine', (new policy).assess c input = .ok (decision, engine') ∧
    decision.decision = .approve) ↔
    reasons c policy input = .ok [] ∧
      c.add 0 (input.intent.notional c) ≤ policy.maximumDailyOrderNotional ∧
      decision = decisionOf input [] := by
  unfold assess
  rw [if_neg (by exact List.not_mem_nil)]
  show (∃ engine', (reasons c policy input >>= _) = _ ∧ _) ↔ _
  cases hr : reasons c policy input with
  | error e => simp
  | ok rs =>
  simp only [Except.ok_bind, Except.ok.injEq]
  by_cases hnil : rs = []
  swap
  · refine iff_of_false ?_ fun h => hnil h.1
    rintro ⟨_, h, hd⟩
    rw [if_neg hnil] at h
    simp only [Except.pure_eq_ok, Prod.mk.injEq] at h
    rw [← h.1] at hd
    simp [decisionOf, hnil] at hd
  rw [if_pos hnil, and_iff_right hnil]
  cases hres : (new policy).dailyNotionalLedger.reserve c input.intent (utcDate input.now)
      (new policy).policy.maximumDailyOrderNotional with
  | none =>
      have hover := DailyNotionalLedger.reserve_new_eq_none.mp hres
      refine iff_of_false ?_ fun h => absurd h.1 (not_le.mpr hover)
      rintro ⟨_, h, hd⟩
      simp only [Except.pure_eq_ok, Prod.mk.injEq] at h
      rw [← h.1] at hd
      simp [decisionOf] at hd
  | some ledger =>
      have hroom : c.add 0 (input.intent.notional c) ≤ policy.maximumDailyOrderNotional := by
        by_contra hover
        have hnone := hres.symm.trans
          (DailyNotionalLedger.reserve_new_eq_none.mpr (not_le.mp hover))
        cases hnone
      simp only [Except.pure_eq_ok, Prod.mk.injEq]
      constructor
      · rintro ⟨_, ⟨rfl, _⟩, _⟩
        exact ⟨hroom, rfl⟩
      · rintro ⟨_, rfl⟩
        exact ⟨_, ⟨rfl, rfl⟩, by simp [decisionOf]⟩

theorem intentId_of_assess {engine engine' : RiskEngine}
    (h : engine.assess c input = .ok (decision, engine')) :
    decision.intentId = input.intent.intentId := by
  unfold assess at h
  split at h
  · cases h
    rfl
  · obtain ⟨rs, _, h⟩ := Except.bind_eq_ok.mp h
    split at h
    · split at h
      · cases h
        rfl
      · cases h
        rfl
    · cases h
      rfl

theorem perTrade_of_reasons {rs : List String} (h : reasons c policy input = .ok rs) :
    ∃ evidence, evaluatePerTradeRisk c input.intent input.signal policy = .ok evidence := by
  unfold reasons at h
  simp only at h
  obtain ⟨_, _, h⟩ := Except.bind_eq_ok.mp h
  obtain ⟨_, _, h⟩ := Except.bind_eq_ok.mp h
  obtain ⟨evidence, he, _⟩ := Except.bind_eq_ok.mp h
  exact ⟨evidence, he⟩

end RiskEngine

end TradePlatform
