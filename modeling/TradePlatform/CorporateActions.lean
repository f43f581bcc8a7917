/-
# `TradePlatform.CorporateActions` — corporate actions, and the simulation with them

`CorporateAction` and `apply_actions` of `corporate_actions.py`, and
`apply_corporate_actions` of the `EventDrivenBacktester`, with the set of the actions it has
recorded.  A call goes through the sorted actions one by one and writes as it goes, so the
answer of a pass and the state after it are returned together, as for `process`.
-/
import TradePlatform.EventBacktest
import TradePlatform.Lib.SortBy

namespace TradePlatform

inductive CorporateActionType where
  | split | cashDividend | symbolChange | delisting
deriving DecidableEq, Repr

structure CorporateAction where
  instrumentId : String
  actionType : CorporateActionType
  announcedAt : DateTime
  effectiveAt : DateTime
  ingestedAt : DateTime
  provider : String
  sourceIdentifier : String
  revision : ℤ := 0
  ratio : Option Decimal := none
  amountPerShare : Option Decimal := none
  currency : Option String := none
  successorInstrumentId : Option String := none
  cashOutPrice : Option Decimal := none
deriving DecidableEq

def missingAmount : Option Decimal → Bool
  | none => true
  | some amount => decide (amount < 0)

def missingText (text : Option String) : Bool := decide (text.getD "" = "")

def corporateActionRefused {α : Type} (message : String) : Except Exn α :=
  .error (.corporateActionError message)

namespace CorporateAction

variable (action : CorporateAction)

/-- `(provider, source_identifier)`: the action, in any of its revisions. -/
def logicalId : String × String := (action.provider, action.sourceIdentifier)

def key : String × String × ℤ := (action.provider, action.sourceIdentifier, action.revision)

def timestampsInvalid : Bool :=
  match action.announcedAt, action.effectiveAt, action.ingestedAt with
  | .aware announced, .aware effective, .aware ingested =>
      decide (effective < announced ∨ ingested < announced)
  | _, _, _ => true

def validate : Except Exn Unit :=
  if blank action.instrumentId ∨ blank action.provider ∨ blank action.sourceIdentifier ∨
      action.revision < 0 then
    corporateActionRefused "invalid_corporate_action_identity"
  else if action.timestampsInvalid then
    corporateActionRefused "invalid_corporate_action_timestamps"
  else if action.actionType = .split ∧ missingPrice action.ratio then
    corporateActionRefused "split_requires_positive_ratio"
  else if action.actionType = .cashDividend ∧
      (missingAmount action.amountPerShare ∨ missingText action.currency) then
    corporateActionRefused "dividend_requires_amount_and_currency"
  else if action.actionType = .symbolChange ∧ missingText action.successorInstrumentId then
    corporateActionRefused "symbol_change_requires_successor"
  else if action.actionType = .delisting ∧
      (missingAmount action.cashOutPrice ∨ missingText action.currency) then
    corporateActionRefused "delisting_requires_cash_out_price_and_currency"
  else .ok ()

end CorporateAction

/-! ## Sorting -/

def DateTime.reading : DateTime → ℤ
  | .aware instant => instant
  | .naive wall => wall

def comparable (timestamps : List DateTime) : Bool :=
  timestamps.all DateTime.isAware || timestamps.all fun t => !t.isAware

/-- `sorted(actions, key=lambda item: (item.effective_at, ...))`: two timestamps that cannot be
compared raise, and in a list that has both kinds two of them are neighbours. -/
def sortedBy {β : Type} [LinearOrder β] (key : CorporateAction → β)
    (actions : List CorporateAction) : Except Exn (List CorporateAction) :=
  if comparable (actions.map CorporateAction.effectiveAt) then
    .ok (sortBy (fun action => toLex (action.effectiveAt.reading, key action)) actions)
  else .error .typeError

/-! ## `apply_actions` -/

structure CorporateActionApplication where
  position : Position
  cash : CashBalance
deriving DecidableEq

section Apply

variable (c : Decimal.Context)

def operand (value : Option Decimal) : Except Exn Decimal :=
  match value with
  | some value => .ok value
  | none => .error .typeError

def payCash (position : Position) (cash : CashBalance) (currency : Option String)
    (perShare : Option Decimal) : Except Exn CashBalance :=
  if currency ≠ some cash.currency then
    corporateActionRefused "corporate_action_currency_mismatch"
  else do
    let perShare ← operand perShare
    return ⟨cash.currency, c.add cash.amount (c.mul position.quantity perShare)⟩

def CorporateAction.apply (action : CorporateAction) (position : Position) (cash : CashBalance) :
    Except Exn CorporateActionApplication :=
  match action.actionType with
  | .split => do
      let ratio ← operand action.ratio
      return ⟨⟨position.instrumentId, c.mul position.quantity ratio,
        c.div position.averageCost ratio⟩, cash⟩
  | .cashDividend => do
      let cash ← payCash c position cash action.currency action.amountPerShare
      return ⟨position, cash⟩
  | .symbolChange =>
      .ok ⟨{ position with instrumentId := action.successorInstrumentId.getD "" }, cash⟩
  | .delisting => do
      let cash ← payCash c position cash action.currency action.cashOutPrice
      return ⟨⟨position.instrumentId, 0, 0⟩, cash⟩

def applySorted (asOf : DateTime) :
    Position → CashBalance → List CorporateAction → Except Exn CorporateActionApplication
  | position, cash, [] => .ok ⟨position, cash⟩
  | position, cash, action :: rest => do
      action.validate
      match asOf.lt action.effectiveAt with
      | none => .error .typeError
      | some true => corporateActionRefused "cannot_apply_future_corporate_action"
      | some false =>
          if action.instrumentId ≠ position.instrumentId then
            corporateActionRefused "corporate_action_instrument_mismatch"
          else do
            let applied ← action.apply c position cash
            applySorted asOf applied.position applied.cash rest

def applyActions (position : Position) (cash : CashBalance) (actions : List CorporateAction)
    (asOf : DateTime) : Except Exn CorporateActionApplication :=
  if asOf.isAware = false then
    corporateActionRefused "action_application_timestamp_must_be_timezone_aware"
  else do
    let sorted ← sortedBy CorporateAction.revision actions
    applySorted c asOf position cash sorted

end Apply

/-! ## `apply_corporate_actions` -/

/-- An `EventDrivenBacktester` with its `_applied_corporate_actions`. -/
structure Simulation extends EventDrivenBacktester where
  appliedCorporateActions : Finset (String × String × ℤ)

structure CorporateCall where
  actions : List CorporateAction
  asOf : DateTime
deriving DecidableEq

def CorporateCall.sorted (call : CorporateCall) : Except Exn (List CorporateAction) :=
  sortedBy (fun action => toLex (action.provider, toLex (action.sourceIdentifier, action.revision)))
    call.actions

def Simulation.rejected : Exn → Exn
  | .corporateActionError _ => .eventBacktestValidationError "corporate_action_rejected"
  | error => error

namespace Simulation

variable (c : Decimal.Context) (asOf : DateTime) (s : Simulation)

def new (assumptions : ExecutionAssumptions) (initialCash : Decimal) (cashCurrency : String) :
    Except Exn Simulation := do
  let engine ← EventDrivenBacktester.new assumptions initialCash cashCurrency
  return ⟨engine, ∅⟩

def record (action : CorporateAction) : Simulation :=
  { s with appliedCorporateActions := insert action.key s.appliedCorporateActions }

def held (instrumentId : String) : Option Position :=
  (s.positions.find? instrumentId).filter fun position => decide (position.quantity ≠ 0)

/-- The writes of an action that was applied to its position: the position is deleted, and what
it became is written unless another position is in its place. -/
def write (action : CorporateAction) (applied : CorporateActionApplication) :
    Except Exn Unit × Simulation :=
  let deleted := { s with positions := s.positions.erase action.instrumentId }
  if applied.position.quantity ≠ 0 then
    match deleted.held applied.position.instrumentId with
    | some _ =>
        (.error (.eventBacktestValidationError "corporate_action_position_merge_unsupported"),
          deleted)
    | none =>
        (.ok (), { deleted with
          positions := deleted.positions.put applied.position
          cash := applied.cash }.record action)
  else (.ok (), { deleted with cash := applied.cash }.record action)

def applyCorporateAction (action : CorporateAction) : Except Exn Unit × Simulation :=
  if action.key ∈ s.appliedCorporateActions then (.ok (), s)
  else
    match asOf.lt action.effectiveAt with
    | none => (.error .typeError, s)
    | some true => (.error (.eventBacktestValidationError "future_corporate_action"), s)
    | some false =>
        match s.held action.instrumentId with
        | none => (.ok (), s.record action)
        | some position =>
            match applyActions c position s.cash [action] asOf with
            | .error e => (.error (rejected e), s)
            | .ok applied => s.write action applied

def applyAll : Simulation → List CorporateAction → Except Exn Unit × Simulation
  | s, [] => (.ok (), s)
  | s, action :: rest =>
      match s.applyCorporateAction c asOf action with
      | (.error e, s') => (.error e, s')
      | (.ok (), s') => applyAll s' rest

def applyCorporateActions (call : CorporateCall) : Except Exn Unit × Simulation :=
  if call.asOf.isAware = false then
    (.error (.eventBacktestValidationError
      "corporate_action_timestamp_must_be_timezone_aware"), s)
  else
    match call.sorted with
    | .error e => (.error e, s)
    | .ok actions => s.applyAll c call.asOf actions

end Simulation

inductive SimulationCall where
  | trade (call : BacktestCall)
  | applyCorporateActions (call : CorporateCall)
deriving DecidableEq

def Simulation.step (c : Decimal.Context) (sqrt : Decimal → Decimal) (s : Simulation) :
    SimulationCall → Simulation
  | .trade call => { s with toEventDrivenBacktester := s.toEventDrivenBacktester.step c sqrt call }
  | .applyCorporateActions call => (s.applyCorporateActions c call).2

end TradePlatform
