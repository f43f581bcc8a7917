/-
# `TradePlatform.PaperFundingEvidence` — funding evidence in the paper incubation report

`paper_funding_evidence_v1.py`: a bridge is accepted for a candidate or refused, accepted
bridges are ordered and may not overlap, and the report's holding intervals are bound to them.
The records are those of a bridge's identity; the digest of an identity, the decimal of a
text, the text of an instant and what Python's `strip` removes are parameters.
-/
import TradePlatform.ForwardFunding

namespace TradePlatform

namespace FundingEvidence

def refuse {α : Type} (message : String) : Except Exn α :=
  .error (.paperFundingEvidenceError message)

/-! ## The identity of a bridge -/

structure PriceRecord where
  evidenceKind : String
  convention : String
  relationToHistoricalChargeRule : String
  price : String
  referenceHash : String
  datasetVersionId : String
  datasetContentHash : String
  sessionId : String
  barContentHash : String
  barOpenMicros : ℤ
  knowableAtMicros : ℤ
  maxClockBoundNanos : ℤ
  firstArrivalUtcNanos : ℤ
  lastArrivalUtcNanos : ℤ
deriving DecidableEq

structure NearbyMark where
  side : String
  offsetMillis : ℤ
  price : String
  observationReference : String
  marketKnowledgeMicros : ℤ
  withinCallerTolerance : Option Bool
deriving DecidableEq

structure MarkRecord where
  evidenceKind : String
  evidenceClass : String
  refusal : Option String
  meaning : Option String
  markPrice : Option String
  nearby : List NearbyMark
  nearbyToleranceMs : Option ℤ
  resolverStatus : Option String
  resolutionHash : Option String
  knowableAtMicros : Option ℤ
  unresolvedDecisions : List String
deriving DecidableEq

structure SettlementRecord where
  settledAtMs : ℤ
  settledAt : String
  rate : String
  payerDirection : String
  fundingKnowledgeAtMicros : ℤ
  fundingObservationId : String
  price : Option PriceRecord
  priceRefusal : Option String
  structuralNote : Option String
  evidenceKnowableAtMicros : Option ℤ
  markPrice : MarkRecord
  status : String
deriving DecidableEq

structure FundingWindowReference where
  contentHash : String
  status : String
  irregularities : List String
deriving DecidableEq

structure BridgeIdentity where
  schemaVersion : String
  bridgeContractHash : String
  canonicalKey : String
  symbol : String
  startMs : ℤ
  endMsExclusive : ℤ
  asOfMicros : ℤ
  convention : String
  fundingWindow : FundingWindowReference
  priceDatasets : List String
  markEvidenceDatasets : List (String × String)
  markNearbyToleranceMs : Option ℤ
  markEvidenceClasses : List (String × ℕ)
  settlements : List SettlementRecord
  status : String
  reasons : List String
  unresolvedDecisions : List String
deriving DecidableEq

structure ForwardFundingPriceBridgeV1 where
  identity : BridgeIdentity
  contentHash : String
deriving DecidableEq

/-- The code outside the module: `identity_hash_v1` of a bridge's identity, `Decimal(text)`
(`none` is an invalid operation, `some none` a number that is not finite), the text of an
instant (`none` is an overflow), and `not text.strip()`. -/
structure Env where
  bridgeHash : BridgeIdentity → String
  decimal : String → Option (Option Decimal)
  isoMs : ℤ → Option String
  isBlank : String → Bool

/-! ## The mirrored constants -/

def bridgeSchemaVersionV1 : String := "forward-funding-price-bridge-v1.1"

def bridgeContractHashV1 : String :=
  "c0388508d52e71f58ce431235f6c90e0b783a8be9264e40c2aa3c55a9827bdf4"

def settlementEvidenceBound : String := "EVIDENCE_BOUND_TRADE_PROXY_UNAPPROVED"

def settlementPriceEvidenceRefused : String := "PRICE_EVIDENCE_REFUSED"

def refusedFundingEvidence : String := "REFUSED_FUNDING_EVIDENCE"

def evidenceBoundNotCostable : String := "EVIDENCE_BOUND_NOT_COSTABLE_PRICE_CONVENTION_UNAPPROVED"

def bridgeStatuses : List String :=
  [refusedFundingEvidence, "REFUSED_PRICE_EVIDENCE", evidenceBoundNotCostable]

def tradePriceProxy : String := "TRADE_PRICE_PROXY"

def venuePublishedMarkPrice : String := "VENUE_PUBLISHED_MARK_PRICE"

def markEvidenceClasses : List String := ["EXACT", "NEARBY", "REFUSED", "UNAVAILABLE"]

def barOffsetMicros : String → Option ℤ
  | "FIRST_TRADE_OF_MINUTE_STARTING_AT_INSTANT" => some 0
  | "LAST_TRADE_OF_MINUTE_ENDING_AT_INSTANT" => some (-60000000)
  | _ => none

def fundingWindowComplete : String := "COMPLETE"

def unresolvedPriceConvention : String := "UNRESOLVED_OWNER_DECISION_FUNDING_PRICE_CONVENTION"

def forwardFundingAcquisitionPrefix : String := "FORWARD_FUNDING_ACQUISITION:"

def startsWith (text front : String) : Bool := front.toList.isPrefixOf text.toList

/-! ## Acceptance -/

variable (env : Env)

def payerDirectionOf (rate : Decimal) : String :=
  if 0 < rate then "LONGS_PAY_SHORTS"
  else if rate < 0 then "SHORTS_PAY_LONGS"
  else "ZERO_RATE_NO_TRANSFER"

def settlementRate (text : String) : Except Exn Decimal :=
  match env.decimal text with
  | some (some rate) => .ok rate
  | _ => refuse "funding_settlement_rate_malformed"

/-- `str(text or "").strip()`, of something that may be missing. -/
def missing (text : Option String) : Bool := text.all env.isBlank

def checkBoundPrice (item : SettlementRecord) (convention : String) (asOfMicros : ℤ) :
    Except Exn Unit :=
  match item.price, barOffsetMicros convention with
  | some price, some offset =>
      if item.priceRefusal.isSome then refuse "bound_settlement_without_a_price_reference"
      else if price.evidenceKind ≠ tradePriceProxy ∨ price.convention ≠ convention then
        refuse "price_reference_is_not_the_bridge_convention_trade_proxy"
      else if price.barOpenMicros ≠ item.settledAtMs * 1000 + offset then
        refuse "price_reference_bar_is_not_the_convention_minute"
      else match item.evidenceKnowableAtMicros with
        | none => refuse "settlement_knowledge_malformed"
        | some evidence =>
            if evidence ≠ max item.fundingKnowledgeAtMicros price.knowableAtMicros ∨
                asOfMicros < evidence then
              refuse "settlement_knowledge_disagrees_or_is_after_the_bridge_as_of"
            else if env.isBlank price.price ∨ env.isBlank price.referenceHash ∨
                env.isBlank price.datasetVersionId ∨ env.isBlank price.datasetContentHash ∨
                env.isBlank price.barContentHash then
              refuse "price_reference_without_its_source_reference"
            else .ok ()
  | none, _ => refuse "bound_settlement_without_a_price_reference"
  | _, none => .error (.keyError convention)

def checkPrice (item : SettlementRecord) (convention : String) (asOfMicros : ℤ) :
    Except Exn Unit :=
  if item.status = settlementEvidenceBound then checkBoundPrice env item convention asOfMicros
  else if item.price.isSome ∨ missing env item.priceRefusal then
    refuse "refused_settlement_must_carry_its_refusal_and_no_price"
  else .ok ()

def checkMark (mark : MarkRecord) (asOfMicros : ℤ) : Except Exn Unit :=
  if mark.evidenceKind ≠ venuePublishedMarkPrice ∨ mark.evidenceClass ∉ markEvidenceClasses then
    refuse "mark_evidence_record_malformed"
  else if mark.knowableAtMicros.any fun known => asOfMicros < known then
    refuse "mark_evidence_known_after_the_bridge_as_of"
  else .ok ()

def checkSettlement (convention : String) (asOfMicros startMs endMs : ℤ)
    (item : SettlementRecord) : Except Exn Unit := do
  if ¬ (startMs ≤ item.settledAtMs ∧ item.settledAtMs < endMs) then
    refuse "funding_settlement_outside_its_bridge_window"
  else if env.isoMs item.settledAtMs ≠ some item.settledAt then
    refuse "funding_settlement_instant_text_disagrees"
  else do
    let rate ← settlementRate env item.rate
    if item.payerDirection ≠ payerDirectionOf rate then
      refuse "funding_settlement_payer_direction_contradicts_its_rate"
    else if asOfMicros < item.fundingKnowledgeAtMicros ∨
        item.fundingKnowledgeAtMicros < item.settledAtMs * 1000 then
      refuse "funding_settlement_knowledge_outside_settlement_and_bridge_as_of"
    else if env.isBlank item.fundingObservationId then
      refuse "funding_settlement_without_an_observation_reference"
    else if item.status ∉ [settlementEvidenceBound, settlementPriceEvidenceRefused] then
      refuse "funding_settlement_status_unknown"
    else do
      checkPrice env item convention asOfMicros
      checkMark item.markPrice asOfMicros

def canonicalKeyV1 (symbol : String) : Except Exn String :=
  if symbol ∈ ForwardFunding.canonicalSymbolsV1 then .ok ("BYBIT:linear:" ++ symbol)
  else refuse "funding_evidence_symbol_outside_the_universe"

def checkHeader (bridge : ForwardFundingPriceBridgeV1) (symbol : String) : Except Exn Unit := do
  let identity := bridge.identity
  if env.bridgeHash identity ≠ bridge.contentHash then
    refuse "funding_bridge_identity_does_not_rederive"
  else if identity.schemaVersion ≠ bridgeSchemaVersionV1 then
    refuse "funding_bridge_schema_version_unknown"
  else if identity.bridgeContractHash ≠ bridgeContractHashV1 then
    refuse "funding_bridge_contract_is_not_the_v1_contract"
  else do
    let key ← canonicalKeyV1 symbol
    if identity.canonicalKey ≠ key ∨ identity.symbol ≠ symbol then
      refuse "funding_evidence_symbol_is_not_the_candidate_symbol"
    else if identity.status ∉ bridgeStatuses then refuse "funding_bridge_status_unknown"
    else if barOffsetMicros identity.convention = none then
      refuse "funding_bridge_price_convention_unknown"
    else if identity.endMsExclusive ≤ identity.startMs then
      refuse "funding_bridge_window_malformed"
    else if env.isBlank identity.fundingWindow.contentHash then
      refuse "funding_bridge_window_reference_missing"
    else if identity.fundingWindow.status = fundingWindowComplete ↔
        identity.status = refusedFundingEvidence then
      refuse "funding_bridge_status_contradicts_its_window"
    else if identity.fundingWindow.status = fundingWindowComplete ∧
        identity.asOfMicros < identity.endMsExclusive * 1000 then
      refuse "funding_window_complete_before_it_closed_as_of_the_bridge"
    else .ok ()

def checkWhole (identity : BridgeIdentity) : Except Exn Unit :=
  let instants := identity.settlements.map SettlementRecord.settledAtMs
  if instants ≠ sortedSet id instants then
    refuse "funding_bridge_settlements_not_ordered_and_unique"
  else if identity.status = evidenceBoundNotCostable ∧
      identity.settlements.any fun item => item.status = settlementPriceEvidenceRefused then
    refuse "funding_bridge_status_contradicts_its_settlements"
  else if unresolvedPriceConvention ∉ identity.unresolvedDecisions ∨
      ¬ identity.unresolvedDecisions.any fun item =>
        startsWith item forwardFundingAcquisitionPrefix then
    refuse "funding_bridge_omits_an_unresolved_owner_decision"
  else .ok ()

def acceptBridge (bridge : ForwardFundingPriceBridgeV1) (symbol : String) :
    Except Exn BridgeIdentity := do
  checkHeader env bridge symbol
  bridge.identity.settlements.forM fun item =>
    checkSettlement env bridge.identity.convention bridge.identity.asOfMicros
      bridge.identity.startMs bridge.identity.endMsExclusive item
  checkWhole bridge.identity
  .ok bridge.identity

/-! ## The evidence of a candidate -/

def Separate (left right : ForwardFundingPriceBridgeV1) : Prop :=
  left.identity.endMsExclusive ≤ right.identity.startMs

instance : DecidableRel Separate := fun left right =>
  inferInstanceAs (Decidable (left.identity.endMsExclusive ≤ right.identity.startMs))

/-- `CandidateFundingEvidenceV1`: issued by its constructor only. -/
structure CandidateFundingEvidenceV1 where
  studyId : String
  trialId : String
  symbol : String
  validationHash : Option String
  bridges : List ForwardFundingPriceBridgeV1
  accepted : ∀ bridge ∈ bridges, acceptBridge env bridge symbol = .ok bridge.identity
  separate : bridges.IsChain Separate

theorem acceptBridge_identity {bridge : ForwardFundingPriceBridgeV1} {symbol : String}
    {identity : BridgeIdentity} (h : acceptBridge env bridge symbol = .ok identity) :
    identity = bridge.identity := by
  obtain ⟨-, -, h⟩ := Except.bind_eq_ok.mp h
  obtain ⟨-, -, h⟩ := Except.bind_eq_ok.mp h
  obtain ⟨-, -, h⟩ := Except.bind_eq_ok.mp h
  exact (Except.ok.inj h).symm

theorem accepted_of_mapM {bridges : List ForwardFundingPriceBridgeV1} {symbol : String}
    {identities : List BridgeIdentity}
    (h : (bridges.mapM fun bridge => acceptBridge env bridge symbol) = .ok identities) :
    ∀ bridge ∈ bridges, acceptBridge env bridge symbol = .ok bridge.identity := by
  intro bridge hbridge
  obtain ⟨identity, -, haccept⟩ := Except.exists_of_mem_mapM h hbridge
  rw [haccept, acceptBridge_identity env haccept]

def bridgeKey (bridge : ForwardFundingPriceBridgeV1) : ℤ ×ₗ String :=
  toLex (bridge.identity.startMs, bridge.contentHash)

def candidateFundingEvidenceV1 (studyId trialId symbol : String)
    (bridges : List ForwardFundingPriceBridgeV1) (validationHash : Option String) :
    Except Exn (CandidateFundingEvidenceV1 env) :=
  if env.isBlank studyId ∨ env.isBlank trialId then
    refuse "funding_evidence_candidate_identity_missing"
  else if bridges = [] then refuse "funding_evidence_needs_at_least_one_bridge"
  else match haccept : bridges.mapM fun bridge => acceptBridge env bridge symbol with
    | .error e => .error e
    | .ok _ =>
        let ordered := sortBy bridgeKey bridges
        if ¬ (ordered.map ForwardFundingPriceBridgeV1.contentHash).Nodup then
          refuse "funding_bridge_supplied_twice"
        else if (ordered.map fun bridge => bridge.identity.convention).dedup.length ≠ 1 then
          refuse "funding_bridges_mix_price_conventions"
        else if hseparate : ordered.IsChain Separate then
          .ok ⟨studyId, trialId, symbol, validationHash, ordered,
            fun bridge hbridge =>
              accepted_of_mapM env haccept bridge (mem_sortBy.mp hbridge), hseparate⟩
        else refuse "funding_bridge_windows_overlap"

variable {env}

theorem acceptBridge_window {bridge : ForwardFundingPriceBridgeV1} {symbol : String}
    {identity : BridgeIdentity} (h : acceptBridge env bridge symbol = .ok identity) :
    bridge.identity.startMs < bridge.identity.endMsExclusive := by
  obtain ⟨_, hheader, _⟩ := Except.bind_eq_ok.mp h
  unfold checkHeader at hheader
  obtain ⟨-, hheader⟩ := Except.of_ite_error hheader
  obtain ⟨-, hheader⟩ := Except.of_ite_error hheader
  obtain ⟨-, hheader⟩ := Except.of_ite_error hheader
  obtain ⟨_, _, hheader⟩ := Except.bind_eq_ok.mp hheader
  obtain ⟨-, hheader⟩ := Except.of_ite_error hheader
  obtain ⟨-, hheader⟩ := Except.of_ite_error hheader
  obtain ⟨-, hheader⟩ := Except.of_ite_error hheader
  exact not_le.mp (Except.of_ite_error hheader).1

/-- Windows that follow each other start one after another. -/
theorem CandidateFundingEvidenceV1.sorted (evidence : CandidateFundingEvidenceV1 env) :
    evidence.bridges.Pairwise fun left right => bridgeKey left ≤ bridgeKey right := by
  have hchain : evidence.bridges.IsChain fun left right =>
      left.identity.startMs < right.identity.startMs := by
    refine evidence.separate.imp_of_mem_imp fun left right hleft _ hseparate => ?_
    exact (acceptBridge_window (evidence.accepted left hleft)).trans_le hseparate
  have htrans : IsTrans ForwardFundingPriceBridgeV1 fun left right =>
      left.identity.startMs < right.identity.startMs := ⟨fun _ _ _ h h' => h.trans h'⟩
  refine hchain.pairwise.imp fun hlt => le_of_lt (Prod.Lex.toLex_lt_toLex.mpr (.inl hlt))

/-- Bridges are accepted, in whatever order they come, exactly when they are the bridges of some
evidence, no two of them the same and all of one convention. -/
theorem candidateFundingEvidenceV1_eq_ok {studyId trialId symbol : String}
    {bridges : List ForwardFundingPriceBridgeV1} {validationHash : Option String}
    {evidence : CandidateFundingEvidenceV1 env} :
    candidateFundingEvidenceV1 env studyId trialId symbol bridges validationHash = .ok evidence ↔
      evidence.studyId = studyId ∧ evidence.trialId = trialId ∧ evidence.symbol = symbol ∧
      evidence.validationHash = validationHash ∧ evidence.bridges.Perm bridges ∧
      env.isBlank studyId = false ∧ env.isBlank trialId = false ∧
      (bridges.map ForwardFundingPriceBridgeV1.contentHash).Nodup ∧
      (bridges.map fun bridge => bridge.identity.convention).dedup.length = 1 := by
  have hordered : ∀ {β : Type} (f : ForwardFundingPriceBridgeV1 → β),
      ((sortBy bridgeKey bridges).map f).Perm (bridges.map f) := fun f =>
    (sortBy_perm bridgeKey bridges).map f
  have hhashes := (hordered ForwardFundingPriceBridgeV1.contentHash).nodup_iff
  have hconvention := (hordered fun bridge => bridge.identity.convention).dedup.length_eq
  constructor
  · intro h
    unfold candidateFundingEvidenceV1 at h
    obtain ⟨hblank, h⟩ := Except.of_ite_error h
    obtain ⟨-, h⟩ := Except.of_ite_error h
    split at h
    · cases h
    dsimp only at h
    obtain ⟨hnodup, h⟩ := Except.of_ite_error h
    obtain ⟨hone, h⟩ := Except.of_ite_error h
    split at h
    · cases h
      have hblank := not_or.mp hblank
      exact ⟨rfl, rfl, rfl, rfl, sortBy_perm _ _, Bool.eq_false_iff.mpr hblank.1,
        Bool.eq_false_iff.mpr hblank.2, hhashes.mp (not_not.mp hnodup),
        hconvention ▸ not_not.mp hone⟩
    · cases h
  · obtain ⟨study, trial, sym, hash, ordered, haccepted, hseparate⟩ := evidence
    rintro ⟨rfl, rfl, rfl, rfl, hperm, hstudy, htrial, hnodup, hone⟩
    have hkey : KeyTells bridgeKey bridges := fun a ha b hb heq =>
      List.inj_on_of_nodup_map hnodup ha hb (Prod.ext_iff.mp (toLex_inj.mp heq)).2
    have hsorted : sortBy bridgeKey bridges = ordered := sortBy_eq hkey hperm
      (CandidateFundingEvidenceV1.sorted ⟨study, trial, sym, hash, ordered, haccepted, hseparate⟩)
    have hne : bridges ≠ [] := by
      rintro rfl
      cases hone
    obtain ⟨identities, hok⟩ := Except.exists_mapM_ok
      fun bridge hbridge => ⟨_, haccepted bridge (hperm.mem_iff.mpr hbridge)⟩
    unfold candidateFundingEvidenceV1
    rw [if_neg (by simp [hstudy, htrial]), if_neg hne]
    split
    · rename_i e he
      rw [hok] at he
      cases he
    dsimp only
    rw [if_neg (not_not.mpr (hhashes.mpr hnodup)), if_neg (not_not.mpr (hconvention.trans hone))]
    subst hsorted
    rw [dif_pos hseparate]

variable (env)

/-! ## The section of the report -/

inductive HoldingEnd where
  | closedByFill | openAtAsOf | chainBroken
deriving DecidableEq, Repr

structure Holding where
  direction : ℤ
  startMicros : ℤ
  endMicros : ℤ
  endKind : HoldingEnd
deriving DecidableEq

inductive Relation where
  | heldAtSettlement | atFillInstantHoldingAmbiguous | holdingNotProvenChainBroken
deriving DecidableEq, Repr

structure BoundSettlement where
  settledAtMs : ℤ
  settledAt : String
  rate : String
  payerDirection : String
  holdingIndex : ℕ
  positionDirection : ℤ
  relation : Relation
  status : String
  tradeProxy : Option PriceRecord
  priceRefusal : Option String
  structuralNote : Option String
  markPrice : MarkRecord
  bridgeContentHash : String
  fundingObservationId : String
  fundingKnowledgeAtMicros : ℤ
  evidenceKnowableAtMicros : Option ℤ
deriving DecidableEq

structure HoldingRecord where
  index : ℕ
  holding : Holding
  covered : Bool
  settlements : List ℤ
deriving DecidableEq

inductive FundingEvidenceState where
  | noFundingEvidenceSupplied | evidenceLinked | evidenceComplete
deriving DecidableEq, Repr

structure FundingEvidenceSection where
  state : FundingEvidenceState
  holdingIntervals : List HoldingRecord
  settlements : List BoundSettlement
  provenance : List ForwardFundingPriceBridgeV1
  settlementsOutsideHoldings : ℕ
  completenessBlockers : List String
  economicBlockers : List String
deriving DecidableEq

def extendRuns (runs : List (ℤ × ℤ)) (bridge : ForwardFundingPriceBridgeV1) : List (ℤ × ℤ) :=
  if bridge.identity.fundingWindow.status ≠ fundingWindowComplete then runs
  else
    let start := bridge.identity.startMs * 1000
    let finish := bridge.identity.endMsExclusive * 1000
    match runs.getLast? with
    | none => [(start, finish)]
    | some last =>
        if start = last.2 then runs.dropLast ++ [(last.1, finish)] else runs ++ [(start, finish)]

def coveredRuns (bridges : List ForwardFundingPriceBridgeV1) : List (ℤ × ℤ) :=
  bridges.foldl extendRuns []

/-- `settlements`: a later bridge's record of an instant takes the place of an earlier one's. -/
def settlementAt (bridges : List ForwardFundingPriceBridgeV1) (at_ : ℤ) :
    Option (ForwardFundingPriceBridgeV1 × SettlementRecord) :=
  (bridges.flatMap fun bridge =>
    bridge.identity.settlements.map fun item => (bridge, item)).reverse.find?
      fun pair => pair.2.settledAtMs = at_

def settlementInstants (bridges : List ForwardFundingPriceBridgeV1) : List ℤ :=
  sortedSet id (bridges.flatMap fun bridge =>
    bridge.identity.settlements.map SettlementRecord.settledAtMs)

def relationOf (holding : Holding) (at_ : ℤ) : Relation :=
  if holding.endKind = .chainBroken then .holdingNotProvenChainBroken
  else if at_ * 1000 = holding.startMicros ∨ at_ * 1000 = holding.endMicros then
    .atFillInstantHoldingAmbiguous
  else .heldAtSettlement

def endBlockers : HoldingEnd → List String
  | .closedByFill => []
  | .openAtAsOf => ["OPEN_POSITION_AT_AS_OF_NOT_CLOSED"]
  | .chainBroken => ["HOLDING_ENDED_BY_A_CHAIN_BREAK_POSITION_UNKNOWN"]

def relationBlockers (relation : Relation) (status : String) : List String :=
  match relation with
  | .holdingNotProvenChainBroken => []
  | .atFillInstantHoldingAmbiguous => ["SETTLEMENT_AT_A_FILL_INSTANT_HOLDING_AMBIGUOUS"]
  | .heldAtSettlement =>
      if status ≠ settlementEvidenceBound then ["HELD_SETTLEMENT_PRICE_EVIDENCE_REFUSED"] else []

def bindSettlement (holding : Holding) (index : ℕ)
    (pair : ForwardFundingPriceBridgeV1 × SettlementRecord) : BoundSettlement where
  settledAtMs := pair.2.settledAtMs
  settledAt := pair.2.settledAt
  rate := pair.2.rate
  payerDirection := pair.2.payerDirection
  holdingIndex := index
  positionDirection := holding.direction
  relation := relationOf holding pair.2.settledAtMs
  status := pair.2.status
  tradeProxy := pair.2.price
  priceRefusal := pair.2.priceRefusal
  structuralNote := pair.2.structuralNote
  markPrice := pair.2.markPrice
  bridgeContentHash := pair.1.contentHash
  fundingObservationId := pair.2.fundingObservationId
  fundingKnowledgeAtMicros := pair.2.fundingKnowledgeAtMicros
  evidenceKnowableAtMicros := pair.2.evidenceKnowableAtMicros

def bindHolding (bridges : List ForwardFundingPriceBridgeV1) (runs : List (ℤ × ℤ))
    (asOfMicros : ℤ) (item : Holding × ℕ) :
    Except Exn (HoldingRecord × List BoundSettlement × List String) :=
  let holding := item.1
  if asOfMicros < holding.endMicros ∨ holding.endMicros < holding.startMicros then
    refuse "holding_interval_outside_the_report_as_of"
  else
    let covered := runs.any fun run => run.1 ≤ holding.startMicros ∧ holding.endMicros < run.2
    let inside := (settlementInstants bridges).filter fun at_ =>
      holding.startMicros ≤ at_ * 1000 ∧ at_ * 1000 ≤ holding.endMicros
    let bound := (inside.filterMap (settlementAt bridges)).map (bindSettlement holding item.2)
    .ok (⟨item.2, holding, covered, inside⟩, bound,
      endBlockers holding.endKind ++
        (if covered then [] else ["HOLDING_INTERVAL_NOT_COVERED_BY_COMPLETE_FUNDING_WINDOWS"]) ++
        bound.flatMap fun settlement => relationBlockers settlement.relation settlement.status)

def economicBlockersV1 (feeScheduleVerified : Bool) : List String :=
  ["FUNDING_CHARGE_NOT_CALCULATED_IN_V1",
    "UNRESOLVED_OWNER_DECISION_PUBLISHED_SETTLEMENT_AS_PAPER_SETTLEMENT_AUTHORITY"] ++
    if feeScheduleVerified then [] else ["MISSING_VERIFIED_FEE_SCHEDULE_OR_6"]

def emptySection (feeScheduleVerified : Bool) : FundingEvidenceSection :=
  ⟨.noFundingEvidenceSupplied, [], [], [], 0, [],
    sortedSet id (economicBlockersV1 feeScheduleVerified)⟩

def linkedSection (evidence : CandidateFundingEvidenceV1 env) (holdings : List Holding)
    (fillsSkipped : ℕ) (asOfMicros : ℤ) (feeScheduleVerified : Bool) :
    Except Exn FundingEvidenceSection := do
  let runs := coveredRuns evidence.bridges
  let bound ← (holdings.zipIdx).mapM (bindHolding evidence.bridges runs asOfMicros)
  let blockers :=
    (if 0 < fillsSkipped then ["FILLS_SKIPPED_AT_AN_UNKNOWN_POSITION"] else []) ++
      (if holdings = [] then ["NO_HOLDING_INTERVAL_TO_BIND"] else []) ++
      bound.flatMap fun item => item.2.2
  let inside := bound.flatMap fun item => item.1.settlements
  .ok {
    state := if blockers = [] then .evidenceComplete else .evidenceLinked
    holdingIntervals := bound.map Prod.fst
    settlements := bound.flatMap fun item => item.2.1
    provenance := evidence.bridges
    settlementsOutsideHoldings :=
      ((settlementInstants evidence.bridges).filter fun at_ => at_ ∉ inside).length
    completenessBlockers := sortedSet id blockers
    economicBlockers := sortedSet id (economicBlockersV1 feeScheduleVerified ++
      evidence.bridges.flatMap fun bridge => bridge.identity.unresolvedDecisions) }

def fundingEvidenceSectionV1 (evidence : Option (CandidateFundingEvidenceV1 env))
    (studyId trialId symbol : String) (holdings : List Holding) (fillsSkipped : ℕ)
    (asOfMicros : ℤ) (bindingValidationHash : Option String) (feeScheduleVerified : Bool) :
    Except Exn FundingEvidenceSection :=
  match evidence with
  | none => .ok (emptySection feeScheduleVerified)
  | some evidence =>
      if (evidence.studyId, evidence.trialId) ≠ (studyId, trialId) ∨ evidence.symbol ≠ symbol then
        refuse "funding_evidence_is_of_another_candidate"
      else if evidence.validationHash.isSome ∧ evidence.validationHash ≠ bindingValidationHash then
        refuse "funding_evidence_is_of_another_incubation_binding"
      else if evidence.bridges.any fun bridge => asOfMicros < bridge.identity.asOfMicros then
        refuse "funding_evidence_known_after_the_report_as_of"
      else linkedSection env evidence holdings fillsSkipped asOfMicros feeScheduleVerified

end FundingEvidence

end TradePlatform
