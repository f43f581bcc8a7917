/-
# `TradePlatform.CaptureRecords` — captured messages and the contract that admits them

`FirstPartyCaptureRecordV1` of `first_party_capture_archive_v1.py`: how a record is derived
from the verbatim payload, what its content hash binds, and the line it is stored as.  The
decoder of the standard library and the digests are parameters.
-/
import TradePlatform.Domain
import TradePlatform.Lib.Json
import TradePlatform.Lib.JsonLines
import TradePlatform.Lib.Replay

namespace TradePlatform

namespace CaptureArchive

open JsonLines

def refuse {α : Type} (message : String) : Except Exn α := .error (.captureArchiveError message)

structure CaptureClockReadingV1 where
  arrivalUtcNanos : ℤ
  arrivalMonotonicNanos : ℤ
deriving DecidableEq, Repr

def utcDayOfNanos (nanos : ℤ) : ℤ := nanos / (86400 * 10 ^ 9)

/-! ## Contracts -/

/-- The fields of a `FirstPartyCaptureContractV1` that the archive reads, with its
`content_hash()`. -/
structure FirstPartyCaptureContractV1 where
  sourceId : UUID
  originatingExchange : String
  endpoint : String
  instrumentScope : String
  exchangeSymbol : String
  authorizedChannels : List String
  clockSemantics : List String
  captureSemanticVersion : String
  contentHash : String
deriving DecidableEq

def FirstPartyCaptureContractV1.topics (contract : FirstPartyCaptureContractV1) : List String :=
  contract.authorizedChannels.map fun channel => channel ++ "." ++ contract.exchangeSymbol

/-- `authorized_first_party_capture_contracts_v1`: a closed set, the production contract
first, one contract a source. -/
structure CaptureAuthority where
  production : FirstPartyCaptureContractV1
  others : List FirstPartyCaptureContractV1
  distinct : ((production :: others).map FirstPartyCaptureContractV1.sourceId).Nodup

namespace CaptureAuthority

variable (authority : CaptureAuthority)

def contracts : List FirstPartyCaptureContractV1 := authority.production :: authority.others

def resolve (sourceId : UUID) : Option FirstPartyCaptureContractV1 :=
  authority.contracts.find? fun contract => contract.sourceId = sourceId

theorem resolve_sourceId {authority : CaptureAuthority} {contract : FirstPartyCaptureContractV1}
    (h : contract ∈ authority.contracts) : authority.resolve contract.sourceId = some contract := by
  refine List.find?_eq_some_iff_append.mpr ⟨by simp, ?_⟩
  obtain ⟨before, after, hsplit⟩ := List.append_of_mem h
  refine ⟨before, after, hsplit, fun other hother => ?_⟩
  have hnodup := authority.distinct
  rw [show authority.production :: authority.others = before ++ contract :: after from hsplit,
    List.map_append, List.nodup_append] at hnodup
  have hne := hnodup.2.2 other.sourceId (List.mem_map_of_mem hother) contract.sourceId (by simp)
  simp [hne]

end CaptureAuthority

/-! ## Records -/

structure FirstPartyCaptureRecordV1 where
  schemaVersion : String
  sourceId : UUID
  sessionId : UUID
  sequence : ℤ
  arrivalUtcNanos : ℤ
  arrivalMonotonicNanos : ℤ
  exchange : String
  endpoint : String
  channel : String
  topic : String
  instrument : String
  messageType : Option String
  exchangeTimestampMillis : Option ℤ
  payloadText : String
  contentHash : String := ""
deriving DecidableEq, Repr

structure HashPayloadV1 where
  schemaVersion : String
  sourceId : UUID
  sessionId : UUID
  sequence : ℤ
  arrivalUtcNanos : ℤ
  arrivalMonotonicNanos : ℤ
  exchange : String
  endpoint : String
  channel : String
  topic : String
  instrument : String
  messageType : Option String
  exchangeTimestampMillis : Option ℤ
  payloadSha256 : String
deriving DecidableEq, Encodable

structure RecordLineV1 extends HashPayloadV1 where
  payload : String
  contentHash : String
deriving DecidableEq, Encodable

/-- `json.loads` of a payload (`none` is a decoding error), SHA-256 of a text and of the
canonical JSON of a hash payload, and the objects of the records file. -/
structure RecordCodec where
  loads : String → Option Json
  sha256 : Text → String
  recordDigest : HashPayloadV1 → String
  recordLine : Coding RecordLineV1

namespace FirstPartyCaptureRecordV1

variable (codec : RecordCodec) (record : FirstPartyCaptureRecordV1)

def hashPayload : HashPayloadV1 :=
  { record with payloadSha256 := codec.sha256 record.payloadText.toList }

def computeContentHash : String := codec.recordDigest (record.hashPayload codec)

def IntegrityVerified : Prop :=
  record.contentHash ≠ "" ∧ record.contentHash = record.computeContentHash codec

instance : Decidable (record.IntegrityVerified codec) := inferInstanceAs (Decidable (_ ∧ _))

def toJsonLine : Text :=
  codec.recordLine.dumps
    { record.hashPayload codec with
      payload := record.payloadText
      contentHash := record.contentHash }

def fromJsonLine (line : Text) : Except Exn FirstPartyCaptureRecordV1 :=
  match codec.recordLine.loads line with
  | .error .jsonDecodeError => refuse "captured_record_line_is_not_valid_json"
  | .error .keyError => .error (.keyError "captured record line")
  | .error .typeError => .error .typeError
  | .error .valueError => .error (.valueError "captured record line")
  | .ok raw =>
      let record : FirstPartyCaptureRecordV1 :=
        { raw.toHashPayloadV1 with payloadText := raw.payload, contentHash := raw.contentHash }
      if codec.sha256 record.payloadText.toList ≠ raw.payloadSha256 then
        refuse "captured_payload_does_not_match_its_digest"
      else if ¬ record.IntegrityVerified codec then
        refuse "captured_record_content_hash_mismatch"
      else .ok record

variable {codec record}

theorem braced_toJsonLine : Braced (record.toJsonLine codec) := codec.recordLine.braced _

theorem fromJsonLine_toJsonLine (h : record.IntegrityVerified codec) :
    fromJsonLine codec (record.toJsonLine codec) = .ok record := by
  have hloads := codec.recordLine.loads_dumps { record.hashPayload codec with
    payload := record.payloadText, contentHash := record.contentHash }
  unfold fromJsonLine toJsonLine
  rw [hloads]
  exact (if_neg (not_not_intro rfl)).trans (if_neg (not_not_intro h))

end FirstPartyCaptureRecordV1

/-! ## Deriving a record from a payload -/

/-- `topic.partition(".")`: what is before the first dot, and what is after it. -/
def partitionDot (topic : String) : String × String :=
  let (channel, rest) := topic.toList.span (· ≠ '.')
  (String.ofList channel, String.ofList rest.tail)

def authorizedTopic (contract : FirstPartyCaptureContractV1) (parsed : List (String × Json)) :
    Except Exn (String × String) :=
  match Json.get parsed "topic" with
  | .str topic =>
      if topic ∉ contract.topics then
        refuse "captured_topic_is_not_authorized_by_the_contract"
      else
        let (channel, symbol) := partitionDot topic
        if symbol ≠ contract.exchangeSymbol then refuse "captured_topic_symbol_mismatch"
        else if channel ∉ contract.authorizedChannels then
          refuse "captured_channel_is_not_authorized"
        else .ok (topic, channel)
  | _ => refuse "captured_topic_is_not_authorized_by_the_contract"

def payloadSymbols (parsed : List (String × Json)) (channel : String) : Except Exn (List Json) :=
  if channel = "tickers" then
    match Json.get parsed "data" with
    | .obj data => .ok [Json.get data "symbol"]
    | _ => refuse "captured_ticker_data_is_not_an_object"
  else if channel = "publicTrade" then
    match Json.get parsed "data" with
    | .arr (first :: rest) =>
        (first :: rest).mapM fun entry =>
          match entry with
          | .obj trade => .ok (Json.get trade "s")
          | _ => refuse "captured_trade_entry_is_not_an_object"
    | _ => refuse "captured_trade_data_is_not_a_non_empty_list"
  else refuse "captured_channel_is_not_authorized"

def requirePayloadSymbolAgrees (parsed : List (String × Json)) (channel expectedSymbol : String) :
    Except Exn Unit := do
  let symbols ← payloadSymbols parsed channel
  symbols.forM fun symbol =>
    match symbol with
    | .str symbol =>
        if symbol ≠ expectedSymbol then refuse "captured_payload_symbol_disagrees_with_topic"
        else .ok ()
    | _ => refuse "captured_payload_symbol_is_missing"

def capturedMessageType (parsed : List (String × Json)) : Except Exn String :=
  match Json.get parsed "type" with
  | .str messageType =>
      if messageType ∉ ["snapshot", "delta"] then refuse "captured_message_type_is_not_recognized"
      else .ok messageType
  | _ => refuse "captured_message_type_is_malformed"

def capturedTimestamp (parsed : List (String × Json)) : Except Exn ℤ :=
  match Json.get parsed "ts" with
  | .int ts => .ok ts
  | _ => refuse "captured_exchange_timestamp_is_malformed"

def refuseGenerated (parsed : List (String × Json)) : Except Exn Unit :=
  match Json.get parsed "generated" with
  | .bool true => refuse "generated_records_are_not_capture_evidence"
  | _ => .ok ()

def payloadObject (codec : RecordCodec) (payloadText : String) :
    Except Exn (List (String × Json)) :=
  match codec.loads payloadText with
  | none => refuse "captured_payload_is_not_valid_json"
  | some (.obj parsed) => .ok parsed
  | some _ => refuse "captured_payload_is_not_an_object"

def withContentHash (codec : RecordCodec) (record : FirstPartyCaptureRecordV1) :
    FirstPartyCaptureRecordV1 :=
  { record with contentHash := record.computeContentHash codec }

theorem withContentHash_contentHash (codec : RecordCodec) (record : FirstPartyCaptureRecordV1) :
    (withContentHash codec record).contentHash =
      (withContentHash codec record).computeContentHash codec :=
  rfl

def buildCaptureRecordV1 (codec : RecordCodec) (contract : FirstPartyCaptureContractV1)
    (sessionId : UUID) (sequence : ℤ) (clock : CaptureClockReadingV1) (payloadText : String) :
    Except Exn FirstPartyCaptureRecordV1 := do
  let parsed ← payloadObject codec payloadText
  refuseGenerated parsed
  let (topic, channel) ← authorizedTopic contract parsed
  requirePayloadSymbolAgrees parsed channel contract.exchangeSymbol
  let messageType ← capturedMessageType parsed
  let exchangeTs ← capturedTimestamp parsed
  return withContentHash codec {
    schemaVersion := "first-party-capture-record-v1"
    sourceId := contract.sourceId
    sessionId
    sequence
    arrivalUtcNanos := clock.arrivalUtcNanos
    arrivalMonotonicNanos := clock.arrivalMonotonicNanos
    exchange := contract.originatingExchange
    endpoint := contract.endpoint
    channel
    topic
    instrument := contract.instrumentScope
    messageType := some messageType
    exchangeTimestampMillis := some exchangeTs
    payloadText }

section Build

variable {codec : RecordCodec} {contract : FirstPartyCaptureContractV1} {sessionId : UUID}
  {sequence : ℤ} {clock : CaptureClockReadingV1} {payloadText : String}
  {record : FirstPartyCaptureRecordV1}

theorem buildCaptureRecordV1_eq_ok
    (h : buildCaptureRecordV1 codec contract sessionId sequence clock payloadText = .ok record) :
    record.sessionId = sessionId ∧ record.sequence = sequence ∧
      record.arrivalUtcNanos = clock.arrivalUtcNanos ∧
      record.arrivalMonotonicNanos = clock.arrivalMonotonicNanos ∧
      record.payloadText = payloadText ∧ record.contentHash = record.computeContentHash codec := by
  unfold buildCaptureRecordV1 at h
  obtain ⟨parsed, -, h⟩ := Except.bind_eq_ok.mp h
  obtain ⟨-, -, h⟩ := Except.bind_eq_ok.mp h
  obtain ⟨⟨topic, channel⟩, -, h⟩ := Except.bind_eq_ok.mp h
  obtain ⟨-, -, h⟩ := Except.bind_eq_ok.mp h
  obtain ⟨messageType, -, h⟩ := Except.bind_eq_ok.mp h
  obtain ⟨exchangeTs, -, h⟩ := Except.bind_eq_ok.mp h
  cases Except.pure_eq_ok.mp h
  exact ⟨rfl, rfl, rfl, rfl, rfl, rfl⟩

end Build

def requireReplayedRecordIsAuthorized (codec : RecordCodec)
    (contract : FirstPartyCaptureContractV1) (record : FirstPartyCaptureRecordV1) :
    Except Exn Unit := do
  let rebuilt ← buildCaptureRecordV1 codec contract record.sessionId record.sequence
    ⟨record.arrivalUtcNanos, record.arrivalMonotonicNanos⟩ record.payloadText
  if rebuilt.contentHash ≠ record.contentHash then
    refuse "replayed_record_is_not_reproducible_under_the_contract"
  else return ()

def Reproducible (codec : RecordCodec) (contract : FirstPartyCaptureContractV1)
    (record : FirstPartyCaptureRecordV1) : Prop :=
  requireReplayedRecordIsAuthorized codec contract record = .ok ()

theorem reproducible_of_build {codec : RecordCodec} {contract : FirstPartyCaptureContractV1}
    {sessionId : UUID} {sequence : ℤ} {clock : CaptureClockReadingV1} {payloadText : String}
    {record : FirstPartyCaptureRecordV1}
    (h : buildCaptureRecordV1 codec contract sessionId sequence clock payloadText = .ok record) :
    Reproducible codec contract record := by
  obtain ⟨hsession, hsequence, hutc, hmonotonic, hpayload, -⟩ := buildCaptureRecordV1_eq_ok h
  unfold Reproducible requireReplayedRecordIsAuthorized
  rw [hsession, hsequence, hutc, hmonotonic, hpayload, h]
  exact if_neg (not_not_intro rfl)

end CaptureArchive

end TradePlatform
