/-
# `TradePlatform.ForwardFundingStores` — the stores of forward funding, cut off anywhere

`ForwardSettledFundingStoreV1` and `PublishedFundingIntervalStoreV1` keep a raw body by its
digest and one record per observation, each created exclusively and written in place, and
read every record back through its raw body.  Both are write-once stores; what is proved of
one run rule holds of both.  The text of a record is a parameter, read back as written.
-/
import TradePlatform.ForwardFunding
import TradePlatform.Lib.WriteOnce

namespace TradePlatform

namespace ForwardFunding

open WriteOnce

/-! ## Records -/

/-- The fields that `_record` writes of an interval observation: all but the raw body. -/
structure IntervalRecord where
  identity : IntervalIdentity
  contentHash : String
  provenance : IntervalProvenance
  provenanceHash : String
  idempotencyKey : String
deriving DecidableEq

namespace IntervalRecord

/-- `PublishedFundingIntervalObservationV1(**record, raw_body=raw_body)`. -/
def withBody (record : IntervalRecord) (rawBody : Bytes) : PublishedFundingIntervalObservationV1 :=
  ⟨record.identity, record.contentHash, record.provenance, record.provenanceHash,
    record.idempotencyKey, rawBody⟩

end IntervalRecord

def PublishedFundingIntervalObservationV1.record (item : PublishedFundingIntervalObservationV1) :
    IntervalRecord :=
  ⟨item.identity, item.contentHash, item.provenance, item.provenanceHash, item.idempotencyKey⟩

theorem withBody_record (item : PublishedFundingIntervalObservationV1) :
    item.record.withBody item.rawBody = item := rfl

/-- `_record` and its reading, of both kinds, and `str(error)`. -/
structure RecordCodec where
  dumps : ForwardFundingObservationV1 → Bytes
  loads : Bytes → Except Exn ForwardFundingObservationV1
  dumpsInterval : IntervalRecord → Bytes
  loadsInterval : Bytes → Except Exn IntervalRecord
  errorText : Exn → String

def fileName (stem : String) : String := stem ++ ".json"

theorem fileName_inj {stem stem' : String} (h : fileName stem = fileName stem') :
    stem = stem' := by
  have hlist := congrArg String.toList h
  unfold fileName at hlist
  rw [String.toList_append, String.toList_append] at hlist
  exact String.toList_inj.mp (List.append_cancel_right hlist)

def immutableRecordConflict (name : String) : Exn :=
  .forwardFundingError ("immutable_record_conflict:" ++ name)

def readRaw (files : Files UInt8) (digest : String) : Except Exn Bytes :=
  (Dict.get? files.contents (fileName digest)).elim (.error (.osError (fileName digest))) .ok

variable (env : Env) (codec : RecordCodec)

/-! ## Settled funding -/

structure SettledAppend where
  observation : ForwardFundingObservationV1
  rawBody : Bytes
deriving DecidableEq

def checkAppend (item : SettledAppend) : Except Exn Unit :=
  if env.sha256 item.rawBody ≠ item.observation.provenance.rawSha256 then
    refuse "raw_body_does_not_match_the_observation"
  else do
    let rebuilt ← rebuild env item.observation item.rawBody
    if item.observation ≠ rebuilt then refuse "observation_does_not_reproduce_from_its_raw_body"
    else canonicalSymbolIdentityV1 item.observation.symbol

def readObservation (files : Files UInt8) (_symbol name : String) (record : Bytes) :
    Except Exn ForwardFundingObservationV1 := do
  let claimed ← codec.loads record
  let raw ← readRaw files claimed.provenance.rawSha256
  if env.sha256 raw ≠ claimed.provenance.rawSha256 then refuse "forward_funding_raw_body_changed"
  else do
    let rebuilt ← rebuild env claimed raw
    if claimed ≠ rebuilt ∨ name ≠ fileName (rebuilt.observationId env) then
      refuse "forward_funding_observation_does_not_reproduce"
    else .ok rebuilt

def forwardSettledFundingStoreV1 :
    Store SettledAppend String UInt8 Exn ForwardFundingObservationV1 where
  check := checkAppend env
  bucket := fun item => item.observation.symbol
  entry := fun item => {
    contentName := fileName item.observation.provenance.rawSha256
    content := item.rawBody
    recordName := fileName (item.observation.observationId env)
    record := codec.dumps item.observation }
  conflict := immutableRecordConflict
  openBucket := canonicalSymbolIdentityV1
  read := readObservation env codec
  view := SettledAppend.observation

/-- Among the appends, no two bodies have one digest, no two observations one identifier, and
what is written of an observation is read back. -/
structure SettledApart (items : Set SettledAppend) : Prop where
  loads_dumps : ∀ item ∈ items, codec.loads (codec.dumps item.observation) = .ok item.observation
  digests : ∀ a ∈ items, ∀ b ∈ items, env.sha256 a.rawBody = env.sha256 b.rawBody →
    a.rawBody = b.rawBody
  identifiers : ∀ a ∈ items, ∀ b ∈ items,
    a.observation.observationId env = b.observation.observationId env →
      a.observation = b.observation

variable {env codec}

theorem checkAppend_ok {item : SettledAppend} (h : checkAppend env item = .ok ()) :
    env.sha256 item.rawBody = item.observation.provenance.rawSha256 ∧
      rebuild env item.observation item.rawBody = .ok item.observation ∧
      canonicalSymbolIdentityV1 item.observation.symbol = .ok () := by
  obtain ⟨hdigest, h⟩ := Except.of_ite_error h
  obtain ⟨rebuilt, hrebuilt, h⟩ := Except.bind_eq_ok.mp h
  obtain ⟨hsame, hsymbol⟩ := Except.of_ite_error h
  rw [← not_not.mp hsame] at hrebuilt
  exact ⟨not_not.mp hdigest, hrebuilt, hsymbol⟩

theorem readRaw_recorded {files : Files UInt8} {digest : String} {raw : Bytes}
    (h : Dict.get? files.contents (fileName digest) = some raw) :
    readRaw files digest = .ok raw := by
  unfold readRaw
  rw [h]
  rfl

theorem readObservation_recorded {item : SettledAppend} (hcheck : checkAppend env item = .ok ())
    (hloads : codec.loads (codec.dumps item.observation) = .ok item.observation)
    {files : Files UInt8} (symbol : String)
    (hraw : Dict.get? files.contents (fileName item.observation.provenance.rawSha256) =
      some item.rawBody) :
    readObservation env codec files symbol (fileName (item.observation.observationId env))
      (codec.dumps item.observation) = .ok item.observation := by
  obtain ⟨hdigest, hrebuilt, -⟩ := checkAppend_ok hcheck
  unfold readObservation
  rw [hloads, Except.ok_bind, readRaw_recorded hraw, Except.ok_bind, if_neg (not_not.mpr hdigest),
    hrebuilt, Except.ok_bind, if_neg]
  rintro (hne | hne)
  · exact hne rfl
  · exact hne rfl

theorem SettledApart.sound {items : Set SettledAppend} (h : SettledApart env codec items) :
    (forwardSettledFundingStoreV1 env codec).Sound items := by
  refine ⟨fun symbol => ⟨?_, ?_⟩, fun item _ hcheck => (checkAppend_ok hcheck).2.2, ?_⟩
  · rintro _ ⟨a, ha, hcheck, -, rfl⟩ _ ⟨b, hb, hcheck', -, rfl⟩ hname
    refine h.digests a ha b hb ?_
    rw [(checkAppend_ok hcheck).1, (checkAppend_ok hcheck').1]
    exact fileName_inj hname
  · rintro _ ⟨a, ha, -, -, rfl⟩ _ ⟨b, hb, -, -, rfl⟩ hname
    exact congrArg codec.dumps (h.identifiers a ha b hb (fileName_inj hname))
  · intro item hitem hcheck files hrecorded
    exact readObservation_recorded hcheck (h.loads_dumps item hitem) item.observation.symbol
      hrecorded.1

/-! ## Published intervals -/

def checkIntervalAppend (env : Env) (item : PublishedFundingIntervalObservationV1) :
    Except Exn Unit := do
  let rebuilt ← rebuildInterval env item
  if item ≠ rebuilt then refuse "published_interval_observation_does_not_reproduce"
  else canonicalSymbolIdentityV1 item.symbol

def isHexDigest (text : String) : Bool :=
  text.length = 64 && text.toList.all fun c => c ∈ "0123456789abcdef".toList

/-- An item of `load`, as its record and its raw body make it. -/
def readInterval (env : Env) (codec : RecordCodec) (files : Files UInt8) (symbol name : String)
    (record : Bytes) : Except Exn PublishedFundingIntervalObservationV1 := do
  let stored ← codec.loadsInterval record
  if isHexDigest stored.provenance.rawSha256 = false then
    refuse "published_interval_raw_hash_malformed"
  else do
    let raw ← readRaw files stored.provenance.rawSha256
    let item := stored.withBody raw
    let rebuilt ← rebuildInterval env item
    if item ≠ rebuilt ∨ item.symbol ≠ symbol ∨ name ≠ fileName (item.observationId env) then
      refuse "published_interval_observation_does_not_reproduce"
    else .ok item

/-- `except (OSError, ValueError, KeyError, TypeError) as error`. -/
def loadRefused {α : Type} (codec : RecordCodec) : Except Exn α → Except Exn α
  | .ok a => .ok a
  | .error e =>
      let caught := match e with
        | .osError _ | .keyError _ | .typeError => true
        | _ => e.isValueError
      .error (if caught then
        .forwardFundingError ("published_interval_load_refused:" ++ codec.errorText e) else e)

def publishedFundingIntervalStoreV1 (env : Env) (codec : RecordCodec) :
    Store PublishedFundingIntervalObservationV1 String UInt8 Exn
      PublishedFundingIntervalObservationV1 where
  check := checkIntervalAppend env
  bucket := PublishedFundingIntervalObservationV1.symbol
  entry := fun item => {
    contentName := fileName item.provenance.rawSha256
    content := item.rawBody
    recordName := fileName (item.observationId env)
    record := codec.dumpsInterval item.record }
  conflict := immutableRecordConflict
  openBucket := canonicalSymbolIdentityV1
  read := fun files symbol name record =>
    loadRefused codec (readInterval env codec files symbol name record)
  view := id

structure IntervalsApart (env : Env) (codec : RecordCodec)
    (items : Set PublishedFundingIntervalObservationV1) : Prop where
  loads_dumps : ∀ item ∈ items, codec.loadsInterval (codec.dumpsInterval item.record) =
    .ok item.record
  digests : ∀ a ∈ items, ∀ b ∈ items, env.sha256 a.rawBody = env.sha256 b.rawBody →
    a.rawBody = b.rawBody
  identifiers : ∀ a ∈ items, ∀ b ∈ items, a.observationId env = b.observationId env → a = b
  hex : ∀ item ∈ items, isHexDigest (env.sha256 item.rawBody) = true

theorem checkIntervalAppend_ok {item : PublishedFundingIntervalObservationV1}
    (h : checkIntervalAppend env item = .ok ()) :
    rebuildInterval env item = .ok item ∧ canonicalSymbolIdentityV1 item.symbol = .ok () := by
  obtain ⟨rebuilt, hrebuilt, h⟩ := Except.bind_eq_ok.mp h
  obtain ⟨hsame, hsymbol⟩ := Except.of_ite_error h
  rw [← not_not.mp hsame] at hrebuilt
  exact ⟨hrebuilt, hsymbol⟩

theorem rawSha256_of_rebuildInterval {item : PublishedFundingIntervalObservationV1}
    (h : rebuildInterval env item = .ok item) :
    item.provenance.rawSha256 = env.sha256 item.rawBody := by
  obtain ⟨-, -, h⟩ := Except.bind_eq_ok.mp h
  obtain ⟨-, h⟩ := Except.of_ite_error h
  obtain ⟨-, h⟩ := Except.of_ite_error h
  obtain ⟨fields, -, h⟩ := Except.bind_eq_ok.mp h
  obtain ⟨row, -, h⟩ := Except.bind_eq_ok.mp h
  obtain ⟨hours, -, h⟩ := Except.bind_eq_ok.mp h
  obtain ⟨published, -, h⟩ := Except.bind_eq_ok.mp h
  obtain ⟨-, h⟩ := Except.of_ite_error h
  rw [← Except.ok.inj h]
  rfl

theorem readInterval_recorded {item : PublishedFundingIntervalObservationV1}
    (hrebuilt : rebuildInterval env item = .ok item)
    (hloads : codec.loadsInterval (codec.dumpsInterval item.record) = .ok item.record)
    (hhex : isHexDigest (env.sha256 item.rawBody) = true) {files : Files UInt8}
    (hraw : Dict.get? files.contents (fileName item.provenance.rawSha256) = some item.rawBody) :
    readInterval env codec files item.symbol (fileName (item.observationId env))
      (codec.dumpsInterval item.record) = .ok item := by
  have hdigest : isHexDigest item.record.provenance.rawSha256 ≠ false := by
    show isHexDigest item.provenance.rawSha256 ≠ false
    rw [rawSha256_of_rebuildInterval hrebuilt, hhex]
    exact Bool.noConfusion
  have hread : readRaw files item.record.provenance.rawSha256 = .ok item.rawBody :=
    readRaw_recorded hraw
  unfold readInterval
  rw [hloads, Except.ok_bind, if_neg hdigest, hread, Except.ok_bind]
  dsimp only
  rw [withBody_record, hrebuilt, Except.ok_bind, if_neg]
  rintro (hne | hne | hne)
  · exact hne rfl
  · exact hne rfl
  · exact hne rfl

theorem IntervalsApart.sound {items : Set PublishedFundingIntervalObservationV1}
    (h : IntervalsApart env codec items) :
    (publishedFundingIntervalStoreV1 env codec).Sound items := by
  refine ⟨fun symbol => ⟨?_, ?_⟩, fun item _ hcheck => (checkIntervalAppend_ok hcheck).2, ?_⟩
  · rintro _ ⟨a, ha, hcheck, -, rfl⟩ _ ⟨b, hb, hcheck', -, rfl⟩ hname
    refine h.digests a ha b hb ?_
    rw [← rawSha256_of_rebuildInterval (checkIntervalAppend_ok hcheck).1,
      ← rawSha256_of_rebuildInterval (checkIntervalAppend_ok hcheck').1]
    exact fileName_inj hname
  · rintro _ ⟨a, ha, -, -, rfl⟩ _ ⟨b, hb, -, -, rfl⟩ hname
    exact congrArg (fun item => codec.dumpsInterval item.record)
      (h.identifiers a ha b hb (fileName_inj hname))
  · intro item hitem hcheck files hrecorded
    obtain ⟨hrebuilt, -⟩ := checkIntervalAppend_ok hcheck
    exact congrArg (loadRefused codec) (readInterval_recorded hrebuilt (h.loads_dumps item hitem)
      (h.hex item hitem) hrecorded.1)

/-! ## Histories of appends -/

def itemsOf {α : Type} (calls : List (Store.Call α)) : Set α :=
  {item | ∃ call ∈ calls, call.item = item}

/-- In a history of appends that may be cut off anywhere, what was appended is loaded and an
interrupted append can be repeated, exactly where no cut leaves a file with a part of its
bytes. -/
theorem appends_hold_iff {calls : List (Store.Call SettledAppend)}
    {intervalCalls : List (Store.Call PublishedFundingIntervalObservationV1)}
    (h : SettledApart env codec (itemsOf calls))
    (h' : IntervalsApart env codec (itemsOf intervalCalls)) :
    let store := forwardSettledFundingStoreV1 env codec
    let intervalStore := publishedFundingIntervalStoreV1 env codec
    (Run.Always store.step store.Holds Store.start calls ↔
        Run.Each store.step store.Untorn Store.start calls) ∧
      (Run.Always intervalStore.step intervalStore.Holds Store.start intervalCalls ↔
        Run.Each intervalStore.step intervalStore.Untorn Store.start intervalCalls) :=
  ⟨Store.always_holds_iff h.sound Store.start_inv fun call hcall => ⟨call, hcall, rfl⟩,
    Store.always_holds_iff h'.sound Store.start_inv fun call hcall => ⟨call, hcall, rfl⟩⟩

/-! ## An append cut off as its record is created -/

namespace StoreSample

def page : Json :=
  .obj [("retCode", .int 0), ("time", .int 1),
    ("result", .obj [("category", .str "linear"), ("list", .arr [])])]

def ticker : Json :=
  .obj [("retCode", .int 0), ("time", .int 1), ("result", .obj [("category", .str "linear"),
    ("list", .arr [.obj [("symbol", .str "BTCUSDT"), ("fundingIntervalHour", .str "8")]])])]

def decoder : Env where
  loads
    | [0] => some ticker
    | [1] => some page
    | _ => none
  sha256 := fun _ => "0000000000000000000000000000000000000000000000000000000000000000"
  observationHash := fun identity => if identity.requestEndMs = 0 then "a" else "b"
  observationProvenanceHash := fun _ => "p"
  intervalHash := fun _ => "i"
  intervalProvenanceHash := fun _ => "q"
  keyHash := fun contentHash _ => contentHash
  windowHash := fun _ => "w"
  observationUuid := fun key => if key = "a" then 0 else 1
  intervalUuid := fun _ => 0
  uuidText := fun uuid => if uuid = 0 then "first" else "second"
  isoMs := fun _ => some "t"

def observation (requestEndMs : ℤ) : ForwardFundingObservationV1 :=
  sealObservation decoder ⟨"BTCUSDT", 0, requestEndMs, []⟩
    (fundingHistoryUrlV1 "BTCUSDT" 0 requestEndMs) (decoder.sha256 [1]) 1 1 none

def first : SettledAppend := ⟨observation 0, [1]⟩

def second : SettledAppend := ⟨observation 1, [1]⟩

def snapshot : PublishedFundingIntervalObservationV1 :=
  sealInterval decoder ⟨"BTCUSDT", 8⟩ [0] 1 1 none

def texts : RecordCodec where
  dumps := fun o => if o = first.observation then [1] else [2]
  loads
    | [1] => .ok first.observation
    | [2] => .ok second.observation
    | _ => .error (.valueError "Expecting value: line 1 column 1 (char 0)")
  dumpsInterval := fun _ => [3]
  loadsInterval
    | [3] => .ok snapshot.record
    | _ => .error (.valueError "Expecting value: line 1 column 1 (char 0)")
  errorText := fun _ => "Expecting value: line 1 column 1 (char 0)"

def calls : List (Store.Call SettledAppend) := [⟨first, none⟩, ⟨second, some (.record 0)⟩]

def intervalCalls : List (Store.Call PublishedFundingIntervalObservationV1) := [⟨snapshot, none⟩]

theorem apart : SettledApart decoder texts (itemsOf calls) := by
  have hitems : ∀ item ∈ itemsOf calls, item = first ∨ item = second := by
    rintro item ⟨call, hcall, rfl⟩
    rcases List.mem_pair.mp hcall with rfl | rfl
    · exact .inl rfl
    · exact .inr rfl
  have hids : first.observation.observationId decoder ≠ second.observation.observationId decoder := by
    decide +kernel
  refine ⟨fun item hitem => ?_, fun a ha b hb _ => ?_, fun a ha b hb hid => ?_⟩
  · rcases hitems item hitem with rfl | rfl
    · decide +kernel
    · decide +kernel
  · rcases hitems a ha with rfl | rfl
    · rcases hitems b hb with rfl | rfl
      · rfl
      · rfl
    · rcases hitems b hb with rfl | rfl
      · rfl
      · rfl
  · rcases hitems a ha with rfl | rfl
    · rcases hitems b hb with rfl | rfl
      · rfl
      · exact absurd hid hids
    · rcases hitems b hb with rfl | rfl
      · exact absurd hid.symm hids
      · rfl

theorem intervalsApart : IntervalsApart decoder texts (itemsOf intervalCalls) := by
  have hitems : ∀ item ∈ itemsOf intervalCalls, item = snapshot := by
    rintro item ⟨call, hcall, rfl⟩
    rw [List.mem_singleton.mp hcall]
  refine ⟨fun item hitem => ?_, fun a ha b hb _ => ?_, fun a ha b hb _ => ?_, fun item hitem => ?_⟩
  · rw [hitems item hitem]
    rfl
  · rw [hitems a ha, hitems b hb]
  · rw [hitems a ha, hitems b hb]
  · rw [hitems item hitem]
    decide +kernel

theorem load_error :
    let store := forwardSettledFundingStoreV1 decoder texts
    store.load (Run.exec store.step Store.start calls).files "BTCUSDT" =
      .error (.valueError "Expecting value: line 1 column 1 (char 0)") := by
  decide +kernel

end StoreSample

theorem appends_hold_iff_sample :
    let store := forwardSettledFundingStoreV1 StoreSample.decoder StoreSample.texts
    let intervalStore := publishedFundingIntervalStoreV1 StoreSample.decoder StoreSample.texts
    (Run.Always store.step store.Holds Store.start StoreSample.calls ↔
        Run.Each store.step store.Untorn Store.start StoreSample.calls) ∧
      (Run.Always intervalStore.step intervalStore.Holds Store.start StoreSample.intervalCalls ↔
        Run.Each intervalStore.step intervalStore.Untorn Store.start StoreSample.intervalCalls) :=
  appends_hold_iff StoreSample.apart StoreSample.intervalsApart

/-- A record that is created and not yet written hides every observation of its symbol. -/
theorem emptyRecord_hides :
    ¬ ∀ (env : Env) (codec : RecordCodec) (calls : List (Store.Call SettledAppend)),
      SettledApart env codec (itemsOf calls) →
      Run.Always (forwardSettledFundingStoreV1 env codec).step
        (forwardSettledFundingStoreV1 env codec).Holds Store.start calls := by
  intro hclaim
  have halways := hclaim _ _ _ StoreSample.apart
  have hreturned : StoreSample.first ∈
      (Run.exec (forwardSettledFundingStoreV1 StoreSample.decoder StoreSample.texts).step
        Store.start StoreSample.calls).returned := by
    decide +kernel
  obtain ⟨loaded, hloaded, -⟩ := halways.exec.1 _ hreturned
  have herror := StoreSample.load_error
  dsimp only at herror
  rw [show (forwardSettledFundingStoreV1 StoreSample.decoder StoreSample.texts).bucket
    StoreSample.first = "BTCUSDT" from rfl, herror] at hloaded
  cases hloaded

end ForwardFunding

end TradePlatform
