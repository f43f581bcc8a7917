/-
# `TradePlatform.CaptureWriterRuns` — calls on a fresh writer, sealed and replayed

Any sequence of calls on a new directory, whether they raise or not, and the partition that
`finalize` seals after them: when its replay goes through, and three records for which it
does not.
-/
import TradePlatform.CaptureReplay

namespace TradePlatform

namespace CaptureArchive

open JsonLines

/-! ## Any sequence of calls -/

theorem partitionStep_contract {codec : ArchiveCodec} (s : CapturePartitionWriterV1 × Ledger)
    (call : PartitionCall) : (partitionStep codec s call).1.contract = s.1.contract := by
  unfold partitionStep
  split
  · rename_i writer hcall
    cases call with
    | appendRecord record =>
        change (s.1.appendRecord codec record).map Prod.fst = .ok writer at hcall
        cases happend : s.1.appendRecord codec record with
        | error e =>
            rw [happend] at hcall
            cases hcall
        | ok result =>
            rw [happend] at hcall
            cases hcall
            have hw : s.1.recordAppended codec record = result :=
              (CapturePartitionWriterV1.appendRecord_eq_ok.mp happend).2
            show result.1.contract = s.1.contract
            rw [← hw]
            rfl
    | appendLifecycle event =>
        obtain ⟨-, rfl⟩ := CapturePartitionWriterV1.appendLifecycle_eq_ok.mp hcall
        rfl
    | declareCoverage interval =>
        obtain ⟨-, -, -, -, rfl⟩ := CapturePartitionWriterV1.declareCoverage_eq_ok.mp hcall
        rfl
    | declareGap gap =>
        obtain ⟨-, -, -, rfl⟩ := CapturePartitionWriterV1.declareGap_eq_ok.mp hcall
        rfl
  · rfl

def callsOn (codec : ArchiveCodec) (fresh : CapturePartitionWriterV1)
    (calls : List PartitionCall) : CapturePartitionWriterV1 × Ledger :=
  Run.exec (partitionStep codec) (fresh, {}) calls

theorem accounts_callsOn {codec : ArchiveCodec} {contract : FirstPartyCaptureContractV1}
    {sessionId : UUID} {day clockResolutionNanos : ℤ} {fresh : CapturePartitionWriterV1}
    (hfresh : CapturePartitionWriterV1.init codec Directory.empty contract sessionId day
      clockResolutionNanos = .ok fresh) (calls : List PartitionCall) :
    Accounts codec (callsOn codec fresh calls).1 (callsOn codec fresh calls).2 ∧
      (callsOn codec fresh calls).1.contract = contract := by
  have hcontract : fresh.contract = contract := by
    unfold CapturePartitionWriterV1.init at hfresh
    cases hfresh
    rfl
  refine ⟨accounts_run calls (accounts_init hfresh), ?_⟩
  exact Run.exec_inv (J := fun (s : CapturePartitionWriterV1 × Ledger) => s.1.contract = contract)
    (fun s call hs => (partitionStep_contract s call).trans hs) calls hcontract

/-- After any calls on a fresh writer, a partition that is sealed replays in full exactly when
the contract admits every record again and every record that is neither the first nor the last
of its claim lies in the window of the claim. -/
theorem finalize_replays_iff (codec : ArchiveCodec) {authority : CaptureAuthority}
    {contract : FirstPartyCaptureContractV1} (hcontract : contract ∈ authority.contracts)
    {sessionId : UUID} {day clockResolutionNanos : ℤ} {fresh sealed : CapturePartitionWriterV1}
    (hfresh : CapturePartitionWriterV1.init codec Directory.empty contract sessionId day
      clockResolutionNanos = .ok fresh) (calls : List PartitionCall)
    (hfinalize : (callsOn codec fresh calls).1.finalize codec = .ok sealed)
    (hchain : (callsOn codec fresh calls).2.records.IsChain Follows) :
    Replays codec authority sealed.directory (callsOn codec fresh calls).2 ↔
      (∀ record ∈ (callsOn codec fresh calls).2.records,
        Reproducible codec.toRecordCodec contract record) ∧
        (callsOn codec fresh calls).2.InnerInside := by
  obtain ⟨haccounts, hkept⟩ := accounts_callsOn hfresh calls
  have := haccounts.replays_iff (hkept ▸ hcontract) hfinalize hchain
  rwa [hkept] at this

/-! ### Three records and a window -/

theorem partitionStep_appendRecord {codec : ArchiveCodec} {writer : CapturePartitionWriterV1}
    {ledger : Ledger} {record : FirstPartyCaptureRecordV1}
    (h : writer.requireAppendable codec record = .ok ()) :
    partitionStep codec (writer, ledger) (.appendRecord record) =
      ((writer.recordAppended codec record).1, ledger.add (.appendRecord record)) := by
  have happend : writer.appendRecord codec record = .ok (writer.recordAppended codec record) :=
    CapturePartitionWriterV1.appendRecord_eq_ok.mpr ⟨h, rfl⟩
  unfold partitionStep CapturePartitionWriterV1.call
  simp only [happend]
  rfl

theorem partitionStep_declareCoverage {codec : ArchiveCodec}
    {writer writer' : CapturePartitionWriterV1} {ledger : Ledger}
    {interval : CaptureCoverageIntervalV1} (h : writer.declareCoverage interval = .ok writer') :
    partitionStep codec (writer, ledger) (.declareCoverage interval) =
      (writer', ledger.add (.declareCoverage interval)) := by
  unfold partitionStep CapturePartitionWriterV1.call
  simp only [h]

theorem ledger_three {codec : ArchiveCodec} {contract : FirstPartyCaptureContractV1}
    {sessionId : UUID} {day clockResolutionNanos : ℤ} {fresh : CapturePartitionWriterV1}
    (hfresh : CapturePartitionWriterV1.init codec Directory.empty contract sessionId day
      clockResolutionNanos = .ok fresh)
    {first second third : FirstPartyCaptureRecordV1} {interval : CaptureCoverageIntervalV1}
    (hfirst : first.IntegrityVerified codec.toRecordCodec)
    (hsecond : second.IntegrityVerified codec.toRecordCodec)
    (hthird : third.IntegrityVerified codec.toRecordCodec)
    (hfirstSession : first.sessionId = sessionId) (hsecondSession : second.sessionId = sessionId)
    (hthirdSession : third.sessionId = sessionId)
    (hfirstDay : utcDayOfNanos first.arrivalUtcNanos = day)
    (hsecondDay : utcDayOfNanos second.arrivalUtcNanos = day)
    (hthirdDay : utcDayOfNanos third.arrivalUtcNanos = day)
    (hcount : interval.recordCount = 3) (hstart : 0 ≤ interval.startUtcNanos)
    (hfirstInside : interval.Contains first.arrivalUtcNanos)
    (hthirdInside : interval.Contains third.arrivalUtcNanos) :
    (callsOn codec fresh [.appendRecord first, .appendRecord second, .appendRecord third,
      .declareCoverage interval]).2 = ⟨[([first, second, third], interval)], []⟩ := by
  unfold CapturePartitionWriterV1.init at hfresh
  cases hfresh
  unfold callsOn
  simp only [Run.exec_cons, Run.exec_nil]
  rw [partitionStep_appendRecord (CapturePartitionWriterV1.requireAppendable_eq_ok.mpr
      ⟨rfl, hfirst, hfirstSession, hfirstDay⟩),
    partitionStep_appendRecord (CapturePartitionWriterV1.requireAppendable_eq_ok.mpr
      ⟨rfl, hsecond, hsecondSession, hsecondDay⟩),
    partitionStep_appendRecord (CapturePartitionWriterV1.requireAppendable_eq_ok.mpr
      ⟨rfl, hthird, hthirdSession, hthirdDay⟩)]
  rw [partitionStep_declareCoverage (CapturePartitionWriterV1.declareCoverage_eq_ok.mpr
    ⟨rfl, ⟨0, rfl, hstart⟩, hcount, fun _ => ⟨?_, ?_⟩, rfl⟩)]
  · rfl
  · intro arrival h
    obtain rfl := Option.some.inj h
    exact hfirstInside
  · intro arrival h
    obtain rfl := Option.some.inj h
    exact hthirdInside

namespace Sample

def contract : FirstPartyCaptureContractV1 where
  sourceId := 1
  originatingExchange := "BYBIT"
  endpoint := "wss://stream.bybit.com/v5/public/linear"
  instrumentScope := "CRYPTO:BYBIT:BTCUSDT:PERP"
  exchangeSymbol := "BTCUSDT"
  authorizedChannels := ["publicTrade", "tickers"]
  clockSemantics := []
  captureSemanticVersion := "trade-platform-bybit-v5-public-websocket-first-party-capture-1.0.0"
  contentHash := "contract"

def authority : CaptureAuthority := ⟨contract, [], List.nodup_singleton _⟩

def payloadText : String :=
  "\x7b\"topic\":\"tickers.BTCUSDT\",\"type\":\"delta\",\"ts\":1," ++
    "\"data\":\x7b\"symbol\":\"BTCUSDT\"\x7d\x7d"

def codec : ArchiveCodec := .symbolic fun text =>
  if text = payloadText then
    some (.obj [("topic", .str "tickers.BTCUSDT"), ("type", .str "delta"), ("ts", .int 1),
      ("data", .obj [("symbol", .str "BTCUSDT")])])
  else none

def record (sequence arrivalUtcNanos : ℤ) : FirstPartyCaptureRecordV1 :=
  withContentHash codec.toRecordCodec {
    schemaVersion := "first-party-capture-record-v1"
    sourceId := 1
    sessionId := 7
    sequence
    arrivalUtcNanos
    arrivalMonotonicNanos := 5 + sequence
    exchange := "BYBIT"
    endpoint := "wss://stream.bybit.com/v5/public/linear"
    channel := "tickers"
    topic := "tickers.BTCUSDT"
    instrument := "CRYPTO:BYBIT:BTCUSDT:PERP"
    messageType := some "delta"
    exchangeTimestampMillis := some 1
    payloadText }

theorem record_built (sequence arrivalUtcNanos : ℤ) :
    buildCaptureRecordV1 codec.toRecordCodec contract 7 sequence
      ⟨arrivalUtcNanos, 5 + sequence⟩ payloadText = .ok (record sequence arrivalUtcNanos) := by
  rfl

def window : CaptureCoverageIntervalV1 := ⟨10, 12, .operatorBoundedStop, 3, by decide⟩

/-- Three records, the one in the middle at `arrivalUtcNanos`, and the window that claims them. -/
def calls (arrivalUtcNanos : ℤ) : List PartitionCall :=
  [.appendRecord (record 0 10), .appendRecord (record 1 arrivalUtcNanos),
    .appendRecord (record 2 12), .declareCoverage window]

def fresh : CapturePartitionWriterV1 :=
  (CapturePartitionWriterV1.init codec Directory.empty contract 7 0 100).toOption.get (by rfl)

theorem init_fresh :
    CapturePartitionWriterV1.init codec Directory.empty contract 7 0 100 = .ok fresh := rfl

theorem verified (sequence arrivalUtcNanos : ℤ) :
    (record sequence arrivalUtcNanos).IntegrityVerified codec.toRecordCodec := by
  have hhash : (record sequence arrivalUtcNanos).contentHash =
      (record sequence arrivalUtcNanos).computeContentHash codec.toRecordCodec :=
    withContentHash_contentHash _ _
  refine ⟨?_, hhash⟩
  rw [hhash]
  exact ArchiveCodec.symbolic_recordDigest_ne _ _

theorem ledger_calls {arrivalUtcNanos : ℤ} (hday : utcDayOfNanos arrivalUtcNanos = 0) :
    (callsOn codec fresh (calls arrivalUtcNanos)).2 =
      ⟨[([record 0 10, record 1 arrivalUtcNanos, record 2 12], window)], []⟩ :=
  ledger_three init_fresh (verified 0 10) (verified 1 arrivalUtcNanos) (verified 2 12) rfl rfl rfl
    rfl hday rfl rfl (by decide) ⟨by decide, by decide⟩ ⟨by decide, by decide⟩

theorem reproducible (sequence arrivalUtcNanos : ℤ) :
    Reproducible codec.toRecordCodec contract (record sequence arrivalUtcNanos) :=
  reproducible_of_build (record_built sequence arrivalUtcNanos)

def sealing (arrivalUtcNanos : ℤ) : Except Exn CapturePartitionWriterV1 :=
  (callsOn codec fresh (calls arrivalUtcNanos)).1.finalize codec

theorem replayText_outside {partition : CapturePartitionV1}
    (hsession : partition.sessionId = some 7) (hcoverage : partition.coverage = [window]) :
    replayText codec contract partition 0
        (unlines ([record 0 10, record 1 99, record 2 12].map fun r =>
          r.toJsonLine codec.toRecordCodec)) =
      .error (.captureArchiveError
        "replayed_record_is_outside_every_declared_coverage_window") := by
  obtain ⟨status, sessionId, sourceId, recordCount, coverage, gaps, reasons⟩ := partition
  obtain rfl : sessionId = some 7 := hsession
  obtain rfl : coverage = [window] := hcoverage
  unfold replayText Replay.replay
  rw [lines_unlines fun line hline => by
    obtain ⟨r, -, rfl⟩ := List.mem_map.mp hline
    exact FirstPartyCaptureRecordV1.braced_toJsonLine.newline]
  have hbisect : ∀ x : ℤ, 10 ≤ x → Bisect.bisectRight [10] x = 1 := by
    intro x hx
    simp [Bisect.bisectRight, Bisect.loop, hx]
  have hreceive :
      ReplayV1.receive ⟨status, some 7, sourceId, recordCount, [window], gaps, reasons⟩ 0
        { perWindow := [0] } (record 0 10) = .ok (ReplayV1.after [window] [record 0 10]) := by
    unfold ReplayV1.receive
    rw [show [window].map CaptureCoverageIntervalV1.startUtcNanos = [10] from rfl,
      hbisect _ (by decide)]
    rfl
  have hrefuse :
      ReplayV1.receive ⟨status, some 7, sourceId, recordCount, [window], gaps, reasons⟩ 0
        (ReplayV1.after [window] [record 0 10]) (record 1 99) = .error (.captureArchiveError
          "replayed_record_is_outside_every_declared_coverage_window") := by
    unfold ReplayV1.receive
    rw [show [window].map CaptureCoverageIntervalV1.startUtcNanos = [10] from rfl,
      hbisect _ (by decide)]
    rfl
  simp only [List.map_cons, List.map_nil, List.cons_append, List.foldlM_cons]
  rw [replayLine_of_reproducible (verified 0 10) (reproducible 0 10), hreceive, Except.ok_bind,
    replayLine_of_reproducible (verified 1 99) (reproducible 1 99), hrefuse]
  rfl

theorem sealing_ok {arrivalUtcNanos : ℤ} (hday : utcDayOfNanos arrivalUtcNanos = 0) :
    ∃ sealed, sealing arrivalUtcNanos = .ok sealed := by
  have haccounts := (accounts_callsOn init_fresh (calls arrivalUtcNanos)).1
  have hcount := haccounts.unclaimedCount
  rw [ledger_calls hday] at hcount
  exact ⟨_, CapturePartitionWriterV1.finalize_eq_ok.mpr
    ⟨haccounts.unsealed, haccounts.noManifest, hcount, rfl⟩⟩

end Sample

/-- The middle record arrives inside the window, and the sealed partition replays. -/
theorem finalize_replays_iff_inside : ∃ sealed, Sample.sealing 11 = .ok sealed ∧
    Replays Sample.codec Sample.authority sealed.directory
      (callsOn Sample.codec Sample.fresh (Sample.calls 11)).2 := by
  have hday : utcDayOfNanos 11 = 0 := by decide
  obtain ⟨sealed, hsealed⟩ := Sample.sealing_ok hday
  have hcontract : Sample.contract ∈ Sample.authority.contracts := List.mem_singleton_self _
  refine ⟨sealed, hsealed, (finalize_replays_iff Sample.codec hcontract Sample.init_fresh
    (Sample.calls 11) hsealed ?_).mpr ⟨?_, ?_⟩⟩
  · rw [Sample.ledger_calls hday]
    decide
  · rw [Sample.ledger_calls hday]
    intro record hrecord
    simp only [Ledger.records, List.flatMap_singleton, List.append_nil] at hrecord
    simp only [List.mem_cons, List.not_mem_nil, or_false] at hrecord
    rcases hrecord with rfl | rfl | rfl <;> exact Sample.reproducible _ _
  · rw [Sample.ledger_calls hday]
    unfold Ledger.InnerInside
    decide

/-- Three records at 10, 99 and 12 are sealed under one window from 10 to 12; the replay then
refuses the second. -/
theorem replay_refuses_sealed_record : ∃ sealed, Sample.sealing 99 = .ok sealed ∧
    (callsOn Sample.codec Sample.fresh (Sample.calls 99)).2.records.IsChain Follows ∧
    replayPartitionV1 Sample.codec Sample.authority sealed.directory none =
      .error (.captureArchiveError
        "replayed_record_is_outside_every_declared_coverage_window") := by
  have hday : utcDayOfNanos 99 = 0 := by decide
  obtain ⟨sealed, hsealed⟩ := Sample.sealing_ok hday
  obtain ⟨haccounts, hkept⟩ := accounts_callsOn Sample.init_fresh (Sample.calls 99)
  have hcontract : (callsOn Sample.codec Sample.fresh (Sample.calls 99)).1.contract ∈
      Sample.authority.contracts := hkept ▸ List.mem_singleton_self _
  have hauthorized := haccounts.partitionContract hcontract hsealed
  have hproves := haccounts.proves hsealed
  rw [← hauthorized] at hproves
  refine ⟨sealed, hsealed, ?_, ?_⟩
  · rw [Sample.ledger_calls hday]
    decide
  · have hcoverage := haccounts.coverage
    rw [Sample.ledger_calls hday] at hcoverage
    have hmem : Sample.record 0 10 ∈
        (callsOn Sample.codec Sample.fresh (Sample.calls 99)).2.records := by
      rw [Sample.ledger_calls hday]
      exact List.mem_cons_self
    obtain ⟨-, hsession, hutcDay⟩ := haccounts.admitted _ hmem
    have hseven : (Sample.record 0 10).sessionId = 7 := rfl
    have hzero : utcDayOfNanos (Sample.record 0 10).arrivalUtcNanos = 0 := rfl
    have htext := Sample.replayText_outside
      ((partition_sessionId Sample.codec _).trans (congrArg some (hsession.symm.trans hseven)))
      ((partition_coverage Sample.codec _).trans hcoverage)
    rw [replayPartitionV1_of_proves hproves, haccounts.openRecordsText hsealed, hauthorized, hkept,
      Sample.ledger_calls hday]
    have hrecords : Ledger.records ⟨[([Sample.record 0 10, Sample.record 1 99,
        Sample.record 2 12], Sample.window)], []⟩ =
        [Sample.record 0 10, Sample.record 1 99, Sample.record 2 12] := rfl
    rw [Except.ok_bind, Option.getD_some, metadata_utcDay, ← hutcDay, hzero, hrecords, htext]
    rfl

end CaptureArchive

end TradePlatform
