/-
# `TradePlatform.OffsiteBackup` — backup runs and restore receipts over one ledger

`run_backup` and `accept_restore_receipt` of `capture_offsite.py`.  A run reads the ledger,
visits the partitions in order and appends a line after a `PUT` that returned; a receipt
appends a verification.  Either may be cut off at any byte of an append.  What a visit can do
to the ledger and to the bucket is said once (`Continues`, `Stops`); that the ledger in memory
is the one a reader finds in the file carries every result over histories.
-/
import TradePlatform.Lib.SortBy
import TradePlatform.OffsiteLedger

namespace TradePlatform

namespace Offsite

open JsonLines LineLog

abbrev Bytes := List UInt8

/-! ## What a run is given -/

/-- How `put_new` ends, and whether the object exists by it. -/
inductive PutOutcome where
  | returned (created : Bool)
  | raised (error : Exn) (created : Bool)
deriving DecidableEq

namespace PutOutcome

def created : PutOutcome → Bool
  | .returned created | .raised _ created => created

end PutOutcome

/-- A partition as a visit reads it: `isOpen` is an open marker or a missing manifest, and `body`
its tar at a canonical path. -/
structure Partition where
  relative : String
  isOpen : Bool
  manifestHash : Except Exn String
  finalizedAt : ℚ
  compacted : Bool
  complete : Except Exn Bool
  body : Except Exn Bytes

/-- A visit: the partition, how its `PUT` ends if one is made, and how much of the append of its
line a crash leaves out, if there is one. -/
structure Visit where
  partition : Partition
  put : PutOutcome
  cut : Option ℕ

structure Settings where
  horizonDays : ℤ
  budgetBytes : ℤ
  budgetWindowDays : ℤ
deriving DecidableEq

structure BackupRun where
  roots : List (String × List Visit)
  maxUploads : ℕ
  now : ℚ

def BackupRun.visits (run : BackupRun) : List (String × Visit) :=
  run.roots.flatMap fun root => root.2.map fun v => (root.1, v)

def daySeconds : ℤ := 86400

def staleUncompactedSeconds : ℚ := 2 * 3600

def approvedRootLabelsV1 : List String := ["r0", "u2"]

def intOf (now : ℚ) : ℤ := if 0 ≤ now then ⌊now⌋ else ⌈now⌉

def objectName (label relative : String) : String := label ++ "/" ++ relative ++ ".tar"

def windowStart (settings : Settings) (now : ℚ) : ℚ :=
  now - settings.budgetWindowDays * daySeconds

def windowBytes (ledger : Ledger) (start : ℚ) : ℕ :=
  (((Dict.values ledger.entries).filter fun entry => start < entry.firstAt).map
    LedgerEntryV1.size).sum

/-! ## A run -/

/-- A `PUT`: the object, what the ledger file held, the size, the clock of the run and whether
the object exists by it. -/
structure Sent where
  object : String
  ledgerText : Text
  size : ℕ
  at_ : ℚ
  created : Bool
deriving DecidableEq

/-- The ledger file with the lines that were appended whole, the ledger in memory, and what was
sent. -/
structure Core where
  text : Text
  appended : List LedgerLine
  ledger : Ledger
  windowBytes : ℕ
  sent : List Sent

structure Tally where
  uploaded : List String
  conflicts : List String
  pending : List String
  stale : List String
  failures : List (String × String)
  skipped : ℕ
  deferred : ℕ
  beyondHorizon : ℕ
  overBudget : ℕ

structure Progress where
  core : Core
  tally : Tally

structure Halt where
  progress : Progress
  raised : Option Exn

/-- `except OffsiteError as error`; any other exception ends the run. -/
def failOrRaise (p : Progress) (object : String) : Exn → Except Halt Progress
  | .offsiteError message =>
      .ok { p with tally := { p.tally with failures := p.tally.failures ++ [(object, message)] } }
  | error => .error ⟨p, some error⟩

section Run

variable (coding : Coding LedgerLine) (sha256 : Bytes → String) (settings : Settings)
  (run : BackupRun)

def Core.record (core : Core) (line : LedgerLine) : Core :=
  { core with
    text := append coding core.text line
    appended := core.appended ++ [line]
    ledger := core.ledger.set line.object line.entry
    windowBytes := core.windowBytes + line.bytes }

def Core.tear (core : Core) (line : LedgerLine) (left : ℕ) : Core :=
  { core with
    text := cutAppend coding core.text line left
    appended := core.appended ++ if Whole left then [line] else [] }

def Core.put (core : Core) (object : String) (size : ℕ) (now : ℚ) (outcome : PutOutcome) : Core :=
  { core with
    sent := core.sent ++ [⟨object, core.text, size, now, outcome.created⟩] }

def putLine (object manifestHash : String) (body : Bytes) (created : Bool) : LedgerLine where
  object := object
  manifestContentHash := manifestHash
  tarSha256 := sha256 body
  bytes := body.length
  outcome := (if created then ObjectState.uploaded else .remoteExistsUnverified).text
  at_ := intOf run.now

def record (p : Progress) (line : LedgerLine) (created : Bool) (cut : Option ℕ) :
    Except Halt Progress :=
  match cut with
  | some left => .error ⟨{ p with core := p.core.tear coding line left }, none⟩
  | none =>
      let tally := if created then { p.tally with uploaded := p.tally.uploaded ++ [line.object] }
        else { p.tally with conflicts := p.tally.conflicts ++ [line.object] }
      .ok ⟨p.core.record coding line, tally⟩

def send (p : Progress) (object manifestHash : String) (v : Visit) : Except Halt Progress :=
  match v.partition.body with
  | .error error => failOrRaise p object error
  | .ok body =>
      if settings.budgetBytes < p.core.windowBytes + body.length then
        .ok { p with tally := { p.tally with overBudget := p.tally.overBudget + 1 } }
      else
        let sent := { p with core := p.core.put object body.length run.now v.put }
        match v.put with
        | .raised error _ => failOrRaise sent object error
        | .returned created =>
            record coding sent (putLine sha256 run object manifestHash body created) created v.cut

def visitNew (p : Progress) (object manifestHash : String) (v : Visit) : Except Halt Progress :=
  let age := run.now - v.partition.finalizedAt
  if v.partition.compacted = false then
    .ok { p with tally := if staleUncompactedSeconds < age then
        { p.tally with stale := p.tally.stale ++ [object] }
      else { p.tally with pending := p.tally.pending ++ [object] } }
  else if ((settings.horizonDays * daySeconds : ℤ) : ℚ) < age then
    .ok { p with tally := { p.tally with beyondHorizon := p.tally.beyondHorizon + 1 } }
  else match v.partition.complete with
    | .error error => .error ⟨p, some error⟩
    | .ok false => .ok { p with tally := { p.tally with skipped := p.tally.skipped + 1 } }
    | .ok true =>
        if run.maxUploads ≤ p.tally.uploaded.length + p.tally.conflicts.length then
          .ok { p with tally := { p.tally with deferred := p.tally.deferred + 1 } }
        else if 0 < p.tally.overBudget then
          .ok { p with tally := { p.tally with overBudget := p.tally.overBudget + 1 } }
        else send coding sha256 settings run p object manifestHash v

def visitFinalized (p : Progress) (object manifestHash : String) (v : Visit) :
    Except Halt Progress :=
  match p.core.ledger.get? object with
  | some entry =>
      .ok (if entry.manifestContentHash ≠ manifestHash then
        { p with tally := { p.tally with failures := p.tally.failures ++
          [(object, "ledger_holds_another_manifest_for_this_object")] } } else p)
  | none =>
      if object ∈ p.core.ledger.inconsistent then .ok p
      else visitNew coding sha256 settings run p object manifestHash v

def visit (p : Progress) (item : String × Visit) : Except Halt Progress :=
  if item.2.partition.isOpen then
    .ok { p with tally := { p.tally with skipped := p.tally.skipped + 1 } }
  else match item.2.partition.manifestHash with
    | .error error => .error ⟨p, some error⟩
    | .ok manifestHash => visitFinalized coding sha256 settings run p
        (objectName item.1 item.2.partition.relative) manifestHash item.2

structure BackupReportV1 where
  tally : Tally
  windowBytes : ℕ
  budgetBytes : ℤ
  ledgerStates : List (ObjectState × ℕ)
  unverifiedInWindow : List String

inductive Ending where
  | reported (report : BackupReportV1)
  | raised (error : Exn)
  | crashed

def reportOf (p : Progress) : BackupReportV1 where
  tally := p.tally
  windowBytes := p.core.windowBytes
  budgetBytes := settings.budgetBytes
  ledgerStates := [.uploaded, .restoreVerified, .remoteExistsUnverified].map fun state =>
    (state, (Dict.values p.core.ledger.entries).countP fun entry => entry.state = state)
  unverifiedInWindow := sortBy id ((p.core.ledger.entries.rows.filter fun row =>
    row.2.state = .remoteExistsUnverified ∧ windowStart settings run.now < row.2.firstAt).map
      Prod.fst)

def startCore (text : Text) (appended : List LedgerLine) (sent : List Sent) : Core where
  text := text
  appended := appended
  ledger := readLedger coding text
  windowBytes := windowBytes (readLedger coding text) (windowStart settings run.now)
  sent := sent

def startTally (ledger : Ledger) : Tally where
  uploaded := []
  conflicts := []
  pending := []
  stale := []
  failures := (sortBy id ledger.inconsistent).map fun object => (object, "ledger_lines_disagree")
  skipped := 0
  deferred := 0
  beyondHorizon := 0
  overBudget := 0

def runBackup (core : Core) : Core × Ending :=
  if settings.horizonDays < 1 ∨ settings.budgetWindowDays < settings.horizonDays ∨
      settings.budgetBytes < 1 then
    (core, .raised (.offsiteError
      "need_horizon_days>=1_and_budget_window_days>=horizon_days_and_budget_bytes>=1"))
  else if run.roots.any fun root => root.1 ∉ approvedRootLabelsV1 then
    (core, .raised (.offsiteError "root_label_is_not_approved"))
  else match run.visits.foldlM (visit coding sha256 settings run)
      ⟨core, startTally core.ledger⟩ with
    | .ok p => (p.core, .reported (reportOf settings run p))
    | .error halt => (halt.progress.core, halt.raised.elim .crashed .raised)

end Run

/-! ## A receipt -/

inductive ReceiptLine where
  | blank
  | unreadable
  | verified (object tarSha256 : String)
deriving DecidableEq

/-- A receipt's lines, each with how much of its append a crash leaves out, if there is one;
`none` where the receipt cannot be read. -/
structure AcceptRun where
  lines : Option (List (ReceiptLine × Option ℕ))
  now : ℚ

def AcceptRun.named (run : AcceptRun) : List (String × String) :=
  (run.lines.getD []).filterMap fun item =>
    match item.1 with
    | .verified object tarSha256 => some (object, tarSha256)
    | .blank | .unreadable => none

structure Accepting where
  text : Text
  appended : List LedgerLine
  ledger : Ledger
  accepted : List String
  already : ℕ
  refused : List (String × String)

section Accept

variable (coding : Coding LedgerLine) (run : AcceptRun)

def verifiedLine (object : String) (entry : LedgerEntryV1) : LedgerLine where
  object := object
  manifestContentHash := entry.manifestContentHash
  tarSha256 := entry.tarSha256
  bytes := entry.size
  outcome := ObjectState.restoreVerified.text
  at_ := intOf run.now

def accept (a : Accepting) (object : String) (entry : LedgerEntryV1) (cut : Option ℕ) :
    Except Accepting Accepting :=
  let line := verifiedLine run object entry
  match cut with
  | some left => .error { a with
      text := cutAppend coding a.text line left
      appended := a.appended ++ if Whole left then [line] else [] }
  | none => .ok { a with
      text := append coding a.text line
      appended := a.appended ++ [line]
      ledger := a.ledger.set object { entry with state := .restoreVerified }
      accepted := a.accepted ++ [object] }

def acceptLine (a : Accepting) (item : ReceiptLine × Option ℕ) : Except Accepting Accepting :=
  match item.1 with
  | .blank => .ok a
  | .unreadable => .ok { a with refused := a.refused ++ [("-", "receipt_line_is_unreadable")] }
  | .verified object tarSha256 =>
      match a.ledger.get? object with
      | none => .ok { a with refused := a.refused ++ [(object, "object_is_not_in_the_ledger")] }
      | some entry =>
          if object ∈ a.ledger.inconsistent then
            .ok { a with refused := a.refused ++ [(object, "object_is_not_in_the_ledger")] }
          else if entry.tarSha256 ≠ tarSha256 then
            .ok { a with refused := a.refused ++ [(object, "receipt_bytes_differ_from_the_ledger")] }
          else if entry.state = .restoreVerified then .ok { a with already := a.already + 1 }
          else accept coding run a object entry item.2

/-- What `accept_restore_receipt` leaves: after its last line, or where it was cut off. -/
def acceptRestoreReceipt (text : Text) (appended : List LedgerLine) : Accepting :=
  match (run.lines.getD []).foldlM (acceptLine coding run)
      ⟨text, appended, readLedger coding text, [], 0, []⟩ with
  | .ok a => a
  | .error a => a

end Accept

end Offsite

end TradePlatform
