/-
# `TradePlatform.OffsiteHistory` — histories of backup runs and receipts

What a visit does to the ledger and to the bucket, by how it ends; what a run and a receipt
keep; and, over any history of them cut off anywhere, that the ledger read from the file holds
every line that was appended whole and sends no object twice.
-/
import TradePlatform.Lib.Run
import TradePlatform.OffsiteBackup

namespace TradePlatform

namespace Offsite

open JsonLines LineLog

/-! ## What a visit does -/

section Visit

variable {coding : Coding LedgerLine} {sha256 : Bytes → String} {settings : Settings}
  {run : BackupRun}

/-- A `PUT` of an object the ledger does not hold, within the budget. -/
structure Puts (settings : Settings) (run : BackupRun) (v : Visit) (core core' : Core)
    (object : String) (size : ℕ) : Prop where
  new : core.ledger.get? object = none
  fits : ((core.windowBytes + size : ℕ) : ℤ) ≤ settings.budgetBytes
  put : core' = core.put object size run.now v.put

inductive Continues (coding : Coding LedgerLine) (settings : Settings) (run : BackupRun)
    (v : Visit) (core : Core) : Core → Prop
  | quiet : Continues coding settings run v core core
  | failed {core' : Core} {object : String} {size : ℕ} {error : Exn} {created : Bool} :
      Puts settings run v core core' object size → v.put = .raised error created →
      Continues coding settings run v core core'
  | recorded {core' : Core} {line : LedgerLine} {created : Bool} :
      Puts settings run v core core' line.object line.bytes → v.put = .returned created →
      line.entry.state ≠ .restoreVerified → line.at_ = intOf run.now →
      Continues coding settings run v core (core'.record coding line)

inductive Stops (coding : Coding LedgerLine) (settings : Settings) (run : BackupRun)
    (v : Visit) (core : Core) : Core → Prop
  | quiet : Stops coding settings run v core core
  | failed {core' : Core} {object : String} {size : ℕ} {error : Exn} {created : Bool} :
      Puts settings run v core core' object size → v.put = .raised error created →
      Stops coding settings run v core core'
  | torn {core' : Core} {line : LedgerLine} {created : Bool} {left : ℕ} :
      Puts settings run v core core' line.object line.bytes → v.put = .returned created →
      v.cut = some left → line.entry.state ≠ .restoreVerified → line.at_ = intOf run.now →
      Stops coding settings run v core (core'.tear coding line left)

def Visited (coding : Coding LedgerLine) (settings : Settings) (run : BackupRun) (v : Visit)
    (core : Core) : Except Halt Progress → Prop
  | .ok p => Continues coding settings run v core p.core
  | .error halt => Stops coding settings run v core halt.progress.core

theorem visited_failOrRaise {p : Progress} {v : Visit} {core : Core} {object : String}
    {error : Exn} (hgoes : Continues coding settings run v core p.core)
    (hstops : Stops coding settings run v core p.core) :
    Visited coding settings run v core (failOrRaise p object error) := by
  cases error with
  | offsiteError message => exact hgoes
  | _ => exact hstops

theorem putLine_state (object manifestHash : String) (body : Bytes) (created : Bool) :
    (putLine sha256 run object manifestHash body created).entry.state ≠ .restoreVerified := by
  show ObjectState.ofText (ObjectState.text _) ≠ _
  rw [ObjectState.ofText_text]
  cases created
  · exact ObjectState.noConfusion
  · exact ObjectState.noConfusion

theorem visited_send {p : Progress} {object manifestHash : String} {v : Visit}
    (hnew : p.core.ledger.get? object = none) :
    Visited coding settings run v p.core (send coding sha256 settings run p object manifestHash v)
    := by
  unfold send
  cases v.partition.body with
  | error error => exact visited_failOrRaise .quiet .quiet
  | ok body =>
      dsimp only
      split
      · exact .quiet
      · rename_i hfits
        have hputs : Puts settings run v p.core (p.core.put object body.length run.now v.put)
            object body.length := ⟨hnew, by push_cast; exact not_lt.mp hfits, rfl⟩
        split
        · rename_i error created hput
          exact visited_failOrRaise (.failed hputs hput) (.failed hputs hput)
        · rename_i created hput
          have hstate : (putLine sha256 run object manifestHash body created).entry.state ≠
              .restoreVerified := putLine_state object manifestHash body created
          unfold record
          cases hcut : v.cut with
          | none => exact .recorded hputs hput hstate rfl
          | some left => exact .torn hputs hput hcut hstate rfl

theorem visited_new {p : Progress} {object manifestHash : String} {v : Visit}
    (hnew : p.core.ledger.get? object = none) :
    Visited coding settings run v p.core
      (visitNew coding sha256 settings run p object manifestHash v) := by
  unfold visitNew
  dsimp only
  split
  · exact .quiet
  · split
    · exact .quiet
    · split
      · exact .quiet
      · exact .quiet
      · split
        · exact .quiet
        · split
          · exact .quiet
          · exact visited_send hnew

theorem visited (p : Progress) (item : String × Visit) :
    Visited coding settings run item.2 p.core (visit coding sha256 settings run p item) := by
  unfold visit
  split
  · exact .quiet
  · split
    · exact .quiet
    · unfold visitFinalized
      split
      · dsimp only
        split
        · exact .quiet
        · exact .quiet
      · rename_i hnew
        split
        · exact .quiet
        · exact visited_new hnew

theorem visits_inv {P Q : Core → Prop} {items : List (String × Visit)}
    (hgo : ∀ item ∈ items, ∀ core core', P core →
      Continues coding settings run item.2 core core' → P core')
    (hstop : ∀ item ∈ items, ∀ core core', P core →
      Stops coding settings run item.2 core core' → Q core')
    (hend : ∀ core, P core → Q core) {p : Progress} (h : P p.core) :
    match items.foldlM (visit coding sha256 settings run) p with
    | .ok p' => Q p'.core
    | .error halt => Q halt.progress.core := by
  induction items generalizing p with
  | nil => exact hend _ h
  | cons item items ih =>
      rw [List.foldlM_cons]
      have hvisited : Visited coding settings run item.2 p.core
          (visit coding sha256 settings run p item) := visited p item
      cases hvisit : visit coding sha256 settings run p item with
      | error halt =>
          rw [hvisit] at hvisited
          exact hstop item List.mem_cons_self _ _ h hvisited
      | ok p' =>
          rw [hvisit] at hvisited
          refine ih (fun other hother => hgo other (List.mem_cons_of_mem _ hother))
            (fun other hother => hstop other (List.mem_cons_of_mem _ hother)) ?_
          exact hgo item List.mem_cons_self _ _ h hvisited

theorem runBackup_inv {P Q : Core → Prop}
    (hgo : ∀ item ∈ run.visits, ∀ core core', P core →
      Continues coding settings run item.2 core core' → P core')
    (hstop : ∀ item ∈ run.visits, ∀ core core', P core →
      Stops coding settings run item.2 core core' → Q core')
    (hend : ∀ core, P core → Q core) {core : Core} (h : P core) :
    Q (runBackup coding sha256 settings run core).1 := by
  unfold runBackup
  split
  · exact hend _ h
  · split
    · exact hend _ h
    · have hloop := @visits_inv _ sha256 _ _ _ _ _ hgo hstop hend
        ⟨core, startTally core.ledger⟩ h
      split
      · rename_i p hp
        rw [hp] at hloop
        exact hloop
      · rename_i halt hhalt
        rw [hhalt] at hloop
        exact hloop

end Visit

/-! ## The ledger in the file -/

section Ledger

variable {coding : Coding LedgerLine} {receipts : List (String × String)}

/-- The file holds the lines that were appended whole, they are coherent, and no object was sent
that the file held. -/
structure Kept (coding : Coding LedgerLine) (receipts : List (String × String)) (text : Text)
    (appended : List LedgerLine) (sent : List Sent) : Prop where
  log : decoded coding text = appended
  coherent : Coherent appended receipts
  unsent : ∀ s ∈ sent, (readLedger coding s.ledgerText).get? s.object = none

variable {text : Text} {appended : List LedgerLine} {sent : List Sent}

theorem Kept.readLedger (h : Kept coding receipts text appended sent) :
    readLedger coding text = Ledger.ofLog appended := by
  unfold Offsite.readLedger
  rw [h.log]

theorem Kept.cutAppend (h : Kept coding receipts text appended sent) (hclosed : Closed coding)
    {line : LedgerLine} (hline : Coherent (appended ++ [line]) receipts) (left : ℕ) :
    Kept coding receipts (cutAppend coding text line left)
      (appended ++ if Whole left then [line] else []) sent := by
  refine ⟨?_, ?_, h.unsent⟩
  · rw [hclosed.decoded_cutAppend, h.log]
  · split
    · exact hline
    · rw [List.append_nil]
      exact h.coherent

theorem Kept.append (h : Kept coding receipts text appended sent) (hclosed : Closed coding)
    {line : LedgerLine} (hline : Coherent (appended ++ [line]) receipts) :
    Kept coding receipts (append coding text line) (appended ++ [line]) sent := by
  refine ⟨?_, hline, h.unsent⟩
  rw [hclosed.decoded_snoc, h.log]

theorem Kept.put (h : Kept coding receipts text appended sent) {s : Sent} (htext : s.ledgerText = text)
    (hnew : (Ledger.ofLog appended).get? s.object = none) :
    Kept coding receipts text appended (sent ++ [s]) := by
  refine ⟨h.log, h.coherent, ?_⟩
  intro other hother
  rcases List.mem_append.mp hother with hother | hother
  · exact h.unsent other hother
  · obtain rfl := List.mem_singleton.mp hother
    rw [htext, h.readLedger]
    exact hnew

def Core.Kept (coding : Coding LedgerLine) (receipts : List (String × String)) (core : Core) :
    Prop :=
  Offsite.Kept coding receipts core.text core.appended core.sent

structure Core.Live (coding : Coding LedgerLine) (receipts : List (String × String))
    (core : Core) : Prop where
  kept : core.Kept coding receipts
  ledger : core.ledger = Ledger.ofLog core.appended

variable {settings : Settings} {run : BackupRun} {v : Visit} {core core' : Core}

theorem Core.Live.put (h : core.Live coding receipts) {object : String} {size : ℕ}
    (hputs : Puts settings run v core core' object size) :
    core'.Live coding receipts ∧ core'.ledger.get? object = none := by
  obtain ⟨hnew, -, rfl⟩ := hputs
  refine ⟨⟨h.kept.put rfl ?_, h.ledger⟩, hnew⟩
  rw [← h.ledger]
  exact hnew

theorem Core.Live.sent_line (h : core.Live coding receipts) {line : LedgerLine}
    (hnew : core.ledger.get? line.object = none) (hstate : line.entry.state ≠ .restoreVerified) :
    Coherent (core.appended ++ [line]) receipts := by
  rw [h.ledger] at hnew
  exact h.kept.coherent.sent hnew hstate

theorem Core.Live.continues (h : core.Live coding receipts) (hclosed : Closed coding)
    (hgoes : Continues coding settings run v core core') : core'.Live coding receipts := by
  cases hgoes with
  | quiet => exact h
  | failed hputs _ => exact (h.put hputs).1
  | @recorded core' line created hputs _ hstate _ =>
      obtain ⟨hlive, hnew⟩ := h.put hputs
      have hline := hlive.sent_line hnew hstate
      refine ⟨hlive.kept.append hclosed hline, ?_⟩
      show core'.ledger.set line.object line.entry = Ledger.ofLog (core'.appended ++ [line])
      rw [Ledger.ofLog_snoc, ← hlive.ledger, Ledger.readLine_sent hnew hstate]

theorem Core.Live.stops (h : core.Live coding receipts) (hclosed : Closed coding)
    (hstops : Stops coding settings run v core core') : core'.Kept coding receipts := by
  cases hstops with
  | quiet => exact h.kept
  | failed hputs _ => exact (h.put hputs).1.kept
  | torn hputs _ _ hstate _ =>
      obtain ⟨hlive, hnew⟩ := h.put hputs
      exact hlive.kept.cutAppend hclosed (hlive.sent_line hnew hstate) _

end Ledger

/-! ## Receipts -/

section Receipts

variable {coding : Coding LedgerLine} {receipts : List (String × String)} {run : AcceptRun}

def Accepting.Kept (coding : Coding LedgerLine) (receipts : List (String × String))
    (a : Accepting) : Prop :=
  Offsite.Kept coding receipts a.text a.appended []

structure Accepting.Live (coding : Coding LedgerLine) (receipts : List (String × String))
    (a : Accepting) : Prop where
  kept : a.Kept coding receipts
  ledger : a.ledger = Ledger.ofLog a.appended

theorem verifiedLine_state (run : AcceptRun) (object : String) (entry : LedgerEntryV1) :
    (verifiedLine run object entry).entry.state = .restoreVerified :=
  ObjectState.ofText_text .restoreVerified

theorem Accepting.Live.verified {a : Accepting} (h : a.Live coding receipts) {object : String}
    {entry : LedgerEntryV1} (hentry : a.ledger.get? object = some entry)
    (hreceipt : (object, entry.tarSha256) ∈ receipts) :
    Coherent (a.appended ++ [verifiedLine run object entry]) receipts := by
  rw [h.ledger] at hentry
  have hagrees : entry.Agrees (verifiedLine run object entry) := ⟨rfl, rfl, rfl⟩
  exact h.kept.coherent.verified hentry hagrees (verifiedLine_state run object entry) hreceipt

theorem acceptLine_kept (run : AcceptRun) {a : Accepting} (h : a.Live coding receipts)
    (hclosed : Closed coding) {item : ReceiptLine × Option ℕ}
    (hreceipt : ∀ object tar, item.1 = .verified object tar → (object, tar) ∈ receipts) :
    match acceptLine coding run a item with
    | .ok a' => a'.Live coding receipts
    | .error a' => a'.Kept coding receipts := by
  obtain ⟨line, cut⟩ := item
  unfold acceptLine
  cases line with
  | blank => exact h
  | unreadable => exact ⟨h.kept, h.ledger⟩
  | verified object tar =>
      dsimp only
      cases hentry : a.ledger.get? object with
      | none => exact ⟨h.kept, h.ledger⟩
      | some entry =>
          dsimp only
          split_ifs with hinconsistent htar hstate
          · exact ⟨h.kept, h.ledger⟩
          · exact ⟨h.kept, h.ledger⟩
          · exact ⟨h.kept, h.ledger⟩
          · have hmem : (object, entry.tarSha256) ∈ receipts := by
              rw [not_not.mp htar]
              exact hreceipt object tar rfl
            have hline : Coherent (a.appended ++ [verifiedLine run object entry]) receipts :=
              h.verified hentry hmem
            unfold accept
            cases cut with
            | some left => exact h.kept.cutAppend hclosed hline left
            | none =>
                refine ⟨h.kept.append hclosed hline, ?_⟩
                have hread : a.ledger.readLine (verifiedLine run object entry) =
                    a.ledger.set object { entry with state := .restoreVerified } :=
                  Ledger.readLine_verified hentry rfl rfl (verifiedLine_state run object entry)
                show a.ledger.set object { entry with state := .restoreVerified } =
                  Ledger.ofLog (a.appended ++ [verifiedLine run object entry])
                rw [Ledger.ofLog_snoc, ← h.ledger, hread]

theorem acceptRestoreReceipt_kept {text : Text} {appended : List LedgerLine}
    (h : Kept coding receipts text appended []) (hclosed : Closed coding)
    (hreceipts : run.named ⊆ receipts) :
    (acceptRestoreReceipt coding run text appended).Kept coding receipts := by
  have hloop : ∀ (items : List (ReceiptLine × Option ℕ)) (a : Accepting),
      (∀ item ∈ items, ∀ object tar, item.1 = .verified object tar → (object, tar) ∈ receipts) →
      a.Live coding receipts →
      match items.foldlM (acceptLine coding run) a with
      | .ok a' => a'.Live coding receipts
      | .error a' => a'.Kept coding receipts := by
    intro items
    induction items with
    | nil =>
        intro a _ ha
        exact ha
    | cons item items ih =>
        intro a hitems ha
        have hstep := acceptLine_kept run ha hclosed (hitems item List.mem_cons_self)
        rw [List.foldlM_cons]
        cases hline : acceptLine coding run a item with
        | error a' =>
            rw [hline] at hstep
            exact hstep
        | ok a' =>
            rw [hline] at hstep
            exact ih a' (fun other hother => hitems other (List.mem_cons_of_mem _ hother)) hstep
  have hnamed : ∀ item ∈ run.lines.getD [], ∀ object tar,
      item.1 = .verified object tar → (object, tar) ∈ receipts := by
    intro item hitem object tar heq
    refine hreceipts (List.mem_filterMap.mpr ⟨item, hitem, ?_⟩)
    rw [heq]
  have hresult := hloop (run.lines.getD []) ⟨text, appended, readLedger coding text, [], 0, []⟩
    hnamed ⟨h, h.readLedger⟩
  unfold acceptRestoreReceipt
  split
  · rename_i a ha
    rw [ha] at hresult
    exact hresult.kept
  · rename_i a ha
    rw [ha] at hresult
    exact hresult

end Receipts

/-! ## Histories -/

/-- The ledger file with the lines appended whole, everything sent, and every receipt line. -/
structure World where
  text : Text
  appended : List LedgerLine
  sent : List Sent
  receipts : List (String × String)

inductive Call where
  | backup (settings : Settings) (run : BackupRun)
  | accept (run : AcceptRun)

namespace World

def start : World := ⟨[], [], [], []⟩

variable (coding : Coding LedgerLine) (sha256 : Bytes → String)

def backup (settings : Settings) (w : World) (run : BackupRun) : World :=
  let core := (runBackup coding sha256 settings run
    (startCore coding settings run w.text w.appended w.sent)).1
  { w with text := core.text, appended := core.appended, sent := core.sent }

def accept (w : World) (run : AcceptRun) : World :=
  let a := acceptRestoreReceipt coding run w.text w.appended
  { w with text := a.text, appended := a.appended, receipts := w.receipts ++ run.named }

def step (w : World) : Call → World
  | .backup settings run => w.backup coding sha256 settings run
  | .accept run => w.accept coding run

def Kept (w : World) : Prop := Offsite.Kept coding w.receipts w.text w.appended w.sent

end World

variable {coding : Coding LedgerLine} {sha256 : Bytes → String}

theorem start_kept (hclosed : Closed coding) (line : LedgerLine) : World.start.Kept coding := by
  refine ⟨hclosed.decoded_nil line, Coherent.nil, ?_⟩
  intro s hs
  cases hs

theorem backup_kept {w : World} (h : w.Kept coding) (hclosed : Closed coding)
    (settings : Settings) (run : BackupRun) :
    (w.backup coding sha256 settings run).Kept coding := by
  have hlive : (startCore coding settings run w.text w.appended w.sent).Live coding w.receipts :=
    ⟨h, h.readLedger⟩
  exact runBackup_inv (P := Core.Live coding w.receipts) (Q := Core.Kept coding w.receipts)
    (fun _ _ _ _ hcore hgoes => hcore.continues hclosed hgoes)
    (fun _ _ _ _ hcore hstops => hcore.stops hclosed hstops) (fun _ hcore => hcore.kept) hlive

theorem accept_kept {w : World} (h : w.Kept coding) (hclosed : Closed coding) (run : AcceptRun) :
    (w.accept coding run).Kept coding := by
  have hgrown : Kept coding (w.receipts ++ run.named) w.text w.appended [] :=
    ⟨h.log, h.coherent.mono (List.subset_append_left _ _), by simp⟩
  have haccept : (acceptRestoreReceipt coding run w.text w.appended).Kept coding
      (w.receipts ++ run.named) :=
    acceptRestoreReceipt_kept hgrown hclosed (List.subset_append_right _ _)
  exact ⟨haccept.log, haccept.coherent, h.unsent⟩

theorem step_kept {w : World} (h : w.Kept coding) (hclosed : Closed coding) (call : Call) :
    (w.step coding sha256 call).Kept coding := by
  cases call with
  | backup settings run => exact backup_kept h hclosed settings run
  | accept run => exact accept_kept h hclosed run

/-- After any history of runs and receipts, each of which may be cut off at any byte of an
append: every line that was appended whole is read with its hashes and its size; no object's
lines disagree; a verified object has a receipt line that named the hash of its first line; and
nothing was sent that the ledger held. -/
theorem history_kept (hclosed : Closed coding) (calls : List Call) :
    let w := Run.exec (World.step coding sha256) World.start calls
    (∀ line ∈ w.appended, ∃ entry, (readLedger coding w.text).get? line.object = some entry ∧
        entry.Agrees line) ∧
      (readLedger coding w.text).inconsistent = [] ∧
      (∀ object entry, (readLedger coding w.text).get? object = some entry →
        entry.state = .restoreVerified →
        ∃ line, firstLine (decoded coding w.text) object = some line ∧
          (object, line.tarSha256) ∈ w.receipts) ∧
      ∀ s ∈ w.sent, (readLedger coding s.ledgerText).get? s.object = none := by
  intro w
  have hkept : w.Kept coding := Run.exec_inv (J := World.Kept coding)
    (fun _ call h => step_kept h hclosed call) calls
    (start_kept hclosed ⟨"", "", "", 0, "", 0⟩)
  rw [hkept.readLedger, hkept.log]
  refine ⟨hkept.coherent.agrees, hkept.coherent.consistent, ?_, hkept.unsent⟩
  intro object entry hentry hstate
  obtain ⟨line, hline, -, hreceipt⟩ := hkept.coherent.first object entry hentry
  exact ⟨line, hline, hreceipt hstate⟩

/-! ## A line cut off, a run after it, and a receipt -/

namespace Sample

def partition (relative : String) : Partition where
  relative := relative
  isOpen := false
  manifestHash := .ok "manifest"
  finalizedAt := 0
  compacted := true
  complete := .ok true
  body := .ok [0]

def limits : Settings := ⟨1, 1, 1⟩

def backupRun (visits : List Visit) : BackupRun := ⟨[("r0", visits)], 500, 0⟩

/-- The line of the object is torn; the next run meets the object; a receipt names its hash. -/
def calls : List Call :=
  [.backup limits (backupRun [⟨partition "a", .returned true, some 2⟩]),
    .backup limits (backupRun [⟨partition "a", .returned false, none⟩]),
    .accept ⟨some [(.verified "r0/a.tar" "sha", none)], 0⟩]

end Sample

theorem history_kept_sample :
    let w := Run.exec (World.step Coding.strokes fun _ => "sha") World.start Sample.calls
    (∀ line ∈ w.appended, ∃ entry,
        (readLedger Coding.strokes w.text).get? line.object = some entry ∧ entry.Agrees line) ∧
      (readLedger Coding.strokes w.text).inconsistent = [] ∧
      (∀ object entry, (readLedger Coding.strokes w.text).get? object = some entry →
        entry.state = .restoreVerified →
        ∃ line, firstLine (decoded Coding.strokes w.text) object = some line ∧
          (object, line.tarSha256) ∈ w.receipts) ∧
      ∀ s ∈ w.sent, (readLedger Coding.strokes s.ledgerText).get? s.object = none :=
  history_kept strokes_closed Sample.calls

end Offsite

end TradePlatform
