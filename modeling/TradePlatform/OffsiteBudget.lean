/-
# `TradePlatform.OffsiteBudget` — what the bucket holds against what the ledger shows

The budget bounds the bytes of the ledger's entries inside the window.  It bounds the bucket
where every object that a `PUT` created has its line in the ledger and no object is older than
the window by the fraction of a second that `int(now)` dropped: the objects of any window are
then among the entries that the last of them was weighed against.
-/
import TradePlatform.OffsiteHistory

namespace TradePlatform

namespace Offsite

open JsonLines LineLog

structure Settings.Valid (settings : Settings) : Prop where
  horizon : 1 ≤ settings.horizonDays
  window : settings.horizonDays ≤ settings.budgetWindowDays
  budget : 1 ≤ settings.budgetBytes

/-- The `PUT` created its object in the window that ends at `time`. -/
def Sent.InWindow (settings : Settings) (time : ℚ) (s : Sent) : Prop :=
  s.created = true ∧ windowStart settings time < s.at_ ∧ s.at_ ≤ time

instance (settings : Settings) (time : ℚ) : DecidablePred (Sent.InWindow settings time) :=
  fun _ => inferInstanceAs (Decidable (_ ∧ _ ∧ _))

/-- The bytes of the objects that the `PUT`s of the window created, by the clocks of their
runs. -/
def createdBytes (settings : Settings) (sent : List Sent) (time : ℚ) : ℕ :=
  ((sent.filter fun s => s.InWindow settings time).map Sent.size).sum

def WithinBudget (settings : Settings) (sent : List Sent) : Prop :=
  ∀ time, (createdBytes settings sent time : ℤ) ≤ settings.budgetBytes

/-- Every object that a `PUT` creates gets its line: the response comes and the text of the line is
written.  And no object sent before is inside the window only by a fraction of a second. -/
structure Accounted (settings : Settings) (w : World) (run : BackupRun) : Prop where
  answered : ∀ item ∈ run.visits, ∀ error, item.2.put ≠ .raised error true
  written : ∀ item ∈ run.visits, item.2.put = .returned true → ∀ left ∈ item.2.cut, Whole left
  fraction : ∀ s ∈ w.sent, s.created = true → windowStart settings run.now < s.at_ →
    windowStart settings run.now < intOf s.at_

/-! ## The objects and their entries -/

structure Covered (ledger : Ledger) (sent : List Sent) : Prop where
  entry : ∀ s ∈ sent, s.created = true → ∃ entry, ledger.get? s.object = some entry ∧
    entry.size = s.size ∧ entry.firstAt = intOf s.at_
  nodup : ((sent.filter Sent.created).map Sent.object).Nodup

variable {ledger : Ledger} {sent : List Sent} {settings : Settings} {s : Sent}

theorem Covered.put_nothing (h : Covered ledger sent) (hs : s.created = false) :
    Covered ledger (sent ++ [s]) := by
  refine ⟨?_, ?_⟩
  · intro other hother hcreated
    rcases List.mem_append.mp hother with hother | hother
    · exact h.entry other hother hcreated
    · rw [List.mem_singleton.mp hother, hs] at hcreated
      cases hcreated
  · rw [List.filter_append, List.filter_cons_of_neg (by rw [hs]; exact Bool.noConfusion),
      List.filter_nil, List.append_nil]
    exact h.nodup

theorem Covered.set (h : Covered ledger sent) {object : String} {entry : LedgerEntryV1}
    (hnew : ledger.get? object = none) : Covered (ledger.set object entry) sent := by
  refine ⟨?_, h.nodup⟩
  intro other hother hcreated
  obtain ⟨found, hfound, hsame⟩ := h.entry other hother hcreated
  have hne : object ≠ other.object := by
    rintro rfl
    rw [hnew] at hfound
    cases hfound
  exact ⟨found, by rw [Ledger.get?_set_of_ne hne, hfound], hsame⟩

theorem Covered.put (h : Covered ledger sent) (hnew : ledger.get? s.object = none)
    {entry : LedgerEntryV1} (hsize : entry.size = s.size) (hfirst : entry.firstAt = intOf s.at_) :
    Covered (ledger.set s.object entry) (sent ++ [s]) := by
  refine ⟨?_, ?_⟩
  · intro other hother hcreated
    rcases List.mem_append.mp hother with hother | hother
    · exact (h.set hnew).entry other hother hcreated
    · rw [List.mem_singleton.mp hother]
      exact ⟨entry, Ledger.get?_set_self, hsize, hfirst⟩
  · rw [List.filter_append, List.map_append]
    refine List.nodup_append.mpr ⟨h.nodup, ?_, ?_⟩
    · cases hs : s.created with
      | true =>
          rw [List.filter_cons_of_pos hs]
          exact List.nodup_singleton _
      | false =>
          rw [List.filter_cons_of_neg (by rw [hs]; exact Bool.noConfusion)]
          exact List.nodup_nil
    · intro a ha b hb hab
      obtain ⟨old, hold, rfl⟩ := List.mem_map.mp ha
      obtain ⟨new, hmem, rfl⟩ := List.mem_map.mp hb
      have hmem := List.mem_of_mem_filter hmem
      rw [List.mem_singleton.mp hmem] at hab
      obtain ⟨found, hfound, -⟩ := h.entry old (List.mem_of_mem_filter hold)
        (List.mem_filter.mp hold).2
      rw [hab, hnew] at hfound
      cases hfound

/-! ## Weighing -/

/-- The objects of a window that ends no earlier than the run are among the entries that the run
counts. -/
theorem Covered.createdBytes_le (h : Covered ledger sent) {now time : ℚ} (htime : now ≤ time)
    (hfraction : ∀ s ∈ sent, s.created = true → windowStart settings now < s.at_ →
      windowStart settings now < intOf s.at_) :
    createdBytes settings sent time ≤ windowBytes ledger (windowStart settings now) := by
  have hstart : windowStart settings now ≤ windowStart settings time := by
    unfold windowStart
    linarith
  let objects := (sent.filter fun s => s.InWindow settings time).map fun s => (s.object, s.size)
  let rows := (ledger.entries.rows.filter fun row => windowStart settings now < row.2.firstAt).map
    fun row => (row.1, row.2.size)
  have hobjects : objects.Nodup := by
    refine List.Nodup.of_map Prod.fst ?_
    rw [List.map_map]
    refine h.nodup.sublist (List.Sublist.map Sent.object ?_)
    exact List.monotone_filter_right sent fun s hs => (of_decide_eq_true hs).1
  have hsubset : objects ⊆ rows := by
    intro pair hpair
    obtain ⟨s, hs, rfl⟩ := List.mem_map.mp hpair
    obtain ⟨hmem, hin⟩ := List.mem_filter.mp hs
    obtain ⟨hcreated, hafter, -⟩ := of_decide_eq_true hin
    obtain ⟨entry, hentry, hsize, hfirst⟩ := h.entry s hmem hcreated
    refine List.mem_map.mpr ⟨(s.object, entry), List.mem_filter.mpr ⟨?_, ?_⟩, ?_⟩
    · exact Dict.mem_rows.mpr hentry
    · refine decide_eq_true ?_
      rw [hfirst]
      exact hfraction s hmem hcreated (hstart.trans_lt hafter)
    · rw [hsize]
  obtain ⟨part, hperm, hsub⟩ := hobjects.subperm hsubset
  have hcreated : createdBytes settings sent time = (objects.map Prod.snd).sum := by
    unfold createdBytes
    rw [List.map_map]
    rfl
  have hrows : windowBytes ledger (windowStart settings now) = (rows.map Prod.snd).sum := by
    unfold windowBytes Dict.values
    rw [List.filter_map, List.map_map, List.map_map]
    rfl
  rw [hcreated, hrows, ← (hperm.map Prod.snd).sum_eq]
  exact (hsub.map Prod.snd).sum_le_sum fun _ _ => Nat.zero_le _

theorem createdBytes_snoc (time : ℚ) :
    createdBytes settings (sent ++ [s]) time =
      createdBytes settings sent time + if s.InWindow settings time then s.size else 0 := by
  unfold createdBytes
  rw [List.filter_append, List.map_append, List.sum_append]
  congr 1
  split
  · rename_i hin
    rw [List.filter_singleton, decide_eq_true hin]
    simp
  · rename_i hout
    rw [List.filter_singleton, decide_eq_false hout]
    rfl

theorem WithinBudget.put (h : WithinBudget settings sent) (hcovered : Covered ledger sent)
    (hfraction : ∀ other ∈ sent, other.created = true → windowStart settings s.at_ < other.at_ →
      windowStart settings s.at_ < intOf other.at_)
    (hfits : ((windowBytes ledger (windowStart settings s.at_) + s.size : ℕ) : ℤ) ≤
      settings.budgetBytes) : WithinBudget settings (sent ++ [s]) := by
  intro time
  rw [createdBytes_snoc]
  split
  · rename_i hin
    have hle := hcovered.createdBytes_le hin.2.2 hfraction
    push_cast at hfits ⊢
    linarith [(Nat.cast_le (α := ℤ)).mpr hle]
  · exact h time

theorem WithinBudget.put_nothing (h : WithinBudget settings sent) (hs : s.created = false) :
    WithinBudget settings (sent ++ [s]) := by
  intro time
  rw [createdBytes_snoc, if_neg, Nat.add_zero]
  · exact h time
  · intro hin
    have hcreated := hin.1
    rw [hs] at hcreated
    cases hcreated

/-! ## Runs -/

section Run

variable {coding : Coding LedgerLine} {sha256 : Bytes → String} {run : BackupRun}
  {core core' : Core}

theorem lt_intOf_add_one (now : ℚ) : now < intOf now + 1 := by
  unfold intOf
  split
  · exact Int.lt_floor_add_one now
  · exact (Int.le_ceil now).trans_lt (lt_add_one _)

theorem windowStart_lt_intOf (hvalid : settings.Valid) (now : ℚ) :
    windowStart settings now < intOf now := by
  have hdays : (1 : ℚ) ≤ settings.budgetWindowDays := by
    exact_mod_cast hvalid.horizon.trans hvalid.window
  have hday : ((daySeconds : ℤ) : ℚ) = 86400 := by norm_num [daySeconds]
  have hnow := lt_intOf_add_one now
  unfold windowStart
  rw [hday]
  linarith

theorem windowBytes_set {object : String} {entry : LedgerEntryV1} {start : ℚ}
    (hnew : ledger.get? object = none) (hfirst : start < entry.firstAt) :
    windowBytes (ledger.set object entry) start = windowBytes ledger start + entry.size := by
  unfold windowBytes
  have hvalues : Dict.values (ledger.set object entry).entries =
      Dict.values ledger.entries ++ [entry] := Dict.values_set_of_none hnew
  rw [hvalues, List.filter_append, List.map_append, List.sum_append, List.filter_singleton,
    decide_eq_true hfirst]
  simp

structure Weighed (settings : Settings) (ledger : Ledger) (sent : List Sent) : Prop where
  covered : Covered ledger sent
  within : WithinBudget settings sent

structure Core.Weighing (coding : Coding LedgerLine) (receipts : List (String × String))
    (settings : Settings) (run : BackupRun) (core : Core) : Prop where
  live : core.Live coding receipts
  weighed : Weighed settings core.ledger core.sent
  window : core.windowBytes = Offsite.windowBytes core.ledger (windowStart settings run.now)
  fraction : ∀ s ∈ core.sent, s.created = true → windowStart settings run.now < s.at_ →
    windowStart settings run.now < intOf s.at_

variable {receipts : List (String × String)} {v : Visit}

theorem Core.Weighing.put_nothing (h : core.Weighing coding receipts settings run)
    {object : String} {size : ℕ} (hputs : Puts settings run v core core' object size)
    (hnothing : v.put.created = false) : core'.Weighing coding receipts settings run := by
  have hlive := (h.live.put hputs).1
  obtain ⟨-, -, rfl⟩ := hputs
  refine ⟨hlive, ⟨h.weighed.covered.put_nothing hnothing, h.weighed.within.put_nothing hnothing⟩,
    h.window, ?_⟩
  intro s hs hcreated
  rcases List.mem_append.mp hs with hs | hs
  · exact h.fraction s hs hcreated
  · rw [List.mem_singleton.mp hs] at hcreated
    exact absurd (hcreated.symm.trans hnothing) Bool.noConfusion

theorem Core.Weighing.put_line (h : core.Weighing coding receipts settings run)
    {line : LedgerLine} (hputs : Puts settings run v core core' line.object line.bytes)
    (hat : line.at_ = intOf run.now) :
    Weighed settings (core.ledger.set line.object line.entry) core'.sent := by
  obtain ⟨hnew, hfits, rfl⟩ := hputs
  rw [h.window] at hfits
  exact ⟨h.weighed.covered.put (s := ⟨line.object, core.text, line.bytes, run.now, v.put.created⟩)
      hnew rfl hat,
    h.weighed.within.put (s := ⟨line.object, core.text, line.bytes, run.now, v.put.created⟩)
      h.weighed.covered h.fraction hfits⟩

theorem Core.Weighing.fraction_put (h : core.Weighing coding receipts settings run)
    (hvalid : settings.Valid) {object : String} {size : ℕ}
    (hputs : Puts settings run v core core' object size) :
    ∀ s ∈ core'.sent, s.created = true → windowStart settings run.now < s.at_ →
      windowStart settings run.now < intOf s.at_ := by
  obtain ⟨-, -, rfl⟩ := hputs
  intro s hs hcreated
  rcases List.mem_append.mp hs with hs | hs
  · exact h.fraction s hs hcreated
  · rw [List.mem_singleton.mp hs]
    intro _
    exact windowStart_lt_intOf hvalid run.now

theorem Core.Weighing.continues (h : core.Weighing coding receipts settings run)
    (hclosed : Closed coding) (hvalid : settings.Valid)
    (hanswered : ∀ error, v.put ≠ .raised error true)
    (hgoes : Continues coding settings run v core core') :
    core'.Weighing coding receipts settings run := by
  have hlive := h.live.continues hclosed hgoes
  cases hgoes with
  | quiet => exact h
  | @failed core' object size error created hputs hput =>
      refine h.put_nothing hputs ?_
      rw [hput]
      cases created with
      | true => exact absurd hput (hanswered error)
      | false => rfl
  | @recorded core' line created hputs _ _ hat =>
      have hweighed := h.put_line hputs hat
      have hfraction := h.fraction_put hvalid hputs
      obtain ⟨hnew, -, rfl⟩ := hputs
      refine ⟨hlive, hweighed, ?_, hfraction⟩
      show core.windowBytes + line.bytes =
        Offsite.windowBytes (core.ledger.set line.object line.entry) (windowStart settings run.now)
      rw [windowBytes_set hnew, h.window]
      · rfl
      · show windowStart settings run.now < line.at_
        rw [hat]
        exact windowStart_lt_intOf hvalid run.now

theorem Core.Weighing.stops (h : core.Weighing coding receipts settings run)
    (hanswered : ∀ error, v.put ≠ .raised error true)
    (hwritten : v.put = .returned true → ∀ left ∈ v.cut, Whole left)
    (hstops : Stops coding settings run v core core') :
    Weighed settings (Ledger.ofLog core'.appended) core'.sent := by
  cases hstops with
  | quiet =>
      rw [← h.live.ledger]
      exact h.weighed
  | @failed core' object size error created hputs hput =>
      have hweighing : core'.Weighing coding receipts settings run := by
        refine h.put_nothing hputs ?_
        rw [hput]
        cases created with
        | true => exact absurd hput (hanswered error)
        | false => rfl
      rw [← hweighing.live.ledger]
      exact hweighing.weighed
  | @torn core' line created left hputs hput hcut hstate hat =>
      show Weighed settings (Ledger.ofLog (core'.appended ++ if Whole left then [line] else []))
        core'.sent
      split
      · have hweighed := h.put_line hputs hat
        obtain ⟨hnew, -, rfl⟩ := hputs
        show Weighed settings (Ledger.ofLog (core.appended ++ [line])) _
        rw [Ledger.ofLog_snoc, ← h.live.ledger, Ledger.readLine_sent hnew hstate]
        exact hweighed
      · rename_i hnot
        have hnothing : v.put.created = false := by
          rw [hput]
          cases created with
          | true => exact absurd (hwritten hput left hcut) hnot
          | false => rfl
        have hweighing := h.put_nothing hputs hnothing
        rw [List.append_nil, ← hweighing.live.ledger]
        exact hweighing.weighed

end Run

/-! ## Histories -/

variable {coding : Coding LedgerLine} {sha256 : Bytes → String}

structure World.Weighed (coding : Coding LedgerLine) (settings : Settings) (w : World) : Prop where
  kept : w.Kept coding
  weighed : Offsite.Weighed settings (Ledger.ofLog w.appended) w.sent

theorem start_weighed (hclosed : Closed coding) (hvalid : settings.Valid) :
    World.start.Weighed coding settings := by
  refine ⟨start_kept hclosed ⟨"", "", "", 0, "", 0⟩, ⟨?_, List.nodup_nil⟩, ?_⟩
  · intro s hs
    cases hs
  · intro time
    exact zero_le_one.trans hvalid.budget

theorem backup_weighed {w : World} (h : w.Weighed coding settings) (hclosed : Closed coding)
    (hvalid : settings.Valid) {run : BackupRun} (haccounted : Accounted settings w run) :
    (w.backup coding sha256 settings run).Weighed coding settings := by
  have hread := h.kept.readLedger
  have hstart : (startCore coding settings run w.text w.appended w.sent).Weighing coding w.receipts
      settings run := by
    refine ⟨⟨h.kept, hread⟩, ?_, rfl, haccounted.fraction⟩
    show Offsite.Weighed settings (readLedger coding w.text) w.sent
    rw [hread]
    exact h.weighed
  have hrun : Offsite.Weighed settings
      (Ledger.ofLog (w.backup coding sha256 settings run).appended)
      (w.backup coding sha256 settings run).sent :=
    runBackup_inv (P := Core.Weighing coding w.receipts settings run)
    (Q := fun core => Offsite.Weighed settings (Ledger.ofLog core.appended) core.sent)
    (fun item hitem _ _ hcore hgoes =>
      hcore.continues hclosed hvalid (haccounted.answered item hitem) hgoes)
    (fun item hitem _ _ hcore hstops =>
      hcore.stops (haccounted.answered item hitem) (haccounted.written item hitem) hstops)
    (fun core hcore => by
      rw [← hcore.live.ledger]
      exact hcore.weighed) hstart
  exact ⟨backup_kept h.kept hclosed settings run, hrun⟩

/-- In a history of runs in which every object that a `PUT` creates gets its line, and none is
inside the window by a fraction of a second only, the objects of every window fit the budget. -/
theorem history_withinBudget (hclosed : Closed coding) (hvalid : settings.Valid)
    {runs : List BackupRun}
    (haccounted : Run.Each (World.backup coding sha256 settings) (Accounted settings) World.start
      runs) :
    Run.Always (World.backup coding sha256 settings) (fun w => WithinBudget settings w.sent)
      World.start runs :=
  Run.Always.mono (fun _ h => h.weighed.within)
    (Run.Each.always (J := World.Weighed coding settings)
      (fun _ _ h hrun => backup_weighed h hclosed hvalid hrun) (start_weighed hclosed hvalid)
      haccounted)

/-! ## A response that is lost -/

namespace Sample

theorem limits_valid : limits.Valid := ⟨le_rfl, le_rfl, le_rfl⟩

theorem accounted : Run.Each (World.backup Coding.strokes (fun _ => "sha") limits)
    (Accounted limits) World.start [backupRun [⟨partition "a", .returned true, none⟩]] := by
  refine ⟨⟨?_, ?_, ?_⟩, trivial⟩
  · intro item hitem
    rw [List.mem_singleton.mp hitem]
    exact fun _ => PutOutcome.noConfusion
  · intro item hitem _ left hleft
    rw [List.mem_singleton.mp hitem] at hleft
    cases hleft
  · intro s hs
    cases hs

def lost : BackupRun :=
  backupRun [⟨partition "a", .raised (.offsiteError "put_failed:TimeoutError") true, none⟩,
    ⟨partition "b", .returned true, none⟩]

theorem createdBytes_lost :
    createdBytes limits (World.backup Coding.strokes (fun _ => "sha") limits World.start
      lost).sent 0 = 2 := by
  decide +kernel

end Sample

theorem history_withinBudget_sample :
    Run.Always (World.backup Coding.strokes (fun _ => "sha") Sample.limits)
      (fun w => WithinBudget Sample.limits w.sent) World.start
      [Sample.backupRun [⟨Sample.partition "a", .returned true, none⟩]] :=
  history_withinBudget strokes_closed Sample.limits_valid Sample.accounted

/-- An object whose response was lost is not weighed: a budget of one byte lets two through. -/
theorem lostResponse_exceeds :
    ¬ ∀ (coding : Coding LedgerLine) (sha256 : Bytes → String) (settings : Settings)
      (runs : List BackupRun), Closed coding → settings.Valid →
      Run.Always (World.backup coding sha256 settings) (fun w => WithinBudget settings w.sent)
        World.start runs := by
  intro hclaim
  have halways := hclaim Coding.strokes (fun _ => "sha") Sample.limits [Sample.lost]
    strokes_closed Sample.limits_valid
  have hbudget := halways.exec 0
  rw [Run.exec_cons, Run.exec_nil, Sample.createdBytes_lost] at hbudget
  exact absurd hbudget (by decide)

end Offsite

end TradePlatform
