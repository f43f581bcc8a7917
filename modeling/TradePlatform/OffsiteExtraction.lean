/-
# `TradePlatform.OffsiteExtraction` — one object's files, and nothing else

`partition_tar_bytes` and `extract_partition` of `capture_offsite.py`.  A body holds members with a
name, a flag and bytes; what `tarfile` does between bytes and members is a parameter that decodes
what it encodes.  Every check stands before the first write: a body is either refused with the disk
as it was, or its five files are written under the path the name states (`Restored`).  What the
backup writes is let through.
-/
import TradePlatform.OffsiteNames

namespace TradePlatform

namespace Offsite

open JsonText (Text)

def partitionFiles : List String :=
  ["session.json", "lifecycle.ndjson", "MANIFEST.json", "records.ndjson.gz", "COMPACTION.json"]

/-! ## Tar bodies -/

structure Member where
  name : String
  isreg : Bool
  data : Bytes
deriving DecidableEq

/-- `tarfile`: a member is added when its header can be written (a name may be too long for the
format), and a body of such members is read back as them. -/
structure Tarfile (Body : Type) where
  header : Member → Except Exn Unit
  encode : List Member → Body
  decode : Body → Except Exn (List Member)
  decode_encode : ∀ members : List Member, (∀ member ∈ members, header member = .ok ()) →
    decode (encode members) = .ok members

/-- An entry of a directory; `file` is none for what is no regular file. -/
structure Entry where
  name : String
  file : Option Bytes
deriving DecidableEq

namespace Entry

def isTmp (entry : Entry) : Bool := ".tmp".toList.isSuffixOf entry.name.toList

end Entry

def memberName (relative base : String) : String := relative ++ "/" ++ base

section Tar

variable {Body : Type} (tar : Tarfile Body)

def addFile (member : Member) : Except Exn (List Member) := do
  tar.header member
  .ok [member]

def addEntry (relative : String) (entry : Entry) : Except Exn (List Member) :=
  match entry.file with
  | none => .ok []
  | some data =>
      if entry.isTmp then .ok []
      else if entry.name ∉ partitionFiles then
        .error (.offsiteError ("unexpected_partition_file:" ++ entry.name))
      else addFile tar ⟨memberName relative entry.name, true, data⟩

def partitionTarBytes (directory : List Entry) (relative : String) : Except Exn Body := do
  let added ← (sortBy Entry.name directory).mapM (addEntry tar relative)
  .ok (tar.encode added.flatten)

end Tar

/-- `archive.extractfile`: what is no regular file has no bytes. -/
def Member.extractfile (member : Member) : Option Bytes :=
  if member.isreg then some member.data else none

def Member.base (member : Member) : String :=
  String.ofList (TextPartition.base '/' member.name.toList)

def takeMember (relative : String) (files : Dict String Bytes) (member : Member) :
    Except Exn (Dict String Bytes) :=
  if member.isreg = false ∨ TextPartition.folder '/' member.name.toList ≠ relative.toList ∨
      member.base ∉ partitionFiles ∨ (Dict.get? files member.base).isSome then
    .error (.offsiteError "tar_member_outside_its_partition")
  else
    match member.extractfile with
    | none => .error (.offsiteError "tar_member_unreadable")
    | some data => .ok (Dict.set files member.base data)

def HoldsPartition (files : Dict String Bytes) : Prop :=
  (∀ base ∈ partitionFiles, base ∈ files.rows.map Prod.fst) ∧
    ∀ base ∈ files.rows.map Prod.fst, base ∈ partitionFiles

instance (files : Dict String Bytes) : Decidable (HoldsPartition files) :=
  inferInstanceAs (Decidable (_ ∧ _))

def readMembers (relative : String) (members : List Member) : Except Exn (Dict String Bytes) := do
  let files ← members.foldlM (takeMember relative) Dict.empty
  if HoldsPartition files then .ok files
  else .error (.offsiteError "tar_does_not_hold_exactly_one_compacted_partition")

/-! ## A disk -/

abbrev Path := List Text

inductive Node where
  | file (data : Bytes)
  | directory
deriving DecidableEq

namespace Node

def isFile : Node → Bool
  | file _ => true
  | directory => false

end Node

/-- A disk by real places.  `resolve` says where a path leads once its links are followed, and
`dangling` whether a link on its way leads nowhere; `written` lists the files that were written. -/
structure Disk where
  node : Path → Option Node
  resolve : Path → Except Exn Path
  dangling : Path → Bool
  written : List Path

namespace Disk

/-- `path.mkdir(parents=True)`, of a path that leads to `place`, where nothing is yet. -/
def mkdir (disk : Disk) (path place : Path) : Except Exn Disk :=
  if disk.dangling path then .error (.osError "FileExistsError")
  else if place.inits.any fun p => (disk.node p).any Node.isFile then
    .error (.osError "NotADirectoryError")
  else
    .ok { disk with node := fun p =>
      if p <+: place ∧ disk.node p = none then some .directory else disk.node p }

/-- `path.write_bytes(data)`, of a path that leads to `place`. -/
def writeBytes (disk : Disk) (place : Path) (data : Bytes) : Disk :=
  { disk with
    node := fun p => if p = place then some (.file data) else disk.node p
    written := disk.written ++ [place] }

end Disk

/-! ## Extraction -/

/-- What the checks of `extract_partition` arrive at: its target, the real place of it, and the
files. -/
structure Extraction where
  target : Path
  place : Path
  files : Dict String Bytes

def targetOf (root : Path) (label relative : String) : Path :=
  root ++ label.toList :: relative.toList.splitOn '/'

section Extract

variable {Body : Type} (tar : Tarfile Body) (disk : Disk)

def checkExtraction (body : Body) (name : String) (destination : Path) :
    Except Exn Extraction := do
  let (label, relative) ← parseObjectName name
  let root ← disk.resolve destination
  let place ← disk.resolve (targetOf root label relative)
  if ¬ root <+: place then .error (.offsiteError "restore_target_escapes_the_destination")
  else if (disk.node place).isSome then
    .error (.offsiteError "restore_target_already_exists")
  else
    let members ← tar.decode body
    let files ← readMembers relative members
    .ok ⟨targetOf root label relative, place, files⟩

def writeFiles (disk : Disk) (place : Path) (files : List (String × Bytes)) : Disk :=
  files.foldl (fun disk item => disk.writeBytes (place ++ [item.1.toList]) item.2) disk

/-- `extract_partition`: how it ends, and the disk it leaves. -/
def extractPartition (body : Body) (name : String) (destination : Path) :
    Except Exn Path × Disk :=
  match checkExtraction tar disk body name destination with
  | .error error => (.error error, disk)
  | .ok found =>
      match disk.mkdir found.target found.place with
      | .error error => (.error error, disk)
      | .ok made =>
          (.ok found.target, writeFiles made found.place (sortBy Prod.fst found.files.rows))

end Extract

/-! ## Members of a partition -/

def partitionMember (relative : String) (bytes : String → Bytes) (base : String) : Member :=
  ⟨memberName relative base, true, bytes base⟩

theorem slash_not_mem_base : ∀ base ∈ partitionFiles, '/' ∉ base.toList := by decide

theorem partitionFiles_nodup : partitionFiles.Nodup := by decide

theorem memberName_toList (relative base : String) :
    (memberName relative base).toList = relative.toList ++ '/' :: base.toList := by
  simp [memberName]

variable {relative : String} {files files' : Dict String Bytes} {member : Member}
  {members : List Member}

def Proper (relative : String) (member : Member) : Prop :=
  member.base ∈ partitionFiles ∧
    member = ⟨memberName relative member.base, true, member.data⟩

theorem proper_partitionMember (bytes : String → Bytes) {base : String}
    (h : base ∈ partitionFiles) :
    (partitionMember relative bytes base).base = base ∧
      Proper relative (partitionMember relative bytes base) := by
  have hbase : (partitionMember relative bytes base).base = base := by
    rw [Member.base, partitionMember, memberName_toList,
      TextPartition.base_append (slash_not_mem_base base h), String.ofList_toList]
  refine ⟨hbase, ?_, ?_⟩
  · rwa [hbase]
  · rw [hbase]
    rfl

theorem takeMember_eq_ok (hrelative : relative.toList ≠ []) :
    takeMember relative files member = .ok files' ↔
      Proper relative member ∧ Dict.get? files member.base = none ∧
        files' = Dict.set files member.base member.data := by
  constructor
  · intro h
    obtain ⟨hchecks, h⟩ := Except.of_ite_error h
    simp only [not_or, Bool.not_eq_false, not_not, Option.not_isSome_iff_eq_none] at hchecks
    obtain ⟨hreg, hfolder, hbase, hnew⟩ := hchecks
    rw [Member.extractfile, if_pos hreg] at h
    cases h
    refine ⟨⟨hbase, ?_⟩, hnew, rfl⟩
    have hname : member.name = memberName relative member.base := by
      apply String.toList_inj.mp
      rw [memberName_toList, ← hfolder, Member.base, String.toList_ofList]
      exact TextPartition.eq_folder_base (hfolder ▸ hrelative)
    rw [← hname, ← hreg]
  · rintro ⟨⟨hbase, hmember⟩, hnew, rfl⟩
    have hreg : member.isreg = true := by rw [hmember]
    have hfolder : TextPartition.folder '/' member.name.toList = relative.toList := by
      rw [hmember, memberName_toList, TextPartition.folder_append (slash_not_mem_base _ hbase)]
    rw [takeMember, if_neg (by simp [hreg, hfolder, hbase, hnew]), Member.extractfile, if_pos hreg]

theorem foldlM_takeMember (hrelative : relative.toList ≠ []) :
    members.foldlM (takeMember relative) files = .ok files' ↔
      (∀ member ∈ members, Proper relative member) ∧
        files'.rows = files.rows ++ members.map fun member => (member.base, member.data) := by
  induction members generalizing files with
  | nil =>
      constructor
      · intro h
        cases h
        simp
      · rintro ⟨-, hrows⟩
        obtain ⟨rows, hnodup⟩ := files
        obtain ⟨rows', hnodup'⟩ := files'
        obtain rfl : rows' = rows := by simpa using hrows
        rfl
  | cons member members ih =>
      rw [List.foldlM_cons, Except.bind_eq_ok, List.forall_mem_cons, List.map_cons]
      constructor
      · rintro ⟨next, hnext, h⟩
        obtain ⟨hproper, hnew, rfl⟩ := (takeMember_eq_ok hrelative).mp hnext
        obtain ⟨hrest, hrows⟩ := ih.mp h
        refine ⟨⟨hproper, hrest⟩, ?_⟩
        rw [hrows, Dict.rows_set_of_none hnew, List.append_assoc]
        rfl
      · rintro ⟨⟨hproper, hrest⟩, hrows⟩
        have hnodup := files'.nodup
        have hnew : Dict.get? files member.base = none := by
          rw [hrows] at hnodup
          refine Dict.get?_of_not_mem fun hmem => ?_
          rw [List.map_append, List.map_cons] at hnodup
          exact List.disjoint_of_nodup_append hnodup hmem List.mem_cons_self
        refine ⟨_, (takeMember_eq_ok hrelative).mpr ⟨hproper, hnew, rfl⟩, ih.mpr ⟨hrest, ?_⟩⟩
        rw [hrows, Dict.rows_set_of_none hnew, List.append_assoc]
        rfl

def partitionItems (bytes : String → Bytes) : List (String × Bytes) :=
  partitionFiles.map fun base => (base, bytes base)

theorem readMembers_ok (hrelative : relative.toList ≠ [])
    (h : readMembers relative members = .ok files) :
    ∃ bytes, members.Perm (partitionFiles.map (partitionMember relative bytes)) ∧
      files.rows.Perm (partitionItems bytes) := by
  obtain ⟨found, hfold, h⟩ := Except.bind_eq_ok.mp h
  obtain ⟨hproper, hrows⟩ := (foldlM_takeMember hrelative).mp hfold
  have hholds : HoldsPartition found := by
    by_contra hnot
    rw [if_neg hnot] at h
    cases h
  rw [if_pos hholds] at h
  cases h
  have hbases : members.map Member.base = files.rows.map Prod.fst := by
    rw [hrows, List.map_append, List.map_map]
    rfl
  have hperm : (members.map Member.base).Perm partitionFiles := by
    rw [hbases]
    exact (List.perm_ext_iff_of_nodup files.nodup partitionFiles_nodup).mpr
      fun base => ⟨hholds.2 base, hholds.1 base⟩
  let bytes : String → Bytes := fun base => (Dict.get? files base).getD []
  have hbytes : ∀ member ∈ members, bytes member.base = member.data := by
    intro member hmember
    have hrow : (member.base, member.data) ∈ files.rows := by
      rw [hrows]
      exact List.mem_append_right _ (List.mem_map_of_mem hmember)
    show (Dict.get? files member.base).getD [] = member.data
    rw [Dict.mem_rows.mp hrow, Option.getD_some]
  have hmembers : (members.map Member.base).map (partitionMember relative bytes) = members := by
    rw [List.map_map, List.map_congr_left (g := id), List.map_id]
    intro member hmember
    rw [Function.comp_apply, partitionMember, hbytes member hmember]
    exact (hproper member hmember).2.symm
  have hitems : (members.map Member.base).map (fun base => (base, bytes base)) = files.rows := by
    rw [hrows, List.map_map]
    show _ = [] ++ _
    rw [List.nil_append]
    exact List.map_congr_left fun member hmember => by
      rw [Function.comp_apply, hbytes member hmember]
  refine ⟨bytes, ?_, ?_⟩
  · rw [← hmembers]
    exact hperm.map _
  · rw [← hitems]
    exact hperm.map _

theorem readMembers_of_perm (hrelative : relative.toList ≠ []) {bytes : String → Bytes}
    (h : members.Perm (partitionFiles.map (partitionMember relative bytes))) :
    ∃ files, readMembers relative members = .ok files ∧
      files.rows.Perm (partitionItems bytes) := by
  have hitem : ∀ base ∈ partitionFiles,
      ((partitionMember relative bytes base).base, (partitionMember relative bytes base).data) =
        (base, bytes base) :=
    fun base hbase => Prod.ext (proper_partitionMember bytes hbase).1 rfl
  have hperm : (members.map fun member => (member.base, member.data)).Perm
      (partitionItems bytes) := by
    refine (h.map _).trans (.of_eq ?_)
    rw [List.map_map]
    exact List.map_congr_left hitem
  have hkeys : ((members.map fun member => (member.base, member.data)).map Prod.fst).Perm
      partitionFiles := by
    refine (hperm.map _).trans (.of_eq ?_)
    rw [partitionItems, List.map_map]
    exact List.map_id _
  have hproper : ∀ member ∈ members, Proper relative member := by
    intro member hmember
    obtain ⟨base, hbase, rfl⟩ := List.mem_map.mp (h.mem_iff.mp hmember)
    exact (proper_partitionMember bytes hbase).2
  let found : Dict String Bytes := ⟨_, hkeys.nodup_iff.mpr partitionFiles_nodup⟩
  have hfold : members.foldlM (takeMember relative) Dict.empty = .ok found :=
    (foldlM_takeMember hrelative).mpr ⟨hproper, rfl⟩
  have hholds : HoldsPartition found :=
    ⟨fun base hbase => hkeys.mem_iff.mpr hbase, fun base hbase => hkeys.mem_iff.mp hbase⟩
  refine ⟨found, ?_, hperm⟩
  rw [readMembers, hfold, Except.ok_bind, if_pos hholds]

theorem layout_relative_ne (place : Layout) : place.relative.toList ≠ [] := by
  intro h
  have hsplit := congrArg List.length place.splitOn_relative
  rw [h] at hsplit
  simp [Layout.parts, Layout.values, layoutKeys] at hsplit

/-! ## What the backup writes -/

section Backup

variable {Body : Type} {tar : Tarfile Body}

def Entry.taken (entry : Entry) : Bool := entry.file.isSome && !entry.isTmp

def HoldsFiles (directory : List Entry) (bytes : String → Bytes) : Prop :=
  (directory.filter Entry.taken).Perm
    (partitionFiles.map fun base => ⟨base, some (bytes base)⟩)

theorem partitionTarBytes_ok {directory : List Entry} {bytes : String → Bytes}
    (hdirectory : HoldsFiles directory bytes)
    (hheader : ∀ base ∈ partitionFiles, tar.header (partitionMember relative bytes base) = .ok ()) :
    ∃ body members, partitionTarBytes tar directory relative = .ok body ∧
      tar.decode body = .ok members ∧
      members.Perm (partitionFiles.map (partitionMember relative bytes)) := by
  let sorted := sortBy Entry.name directory
  let piece : Entry → List Member := fun entry =>
    if entry.taken then [partitionMember relative bytes entry.name] else []
  have hperm : (sorted.filter Entry.taken).Perm
      (partitionFiles.map fun base => ⟨base, some (bytes base)⟩) :=
    ((sortBy_perm Entry.name directory).filter _).trans hdirectory
  have hentry : ∀ entry ∈ sorted, addEntry tar relative entry = .ok (piece entry) := by
    intro entry hmem
    obtain ⟨name, file⟩ := entry
    cases file with
    | none => rfl
    | some data =>
        by_cases htmp : Entry.isTmp ⟨name, some data⟩ = true
        · simp [addEntry, piece, Entry.taken, htmp]
        · rw [Bool.not_eq_true] at htmp
          have htaken : Entry.taken ⟨name, some data⟩ = true := by simp [Entry.taken, htmp]
          obtain ⟨base, hbase, heq⟩ := List.mem_map.mp
            (hperm.mem_iff.mp (List.mem_filter.mpr ⟨hmem, htaken⟩))
          cases heq
          have hadd := hheader name hbase
          simp only [partitionMember] at hadd
          simp [addEntry, piece, addFile, htmp, htaken, hbase, hadd, partitionMember]
  have hflatten : ∀ l : List Entry, (l.map piece).flatten =
      (l.filter Entry.taken).map fun entry => partitionMember relative bytes entry.name := by
    intro l
    induction l with
    | nil => rfl
    | cons entry rest ih => by_cases htaken : entry.taken = true <;> simp [piece, htaken, ih]
  have hmembers : ((sorted.map piece).flatten).Perm
      (partitionFiles.map (partitionMember relative bytes)) := by
    rw [hflatten]
    refine (hperm.map _).trans (.of_eq ?_)
    rw [List.map_map]
    rfl
  have hheaders : ∀ member ∈ (sorted.map piece).flatten, tar.header member = .ok () := by
    intro member hmember
    obtain ⟨base, hbase, rfl⟩ := List.mem_map.mp (hmembers.mem_iff.mp hmember)
    exact hheader base hbase
  refine ⟨_, _, ?_, tar.decode_encode _ hheaders, hmembers⟩
  rw [partitionTarBytes, Except.mapM_eq_ok hentry]
  rfl

end Backup

/-! ## What the writes leave -/

/-- The files of a partition under `place`, its folders, and everything else as it was. -/
structure Restored (disk disk' : Disk) (place : Path) (bytes : String → Bytes) : Prop where
  written : disk'.written =
    disk.written ++ (sortBy id partitionFiles).map fun base => place ++ [base.toList]
  file : ∀ base ∈ partitionFiles, disk'.node (place ++ [base.toList]) = some (.file (bytes base))
  folders : ∀ p, p <+: place → disk'.node p = some .directory
  others : ∀ p, ¬ p <+: place → (∀ base ∈ partitionFiles, p ≠ place ++ [base.toList]) →
    disk'.node p = disk.node p

variable {disk made : Disk} {path place : Path} {items : List (String × Bytes)}

theorem mkdir_ok (h : disk.mkdir path place = .ok made) :
    made.written = disk.written ∧ (∀ p, p <+: place → made.node p = some .directory) ∧
      ∀ p, ¬ p <+: place → made.node p = disk.node p := by
  obtain ⟨-, h⟩ := Except.of_ite_error h
  obtain ⟨hfile, h⟩ := Except.of_ite_error h
  cases h
  refine ⟨rfl, fun p hp => ?_, fun p hp => ?_⟩
  · rw [List.any_eq_true, not_exists] at hfile
    have hnot := fun h => hfile p ⟨(List.mem_inits p place).mpr hp, h⟩
    cases hnode : disk.node p with
    | none => simp [hp, hnode]
    | some node =>
        cases node with
        | directory => simp [hnode]
        | file data => exact absurd (by simp [hnode, Node.isFile]) hnot
  · simp [hp]

theorem mkdir_of_free (hlink : disk.dangling path = false)
    (hfile : ∀ p, p <+: place → (disk.node p).any Node.isFile = false) :
    ∃ made, disk.mkdir path place = .ok made := by
  have hany : ¬ (place.inits.any fun p => (disk.node p).any Node.isFile) = true := by
    rw [List.any_eq_true]
    rintro ⟨p, hp, h⟩
    rw [hfile p ((List.mem_inits p place).mp hp)] at h
    cases h
  rw [Disk.mkdir, if_neg (by simp [hlink]), if_neg hany]
  exact ⟨_, rfl⟩

theorem written_writeFiles : (writeFiles disk place items).written =
    disk.written ++ items.map fun item => place ++ [item.1.toList] := by
  induction items generalizing disk with
  | nil => simp [writeFiles]
  | cons item items ih =>
      rw [writeFiles, List.foldl_cons, ← writeFiles, ih]
      simp [Disk.writeBytes]

theorem node_writeFiles_of_ne {p : Path} (h : ∀ item ∈ items, p ≠ place ++ [item.1.toList]) :
    (writeFiles disk place items).node p = disk.node p := by
  induction items generalizing disk with
  | nil => rfl
  | cons item items ih =>
      rw [List.forall_mem_cons] at h
      rw [writeFiles, List.foldl_cons, ← writeFiles, ih h.2]
      exact if_neg h.1

theorem node_writeFiles {base : String} {data : Bytes} (hnodup : (items.map Prod.fst).Nodup)
    (h : (base, data) ∈ items) :
    (writeFiles disk place items).node (place ++ [base.toList]) = some (.file data) := by
  induction items generalizing disk with
  | nil => cases h
  | cons item items ih =>
      rw [List.map_cons, List.nodup_cons] at hnodup
      rw [writeFiles, List.foldl_cons, ← writeFiles]
      rcases List.mem_cons.mp h with rfl | h
      · rw [node_writeFiles_of_ne]
        · exact if_pos rfl
        · intro other hother heq
          have hbase : base = other.1 := String.toList_inj.mp (by simpa using heq)
          exact hnodup.1 (List.mem_map.mpr ⟨other, hother, hbase.symm⟩)
      · exact ih hnodup.2 h

theorem sortBy_items {bytes : String → Bytes} (h : files.rows.Perm (partitionItems bytes)) :
    sortBy Prod.fst files.rows = (sortBy id partitionFiles).map fun base => (base, bytes base) := by
  have htells : KeyTells Prod.fst (partitionItems bytes) := by
    intro a ha b hb hab
    obtain ⟨base, -, rfl⟩ := List.mem_map.mp ha
    obtain ⟨base', -, rfl⟩ := List.mem_map.mp hb
    obtain rfl : base = base' := hab
    rfl
  rw [← sortBy_congr htells h.symm, partitionItems]
  exact (map_sortBy (fun base => (base, bytes base)) (fun _ => rfl) partitionFiles).symm

theorem restored_of_mkdir {bytes : String → Bytes} (hmkdir : disk.mkdir path place = .ok made)
    (h : files.rows.Perm (partitionItems bytes)) :
    Restored disk (writeFiles made place (sortBy Prod.fst files.rows)) place bytes := by
  obtain ⟨hwritten, hfolders, hothers⟩ := mkdir_ok hmkdir
  have hperm := (sortBy_perm Prod.fst files.rows).trans h
  have hitem : ∀ {p : Path}, (∀ base ∈ partitionFiles, p ≠ place ++ [base.toList]) →
      ∀ item ∈ sortBy Prod.fst files.rows, p ≠ place ++ [item.1.toList] := by
    intro p hp item hmem
    obtain ⟨base, hbase, rfl⟩ := List.mem_map.mp (hperm.mem_iff.mp hmem)
    exact hp base hbase
  refine ⟨?_, fun base hbase => ?_, fun p hp => ?_, fun p hp hne => ?_⟩
  · rw [written_writeFiles, hwritten, sortBy_items h, List.map_map]
    rfl
  · refine node_writeFiles ?_ (hperm.mem_iff.mpr (List.mem_map_of_mem hbase))
    exact (((sortBy_perm Prod.fst files.rows).map _).nodup_iff).mpr files.nodup
  · have hne : ∀ base ∈ partitionFiles, p ≠ place ++ [base.toList] := by
      rintro base - rfl
      have hlength := hp.length_le
      simp at hlength
    rw [node_writeFiles_of_ne (hitem hne), hfolders p hp]
  · rw [node_writeFiles_of_ne (hitem hne), hothers p hp]

/-! ## Extraction, whole -/

section Extract

variable {Body : Type} (tar : Tarfile Body)

/-- The destination takes the partition: its path stays inside, nothing is there yet, and neither a
file nor a link that leads nowhere stands in its way. -/
structure Takes (disk : Disk) (destination : Path) (label relative : String)
    (root place : Path) : Prop where
  resolved : disk.resolve destination = .ok root
  leads : disk.resolve (targetOf root label relative) = .ok place
  inside : root <+: place
  free : disk.node place = none
  folders : ∀ p, p <+: place → (disk.node p).any Node.isFile = false
  links : disk.dangling (targetOf root label relative) = false

theorem checkExtraction_ok {disk : Disk} {body : Body} {name : String} {destination : Path}
    {found : Extraction} (h : checkExtraction tar disk body name destination = .ok found) :
    ∃ (label relative : String) (root : Path) (members : List Member),
      parseObjectName name = .ok (label, relative) ∧ disk.resolve destination = .ok root ∧
        disk.resolve (targetOf root label relative) = .ok found.place ∧ root <+: found.place ∧
        found.target = targetOf root label relative ∧ tar.decode body = .ok members ∧
        readMembers relative members = .ok found.files := by
  obtain ⟨⟨label, relative⟩, hparse, h⟩ := Except.bind_eq_ok.mp h
  obtain ⟨root, hroot, h⟩ := Except.bind_eq_ok.mp h
  obtain ⟨place, hplace, h⟩ := Except.bind_eq_ok.mp h
  obtain ⟨hinside, h⟩ := Except.of_ite_error h
  obtain ⟨-, h⟩ := Except.of_ite_error h
  obtain ⟨members, hdecode, h⟩ := Except.bind_eq_ok.mp h
  obtain ⟨files, hfiles, h⟩ := Except.bind_eq_ok.mp h
  cases h
  exact ⟨label, relative, root, members, hparse, hroot, hplace, not_not.mp hinside, rfl, hdecode,
    hfiles⟩

/-- What a completed extraction did: the name states a canonical path under an approved label, the
body holds the files of one partition, each in its only member, and these were written there. -/
structure Extracts (disk : Disk) (body : Body) (name : String) (destination : Path)
    (label : String) (layout : Layout) (root place : Path) (bytes : String → Bytes) : Prop where
  approved : label ∈ approvedRootLabelsV1
  named : objectName label layout.relative = name
  resolved : disk.resolve destination = .ok root
  leads : disk.resolve (targetOf root label layout.relative) = .ok place
  inside : root <+: place
  members : ∃ members, tar.decode body = .ok members ∧
    members.Perm (partitionFiles.map (partitionMember layout.relative bytes))
  returned : (extractPartition tar disk body name destination).1 =
    .ok (targetOf root label layout.relative)
  restored : Restored disk (extractPartition tar disk body name destination).2 place bytes

theorem extracts_or_unchanged (disk : Disk) (body : Body) (name : String) (destination : Path) :
    (∃ error, extractPartition tar disk body name destination = (.error error, disk)) ∨
      ∃ label layout root place bytes,
        Extracts tar disk body name destination label layout root place bytes := by
  cases hcheck : checkExtraction tar disk body name destination with
  | error error => exact .inl ⟨error, by rw [extractPartition, hcheck]⟩
  | ok found =>
      cases hmkdir : disk.mkdir found.target found.place with
      | error error => exact .inl ⟨error, by rw [extractPartition, hcheck]; simp [hmkdir]⟩
      | ok made =>
          obtain ⟨label, relative, root, members, hparse, hroot, hplace, hinside, htarget, hdecode,
            hfiles⟩ := checkExtraction_ok tar hcheck
          obtain ⟨hlabel, ⟨layout, rfl⟩, rfl⟩ := parseObjectName_eq_ok.mp hparse
          obtain ⟨bytes, hmembers, hitems⟩ := readMembers_ok (layout_relative_ne layout) hfiles
          have hextract : extractPartition tar disk body (objectName label layout.relative)
              destination = (.ok found.target,
                writeFiles made found.place (sortBy Prod.fst found.files.rows)) := by
            rw [extractPartition, hcheck]
            simp [hmkdir]
          refine .inr ⟨label, layout, root, found.place, bytes, hlabel, rfl, hroot, hplace,
            hinside, ⟨members, hdecode, hmembers⟩, ?_, ?_⟩
          · rw [hextract, htarget]
          · rw [hextract]
            exact restored_of_mkdir hmkdir hitems

theorem extractPartition_of_members {disk : Disk} {body : Body} {label : String} {layout : Layout}
    {destination root place : Path} {members : List Member} {bytes : String → Bytes}
    (hlabel : label ∈ approvedRootLabelsV1) (hdecode : tar.decode body = .ok members)
    (hmembers : members.Perm (partitionFiles.map (partitionMember layout.relative bytes)))
    (htakes : Takes disk destination label layout.relative root place) :
    (extractPartition tar disk body (objectName label layout.relative) destination).1 =
        .ok (targetOf root label layout.relative) ∧
      Restored disk
        (extractPartition tar disk body (objectName label layout.relative) destination).2
        place bytes := by
  obtain ⟨files, hfiles, hitems⟩ := readMembers_of_perm (layout_relative_ne layout) hmembers
  obtain ⟨made, hmkdir⟩ := mkdir_of_free htakes.links htakes.folders
  have hparse : parseObjectName (objectName label layout.relative) = .ok (label, layout.relative) :=
    parseObjectName_eq_ok.mpr ⟨hlabel, ⟨layout, rfl⟩, rfl⟩
  have hcheck : checkExtraction tar disk body (objectName label layout.relative) destination =
      .ok ⟨targetOf root label layout.relative, place, files⟩ := by
    rw [checkExtraction, hparse, Except.ok_bind]
    simp [htakes.resolved, htakes.leads, htakes.inside, htakes.free, hdecode, hfiles]
  have hextract : extractPartition tar disk body (objectName label layout.relative) destination =
      (.ok (targetOf root label layout.relative),
        writeFiles made place (sortBy Prod.fst files.rows)) := by
    rw [extractPartition, hcheck]
    simp [hmkdir]
  rw [hextract]
  exact ⟨rfl, restored_of_mkdir hmkdir hitems⟩

/-- Extraction is all or nothing, and takes back what the backup makes of a partition. -/
theorem partitions_restored :
    (∀ (disk : Disk) (body : Body) (name : String) (destination : Path),
      (∃ error, extractPartition tar disk body name destination = (.error error, disk)) ∨
        ∃ label layout root place bytes,
          Extracts tar disk body name destination label layout root place bytes) ∧
    ∀ label ∈ approvedRootLabelsV1, ∀ (layout : Layout) (directory : List Entry)
      (bytes : String → Bytes), HoldsFiles directory bytes →
      (∀ base ∈ partitionFiles,
        tar.header (partitionMember layout.relative bytes base) = .ok ()) →
      ∃ body, partitionTarBytes tar directory layout.relative = .ok body ∧
        ∀ (disk : Disk) (destination root place : Path),
          Takes disk destination label layout.relative root place →
          Extracts tar disk body (objectName label layout.relative) destination label layout root
            place bytes := by
  refine ⟨extracts_or_unchanged tar, ?_⟩
  intro label hlabel layout directory bytes hdirectory hheader
  obtain ⟨body, members, hbody, hdecode, hmembers⟩ := partitionTarBytes_ok hdirectory hheader
  refine ⟨body, hbody, fun disk destination root place htakes => ?_⟩
  obtain ⟨hreturned, hrestored⟩ := extractPartition_of_members tar hlabel hdecode hmembers htakes
  exact ⟨hlabel, rfl, htakes.resolved, htakes.leads, htakes.inside, ⟨members, hdecode, hmembers⟩,
    hreturned, hrestored⟩

/-! ### A partition that goes there and back -/

def plainTar : Tarfile (List Member) where
  header := fun _ => .ok ()
  encode := id
  decode := .ok
  decode_encode := fun _ _ => rfl

def emptyDisk : Disk := ⟨fun _ => none, .ok, fun _ => false, []⟩

theorem bybit_token : LayoutToken "bybit".toList := by simp [LayoutToken, tokenChar]

theorem perp_token : LayoutToken "CRYPTO-BYBIT-BTCUSDT-PERP".toList := by
  simp [LayoutToken, tokenChar]

theorem seven_lt : 7 < 2 ^ 128 := by norm_num

theorem aDay_valid : ((1 ≤ 2026 ∧ 2026 < 10 ^ 4) ∧ (1 ≤ 7 ∧ 7 ≤ 12)) ∧
    1 ≤ 24 ∧ 24 ≤ IsoText.daysInMonth 2026 7 := by decide

def aDay : MarketPayloads.Date :=
  ⟨2026, 7, 24, aDay_valid.1.1.1, aDay_valid.1.1.2, aDay_valid.1.2.1, aDay_valid.1.2.2,
    aDay_valid.2.1, aDay_valid.2.2⟩

def aLayout : Layout where
  exchange := "bybit".toList
  instrument := "CRYPTO-BYBIT-BTCUSDT-PERP".toList
  day := aDay
  session := 7
  exchange_token := bybit_token
  instrument_token := perp_token
  session_lt := seven_lt

def someBytes (base : String) : Bytes := (base.toList.take 1).map fun c => c.toNat.toUInt8

def aDirectory : List Entry :=
  ⟨"records.ndjson.gz.tmp", some [0]⟩ :: partitionFiles.map fun base => ⟨base, some (someBytes base)⟩

theorem aDirectory_holds : HoldsFiles aDirectory someBytes := by
  have htaken : ∀ base ∈ partitionFiles, Entry.taken ⟨base, some (someBytes base)⟩ = true := by
    decide
  rw [HoldsFiles, aDirectory, List.filter_cons_of_neg (by decide), List.filter_eq_self.mpr]
  intro entry hentry
  obtain ⟨base, hbase, rfl⟩ := List.mem_map.mp hentry
  exact htaken base hbase

theorem emptyDisk_takes :
    Takes emptyDisk [] "r0" aLayout.relative [] (targetOf [] "r0" aLayout.relative) where
  resolved := rfl
  leads := rfl
  inside := List.nil_prefix
  free := rfl
  folders := fun _ _ => rfl
  links := rfl

theorem partitions_restored_aDirectory :
    ∃ body, partitionTarBytes plainTar aDirectory aLayout.relative = .ok body ∧
      (extractPartition plainTar emptyDisk body (objectName "r0" aLayout.relative) []).1 =
        .ok (targetOf [] "r0" aLayout.relative) := by
  obtain ⟨body, hbody, h⟩ := (partitions_restored plainTar).2 "r0" (by decide) aLayout aDirectory
    someBytes aDirectory_holds (fun _ _ => rfl)
  exact ⟨body, hbody, (h emptyDisk [] [] _ emptyDisk_takes).returned⟩

end Extract

end Offsite

end TradePlatform
