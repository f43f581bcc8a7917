/-
# `TradePlatform.Lib.WriteOnce` — append-only stores of create-exclusive files

An append writes two files, a content and the record that names it, each created
exclusively and written in place; a file that is there already must hold the same bytes.
The machine below runs appends over the folders of its buckets, and an append may be cut off
after any number of bytes of either file.  A run in which no cut leaves a file with a part of
its bytes keeps the folders `Whole`: every record has its content beside it.  One that does
leaves a file that the same append can never get past.
-/
import TradePlatform.Lib.Dict
import TradePlatform.Lib.Replay
import TradePlatform.Lib.Run
import TradePlatform.Lib.SortBy

namespace WriteOnce

/-! ## One file -/

section File

variable {β : Type*}

abbrev Folder (β : Type*) := Dict String (List β)

/-- Create-exclusive write, with whether the file is new; `none` where it holds other bytes. -/
def write [DecidableEq β] (folder : Folder β) (name : String) (payload : List β) :
    Option (Folder β × Bool) :=
  match Dict.get? folder name with
  | none => some (Dict.set folder name payload, true)
  | some held => if held = payload then some (folder, false) else none

def cutWrite (folder : Folder β) (name : String) (payload : List β) (n : ℕ) : Folder β :=
  match Dict.get? folder name with
  | none => Dict.set folder name (payload.take n)
  | some _ => folder

def Grows (folder folder' : Folder β) : Prop :=
  ∀ name held, Dict.get? folder name = some held → Dict.get? folder' name = some held

theorem Grows.rfl {folder : Folder β} : Grows folder folder := fun _ _ h => h

def Adds (folder folder' : Folder β) (name : String) (payload : List β) : Prop :=
  ∀ other held, Dict.get? folder' other = some held →
    Dict.get? folder other = some held ∨ other = name ∧ held = payload

theorem grows_set {folder : Folder β} {name : String} {payload : List β}
    (h : Dict.get? folder name = none) : Grows folder (Dict.set folder name payload) := by
  intro other held hheld
  have hne : name ≠ other := by
    rintro rfl
    rw [h] at hheld
    cases hheld
  rw [Dict.get?_set_of_ne hne, hheld]

theorem adds_set {folder : Folder β} {name : String} {payload : List β} :
    Adds folder (Dict.set folder name payload) name payload := by
  intro other held hheld
  rw [Dict.get?_set] at hheld
  split at hheld
  · rename_i hname
    exact .inr ⟨hname.symm, (Option.some.inj hheld).symm⟩
  · exact .inl hheld

variable [DecidableEq β] {folder folder' : Folder β} {name : String} {payload : List β}
  {created : Bool}

theorem write_spec (h : write folder name payload = some (folder', created)) :
    Dict.get? folder' name = some payload ∧ Grows folder folder' ∧
      Adds folder folder' name payload := by
  unfold write at h
  split at h
  · rename_i hnone
    obtain ⟨rfl, -⟩ := Prod.mk.inj (Option.some.inj h)
    exact ⟨Dict.get?_set_self, grows_set hnone, adds_set⟩
  · rename_i held hheld
    split at h
    · rename_i heq
      obtain ⟨rfl, -⟩ := Prod.mk.inj (Option.some.inj h)
      exact ⟨heq ▸ hheld, Grows.rfl, fun _ _ hother => .inl hother⟩
    · cases h

theorem exists_write (h : ∀ held, Dict.get? folder name = some held → held = payload) :
    ∃ folder' created, write folder name payload = some (folder', created) := by
  unfold write
  cases hheld : Dict.get? folder name with
  | none => exact ⟨_, _, rfl⟩
  | some held => exact ⟨folder, false, if_pos (h held hheld)⟩

def TornFile (folder : Folder β) (name : String) (payload : List β) (n : ℕ) : Prop :=
  Dict.get? folder name = none ∧ n < payload.length

theorem write_of_torn {n : ℕ} (h : TornFile folder name payload n) :
    write (cutWrite folder name payload n) name payload = none := by
  have hcut : cutWrite folder name payload n = Dict.set folder name (payload.take n) := by
    unfold cutWrite
    rw [h.1]
  have hne : payload.take n ≠ payload := by
    intro heq
    have hlength := congrArg List.length heq
    rw [List.length_take_of_le h.2.le] at hlength
    exact absurd hlength h.2.ne
  unfold write
  rw [hcut, Dict.get?_set_self]
  exact if_neg hne

omit [DecidableEq β] in
theorem cutWrite_spec {n : ℕ} (h : ¬ TornFile folder name payload n) :
    Grows folder (cutWrite folder name payload n) ∧
      Adds folder (cutWrite folder name payload n) name payload := by
  unfold cutWrite
  split
  · rename_i hnone
    have hlength : payload.length ≤ n := not_lt.mp fun hlt => h ⟨hnone, hlt⟩
    rw [List.take_of_length_le hlength]
    exact ⟨grows_set hnone, adds_set⟩
  · exact ⟨Grows.rfl, fun _ _ hother => .inl hother⟩

end File

/-! ## The two files of an append -/

section Entry

variable {β : Type*}

structure Entry (β : Type*) where
  contentName : String
  content : List β
  recordName : String
  record : List β

structure Files (β : Type*) where
  contents : Folder β
  records : Folder β

/-- Where an append is cut off: before its first file is created, or after so many bytes of one
of the two. -/
inductive Cut where
  | before
  | content (n : ℕ)
  | record (n : ℕ)
deriving DecidableEq, Repr

variable [DecidableEq β]

def put (files : Files β) (entry : Entry β) : Files β × Except String Bool :=
  match write files.contents entry.contentName entry.content with
  | none => (files, .error entry.contentName)
  | some (contents, _) =>
      match write files.records entry.recordName entry.record with
      | none => (⟨contents, files.records⟩, .error entry.recordName)
      | some (records, created) => (⟨contents, records⟩, .ok created)

def cutPut (files : Files β) (entry : Entry β) : Cut → Files β
  | .before => files
  | .content n =>
      ⟨cutWrite files.contents entry.contentName entry.content n, files.records⟩
  | .record n =>
      match write files.contents entry.contentName entry.content with
      | none => files
      | some (contents, _) =>
          ⟨contents, cutWrite files.records entry.recordName entry.record n⟩

def Torn (files : Files β) (entry : Entry β) : Cut → Prop
  | .before => False
  | .content n => TornFile files.contents entry.contentName entry.content n
  | .record n =>
      (write files.contents entry.contentName entry.content).isSome = true ∧
        TornFile files.records entry.recordName entry.record n

omit [DecidableEq β] in
def Recorded (files : Files β) (entry : Entry β) : Prop :=
  Dict.get? files.contents entry.contentName = some entry.content ∧
    Dict.get? files.records entry.recordName = some entry.record

omit [DecidableEq β] in
def Files.Grows (files files' : Files β) : Prop :=
  WriteOnce.Grows files.contents files'.contents ∧ WriteOnce.Grows files.records files'.records

omit [DecidableEq β] in
theorem Recorded.mono {files files' : Files β} {entry : Entry β} (h : Recorded files entry)
    (hgrows : files.Grows files') : Recorded files' entry :=
  ⟨hgrows.1 _ _ h.1, hgrows.2 _ _ h.2⟩

structure Whole (entries : Set (Entry β)) (files : Files β) : Prop where
  contents : ∀ name held, Dict.get? files.contents name = some held →
    ∃ entry ∈ entries, entry.contentName = name ∧ entry.content = held
  records : ∀ name held, Dict.get? files.records name = some held →
    ∃ entry ∈ entries, entry.recordName = name ∧ entry.record = held ∧ Recorded files entry

structure Apart (entries : Set (Entry β)) : Prop where
  contents : ∀ e ∈ entries, ∀ e' ∈ entries, e.contentName = e'.contentName →
    e.content = e'.content
  records : ∀ e ∈ entries, ∀ e' ∈ entries, e.recordName = e'.recordName → e.record = e'.record

variable {entries : Set (Entry β)} {files : Files β} {entry : Entry β}

omit [DecidableEq β] in
theorem Whole.content_eq (h : Whole entries files) (hapart : Apart entries)
    (hentry : entry ∈ entries) {held : List β}
    (hheld : Dict.get? files.contents entry.contentName = some held) : held = entry.content := by
  obtain ⟨other, hother, hname, rfl⟩ := h.contents _ _ hheld
  exact hapart.contents _ hother _ hentry hname

omit [DecidableEq β] in
theorem Whole.record_eq (h : Whole entries files) (hapart : Apart entries)
    (hentry : entry ∈ entries) {held : List β}
    (hheld : Dict.get? files.records entry.recordName = some held) : held = entry.record := by
  obtain ⟨other, hother, hname, rfl, -⟩ := h.records _ _ hheld
  exact hapart.records _ hother _ hentry hname

omit [DecidableEq β] in
theorem Whole.add_content (h : Whole entries files) (hentry : entry ∈ entries)
    {contents : Folder β} (hgrows : Grows files.contents contents)
    (hadds : Adds files.contents contents entry.contentName entry.content) :
    Whole entries ⟨contents, files.records⟩ := by
  refine ⟨fun name held hheld => ?_, fun name held hheld => ?_⟩
  · rcases hadds name held hheld with hold | ⟨rfl, rfl⟩
    · exact h.contents name held hold
    · exact ⟨entry, hentry, rfl, rfl⟩
  · obtain ⟨other, hother, hname, hrecord, hrecorded⟩ := h.records name held hheld
    exact ⟨other, hother, hname, hrecord, hrecorded.mono ⟨hgrows, Grows.rfl⟩⟩

omit [DecidableEq β] in
theorem Whole.add_record (h : Whole entries files) (hentry : entry ∈ entries)
    (hcontent : Dict.get? files.contents entry.contentName = some entry.content)
    {records : Folder β} (hgrows : Grows files.records records)
    (hadds : Adds files.records records entry.recordName entry.record) :
    Whole entries ⟨files.contents, records⟩ := by
  refine ⟨h.contents, fun name held hheld => ?_⟩
  rcases hadds name held hheld with hold | ⟨rfl, rfl⟩
  · obtain ⟨other, hother, hname, hrecord, hrecorded⟩ := h.records name held hold
    exact ⟨other, hother, hname, hrecord, hrecorded.mono ⟨Grows.rfl, hgrows⟩⟩
  · exact ⟨entry, hentry, rfl, rfl, hcontent, hheld⟩

theorem Whole.put (h : Whole entries files) (hapart : Apart entries) (hentry : entry ∈ entries) :
    ∃ files' created, WriteOnce.put files entry = (files', .ok created) ∧ Whole entries files' ∧
      files.Grows files' ∧ Recorded files' entry := by
  obtain ⟨contents, new, hcontents⟩ :=
    exists_write fun held hheld => h.content_eq hapart hentry hheld
  obtain ⟨records, created, hrecords⟩ :=
    exists_write fun held hheld => h.record_eq hapart hentry hheld
  obtain ⟨hcontent, hgrows, hadds⟩ := write_spec hcontents
  obtain ⟨hrecord, hgrows', hadds'⟩ := write_spec hrecords
  refine ⟨⟨contents, records⟩, created, ?_, ?_, ⟨hgrows, hgrows'⟩, hcontent, hrecord⟩
  · unfold WriteOnce.put
    rw [hcontents]
    dsimp only
    rw [hrecords]
  · exact (h.add_content hentry hgrows hadds).add_record hentry hcontent hgrows' hadds'

theorem Whole.cutPut (h : Whole entries files) (hentry : entry ∈ entries) {cut : Cut}
    (htorn : ¬ Torn files entry cut) :
    Whole entries (WriteOnce.cutPut files entry cut) ∧
      files.Grows (WriteOnce.cutPut files entry cut) := by
  cases cut with
  | before => exact ⟨h, Grows.rfl, Grows.rfl⟩
  | content n =>
      obtain ⟨hgrows, hadds⟩ := cutWrite_spec htorn
      exact ⟨h.add_content hentry hgrows hadds, hgrows, Grows.rfl⟩
  | record n =>
      unfold WriteOnce.cutPut
      unfold Torn at htorn
      cases hwrite : write files.contents entry.contentName entry.content with
      | none => exact ⟨h, Grows.rfl, Grows.rfl⟩
      | some written =>
          obtain ⟨contents, new⟩ := written
          rw [hwrite] at htorn
          obtain ⟨hcontent, hgrows, hadds⟩ := write_spec hwrite
          obtain ⟨hgrows', hadds'⟩ := cutWrite_spec fun hfile => htorn ⟨rfl, hfile⟩
          exact ⟨(h.add_content hentry hgrows hadds).add_record hentry hcontent hgrows' hadds',
            hgrows, hgrows'⟩

theorem put_of_torn {cut : Cut} (htorn : Torn files entry cut) :
    ∃ name, (WriteOnce.put (cutPut files entry cut) entry).2 = .error name := by
  cases cut with
  | before => exact htorn.elim
  | content n =>
      refine ⟨entry.contentName, ?_⟩
      unfold WriteOnce.put WriteOnce.cutPut
      rw [write_of_torn htorn]
  | record n =>
      obtain ⟨hsome, hfile⟩ := htorn
      obtain ⟨⟨contents, new⟩, hwrite⟩ := Option.isSome_iff_exists.mp hsome
      have hagain : write contents entry.contentName entry.content = some (contents, false) := by
        unfold write
        rw [(write_spec hwrite).1]
        exact if_pos rfl
      refine ⟨entry.recordName, ?_⟩
      unfold WriteOnce.put WriteOnce.cutPut
      rw [hwrite]
      dsimp only
      rw [hagain]
      dsimp only
      rw [write_of_torn hfile]

end Entry

/-! ## A store and its runs -/

section Store

/-- A store of items by bucket: what an append checks first, the entry it writes, and how a
record is read back. -/
structure Store (ι κ β ε ω : Type) where
  check : ι → Except ε Unit
  bucket : ι → κ
  entry : ι → Entry β
  conflict : String → ε
  openBucket : κ → Except ε Unit
  read : Files β → κ → String → List β → Except ε ω
  view : ι → ω

variable {ι κ β ε ω : Type} [DecidableEq κ] [DecidableEq β]

namespace Store

variable (store : Store ι κ β ε ω)

def append (files : κ → Files β) (item : ι) : (κ → Files β) × Except ε Bool :=
  match store.check item with
  | .error e => (files, .error e)
  | .ok () =>
      let bucket := store.bucket item
      let result := put (files bucket) (store.entry item)
      (Function.update files bucket result.1, result.2.mapError store.conflict)

def load (files : κ → Files β) (bucket : κ) : Except ε (List ω) := do
  store.openBucket bucket
  (sortBy Prod.fst (files bucket).records.rows).mapM fun row =>
    store.read (files bucket) bucket row.1 row.2

structure Call (ι : Type) where
  item : ι
  cut : Option Cut

structure State (ι κ β : Type) where
  files : κ → Files β
  returned : List ι
  interrupted : List ι

def complete (s : State ι κ β) (item : ι) : State ι κ β :=
  let result := store.append s.files item
  { s with
    files := result.1
    returned := if result.2.isOk then s.returned ++ [item] else s.returned }

def cutOff (s : State ι κ β) (item : ι) (cut : Cut) : State ι κ β :=
  if (store.check item).isOk then
    { s with
      files := Function.update s.files (store.bucket item)
        (cutPut (s.files (store.bucket item)) (store.entry item) cut)
      interrupted := s.interrupted ++ [item] }
  else s

def step (s : State ι κ β) (call : Call ι) : State ι κ β :=
  match call.cut with
  | none => store.complete s call.item
  | some cut => store.cutOff s call.item cut

def start : State ι κ β := ⟨fun _ => ⟨Dict.empty, Dict.empty⟩, [], []⟩

def Untorn (s : State ι κ β) (call : Call ι) : Prop :=
  ∀ cut ∈ call.cut, (store.check call.item).isOk = true →
    ¬ Torn (s.files (store.bucket call.item)) (store.entry call.item) cut

def Loadable (files : κ → Files β) (item : ι) : Prop :=
  ∃ loaded, store.load files (store.bucket item) = .ok loaded ∧ store.view item ∈ loaded

/-- Every item whose append returned is loaded, and an interrupted append can be repeated, after
which its item is. -/
def Holds (s : State ι κ β) : Prop :=
  (∀ item ∈ s.returned, store.Loadable s.files item) ∧
    ∀ item ∈ s.interrupted, ∃ created, (store.append s.files item).2 = .ok created ∧
      store.Loadable (store.append s.files item).1 item

def entries (items : Set ι) (bucket : κ) : Set (Entry β) :=
  {e | ∃ item ∈ items, store.check item = .ok () ∧ store.bucket item = bucket ∧
    store.entry item = e}

/-- Names tell the entries of the items apart, and what was written of an item is read back. -/
structure Sound (items : Set ι) : Prop where
  apart : ∀ bucket, Apart (store.entries items bucket)
  openBucket : ∀ item ∈ items, store.check item = .ok () → store.openBucket (store.bucket item) = .ok ()
  read : ∀ item ∈ items, store.check item = .ok () → ∀ files : Files β,
    Recorded files (store.entry item) →
      store.read files (store.bucket item) (store.entry item).recordName
        (store.entry item).record = .ok (store.view item)

structure Inv (items : Set ι) (s : State ι κ β) : Prop where
  whole : ∀ bucket, Whole (store.entries items bucket) (s.files bucket)
  returned : ∀ item ∈ s.returned, item ∈ items ∧ store.check item = .ok () ∧
    Recorded (s.files (store.bucket item)) (store.entry item)
  interrupted : ∀ item ∈ s.interrupted, item ∈ items ∧ store.check item = .ok ()

variable {store} {items : Set ι} {s : State ι κ β}

omit [DecidableEq κ] [DecidableEq β] in
theorem start_inv : store.Inv items start :=
  ⟨fun _ => ⟨fun _ _ h => (by cases h), fun _ _ h => (by cases h)⟩, fun _ h => (by cases h),
    fun _ h => (by cases h)⟩

omit [DecidableEq κ] [DecidableEq β] in
theorem Sound.loadable (h : store.Sound items) {files : κ → Files β}
    (hwhole : ∀ bucket, Whole (store.entries items bucket) (files bucket)) {item : ι}
    (hitem : item ∈ items) (hcheck : store.check item = .ok ())
    (hrecorded : Recorded (files (store.bucket item)) (store.entry item)) :
    store.Loadable files item := by
  have hread : ∀ row ∈ sortBy Prod.fst (files (store.bucket item)).records.rows, ∃ out,
      store.read (files (store.bucket item)) (store.bucket item) row.1 row.2 = .ok out := by
    intro row hrow
    obtain ⟨_, ⟨other, hother, hok, hbucket, rfl⟩, hname, hrecord, hstored⟩ :=
      (hwhole (store.bucket item)).records row.1 row.2 (Dict.mem_rows.mp (mem_sortBy.mp hrow))
    refine ⟨store.view other, ?_⟩
    rw [← hname, ← hrecord, ← hbucket]
    rw [← hbucket] at hstored
    exact h.read other hother hok _ hstored
  unfold Loadable load
  rw [h.openBucket item hitem hcheck]
  rw [Except.ok_bind]
  cases hloaded : (sortBy Prod.fst (files (store.bucket item)).records.rows).mapM fun row =>
      store.read (files (store.bucket item)) (store.bucket item) row.1 row.2 with
  | error e =>
      obtain ⟨row, hrow, herror⟩ := Except.exists_error_of_mapM hloaded
      obtain ⟨out, hout⟩ := hread row hrow
      rw [herror] at hout
      cases hout
  | ok loaded =>
      refine ⟨loaded, rfl, ?_⟩
      have hrow : ((store.entry item).recordName, (store.entry item).record) ∈
          sortBy Prod.fst (files (store.bucket item)).records.rows :=
        mem_sortBy.mpr (Dict.mem_rows.mpr hrecorded.2)
      obtain ⟨out, hout, hresult⟩ := Except.exists_of_mem_mapM hloaded hrow
      have hview := h.read item hitem hcheck _ hrecorded
      rw [hresult] at hview
      rw [← Except.ok.inj hview]
      exact hout

theorem Sound.append (h : store.Sound items) {files : κ → Files β}
    (hwhole : ∀ bucket, Whole (store.entries items bucket) (files bucket)) {item : ι}
    (hitem : item ∈ items) (hcheck : store.check item = .ok ()) :
    ∃ files' created, store.append files item = (files', .ok created) ∧
      (∀ bucket, Whole (store.entries items bucket) (files' bucket)) ∧
      (∀ bucket, (files bucket).Grows (files' bucket)) ∧
      Recorded (files' (store.bucket item)) (store.entry item) := by
  obtain ⟨files', created, hput, hwhole', hgrows, hrecorded⟩ :=
    (hwhole (store.bucket item)).put (h.apart _) ⟨item, hitem, hcheck, rfl, rfl⟩
  refine ⟨Function.update files (store.bucket item) files', created, ?_, ?_, ?_, ?_⟩
  · unfold Store.append
    rw [hcheck]
    dsimp only
    rw [hput]
    rfl
  · intro bucket
    rcases eq_or_ne bucket (store.bucket item) with rfl | hne
    · rwa [Function.update_self]
    · rw [Function.update_of_ne hne]
      exact hwhole bucket
  · intro bucket
    rcases eq_or_ne bucket (store.bucket item) with rfl | hne
    · rwa [Function.update_self]
    · rw [Function.update_of_ne hne]
      exact ⟨Grows.rfl, Grows.rfl⟩
  · rwa [Function.update_self]

theorem Inv.holds (h : store.Sound items) (hinv : store.Inv items s) : store.Holds s := by
  refine ⟨fun item hitem => ?_, fun item hitem => ?_⟩
  · obtain ⟨hmem, hcheck, hrecorded⟩ := hinv.returned item hitem
    exact h.loadable hinv.whole hmem hcheck hrecorded
  · obtain ⟨hmem, hcheck⟩ := hinv.interrupted item hitem
    obtain ⟨files', created, happend, hwhole, -, hrecorded⟩ := h.append hinv.whole hmem hcheck
    rw [happend]
    exact ⟨created, rfl, h.loadable hwhole hmem hcheck hrecorded⟩

theorem Inv.complete (h : store.Sound items) (hinv : store.Inv items s) {item : ι}
    (hitem : item ∈ items) : store.Inv items (store.complete s item) := by
  unfold Store.complete
  cases hcheck : store.check item with
  | error e =>
      have happend : store.append s.files item = (s.files, .error e) := by
        unfold Store.append
        rw [hcheck]
      rw [happend]
      exact hinv
  | ok checked =>
      obtain ⟨files', created, happend, hwhole, hgrows, hrecorded⟩ :=
        h.append hinv.whole hitem hcheck
      rw [happend]
      refine ⟨hwhole, fun other hother => ?_, hinv.interrupted⟩
      rcases List.mem_append.mp hother with hother | hother
      · obtain ⟨hmem, hok, hstored⟩ := hinv.returned other hother
        exact ⟨hmem, hok, hstored.mono (hgrows _)⟩
      · obtain rfl := List.mem_singleton.mp hother
        exact ⟨hitem, hcheck, hrecorded⟩

theorem Inv.cutOff (hinv : store.Inv items s) {item : ι} {cut : Cut} (hitem : item ∈ items)
    (htorn : (store.check item).isOk = true →
      ¬ Torn (s.files (store.bucket item)) (store.entry item) cut) :
    store.Inv items (store.cutOff s item cut) := by
  unfold Store.cutOff
  split
  · rename_i hok
    obtain ⟨⟨⟩, hcheck⟩ := Except.exists_of_isOk hok
    obtain ⟨hwhole, hgrows⟩ := (hinv.whole (store.bucket item)).cutPut
      ⟨item, hitem, hcheck, rfl, rfl⟩ (htorn hok)
    refine ⟨fun bucket => ?_, fun other hother => ?_, fun other hother => ?_⟩
    · dsimp only
      rcases eq_or_ne bucket (store.bucket item) with rfl | hne
      · rwa [Function.update_self]
      · rw [Function.update_of_ne hne]
        exact hinv.whole bucket
    · obtain ⟨hmem, hother, hstored⟩ := hinv.returned other hother
      refine ⟨hmem, hother, ?_⟩
      dsimp only
      rcases eq_or_ne (store.bucket other) (store.bucket item) with heq | hne
      · rw [heq] at hstored ⊢
        rw [Function.update_self]
        exact hstored.mono hgrows
      · rwa [Function.update_of_ne hne]
    · rcases List.mem_append.mp hother with hother | hother
      · exact hinv.interrupted other hother
      · obtain rfl := List.mem_singleton.mp hother
        exact ⟨hitem, hcheck⟩
  · exact hinv

theorem Inv.step (h : store.Sound items) (hinv : store.Inv items s) {call : Call ι}
    (hitem : call.item ∈ items) (huntorn : store.Untorn s call) :
    store.Inv items (store.step s call) := by
  unfold Store.step
  cases hcut : call.cut with
  | none => exact hinv.complete h hitem
  | some cut => exact hinv.cutOff hitem (huntorn cut hcut)

theorem untorn_of_holds {call : Call ι} (hholds : store.Holds (store.step s call)) :
    store.Untorn s call := by
  intro cut hcut hok htorn
  have hcut : call.cut = some cut := hcut
  obtain ⟨⟨⟩, hcheck⟩ := Except.exists_of_isOk hok
  unfold Store.step at hholds
  rw [hcut] at hholds
  dsimp only at hholds
  unfold Store.cutOff at hholds
  rw [if_pos hok] at hholds
  obtain ⟨created, happend, -⟩ := hholds.2 call.item
    (List.mem_append_right _ List.mem_cons_self)
  obtain ⟨name, hput⟩ := put_of_torn htorn
  unfold Store.append at happend
  rw [hcheck] at happend
  dsimp only at happend
  rw [Function.update_self, hput] at happend
  cases happend

/-- The run rule: a store keeps every returned item loadable and every interrupted append
repeatable exactly along the runs in which no file is left with a part of its bytes. -/
theorem always_holds_iff (h : store.Sound items) (hinv : store.Inv items s) {calls : List (Call ι)}
    (hcalls : ∀ call ∈ calls, call.item ∈ items) :
    Run.Always store.step store.Holds s calls ↔ Run.Each store.step store.Untorn s calls := by
  induction calls generalizing s with
  | nil => exact iff_of_true (hinv.holds h) trivial
  | cons call calls ih =>
      have hitem := hcalls call List.mem_cons_self
      have hrest := fun other hother => hcalls other (List.mem_cons_of_mem _ hother)
      constructor
      · rintro ⟨-, halways⟩
        have huntorn := untorn_of_holds halways.head
        exact ⟨huntorn, (ih (hinv.step h hitem huntorn) hrest).mp halways⟩
      · rintro ⟨huntorn, heach⟩
        exact ⟨hinv.holds h, (ih (hinv.step h hitem huntorn) hrest).mpr heach⟩

end Store

end Store

end WriteOnce
