/-
# `TradePlatform.ResearchFrameRoundTrip` — when a written frame verifies

A frame is hashed as it is prepared and verified as it reads back, so it verifies when every cell
comes back from its column as the same text.  The flush and the rollover of `write_frame` lose
and double nothing: the rows of the objects, of the open writer and the pending ones are those
prepared so far, in order (`Written`).  What does not come back is a decimal that was the negative
zero, which no column of ticks has, and an integer that Arrow takes for a timestamp.
-/
import TradePlatform.ResearchFrameReading

namespace TradePlatform.DataPlane

open JsonText (Text Settled)

variable {File : Type} {env : Env File} {frame : FrameSchemaV1}

/-! ## Prepared cells -/

def Kept : ColumnType → Cell → Prop
  | .decimal _, .decimal (.finite d) => ¬ d.IsNegativeZero
  | .timestamp, .int _ => False
  | _, _ => True

def Plain (env : Env File) (field : Field) (raw : Cell) : Prop :=
  match field.type with
  | .decimal _ => raw ≠ .none → ∀ d, decimalOf env raw = some (.finite d) → ¬ d.IsNegativeZero
  | .timestamp => ∀ n, raw ≠ .int n
  | _ => True

def Scaled (type : ColumnType) (cell : Cell) : Prop :=
  ∀ scale d, type = .decimal scale → cell = .decimal (.finite d) → d.exponent = -scale

theorem prepareDecimal_eq_ok {field : Field} {scale : ℕ} {raw cell : Cell}
    (h : prepareDecimal env field scale raw = .ok cell) :
    ∃ d q, decimalOf env raw = some (.finite d) ∧ cell = .decimal (.finite q) ∧
      q.exponent = -scale ∧ (q.IsNegativeZero ↔ d.IsNegativeZero) := by
  unfold prepareDecimal at h
  cases hd : decimalOf env raw with
  | none =>
      rw [hd] at h
      cases h
  | some value =>
      rw [hd] at h
      obtain ⟨q, hq, hcell⟩ := Except.bind_eq_ok.mp h
      cases value with
      | special text => cases hq
      | finite d =>
          unfold quantizeExact at hq
          dsimp only at hq
          cases hquantize : d.quantize env.precision scale with
          | none =>
              rw [hquantize] at hq
              cases hq
          | some quantized =>
              rw [hquantize] at hq
              obtain ⟨hvalue, hq⟩ := Except.of_ite_error hq
              cases hq
              refine ⟨d, q, rfl, (Except.pure_eq_ok.mp hcell).symm, ?_, ?_⟩
              · exact (Decimal.Parts.quantize_parts hquantize).2
              · exact Decimal.Parts.isNegativeZero_quantize hquantize (not_not.mp hvalue)

theorem prepareCell_spec {field : Field} {raw cell : Cell}
    (h : prepareCell env field raw = .ok cell) :
    Scaled field.type cell ∧ (Kept field.type cell ↔ Plain env field raw) := by
  obtain ⟨name, type, nullable⟩ := field
  unfold prepareCell at h
  unfold Plain
  split at h
  · rename_i hnone
    split at h
    · cases h
      subst hnone
      cases type <;> simp [Scaled, Kept]
    · cases h
  · rename_i hnone
    cases type with
    | decimal scale =>
        obtain ⟨d, q, hd, rfl, hexponent, hzero⟩ := prepareDecimal_eq_ok h
        refine ⟨fun scale' d' htype hcell => ?_, ?_⟩
        · cases htype
          cases hcell
          exact hexponent
        · simp only [Kept, hzero, hd]
          exact ⟨fun hkept _ d' hd' => by cases hd'; exact hkept, fun hplain => hplain hnone d rfl⟩
    | timestamp =>
        cases h
        refine ⟨fun _ _ htype => (by cases htype), ?_⟩
        cases raw <;> simp [Kept]
    | string | int32 | int64 =>
        cases h
        refine ⟨fun _ _ htype => (by cases htype), ?_⟩
        cases raw <;> simp [Kept]

theorem prepareRow_spec {raw row : Row} (h : prepareRow env frame raw = .ok row) :
    frame.schema.length = row.length ∧ (∀ x ∈ frame.schema.zip row, Scaled x.1.type x.2) ∧
      ((∀ x ∈ frame.schema.zip row, Kept x.1.type x.2) ↔
        ∀ x ∈ frame.schema.zip raw, Plain env x.1 x.2) := by
  unfold prepareRow at h
  obtain ⟨hwidth, hmap⟩ := Except.of_ite_error h
  have hlength := not_not.mp hwidth
  have hcells := Except.mapM_iff_forall₂.mp hmap
  clear h hwidth hmap
  generalize frame.schema = schema at hlength hcells ⊢
  induction schema generalizing raw row with
  | nil =>
      cases hcells
      simp
  | cons field schema ih =>
      cases raw with
      | nil => cases hlength
      | cons cell raw =>
          cases hcells with
          | cons hcell hcells =>
              rename_i prepared row
              obtain ⟨hscaled, hkept⟩ := prepareCell_spec hcell
              obtain ⟨hlen, htail, hiff⟩ := ih (Nat.succ.inj hlength) hcells
              simp only [List.zip_cons_cons, List.forall_mem_cons, List.length_cons]
              exact ⟨congrArg (· + 1) hlen, ⟨hscaled, htail⟩, and_congr hkept hiff⟩

/-! ## Cells that come back -/

theorem Stores.readable_of_kept {type : ColumnType} {cell : Cell} {v : Value} {text : Text}
    (h : Stores type cell v) (hscaled : Scaled type cell) (hkept : Kept type cell)
    (htext : canonicalCell cell = .ok text) : Readable v ∧ cellOf v = cell := by
  suffices hpython : toPython v = .ok cell by
    exact ⟨⟨cell, hpython⟩, (toPython_eq_ok_iff.mp hpython).2.symm⟩
  cases h with
  | null => rfl
  | text s => rfl
  | int32 n => rfl
  | int64 n => rfl
  | micros n => exact absurd hkept id
  | instant t =>
      unfold canonicalCell at htext
      unfold toPython
      dsimp only at htext ⊢
      rw [add_sub_cancel]
      cases hutc : IsoText.Stamp.utc? t with
      | none =>
          rw [hutc] at htext
          cases htext
      | some stamp => rfl
  | decimal hn =>
      have hticks := (Decimal.Parts.ofTicks_eq_iff (hscaled _ _ rfl rfl) hn).mpr hkept
      show Except.ok (Cell.decimal (.finite (Decimal.Parts.ofTicks _ _))) = _
      rw [hticks]

/-- The text of what is read back is that of the cell or parts from it, and it is that of the
cell for a kept cell only. -/
theorem Stores.settled {type : ColumnType} {cell : Cell} {v : Value} {text text' : Text}
    (h : Stores type cell v) (hscaled : Scaled type cell) (htext : canonicalCell cell = .ok text)
    (hreadable : Readable v) (htext' : canonicalCell (cellOf v) = .ok text') :
    Settled text text' ∧ (text = text' → Kept type cell) := by
  by_cases hkept : Kept type cell
  · rw [(h.readable_of_kept hscaled hkept htext).2, htext] at htext'
    exact ⟨.inl (Except.ok.inj htext'), fun _ => hkept⟩
  · suffices hapart : JsonText.Apart text text' from
      ⟨.inr hapart, fun heq => absurd heq hapart.ne⟩
    cases h with
    | null => exact absurd (by cases type <;> trivial) hkept
    | text s => exact absurd trivial hkept
    | int32 n => exact absurd trivial hkept
    | int64 n => exact absurd trivial hkept
    | instant t => exact absurd trivial hkept
    | micros n =>
        -- a number against a string
        cases htext
        obtain ⟨c, hc⟩ := hreadable
        unfold cellOf at htext'
        unfold toPython at htext'
        cases hutc : IsoText.Stamp.utc? (epoch + n) with
        | none =>
            rw [toPython, hutc] at hc
            cases hc
        | some stamp =>
            simp only [hutc, canonicalCell] at htext'
            cases htext'
            exact JsonText.apart_int_quote n _
    | decimal hn =>
        -- a zero with a minus against one without
        rename_i scale d n
        obtain ⟨hnegative, hzero⟩ := not_not.mp hkept
        have hexponent := hscaled _ _ rfl rfl
        have hticks := Decimal.Parts.ofTicks_eq hexponent hn
        obtain ⟨negative, coefficient, exponent⟩ := d
        dsimp only at hnegative hzero
        subst hnegative hzero
        have hcell : cellOf (.ticks scale n) = .decimal (.finite ⟨false, 0, exponent⟩) :=
          congrArg (fun d => Cell.decimal (.finite d)) hticks
        obtain ⟨rest, hrest⟩ := Decimal.Parts.text_zero exponent
        rw [hcell] at htext'
        cases htext
        cases htext'
        rw [Decimal.Parts.text_negative, hrest]
        exact (JsonText.apart_of_head (by decide)).cons '"'

/-! ## Rows that come back -/

def StoredRow (schema : List Field) (row : Row) (values : List Value) : Prop :=
  List.Forall₂ (fun x v => Scaled x.1.type x.2 ∧ Stores x.1.type x.2 v) (schema.zip row) values

def KeptRow (schema : List Field) (row : Row) : Prop :=
  ∀ x ∈ schema.zip row, Kept x.1.type x.2

theorem canonicalRowBytes_eq_ok_iff {row : Row} {text : Text} :
    canonicalRowBytes row = .ok text ↔ ∃ cells,
      List.Forall₂ (fun cell text => canonicalCell cell = .ok text) row cells ∧
        text = JsonText.array cells ++ ['\n'] := by
  unfold canonicalRowBytes
  rw [Except.bind_eq_ok]
  refine exists_congr fun cells => and_congr Except.mapM_iff_forall₂ ?_
  rw [Except.pure_eq_ok]
  exact eq_comm

theorem forall₂_zip {schema : List Field} {row : Row} {cells : List Text}
    (hlength : schema.length = row.length)
    (h : List.Forall₂ (fun cell text => canonicalCell cell = .ok text) row cells) :
    List.Forall₂ (fun x text => canonicalCell x.2 = .ok text) (schema.zip row) cells := by
  have hsnd : (schema.zip row).map Prod.snd = row := List.map_snd_zip hlength.ge
  rw [← hsnd] at h
  exact List.forall₂_map_left_iff.mp h

section Row

variable {xs : List (Field × Cell)} {values : List Value} {cells cells' : List Text}

theorem readable_of_kept
    (h : List.Forall₂ (fun x v => Scaled x.1.type x.2 ∧ Stores x.1.type x.2 v) xs values)
    (hkept : ∀ x ∈ xs, Kept x.1.type x.2)
    (htext : List.Forall₂ (fun x text => canonicalCell x.2 = .ok text) xs cells) :
    (∀ v ∈ values, Readable v) ∧ values.map cellOf = xs.map Prod.snd := by
  induction h generalizing cells with
  | nil => exact ⟨fun _ hv => absurd hv List.not_mem_nil, rfl⟩
  | cons hx _ ih =>
      cases htext with
      | cons hcell htext =>
          obtain ⟨hkeptx, hkept⟩ := List.forall_mem_cons.mp hkept
          obtain ⟨hreadable, hcell⟩ := hx.2.readable_of_kept hx.1 hkeptx hcell
          obtain ⟨htail, hcells⟩ := ih hkept htext
          refine ⟨List.forall_mem_cons.mpr ⟨hreadable, htail⟩, ?_⟩
          rw [List.map_cons, List.map_cons, hcell, hcells]

theorem settled_cells
    (h : List.Forall₂ (fun x v => Scaled x.1.type x.2 ∧ Stores x.1.type x.2 v) xs values)
    (htext : List.Forall₂ (fun x text => canonicalCell x.2 = .ok text) xs cells)
    (hreadable : ∀ v ∈ values, Readable v)
    (htext' : List.Forall₂ (fun cell text => canonicalCell cell = .ok text) (values.map cellOf)
      cells') :
    List.Forall₂ Settled cells cells' ∧ (cells = cells' → ∀ x ∈ xs, Kept x.1.type x.2) := by
  induction h generalizing cells cells' with
  | nil =>
      cases htext
      cases htext'
      exact ⟨.nil, fun _ _ hx => absurd hx List.not_mem_nil⟩
  | cons hx _ ih =>
      cases htext with
      | cons hcell htext =>
          cases htext' with
          | cons hcell' htext' =>
              obtain ⟨hreadablev, hreadable⟩ := List.forall_mem_cons.mp hreadable
              obtain ⟨hsettled, hkept⟩ := hx.2.settled hx.1 hcell hreadablev hcell'
              obtain ⟨htail, hkepts⟩ := ih htext hreadable htext'
              refine ⟨.cons hsettled htail, fun heq => List.forall_mem_cons.mpr ?_⟩
              obtain ⟨hhead, heq⟩ := List.cons.inj heq
              exact ⟨hkept hhead, hkepts heq⟩

end Row

theorem StoredRow.readable {schema : List Field} {row : Row} {values : List Value} {text : Text}
    (h : StoredRow schema row values) (hlength : schema.length = row.length)
    (hkept : KeptRow schema row) (htext : canonicalRowBytes row = .ok text) :
    (∀ v ∈ values, Readable v) ∧ values.map cellOf = row := by
  obtain ⟨cells, hcells, -⟩ := canonicalRowBytes_eq_ok_iff.mp htext
  obtain ⟨hreadable, hmap⟩ := readable_of_kept h hkept (forall₂_zip hlength hcells)
  exact ⟨hreadable, hmap.trans (List.map_snd_zip hlength.ge)⟩

/-- The text of a row that is read back is that of the row or parts from it, and it is that of
the row for a kept row only. -/
theorem StoredRow.settled {schema : List Field} {row : Row} {values : List Value}
    {text text' : Text} (h : StoredRow schema row values) (hlength : schema.length = row.length)
    (htext : canonicalRowBytes row = .ok text) (hreadable : ∀ v ∈ values, Readable v)
    (htext' : canonicalRowBytes (values.map cellOf) = .ok text') :
    Settled text text' ∧ (text = text' → KeptRow schema row) := by
  obtain ⟨cells, hcells, rfl⟩ := canonicalRowBytes_eq_ok_iff.mp htext
  obtain ⟨cells', hcells', rfl⟩ := canonicalRowBytes_eq_ok_iff.mp htext'
  obtain ⟨hsettled, hkept⟩ := settled_cells h (forall₂_zip hlength hcells) hreadable hcells'
  rcases JsonText.array_eq_or_apart hsettled with rfl | hapart
  · exact ⟨.inl rfl, fun _ => hkept rfl⟩
  · have hapart := hapart.append ['\n'] ['\n']
    exact ⟨.inr hapart, fun heq => absurd heq hapart.ne⟩

theorem storedRow_of_storeRow (hexact : env.Exact) {raw row : Row} {values : List Value}
    (hrow : prepareRow env frame raw = .ok row) (h : storeRow env frame row = .ok values) :
    StoredRow frame.schema row values := by
  have hstores := (Except.mapM_iff_forall₂.mp h).imp fun _ _ hcell => hexact.array hcell
  exact (List.forall₂_and_left _ _).mpr ⟨(prepareRow_spec hrow).2.1, hstores⟩

theorem StoredRow.typed {schema : List Field} {row : Row} {values : List Value}
    (h : StoredRow schema row values) (hlength : schema.length = row.length) :
    List.Forall₂ (fun field v => Typed field.type v) schema values := by
  have hfst : (schema.zip row).map Prod.fst = schema := List.map_fst_zip hlength.le
  rw [← hfst]
  exact List.forall₂_map_left_iff.mpr (h.imp fun _ _ hx => hx.2.typed)

/-! ## What is written -/

section Write

variable {store : Store File} {rows front : List Row} {rowsPerObject : Option ℤ}
  {w w' : Writer File} {files : List (List Arrow)}

def StreamFile (env : Env File) (frame : FrameSchemaV1) (rows : List Row) (file : File) : Prop :=
  ∃ tables : List Arrow, file = env.parquet frame.schema tables ∧ (∀ table ∈ tables, table ≠ []) ∧
    tables.flatten.length ≤ rows.length ∧ ∀ values ∈ tables.flatten, ∃ raw ∈ rows, ∃ row,
      prepareRow env frame raw = .ok row ∧ storeRow env frame row = .ok values

def FilesApart (env : Env File) (frame : FrameSchemaV1) (store : Store File) (rows : List Row) :
    Prop :=
  ∀ f g, ((∃ sha, store.objects sha = some f) ∨ StreamFile env frame rows f) →
    StreamFile env frame rows g → env.fileSha256 f = env.fileSha256 g → f = g

/-- Where a writer is: `front` are the prepared rows that went into tables, `files` the tables of
the objects. -/
structure Written (env : Env File) (frame : FrameSchemaV1) (store : Store File) (rows : List Row)
    (w : Writer File) (front : List Row) (files : List (List Arrow)) : Prop where
  objects : List.Forall₂ (Placed env frame w.store) w.objects files
  stored : List.Forall₂ (fun row values => storeRow env frame row = .ok values) front
    (files.flatten ++ w.writer.getD []).flatten
  nonempty : ∀ table ∈ w.writer.getD [], table ≠ []
  origin : ∀ sha file, w.store.objects sha = some file →
    store.objects sha = some file ∨ StreamFile env frame rows file

structure FromStream (env : Env File) (frame : FrameSchemaV1) (rows front : List Row) : Prop where
  length : front.length ≤ rows.length
  prepared : ∀ row ∈ front, ∃ raw ∈ rows, prepareRow env frame raw = .ok row

theorem Written.streamFile (h : Written env frame store rows w front files) (hexact : env.Exact)
    (hfront : FromStream env frame rows front) {tables : List Arrow}
    (htables : w.writer = some tables) :
    StreamFile env frame rows (env.parquet frame.schema tables) ∧
      TypedRows frame.schema tables.flatten := by
  have hstored := h.stored
  have hnonempty := h.nonempty
  rw [htables, Option.getD_some] at hstored hnonempty
  rw [List.flatten_append] at hstored
  have hsource : ∀ values ∈ tables.flatten, ∃ raw ∈ rows, ∃ row,
      prepareRow env frame raw = .ok row ∧ storeRow env frame row = .ok values := by
    intro values hvalues
    obtain ⟨row, hrow, hstore⟩ :=
      hstored.flip.exists_of_mem (List.mem_append_right _ hvalues)
    obtain ⟨raw, hraw, hprepare⟩ := hfront.prepared row hrow
    exact ⟨raw, hraw, row, hprepare, hstore⟩
  have hlength : tables.flatten.length ≤ rows.length := by
    have htotal := hstored.length_eq
    rw [List.length_append] at htotal
    have := hfront.length
    omega
  refine ⟨⟨tables, rfl, hnonempty, hlength, hsource⟩, fun values hvalues => ?_⟩
  obtain ⟨raw, -, row, hprepare, hstore⟩ := hsource values hvalues
  exact (storedRow_of_storeRow hexact hprepare hstore).typed (prepareRow_spec hprepare).1

theorem placeObject_spec {store store' : Store File} {file : File}
    (happart : ∀ f sha, store.objects sha = some f → env.fileSha256 f = env.fileSha256 file →
      f = file) (h : placeObject env store file = .ok store') :
    store'.objects (env.fileSha256 file) = some file ∧
      (∀ sha f, store.objects sha = some f → store'.objects sha = some f) ∧
      ∀ sha f, store'.objects sha = some f → store.objects sha = some f ∨ f = file := by
  unfold placeObject at h
  cases hfinal : store.objects (env.fileSha256 file) with
  | some final =>
      rw [hfinal] at h
      obtain ⟨hsha, h⟩ := Except.of_ite_error h
      cases h
      cases happart final _ hfinal (not_not.mp hsha)
      exact ⟨hfinal, fun _ _ hf => hf, fun _ _ hf => .inl hf⟩
  | none =>
      rw [hfinal] at h
      cases h
      refine ⟨Function.update_self .., fun sha f hf => ?_, fun sha f hf => ?_⟩
      · have hne : sha ≠ env.fileSha256 file := by
          rintro rfl
          rw [hfinal] at hf
          cases hf
        rw [← hf]
        exact Function.update_of_ne hne ..
      · by_cases hsha : sha = env.fileSha256 file
        · subst hsha
          dsimp only at hf
          rw [Function.update_self] at hf
          exact .inr (Option.some.inj hf).symm
        · dsimp only at hf
          rw [Function.update_of_ne hsha] at hf
          exact .inl hf

theorem Written.closeWriter (h : Written env frame store rows w front files) (hexact : env.Exact)
    (hapart : FilesApart env frame store rows) (hfront : FromStream env frame rows front)
    (hclose : closeWriter env frame w = .ok w') :
    (∃ files', Written env frame store rows w' front files') ∧ w'.writer = none ∧
      w'.pending = w.pending ∧ w'.scan = w.scan := by
  unfold DataPlane.closeWriter at hclose
  cases htables : w.writer with
  | none =>
      rw [htables] at hclose
      cases hclose
      exact ⟨⟨files, h⟩, htables, rfl, rfl⟩
  | some tables =>
      rw [htables] at hclose
      obtain ⟨store', hplace, hclose⟩ := Except.bind_eq_ok.mp hclose
      cases Except.pure_eq_ok.mp hclose
      obtain ⟨hstream, htyped⟩ := h.streamFile hexact hfront htables
      obtain ⟨hself, hkeep, hold⟩ := placeObject_spec (fun f sha hf => by
        refine hapart f _ ?_ hstream
        rcases h.origin sha f hf with hf | hf
        · exact .inl ⟨sha, hf⟩
        · exact .inr hf) hplace
      refine ⟨⟨files ++ [tables], ?_, ?_, ?_, ?_⟩, rfl, rfl, rfl⟩
      · refine List.rel_append ?_ (.cons ⟨hself, rfl, rfl, htyped⟩ .nil)
        exact h.objects.imp fun item _ hplaced =>
          ⟨hkeep _ _ hplaced.file, hplaced.digest, hplaced.bytes, hplaced.typed⟩
      · have hstored := h.stored
        rw [htables, Option.getD_some] at hstored
        simpa using hstored
      · exact fun _ htable => absurd htable List.not_mem_nil
      · intro sha file hfile
        rcases hold sha file hfile with hfile | rfl
        · exact h.origin sha file hfile
        · exact .inr hstream

theorem Written.flush (h : Written env frame store rows w front files) (hexact : env.Exact)
    (hapart : FilesApart env frame store rows)
    (hfront : FromStream env frame rows (front ++ w.pending))
    (hflush : flush env frame rowsPerObject w = .ok w') :
    (∃ files', Written env frame store rows w' (front ++ w.pending) files') ∧
      w'.pending = [] ∧ w'.scan = w.scan := by
  unfold DataPlane.flush at hflush
  split at hflush
  · rename_i hpending
    cases hflush
    rw [hpending, List.append_nil]
    exact ⟨⟨files, h⟩, rfl, rfl⟩
  · rename_i hpending
    obtain ⟨table, htable, hflush⟩ := Except.bind_eq_ok.mp hflush
    have hrows := Except.mapM_iff_forall₂.mp htable
    have hwritten : Written env frame store rows (writeTable w table) (front ++ w.pending)
        files := by
      refine ⟨h.objects, ?_, ?_, h.origin⟩
      · have hstored := List.rel_append h.stored hrows
        simpa [writeTable] using hstored
      · intro t ht
        rcases List.mem_append.mp ht with ht | ht
        · exact h.nonempty t ht
        · cases List.mem_singleton.mp ht
          rintro rfl
          exact hpending (List.length_eq_zero_iff.mp hrows.length_eq)
    dsimp only at hflush
    split at hflush
    · obtain ⟨hfiles, -, hnil, hscan⟩ := hwritten.closeWriter hexact hapart hfront hflush
      exact ⟨hfiles, hnil, hscan⟩
    · cases Except.pure_eq_ok.mp hflush
      exact ⟨⟨files, hwritten⟩, rfl, rfl⟩

/-! ## What is scanned -/

/-- Where a scan is: `prepared` are the rows so far, `texts` the bytes that were hashed. -/
structure Scanned (env : Env File) (frame : FrameSchemaV1) (raws : List Row) (s : Scan)
    (prepared : List Row) (texts : List Text) : Prop where
  rows : List.Forall₂ (fun raw row => prepareRow env frame raw = .ok row) raws prepared
  encoded : List.Forall₂ (fun row text => canonicalRowBytes row = .ok text) prepared texts
  digest : s.digest = texts.flatten
  count : s.count = raws.length
  logical : raws.foldlM (fun s raw => (scanRow env frame s raw).map Prod.fst) Scan.start = .ok s

theorem Scanned.snoc {raws prepared : List Row} {s s' : Scan} {texts : List Text} {raw row : Row}
    (h : Scanned env frame raws s prepared texts)
    (hscan : scanRow env frame s raw = .ok (s', row)) :
    ∃ text, Scanned env frame (raws ++ [raw]) s' (prepared ++ [row]) (texts ++ [text]) := by
  have hlogical : (raws ++ [raw]).foldlM
      (fun s raw => (scanRow env frame s raw).map Prod.fst) Scan.start = .ok s' :=
    Replay.replay_snoc_ok h.logical (by rw [hscan]; rfl)
  unfold scanRow at hscan
  obtain ⟨row', hprepare, hscan⟩ := Except.bind_eq_ok.mp hscan
  obtain ⟨key, -, hscan⟩ := Except.bind_eq_ok.mp hscan
  obtain ⟨-, hscan⟩ := Except.of_ite_error hscan
  obtain ⟨text, htext, hscan⟩ := Except.bind_eq_ok.mp hscan
  cases Except.pure_eq_ok.mp hscan
  refine ⟨text, List.rel_append h.rows (.cons hprepare .nil),
    List.rel_append h.encoded (.cons htext .nil), ?_, ?_, hlogical⟩
  · rw [List.flatten_append, List.flatten_singleton, h.digest]
  · rw [List.length_append, h.count]
    rfl

theorem Scanned.fromStream {raws prepared : List Row} {s : Scan} {texts : List Text}
    (h : Scanned env frame raws s prepared texts) (hraws : raws <+: rows) :
    FromStream env frame rows prepared := by
  refine ⟨h.rows.length_eq ▸ hraws.length_le, fun row hrow => ?_⟩
  obtain ⟨raw, hraw, hprepare⟩ := h.rows.flip.exists_of_mem hrow
  exact ⟨raw, hraws.subset hraw, hprepare⟩

/-! ## The loop -/

/-- Where the loop of `write_frame` is, after some rows of the stream. -/
def LoopInv (env : Env File) (frame : FrameSchemaV1) (store : Store File) (rows raws : List Row)
    (w : Writer File) : Prop :=
  ∃ front files texts, Scanned env frame raws w.scan (front ++ w.pending) texts ∧
    Written env frame store rows w front files

theorem LoopInv.addRow {raws : List Row} {raw : Row} (h : LoopInv env frame store rows raws w)
    (hexact : env.Exact) (hapart : FilesApart env frame store rows)
    (hraws : raws ++ [raw] <+: rows)
    (hadd : addRow env frame rowsPerObject w raw = .ok w') :
    LoopInv env frame store rows (raws ++ [raw]) w' := by
  obtain ⟨front, files, texts, hscanned, hwritten⟩ := h
  obtain ⟨⟨s, row⟩, hscan, hadd⟩ := Except.bind_eq_ok.mp hadd
  obtain ⟨text, hscanned⟩ := hscanned.snoc hscan
  have hwritten : Written env frame store rows
      { w with scan := s, pending := w.pending ++ [row] } front files :=
    ⟨hwritten.objects, hwritten.stored, hwritten.nonempty, hwritten.origin⟩
  rw [List.append_assoc] at hscanned
  dsimp only at hadd
  split at hadd
  · obtain ⟨⟨files', hwritten'⟩, hpending, hscan'⟩ :=
      hwritten.flush hexact hapart (hscanned.fromStream hraws) hadd
    refine ⟨_, files', texts ++ [text], ?_, hwritten'⟩
    rw [hpending, hscan', List.append_nil]
    exact hscanned
  · cases Except.pure_eq_ok.mp hadd
    exact ⟨front, files, texts ++ [text], hscanned, hwritten⟩

theorem loopInv_of_foldlM (hexact : env.Exact) (hapart : FilesApart env frame store rows)
    {raws : List Row} (hraws : raws <+: rows)
    (hfold : raws.foldlM (addRow env frame rowsPerObject) ⟨Scan.start, [], none, 0, [], store⟩ =
      .ok w) : LoopInv env frame store rows raws w := by
  induction raws using List.reverseRecOn generalizing w with
  | nil =>
      cases hfold
      exact ⟨[], [], [], ⟨.nil, .nil, rfl, rfl, rfl⟩, .nil, .nil,
        fun _ ht => absurd ht List.not_mem_nil, fun _ _ hfile => .inl hfile⟩
  | append_singleton raws raw ih =>
      rw [List.foldlM_append] at hfold
      obtain ⟨before, hbefore, hadd⟩ := Except.bind_eq_ok.mp hfold
      rw [List.foldlM_cons] at hadd
      obtain ⟨after, hafter, hadd⟩ := Except.bind_eq_ok.mp hadd
      cases Except.pure_eq_ok.mp hadd
      exact (ih ((List.prefix_append raws [raw]).trans hraws) hbefore).addRow hexact hapart hraws
        hafter

/-- What a written frame is: its rows are prepared and stored one by one, and its manifest names
the objects that hold them and the digest of their texts. -/
structure FrameWritten (env : Env File) (frame : FrameSchemaV1) (raws : List Row)
    (store : Store File) (manifest : FrameManifestV1) (prepared : List Row) (texts : List Text)
    (files : List (List Arrow)) : Prop where
  rows : List.Forall₂ (fun raw row => prepareRow env frame raw = .ok row) raws prepared
  encoded : List.Forall₂ (fun row text => canonicalRowBytes row = .ok text) prepared texts
  stored : List.Forall₂ (fun row values => storeRow env frame row = .ok values) prepared
    (files.map List.flatten).flatten
  objects : List.Forall₂ (Placed env frame store) manifest.objects files
  kind : manifest.frameKind = frame.kind
  fingerprint : manifest.frameSchemaFingerprint = fingerprint env frame
  count : manifest.rowCount = raws.length
  hash : manifest.logicalContentHash = env.sha256 texts.flatten
  logical : logicalContentHashV1 env frame raws =
    .ok (manifest.logicalContentHash, manifest.rowCount)
  integrity : manifest.integrityVerified env = true

theorem objects_placeManifest {store' : Store File} {payload : Payload}
    (h : placeManifest env store payload = .ok store') : store'.objects = store.objects := by
  unfold placeManifest at h
  split at h
  · obtain ⟨-, h⟩ := Except.of_ite_error h
    cases h
    rfl
  · cases h
    rfl

theorem writeFrame_spec (hexact : env.Exact) (hapart : FilesApart env frame store rows)
    {store' : Store File} {manifest : FrameManifestV1} {lineage : Text} {cacheKey : Option String}
    (h : writeFrame env frame rowsPerObject store rows lineage cacheKey =
      .ok (store', manifest)) :
    ∃ prepared texts files, FrameWritten env frame rows store' manifest prepared texts files := by
  unfold writeFrame at h
  obtain ⟨w₁, hloop, h⟩ := Except.bind_eq_ok.mp h
  obtain ⟨w₂, hflush, h⟩ := Except.bind_eq_ok.mp h
  obtain ⟨w₃, hclose, h⟩ := Except.bind_eq_ok.mp h
  obtain ⟨store₄, hmanifest, h⟩ := Except.bind_eq_ok.mp h
  cases Except.pure_eq_ok.mp h
  obtain ⟨front, files, texts, hscanned, hwritten⟩ :=
    loopInv_of_foldlM hexact hapart List.prefix_rfl hloop
  have hstream := hscanned.fromStream List.prefix_rfl
  obtain ⟨⟨files₂, hwritten₂⟩, -, hscan₂⟩ := hwritten.flush hexact hapart hstream hflush
  obtain ⟨⟨files₃, hwritten₃⟩, hnone, -, hscan₃⟩ :=
    hwritten₂.closeWriter hexact hapart hstream hclose
  have hscan : w₃.scan = w₁.scan := hscan₃.trans hscan₂
  have hstored := hwritten₃.stored
  rw [hnone, Option.getD_none, List.append_nil] at hstored
  refine ⟨_, texts, files₃, hscanned.rows, hscanned.encoded, ?_, ?_, rfl, rfl, ?_, ?_, ?_, ?_⟩
  · rwa [← List.flatten_flatten]
  · refine hwritten₃.objects.imp fun item _ hplaced => ⟨?_, hplaced.digest, hplaced.bytes,
      hplaced.typed⟩
    rw [objects_placeManifest hmanifest]
    exact hplaced.file
  · show w₃.scan.count = rows.length
    rw [hscan, hscanned.count]
  · show env.sha256 w₃.scan.digest = _
    rw [hscan, hscanned.digest]
  · show _ = Except.ok (env.sha256 w₃.scan.digest, w₃.scan.count)
    rw [hscan, logicalContentHashV1, hscanned.logical]
    rfl
  · exact decide_eq_true rfl

end Write

/-! ## Frames that come back -/

section Frame

variable {raws prepared : List Row} {stored : List (List Value)} {texts texts' : List Text}

theorem readable_rows
    (h : List.Forall₂ (fun row values => frame.schema.length = row.length ∧
      StoredRow frame.schema row values) prepared stored)
    (hkept : ∀ row ∈ prepared, KeptRow frame.schema row)
    (htext : List.Forall₂ (fun row text => canonicalRowBytes row = .ok text) prepared texts) :
    stored.mapM (fun values => values.mapM toPython) = .ok prepared := by
  suffices hall : (∀ values ∈ stored, ∀ v ∈ values, Readable v) ∧
      prepared = stored.map fun values => values.map cellOf from mapM_rows_eq_ok_iff.mpr hall
  induction h generalizing texts with
  | nil => exact ⟨fun _ hv => absurd hv List.not_mem_nil, rfl⟩
  | cons hrow _ ih =>
      cases htext with
      | cons hrowtext htext =>
          obtain ⟨hkeptrow, hkept⟩ := List.forall_mem_cons.mp hkept
          obtain ⟨hreadable, hmap⟩ := hrow.2.readable hrow.1 hkeptrow hrowtext
          obtain ⟨htail, hrows⟩ := ih hkept htext
          refine ⟨List.forall_mem_cons.mpr ⟨hreadable, htail⟩, ?_⟩
          rw [List.map_cons, hmap, ← hrows]

theorem settled_rows
    (h : List.Forall₂ (fun row values => frame.schema.length = row.length ∧
      StoredRow frame.schema row values) prepared stored)
    (htext : List.Forall₂ (fun row text => canonicalRowBytes row = .ok text) prepared texts)
    (hreadable : ∀ values ∈ stored, ∀ v ∈ values, Readable v)
    (htext' : List.Forall₂ (fun row text => canonicalRowBytes row = .ok text)
      (stored.map fun values => values.map cellOf) texts') :
    List.Forall₂ Settled texts texts' ∧
      (texts = texts' → ∀ row ∈ prepared, KeptRow frame.schema row) := by
  induction h generalizing texts texts' with
  | nil =>
      cases htext
      cases htext'
      exact ⟨.nil, fun _ _ hrow => absurd hrow List.not_mem_nil⟩
  | cons hrow _ ih =>
      cases htext with
      | cons hrowtext htext =>
          cases htext' with
          | cons hrowtext' htext' =>
              obtain ⟨hreadablerow, hreadable⟩ := List.forall_mem_cons.mp hreadable
              obtain ⟨hsettled, hkept⟩ :=
                hrow.2.settled hrow.1 hrowtext hreadablerow hrowtext'
              obtain ⟨htail, hkepts⟩ := ih htext hreadable htext'
              refine ⟨.cons hsettled htail, fun heq => List.forall_mem_cons.mpr ?_⟩
              obtain ⟨hhead, heq⟩ := List.cons.inj heq
              exact ⟨hkept hhead, hkepts heq⟩

theorem keptRow_iff_plain
    (h : List.Forall₂ (fun raw row => prepareRow env frame raw = .ok row) raws prepared) :
    (∀ row ∈ prepared, KeptRow frame.schema row) ↔
      ∀ raw ∈ raws, ∀ x ∈ frame.schema.zip raw, Plain env x.1 x.2 := by
  induction h with
  | nil => simp
  | cons hrow _ ih =>
      rw [List.forall_mem_cons, List.forall_mem_cons, ih]
      exact and_congr_left fun _ => (prepareRow_spec hrow).2.2

variable {store : Store File} {manifest : FrameManifestV1} {files : List (List Arrow)}

theorem FrameWritten.storedRows (h : FrameWritten env frame raws store manifest prepared texts
    files) (hexact : env.Exact) :
    List.Forall₂ (fun row values => frame.schema.length = row.length ∧
      StoredRow frame.schema row values) prepared (files.map List.flatten).flatten := by
  have hprepared : ∀ row ∈ prepared, ∃ raw, prepareRow env frame raw = .ok row := by
    intro row hrow
    obtain ⟨raw, -, hprepare⟩ := h.rows.flip.exists_of_mem hrow
    exact ⟨raw, hprepare⟩
  refine ((List.forall₂_and_left _ _).mpr ⟨hprepared, h.stored⟩).imp ?_
  rintro row values ⟨⟨raw, hprepare⟩, hstore⟩
  exact ⟨(prepareRow_spec hprepare).1, storedRow_of_storeRow hexact hprepare hstore⟩

theorem verify_eq_ok_iff : verify env store manifest = .ok () ↔
    manifest.integrityVerified env = true ∧
    (∃ units, manifest.objects.mapM (checkObject env store) = .ok units) ∧
    ∃ read digest, iterRows env store manifest = .ok read ∧
      read.mapM canonicalRowBytes = .ok digest ∧ read.length = manifest.rowCount ∧
      env.sha256 digest.flatten = manifest.logicalContentHash := by
  unfold verify
  constructor
  · intro h
    obtain ⟨hintegrity, h⟩ := Except.of_ite_error h
    obtain ⟨units, hunits, h⟩ := Except.bind_eq_ok.mp h
    obtain ⟨read, hread, h⟩ := Except.bind_eq_ok.mp h
    obtain ⟨digest, hdigest, h⟩ := Except.bind_eq_ok.mp h
    obtain ⟨hsame, -⟩ := Except.of_ite_error h
    obtain ⟨hcount, hhash⟩ := not_or.mp hsame
    exact ⟨Bool.not_eq_false _ ▸ hintegrity, ⟨units, hunits⟩, read, digest, hread, hdigest,
      not_not.mp hcount, not_not.mp hhash⟩
  · rintro ⟨hintegrity, ⟨units, hunits⟩, read, digest, hread, hdigest, hcount, hhash⟩
    rw [hintegrity, if_neg (by decide), hunits, Except.ok_bind, hread, Except.ok_bind, hdigest,
      Except.ok_bind, if_neg (not_or.mpr ⟨not_not.mpr hcount, not_not.mpr hhash⟩)]

/-- Python's `==`, on cells: a decimal by its value, a timestamp by its instant. -/
def Cell.Equals : Cell → Cell → Prop
  | .decimal (.finite d), .decimal (.finite d') => d.value = d'.value
  | a, b => a = b

theorem Cell.equals_refl (cell : Cell) : cell.Equals cell := by
  unfold Cell.Equals
  split
  · rfl
  · rfl

/-- What a manifest should be of the stream it was written from: its rows are the prepared ones in
order, it verifies, and it has the hash and the count of the stream. -/
structure Faithful (env : Env File) (frame : FrameSchemaV1) (raws : List Row) (store : Store File)
    (manifest : FrameManifestV1) : Prop where
  rows : ∃ prepared read, raws.mapM (prepareRow env frame) = .ok prepared ∧
    iterRows env store manifest = .ok read ∧
    List.Forall₂ (List.Forall₂ Cell.Equals) prepared read
  verifies : verify env store manifest = .ok ()
  logical : logicalContentHashV1 env frame raws =
    .ok (manifest.logicalContentHash, manifest.rowCount)

def TextsApart (env : Env File) (frame : FrameSchemaV1) (raws : List Row) (store : Store File)
    (manifest : FrameManifestV1) : Prop :=
  ∀ prepared read texts texts', raws.mapM (prepareRow env frame) = .ok prepared →
    iterRows env store manifest = .ok read → prepared.mapM canonicalRowBytes = .ok texts →
    read.mapM canonicalRowBytes = .ok texts' →
    env.sha256 texts.flatten = env.sha256 texts'.flatten → texts.flatten = texts'.flatten

theorem FrameWritten.plain_of_verify
    (h : FrameWritten env frame raws store manifest prepared texts files) (hexact : env.Exact)
    (hframe : frame ∈ frameSchemas) (hapart : TextsApart env frame raws store manifest)
    (hverify : verify env store manifest = .ok ()) :
    ∀ raw ∈ raws, ∀ x ∈ frame.schema.zip raw, Plain env x.1 x.2 := by
  rw [← keptRow_iff_plain h.rows]
  obtain ⟨-, -, read, digest, hread, hdigest, -, hhash⟩ := verify_eq_ok_iff.mp hverify
  obtain ⟨hreadable, rfl⟩ := mapM_rows_eq_ok_iff.mp
    ((iterRows_eq_ok_iff hexact hframe h.kind h.fingerprint h.objects).mp hread)
  have hsame := hapart _ _ _ _ (Except.mapM_iff_forall₂.mpr h.rows) hread
    (Except.mapM_iff_forall₂.mpr h.encoded) hdigest (h.hash.symm.trans hhash.symm)
  obtain ⟨hsettled, hkept⟩ := settled_rows (h.storedRows hexact) h.encoded hreadable
    (Except.mapM_iff_forall₂.mp hdigest)
  rcases JsonText.flatten_eq_or_apart hsettled with heq | hne
  · exact hkept heq
  · exact absurd hsame hne.ne

theorem FrameWritten.faithful_of_plain
    (h : FrameWritten env frame raws store manifest prepared texts files) (hexact : env.Exact)
    (hframe : frame ∈ frameSchemas)
    (hplain : ∀ raw ∈ raws, ∀ x ∈ frame.schema.zip raw, Plain env x.1 x.2) :
    Faithful env frame raws store manifest := by
  have hkept := (keptRow_iff_plain h.rows).mpr hplain
  have hread : iterRows env store manifest = .ok prepared :=
    (iterRows_eq_ok_iff hexact hframe h.kind h.fingerprint h.objects).mpr
      (readable_rows (h.storedRows hexact) hkept h.encoded)
  refine ⟨⟨prepared, prepared, Except.mapM_iff_forall₂.mpr h.rows, hread, ?_⟩, ?_, h.logical⟩
  · exact List.forall₂_same.mpr fun row _ => List.forall₂_same.mpr fun cell _ => cell.equals_refl
  · exact verify_eq_ok_iff.mpr ⟨h.integrity, ⟨_, mapM_checkObject h.objects⟩, prepared, texts,
      hread, Except.mapM_iff_forall₂.mpr h.encoded,
      h.rows.length_eq.symm.trans h.count.symm, h.hash.symm⟩

end Frame

/-! ## A frame of one row -/

def sampleArray : ColumnType → Cell → Except Exn Value
  | _, .none => .ok .null
  | .string, .str s => .ok (.text s)
  | .int32, .int n => .ok (.int n)
  | .int64, .int n => .ok (.int n)
  | .timestamp, .datetime (.aware t) => .ok (.micros (t - epoch))
  | .timestamp, .int n => .ok (.micros n)
  | .decimal scale, .decimal (.finite d) =>
      if d.exponent = -scale then .ok (.ticks scale (d.sign * d.coefficient)) else .error .typeError
  | _, _ => .error .typeError

def sampleEnv : Env (List Field × List Arrow) where
  sha256 := String.ofList
  fileSha256 := fun file => toString file.2.flatten.length
  fileSize := fun file => file.2.flatten.length
  pyarrowVersion := "17.0.0"
  array := sampleArray
  parquet := fun fields tables => (fields, tables)
  schemaArrow := Prod.fst
  iterBatches := fun _ file => file.2
  spelled := fun _ => none
  localInstant := id
  precision := 28

theorem sampleEnv_exact : sampleEnv.Exact where
  array := by
    intro type cell v h
    change sampleArray type cell = .ok v at h
    unfold sampleArray at h
    split at h
    · cases h; exact .null _
    · cases h; exact .text _
    · cases h; exact .int32 _
    · cases h; exact .int64 _
    · cases h; exact .instant _
    · cases h; exact .micros _
    · split at h
      · rename_i hexp
        cases h
        exact .decimal (Decimal.Parts.value_mul_pow hexp)
      · cases h
    · cases h
  schemaArrow := fun _ _ => rfl
  iterBatches := fun _ _ _ => rfl

def sampleRow (value : Decimal.Parts) : Row :=
  let t := .datetime (.aware (738886 * 86400 * 10 ^ 6))
  [.str "BTCUSDT", t, t, .none, .decimal (.finite value)]

def sampleWrite (value : Decimal.Parts) :
    Except Exn (Store (List Field × List Arrow) × FrameManifestV1) :=
  writeFrame sampleEnv featureFrame (some 1) ⟨fun _ => none, fun _ => none⟩ [sampleRow value]
    ['\x7b', '\x7d'] none

theorem sample_filesApart (value : Decimal.Parts) :
    FilesApart sampleEnv featureFrame ⟨fun _ => none, fun _ => none⟩ [sampleRow value] := by
  have hfile : ∀ f, StreamFile sampleEnv featureFrame [sampleRow value] f →
      f = (featureFrame.schema, []) ∨ ∃ values row, f = (featureFrame.schema, [[values]]) ∧
        prepareRow sampleEnv featureFrame (sampleRow value) = .ok row ∧
        storeRow sampleEnv featureFrame row = .ok values := by
    rintro f ⟨tables, rfl, hnonempty, hlength, hsource⟩
    cases tables with
    | nil => exact .inl rfl
    | cons table tables =>
        obtain ⟨hne, hrest⟩ := List.forall_mem_cons.mp hnonempty
        obtain ⟨values, table, rfl⟩ := List.exists_cons_of_ne_nil hne
        rw [List.flatten_cons, List.cons_append, List.length_cons, List.length_append] at hlength
        have hshort : table.length + tables.flatten.length = 0 := by
          have : [sampleRow value].length = 1 := rfl
          omega
        obtain ⟨htable, hflatten⟩ := Nat.add_eq_zero_iff.mp hshort
        cases List.length_eq_zero_iff.mp htable
        have htables : tables = [] := by
          cases tables with
          | nil => rfl
          | cons t ts =>
              have ht := List.flatten_eq_nil_iff.mp (List.length_eq_zero_iff.mp hflatten) t
                List.mem_cons_self
              exact absurd ht (hrest t List.mem_cons_self)
        subst htables
        obtain ⟨raw, hraw, row, hrow, hstore⟩ := hsource values List.mem_cons_self
        cases List.mem_singleton.mp hraw
        exact .inr ⟨values, row, rfl, hrow, hstore⟩
  intro f g hf hg hsha
  rcases hf with ⟨sha, hf⟩ | hf
  · cases hf
  · rcases hfile f hf with rfl | ⟨values, row, rfl, hrow, hstore⟩
    · rcases hfile g hg with rfl | ⟨values, row, rfl, -, -⟩
      · rfl
      · exact absurd (show toString 0 = toString 1 from hsha) (by decide)
    · rcases hfile g hg with rfl | ⟨values', row', rfl, hrow', hstore'⟩
      · exact absurd (show toString 1 = toString 0 from hsha) (by decide)
      · cases hrow.symm.trans hrow'
        cases hstore.symm.trans hstore'
        rfl

theorem sample_textsApart (raws : List Row) (store : Store (List Field × List Arrow))
    (manifest : FrameManifestV1) : TextsApart sampleEnv featureFrame raws store manifest :=
  fun _ _ _ _ _ _ _ _ h => String.ofList_injective h

theorem sampleRow_plain : ∀ raw ∈ [sampleRow ⟨false, 15, -1⟩],
    ∀ x ∈ featureFrame.schema.zip raw, Plain sampleEnv x.1 x.2 := by
  intro raw hraw x hx
  cases List.mem_singleton.mp hraw
  simp only [featureFrame, required, optional, sampleRow, List.zip_cons_cons,
    List.zip_nil_right, List.mem_cons, List.not_mem_nil, or_false] at hx
  rcases hx with rfl | rfl | rfl | rfl | rfl
  · trivial
  · exact fun _ => nofun
  · exact fun _ => nofun
  · exact fun _ => nofun
  · intro _ d hd
    cases hd
    decide

/-! ## Faithful frames -/

/-- A frame that was written is faithful to its stream precisely when no decimal is given as the
negative zero and no timestamp as an integer, however its rows were cut into objects. -/
theorem writeFrame_faithful_iff {store store' : Store File} {raws : List Row}
    {manifest : FrameManifestV1} {rowsPerObject : Option ℤ} {lineage : Text}
    {cacheKey : Option String} (hexact : env.Exact) (hframe : frame ∈ frameSchemas)
    (hfiles : FilesApart env frame store raws)
    (htexts : TextsApart env frame raws store' manifest)
    (h : writeFrame env frame rowsPerObject store raws lineage cacheKey =
      .ok (store', manifest)) :
    Faithful env frame raws store' manifest ↔
      ∀ raw ∈ raws, ∀ x ∈ frame.schema.zip raw, Plain env x.1 x.2 := by
  obtain ⟨prepared, texts, files, hwritten⟩ := writeFrame_spec hexact hfiles h
  exact ⟨fun hfaithful => hwritten.plain_of_verify hexact hframe htexts hfaithful.verifies,
    hwritten.faithful_of_plain hexact hframe⟩

theorem writeFrame_faithful_iff_sample : ∃ r, sampleWrite ⟨false, 15, -1⟩ = .ok r ∧
    Faithful sampleEnv featureFrame [sampleRow ⟨false, 15, -1⟩] r.1 r.2 := by
  obtain ⟨r, hr⟩ := Except.exists_of_isOk
    (show (sampleWrite ⟨false, 15, -1⟩).isOk = true by decide +kernel)
  exact ⟨r, hr, (writeFrame_faithful_iff sampleEnv_exact (by decide) (sample_filesApart _)
    (sample_textsApart _ _ _) hr).mpr sampleRow_plain⟩

/-- The frame of the negative zero is written and does not verify. -/
theorem negativeZero_mismatch : ∃ r, sampleWrite ⟨true, 0, 0⟩ = .ok r ∧
    verify sampleEnv r.1 r.2 ≠ .ok () ∧
    ¬ Faithful sampleEnv featureFrame [sampleRow ⟨true, 0, 0⟩] r.1 r.2 := by
  obtain ⟨r, hr⟩ := Except.exists_of_isOk
    (show (sampleWrite ⟨true, 0, 0⟩).isOk = true by decide +kernel)
  obtain ⟨prepared, texts, files, hwritten⟩ :=
    writeFrame_spec sampleEnv_exact (sample_filesApart _) hr
  have hverify : verify sampleEnv r.1 r.2 ≠ .ok () := by
    intro hverify
    have hplain := hwritten.plain_of_verify sampleEnv_exact (by decide) (sample_textsApart _ _ _)
      hverify _ List.mem_cons_self (optional (.decimal 12) "value", .decimal (.finite ⟨true, 0, 0⟩))
      (by simp [featureFrame, sampleRow])
    exact hplain nofun _ rfl ⟨rfl, rfl⟩
  exact ⟨r, hr, hverify, fun hfaithful => hverify hfaithful.verifies⟩

end TradePlatform.DataPlane
