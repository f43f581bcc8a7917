/-
# `TradePlatform.ResearchFrameReading` — what a batch of typed columns reads back as

`_python_columns_v1` converts a batch column by column and lets the decimals of all columns of
one type share a dictionary.  Sharing changes nothing: a slice of the joined column is the column
(`take_drop_flatten`), and the value at the index of a value is the value.  So a batch reads back
as its rows do, value by value (`readBatch_eq_ok_iff`).
-/
import TradePlatform.Lib.Table
import TradePlatform.ResearchDataPlane

namespace TradePlatform.DataPlane

/-! ## Single values -/

def Readable (v : Value) : Prop := ∃ cell, toPython v = .ok cell

def cellOf (v : Value) : Cell :=
  match toPython v with
  | .ok cell => cell
  | .error _ => .none

theorem toPython_eq_ok_iff {v : Value} {cell : Cell} :
    toPython v = .ok cell ↔ Readable v ∧ cell = cellOf v := by
  unfold cellOf
  constructor
  · intro h
    rw [h]
    exact ⟨⟨cell, h⟩, rfl⟩
  · rintro ⟨⟨cell', h⟩, rfl⟩
    rw [h]

theorem toPython_of_readable {v : Value} (h : Readable v) : toPython v = .ok (cellOf v) :=
  toPython_eq_ok_iff.mpr ⟨h, rfl⟩

theorem mapM_toPython_eq_ok_iff {vs : List Value} {cells : List Cell} :
    vs.mapM toPython = .ok cells ↔ (∀ v ∈ vs, Readable v) ∧ cells = vs.map cellOf := by
  constructor
  · intro h
    have hreadable : ∀ v ∈ vs, Readable v := by
      intro v hv
      obtain ⟨cell, -, hcell⟩ := Except.exists_of_mem_mapM h hv
      exact ⟨cell, hcell⟩
    have hok := Except.mapM_eq_ok fun v hv => toPython_of_readable (hreadable v hv)
    exact ⟨hreadable, Except.ok.inj (h.symm.trans hok)⟩
  · rintro ⟨hreadable, rfl⟩
    exact Except.mapM_eq_ok fun v hv => toPython_of_readable (hreadable v hv)

theorem mapM_rows_eq_ok_iff {batch : Arrow} {rows : List Row} :
    batch.mapM (fun row => row.mapM toPython) = .ok rows ↔
      (∀ row ∈ batch, ∀ v ∈ row, Readable v) ∧ rows = batch.map fun row => row.map cellOf := by
  constructor
  · intro h
    have hrows : ∀ row ∈ batch, row.mapM toPython = .ok (row.map cellOf) ∧
        ∀ v ∈ row, Readable v := by
      intro row hrow
      obtain ⟨cells, -, hcells⟩ := Except.exists_of_mem_mapM h hrow
      obtain ⟨hreadable, rfl⟩ := mapM_toPython_eq_ok_iff.mp hcells
      exact ⟨hcells, hreadable⟩
    have hok := Except.mapM_eq_ok fun row hrow => (hrows row hrow).1
    exact ⟨fun row hrow => (hrows row hrow).2, Except.ok.inj (h.symm.trans hok)⟩
  · rintro ⟨hreadable, rfl⟩
    exact Except.mapM_eq_ok fun row hrow => mapM_toPython_eq_ok_iff.mpr ⟨hreadable row hrow, rfl⟩

inductive Typed : ColumnType → Value → Prop
  | null (type : ColumnType) : Typed type .null
  | text (s : String) : Typed .string (.text s)
  | int32 (n : ℤ) : Typed .int32 (.int n)
  | int64 (n : ℤ) : Typed .int64 (.int n)
  | ticks (scale : ℕ) (n : ℤ) : Typed (.decimal scale) (.ticks scale n)
  | micros (n : ℤ) : Typed .timestamp (.micros n)

theorem Typed.readable {scale : ℕ} {v : Value} (h : Typed (.decimal scale) v) : Readable v := by
  cases h with
  | null => exact ⟨_, rfl⟩
  | ticks n => exact ⟨_, rfl⟩

/-! ## Sharing a dictionary -/

theorem take_drop_flatten {α : Type} {n : ℕ} {columns : List (List α)} {k : ℕ} {column : List α}
    (hlength : ∀ c ∈ columns, c.length = n) (hk : columns[k]? = some column) :
    (columns.flatten.drop (k * n)).take n = column := by
  induction columns generalizing k with
  | nil => cases hk
  | cons c columns ih =>
      have hc := hlength c List.mem_cons_self
      cases k with
      | zero =>
          cases Option.some.inj hk
          rw [Nat.zero_mul, List.drop_zero, List.flatten_cons, ← hc, List.take_left]
      | succ k =>
          have hdrop : (c :: columns).flatten.drop ((k + 1) * n) =
              columns.flatten.drop (k * n) := by
            rw [List.flatten_cons, Nat.succ_mul, Nat.add_comm, ← List.drop_drop, ← hc,
              List.drop_left]
          rw [hdrop]
          exact ih (fun c' hc' => hlength c' (List.mem_cons_of_mem _ hc')) hk

theorem of_mem_dictionary {joined : List Value} {v : Value} (h : v ∈ dictionary joined) :
    v ∈ joined :=
  (List.mem_filter.mp (List.mem_eraseDups.mp h)).1

theorem mem_dictionary {joined : List Value} {v : Value} (h : v ∈ joined) (hne : v ≠ .null) :
    v ∈ dictionary joined :=
  List.mem_eraseDups.mpr (List.mem_filter.mpr ⟨h, decide_eq_true hne⟩)

theorem getD_idxOf {values : List Value} {v : Value} (h : v ∈ values) :
    (values.map cellOf).getD (values.idxOf v) .none = cellOf v := by
  have hidx := List.getElem?_idxOf h
  rw [List.getD_eq_getElem?_getD, List.getElem?_map, hidx]
  rfl

theorem sharedColumn_eq {joined column : List Value} {lo numRows : ℕ}
    (hslice : (joined.drop lo).take numRows = column) :
    sharedColumn joined ((dictionary joined).map cellOf) lo numRows = column.map cellOf := by
  unfold sharedColumn
  rw [hslice]
  refine List.map_congr_left fun v hv => ?_
  by_cases hnull : v = .null
  · rw [if_pos hnull, hnull]
    rfl
  · have hmem : v ∈ joined := List.mem_of_mem_drop (List.mem_of_mem_take (hslice ▸ hv))
    rw [if_neg hnull, getD_idxOf (mem_dictionary hmem hnull)]

/-! ## A column -/

section Column

variable {columns : Columns} {numRows i : ℕ} {column : ColumnType × List Value}

structure Columns.WellFormed (columns : Columns) (numRows : ℕ) : Prop where
  length : ∀ column ∈ columns, column.2.length = numRows
  typed : ∀ column ∈ columns, ∀ v ∈ column.2, Typed column.1 v

theorem exists_of_mem_positionsOf {type : ColumnType} (h : i ∈ positionsOf columns type) :
    ∃ c, columns[i]? = some c ∧ c.1 = type :=
  Option.map_eq_some_iff.mp (of_decide_eq_true (List.mem_filter.mp h).2)

theorem mem_positionsOf (hi : columns[i]? = some column) : i ∈ positionsOf columns column.1 := by
  have hlt := (List.getElem?_eq_some_iff.mp hi).1
  refine List.mem_filter.mpr ⟨List.mem_range.mpr hlt, decide_eq_true ?_⟩
  rw [hi]
  rfl

theorem typed_joinedColumns (h : columns.WellFormed numRows) {type : ColumnType} {v : Value}
    (hv : v ∈ joinedColumns columns type) : Typed type v := by
  obtain ⟨values, hvalues, hmem⟩ := List.mem_flatten.mp hv
  obtain ⟨j, hj, rfl⟩ := List.mem_map.mp hvalues
  obtain ⟨c, hget, rfl⟩ := exists_of_mem_positionsOf hj
  rw [hget] at hmem
  exact h.typed c (List.mem_of_getElem? hget) v hmem

theorem take_drop_joinedColumns (h : columns.WellFormed numRows) (hi : columns[i]? = some column) :
    ((joinedColumns columns column.1).drop
      ((positionsOf columns column.1).idxOf i * numRows)).take numRows = column.2 := by
  refine take_drop_flatten (fun values hvalues => ?_) ?_
  · obtain ⟨j, hj, rfl⟩ := List.mem_map.mp hvalues
    obtain ⟨c, hget, -⟩ := exists_of_mem_positionsOf hj
    rw [hget]
    exact h.length c (List.mem_of_getElem? hget)
  · rw [List.getElem?_map, List.getElem?_idxOf (mem_positionsOf hi)]
    show some ((columns[i]?.map Prod.snd).getD []) = some column.2
    rw [hi]
    rfl

theorem pythonColumn_eq (h : columns.WellFormed numRows) (hi : columns[i]? = some column) :
    pythonColumn columns numRows i column = column.2.mapM toPython := by
  have hslice := take_drop_joinedColumns h hi
  obtain ⟨type, values⟩ := column
  cases type with
  | decimal scale =>
      unfold pythonColumn
      dsimp only at hslice ⊢
      split
      · rfl
      · have hdictionary : ∀ v ∈ dictionary (joinedColumns columns (.decimal scale)),
            Readable v := fun v hv => (typed_joinedColumns h (of_mem_dictionary hv)).readable
        have hvalues : ∀ v ∈ values, Readable v := fun v hv =>
          (h.typed _ (List.mem_of_getElem? hi) v hv).readable
        rw [mapM_toPython_eq_ok_iff.mpr ⟨hdictionary, rfl⟩, Except.ok_bind, sharedColumn_eq hslice,
          mapM_toPython_eq_ok_iff.mpr ⟨hvalues, rfl⟩]
        rfl
  | string => rfl
  | int32 => rfl
  | int64 => rfl
  | timestamp => rfl

theorem mapM_congr_left {α β : Type} {f g : α → Except Exn β} {as : List α}
    (h : ∀ a ∈ as, f a = g a) : as.mapM f = as.mapM g := by
  induction as with
  | nil => rfl
  | cons a as ih =>
      rw [List.mapM_cons, List.mapM_cons, h a List.mem_cons_self,
        ih fun b hb => h b (List.mem_cons_of_mem _ hb)]

theorem pythonColumnsV1_eq_ok_iff (h : columns.WellFormed numRows) {cells : List (List Cell)} :
    pythonColumnsV1 columns numRows = .ok cells ↔
      (∀ column ∈ columns, ∀ v ∈ column.2, Readable v) ∧
        cells = columns.map fun column => column.2.map cellOf := by
  have hcolumns : pythonColumnsV1 columns numRows =
      (columns.map Prod.snd).mapM fun values => values.mapM toPython := by
    have hzip : columns.zipIdx.map Prod.fst = columns := List.zipIdx_map_fst 0 columns
    calc pythonColumnsV1 columns numRows
        = columns.zipIdx.mapM fun x => x.1.2.mapM toPython :=
          mapM_congr_left fun x hx => pythonColumn_eq h (List.mem_zipIdx_iff_getElem?.mp hx)
      _ = (columns.map Prod.snd).mapM fun values => values.mapM toPython := by
          conv_rhs => rw [← hzip, List.map_map, List.mapM_map]
          rfl
  rw [hcolumns, mapM_rows_eq_ok_iff, List.map_map]
  refine and_congr_left fun _ => ⟨fun hall column hcolumn => ?_, fun hall values hvalues => ?_⟩
  · exact hall _ (List.mem_map_of_mem hcolumn)
  · obtain ⟨column, hcolumn, rfl⟩ := List.mem_map.mp hvalues
    exact hall column hcolumn

end Column

/-! ## A batch -/

section Batch

variable {frame : FrameSchemaV1} {batch : Arrow}

def TypedRows (schema : List Field) (batch : Arrow) : Prop :=
  ∀ row ∈ batch, List.Forall₂ (fun field v => Typed field.type v) schema row

theorem map_getD_zipIdx {schema : List Field} {row : List Value}
    (h : schema.length = row.length) : schema.zipIdx.map (fun x => row.getD x.2 .null) = row := by
  refine List.ext_getElem (by rw [List.length_map, List.length_zipIdx, h]) fun i hi hi' => ?_
  rw [List.getElem_map, List.getElem_zipIdx, Nat.zero_add, List.getD_eq_getElem _ _ hi']

theorem wellFormed_batchColumns {schema : List Field} (h : TypedRows schema batch) :
    (batchColumns schema batch).WellFormed batch.length := by
  refine ⟨fun column hcolumn => ?_, fun column hcolumn v hv => ?_⟩
  · obtain ⟨x, -, rfl⟩ := List.mem_map.mp hcolumn
    exact List.length_map ..
  · obtain ⟨⟨field, i⟩, hx, rfl⟩ := List.mem_map.mp hcolumn
    obtain ⟨row, hrow, rfl⟩ := List.mem_map.mp hv
    obtain ⟨hlt, hfield⟩ := List.getElem?_eq_some_iff.mp (List.mem_zipIdx_iff_getElem?.mp hx)
    have hlt' : i < row.length := (h row hrow).length_eq ▸ hlt
    rw [List.getD_eq_getElem _ _ hlt']
    exact hfield ▸ (h row hrow).get hlt hlt'

theorem readable_batchColumns_iff {schema : List Field}
    (hlength : ∀ row ∈ batch, schema.length = row.length) :
    (∀ column ∈ batchColumns schema batch, ∀ v ∈ column.2, Readable v) ↔
      ∀ row ∈ batch, ∀ v ∈ row, Readable v := by
  constructor
  · intro hall row hrow v hv
    rw [← map_getD_zipIdx (hlength row hrow)] at hv
    obtain ⟨x, hx, rfl⟩ := List.mem_map.mp hv
    exact hall _ (List.mem_map_of_mem hx) _ (List.mem_map_of_mem hrow)
  · intro hall column hcolumn v hv
    obtain ⟨x, hx, rfl⟩ := List.mem_map.mp hcolumn
    obtain ⟨row, hrow, rfl⟩ := List.mem_map.mp hv
    have hmem : row.getD x.2 .null ∈ schema.zipIdx.map fun x => row.getD x.2 .null :=
      List.mem_map_of_mem hx
    rw [map_getD_zipIdx (hlength row hrow)] at hmem
    exact hall row hrow _ hmem

theorem zipColumns_batchColumns {schema : List Field}
    (hlength : ∀ row ∈ batch, schema.length = row.length) :
    zipColumns batch.length ((batchColumns schema batch).map fun column => column.2.map cellOf) =
      batch.map fun row => row.map cellOf := by
  unfold zipColumns
  refine List.ext_getElem (by simp) fun r hr hr' => ?_
  have hlt : r < batch.length := by rwa [List.length_map] at hr'
  rw [List.getElem_map, List.getElem_range, List.getElem_map, batchColumns, List.map_map,
    List.map_map]
  conv_rhs => rw [← map_getD_zipIdx (hlength _ (List.getElem_mem hlt)), List.map_map]
  refine List.map_congr_left fun x _ => ?_
  show ((batch.map fun row => row.getD x.2 .null).map cellOf).getD r (cellOf .null) = _
  rw [List.getD_map, List.getD_eq_getElem _ _ (by rwa [List.length_map]), List.getElem_map]
  rfl

theorem readBatch_eq_ok_iff (h : TypedRows frame.schema batch) {rows : List Row} :
    readBatch frame batch = .ok rows ↔ batch.mapM (fun row => row.mapM toPython) = .ok rows := by
  have hlength : ∀ row ∈ batch, frame.schema.length = row.length := fun row hrow =>
    (h row hrow).length_eq
  rw [mapM_rows_eq_ok_iff, ← readable_batchColumns_iff hlength,
    ← zipColumns_batchColumns hlength, readBatch, Except.bind_eq_ok]
  constructor
  · rintro ⟨columns, hcolumns, hrows⟩
    obtain ⟨hreadable, rfl⟩ := (pythonColumnsV1_eq_ok_iff (wellFormed_batchColumns h)).mp hcolumns
    exact ⟨hreadable, (Except.pure_eq_ok.mp hrows).symm⟩
  · rintro ⟨hreadable, rfl⟩
    exact ⟨_, (pythonColumnsV1_eq_ok_iff (wellFormed_batchColumns h)).mpr ⟨hreadable, rfl⟩, rfl⟩

end Batch

/-! ## Objects and frames -/

/-- What an exact Arrow stores for a cell of a column: the value itself.  An integer in a column
of timestamps is taken for microseconds since the epoch. -/
inductive Stores : ColumnType → Cell → Value → Prop
  | null (type : ColumnType) : Stores type .none .null
  | text (s : String) : Stores .string (.str s) (.text s)
  | int32 (n : ℤ) : Stores .int32 (.int n) (.int n)
  | int64 (n : ℤ) : Stores .int64 (.int n) (.int n)
  | instant (t : ℤ) : Stores .timestamp (.datetime (.aware t)) (.micros (t - epoch))
  | micros (n : ℤ) : Stores .timestamp (.int n) (.micros n)
  | decimal {scale : ℕ} {d : Decimal.Parts} {n : ℤ} (h : d.value * 10 ^ scale = n) :
      Stores (.decimal scale) (.decimal (.finite d)) (.ticks scale n)

theorem Stores.typed {type : ColumnType} {cell : Cell} {v : Value} (h : Stores type cell v) :
    Typed type v := by
  cases h with
  | null => exact .null type
  | text s => exact .text s
  | int32 n => exact .int32 n
  | int64 n => exact .int64 n
  | instant t => exact .micros _
  | micros n => exact .micros n
  | decimal h => exact .ticks _ _

/-- Arrow stores each cell as its exact value or refuses it, and a file holds the schema and the
rows of its tables, however a reader cuts them into batches. -/
structure Env.Exact {File : Type} (env : Env File) : Prop where
  array : ∀ {type : ColumnType} {cell : Cell} {v : Value},
    env.array type cell = .ok v → Stores type cell v
  schemaArrow : ∀ fields tables, env.schemaArrow (env.parquet fields tables) = fields
  iterBatches : ∀ size fields tables,
    (env.iterBatches size (env.parquet fields tables)).flatten = tables.flatten

theorem mapM_flatten_eq_ok_iff {ι α β : Type} {f : ι → Except Exn (List β)}
    {g : α → Except Exn β} {items : List ι} {parts : List (List α)}
    (h : List.Forall₂ (fun i part => ∀ rs, f i = .ok rs ↔ part.mapM g = .ok rs) items parts)
    {rows : List β} :
    (items.mapM f >>= fun rss => pure rss.flatten) = .ok rows ↔
      parts.flatten.mapM g = .ok rows := by
  induction h generalizing rows with
  | nil => rfl
  | @cons i part items parts hi _ ih =>
      rw [List.flatten_cons, List.mapM_append, Except.bind_eq_ok]
      constructor
      · rintro ⟨rss, hrss, hrows⟩
        rw [List.mapM_cons] at hrss
        obtain ⟨rs, hrs, hrss⟩ := Except.bind_eq_ok.mp hrss
        obtain ⟨rss', hrss', hcons⟩ := Except.bind_eq_ok.mp hrss
        cases hcons
        cases hrows
        have htail := ih.mp (Except.bind_eq_ok.mpr ⟨rss', hrss', rfl⟩)
        rw [(hi rs).mp hrs, Except.ok_bind, htail, Except.ok_bind]
        rfl
      · intro hall
        obtain ⟨rs, hrs, hall⟩ := Except.bind_eq_ok.mp hall
        obtain ⟨rows', hrows', hall⟩ := Except.bind_eq_ok.mp hall
        cases Except.pure_eq_ok.mp hall
        obtain ⟨rss, hrss, hflatten⟩ := Except.bind_eq_ok.mp (ih.mpr hrows')
        cases Except.pure_eq_ok.mp hflatten
        refine ⟨rs :: rss, ?_, rfl⟩
        rw [List.mapM_cons, (hi rs).mpr hrs, Except.ok_bind, hrss]
        rfl

section Frame

variable {File : Type} {env : Env File} {frame : FrameSchemaV1} {store : Store File}

structure Placed (env : Env File) (frame : FrameSchemaV1) (store : Store File)
    (item : FrameObjectV1) (tables : List Arrow) : Prop where
  file : store.objects item.sha256 = some (env.parquet frame.schema tables)
  digest : env.fileSha256 (env.parquet frame.schema tables) = item.sha256
  bytes : env.fileSize (env.parquet frame.schema tables) = item.bytes
  typed : TypedRows frame.schema tables.flatten

theorem readObject_eq_ok_iff (hexact : env.Exact) {item : FrameObjectV1} {tables : List Arrow}
    (h : Placed env frame store item tables) {rows : List Row} :
    readObject env frame store item = .ok rows ↔
      tables.flatten.mapM (fun row => row.mapM toPython) = .ok rows := by
  unfold readObject
  rw [h.file]
  dsimp only
  rw [if_neg (not_not.mpr (hexact.schemaArrow _ _)), ← hexact.iterBatches readBatchRows]
  refine mapM_flatten_eq_ok_iff (List.forall₂_same.mpr fun batch hbatch rs => ?_)
  refine readBatch_eq_ok_iff fun row hrow => h.typed row ?_
  rw [← hexact.iterBatches readBatchRows frame.schema]
  exact List.mem_flatten_of_mem hbatch hrow

theorem frameSchemas_nodup : (frameSchemas.map FrameSchemaV1.kind).Nodup := by
  decide

theorem iterRows_eq_ok_iff (hexact : env.Exact) (hframe : frame ∈ frameSchemas)
    {manifest : FrameManifestV1} (hkind : manifest.frameKind = frame.kind)
    (hfingerprint : manifest.frameSchemaFingerprint = fingerprint env frame)
    {files : List (List Arrow)}
    (h : List.Forall₂ (Placed env frame store) manifest.objects files) {rows : List Row} :
    iterRows env store manifest = .ok rows ↔
      (files.map List.flatten).flatten.mapM (fun row => row.mapM toPython) = .ok rows := by
  have hfind : (frameSchemas.find? fun f => decide (f.kind = manifest.frameKind)) = some frame := by
    rw [hkind]
    exact Table.find?_key (t := ⟨frameSchemas, frameSchemas_nodup⟩) hframe
  unfold iterRows
  rw [hfind]
  dsimp only
  rw [if_neg (not_not.mpr hfingerprint.symm)]
  refine mapM_flatten_eq_ok_iff (List.forall₂_map_right_iff.mpr ?_)
  exact h.imp fun _ _ hplaced _ => readObject_eq_ok_iff hexact hplaced

theorem checkObject_of_placed {item : FrameObjectV1} {tables : List Arrow}
    (h : Placed env frame store item tables) : checkObject env store item = .ok () := by
  unfold checkObject
  rw [h.file]
  dsimp only
  rw [if_neg (not_or.mpr ⟨not_not.mpr h.bytes, not_not.mpr h.digest⟩)]

theorem mapM_checkObject {items : List FrameObjectV1} {files : List (List Arrow)}
    (h : List.Forall₂ (Placed env frame store) items files) :
    items.mapM (checkObject env store) = .ok (items.map fun _ => ()) := by
  induction h with
  | nil => rfl
  | cons hplaced _ ih =>
      rw [List.mapM_cons, checkObject_of_placed hplaced, ih]
      rfl

end Frame

end TradePlatform.DataPlane
