/-
# `TradePlatform.Lib.JsonCanonical` — JSON up to the order of keys

`canonical` puts the keys of every object of a value in order, as `sort_keys` does.  Two
values have one canonical form exactly where they differ in the order of keys only, and then
every lookup gives values that do: the sort is stable, so it changes no lookup.  `codeText` is
a text that determines its value.
-/
import TradePlatform.Lib.Json
import TradePlatform.Lib.SortBy

namespace Json

/-! ## Lookups and sorting -/

section Lookup

variable {ν : Type} {key : String} {fields : List (String × ν)}

theorem lookup_cons_eq (field : String × ν) :
    (field :: fields).lookup key = if key = field.1 then some field.2 else fields.lookup key := by
  rw [List.lookup_cons]
  by_cases h : key = field.1
  · rw [if_pos h, beq_iff_eq.mpr h]
  · rw [if_neg h, beq_eq_false_iff_ne.mpr h]

theorem lookup_orderedInsert (field : String × ν) :
    (fields.orderedInsert (fun a b => a.1 ≤ b.1) field).lookup key =
      if key = field.1 then some field.2 else fields.lookup key := by
  induction fields with
  | nil => rw [List.orderedInsert_nil, lookup_cons_eq]
  | cons head fields ih =>
      rw [List.orderedInsert_cons]
      split
      · rw [lookup_cons_eq]
      · rename_i hle
        rw [lookup_cons_eq, ih, lookup_cons_eq]
        by_cases hhead : key = head.1
        · have hne : key ≠ field.1 := by
            rw [hhead]
            exact (not_le.mp hle).ne
          rw [if_pos hhead, if_neg hne, if_pos hhead]
        · rw [if_neg hhead, if_neg hhead]

theorem lookup_sortBy : (sortBy Prod.fst fields).lookup key = fields.lookup key := by
  induction fields with
  | nil => rfl
  | cons field fields ih =>
      have hinsert : sortBy Prod.fst (field :: fields) =
          (sortBy Prod.fst fields).orderedInsert (fun a b => a.1 ≤ b.1) field := rfl
      rw [hinsert, lookup_orderedInsert, ih, lookup_cons_eq]

theorem lookup_map {μ : Type} (f : ν → μ) :
    (fields.map fun field => (field.1, f field.2)).lookup key = (fields.lookup key).map f := by
  induction fields with
  | nil => rfl
  | cons field fields ih =>
      rw [List.map_cons, lookup_cons_eq, lookup_cons_eq, ih, apply_ite (Option.map f)]
      rfl

end Lookup

/-! ## Canonical values -/

mutual

def canonical : Json → Json
  | .null => .null
  | .bool b => .bool b
  | .int n => .int n
  | .float x => .float x
  | .str text => .str text
  | .arr items => .arr (canonicalItems items)
  | .obj fields => .obj (sortBy Prod.fst (canonicalFields fields))

def canonicalItems : List Json → List Json
  | [] => []
  | item :: items => canonical item :: canonicalItems items

def canonicalFields : List (String × Json) → List (String × Json)
  | [] => []
  | field :: fields => canonicalField field :: canonicalFields fields

def canonicalField : String × Json → String × Json
  | (key, value) => (key, canonical value)

end

theorem canonicalItems_eq (items : List Json) : canonicalItems items = items.map canonical := by
  induction items with
  | nil => rw [canonicalItems, List.map_nil]
  | cons item items ih => rw [canonicalItems, List.map_cons, ih]

theorem canonicalFields_eq (fields : List (String × Json)) :
    canonicalFields fields = fields.map fun field => (field.1, canonical field.2) := by
  induction fields with
  | nil => rw [canonicalFields, List.map_nil]
  | cons field fields ih =>
      obtain ⟨key, value⟩ := field
      rw [canonicalFields, canonicalField, List.map_cons, ih]

theorem canonical_eq_str {j : Json} {text : String} (h : canonical j = .str text) :
    j = .str text := by
  cases j <;> rw [canonical] at h <;> first | exact h | cases h

theorem canonical_eq_int {j : Json} {n : ℤ} (h : canonical j = .int n) : j = .int n := by
  cases j <;> rw [canonical] at h <;> first | exact h | cases h

theorem canonical_eq_null {j : Json} (h : canonical j = .null) : j = .null := by
  cases j <;> rw [canonical] at h <;> first | rfl | cases h

theorem canonical_eq_arr {j : Json} {items : List Json} (h : canonical j = .arr items) :
    ∃ items', j = .arr items' ∧ items'.map canonical = items := by
  cases j with
  | arr items' =>
      rw [canonical, canonicalItems_eq] at h
      exact ⟨items', rfl, Json.arr.inj h⟩
  | _ => rw [canonical] at h; cases h

theorem canonical_eq_obj {j : Json} {fields : List (String × Json)}
    (h : canonical j = canonical (.obj fields)) :
    ∃ fields', j = .obj fields' ∧ canonical (.obj fields') = canonical (.obj fields) := by
  cases j with
  | obj fields' => exact ⟨fields', rfl, h⟩
  | _ => rw [canonical, canonical] at h; cases h

theorem lookup_canonical {fields fields' : List (String × Json)}
    (h : canonical (.obj fields) = canonical (.obj fields')) (key : String) :
    (fields.lookup key).map canonical = (fields'.lookup key).map canonical := by
  rw [canonical, canonical] at h
  have hlookup := congrArg (List.lookup key) (Json.obj.inj h)
  rwa [lookup_sortBy, lookup_sortBy, canonicalFields_eq, canonicalFields_eq, lookup_map,
    lookup_map] at hlookup

theorem exists_lookup {fields fields' : List (String × Json)} {key : String} {value : Json}
    (h : canonical (.obj fields) = canonical (.obj fields'))
    (hvalue : fields'.lookup key = some value) :
    ∃ value', fields.lookup key = some value' ∧ canonical value' = canonical value := by
  have hlookup := lookup_canonical h key
  rw [hvalue, Option.map_some] at hlookup
  exact Option.map_eq_some_iff.mp hlookup

/-! ## A text for each value -/

mutual

def code : Json → List ℕ
  | .null => [0]
  | .bool b => [1, Encodable.encode b]
  | .int n => [2, Encodable.encode n]
  | .float x => [3, Encodable.encode x]
  | .str text => 4 :: [Encodable.encode (text.toList.map Char.toNat)]
  | .arr items => 5 :: items.length :: codeItems items
  | .obj fields => 6 :: fields.length :: codeFields fields

def codeItems : List Json → List ℕ
  | [] => []
  | item :: items => code item ++ codeItems items

def codeFields : List (String × Json) → List ℕ
  | [] => []
  | field :: fields => codeField field ++ codeFields fields

def codeField : String × Json → List ℕ
  | (key, value) => Encodable.encode (key.toList.map Char.toNat) :: code value

end

theorem encode_text_inj {a b : String}
    (h : Encodable.encode (a.toList.map Char.toNat) = Encodable.encode (b.toList.map Char.toNat)) :
    a = b := by
  have hmap := Encodable.encode_injective h
  have hinj : Function.Injective Char.toNat := fun c d hcd => Char.toNat_inj.mp hcd
  exact String.toList_inj.mp (hinj.list_map hmap)

mutual

theorem code_append_inj : ∀ {j j' : Json} {r r' : List ℕ}, code j ++ r = code j' ++ r' →
    j = j' ∧ r = r'
  | .null, j', r, r', h => by
      cases j' <;> simp_all [code]
  | .bool b, j', r, r', h => by
      cases j' <;> simp_all [code]
  | .int n, j', r, r', h => by
      cases j' <;> simp_all [code]
  | .float x, j', r, r', h => by
      cases j' <;> simp_all [code]
  | .str text, j', r, r', h => by
      cases j' with
      | str text' =>
          simp only [code, List.cons_append, List.nil_append, List.cons.injEq, true_and] at h
          exact ⟨by rw [encode_text_inj h.1], h.2⟩
      | _ => simp_all [code]
  | .arr items, j', r, r', h => by
      cases j' with
      | arr items' =>
          simp only [code, List.cons_append, List.cons.injEq, true_and] at h
          obtain ⟨hitems, hr⟩ := codeItems_append_inj h.1 h.2
          exact ⟨by rw [hitems], hr⟩
      | _ => simp_all [code]
  | .obj fields, j', r, r', h => by
      cases j' with
      | obj fields' =>
          simp only [code, List.cons_append, List.cons.injEq, true_and] at h
          obtain ⟨hfields, hr⟩ := codeFields_append_inj h.1 h.2
          exact ⟨by rw [hfields], hr⟩
      | _ => simp_all [code]

theorem codeItems_append_inj : ∀ {items items' : List Json} {r r' : List ℕ},
    items.length = items'.length → codeItems items ++ r = codeItems items' ++ r' →
    items = items' ∧ r = r'
  | [], [], _, _, _, h => ⟨rfl, h⟩
  | item :: items, item' :: items', r, r', hlength, h => by
      simp only [codeItems, List.append_assoc] at h
      obtain ⟨hitem, h⟩ := code_append_inj h
      obtain ⟨hitems, hr⟩ := codeItems_append_inj (Nat.succ.inj hlength) h
      exact ⟨by rw [hitem, hitems], hr⟩

theorem codeFields_append_inj : ∀ {fields fields' : List (String × Json)} {r r' : List ℕ},
    fields.length = fields'.length → codeFields fields ++ r = codeFields fields' ++ r' →
    fields = fields' ∧ r = r'
  | [], [], _, _, _, h => ⟨rfl, h⟩
  | field :: fields, field' :: fields', r, r', hlength, h => by
      simp only [codeFields, List.append_assoc] at h
      obtain ⟨hfield, h⟩ := codeField_append_inj h
      obtain ⟨hfields, hr⟩ := codeFields_append_inj (Nat.succ.inj hlength) h
      exact ⟨by rw [hfield, hfields], hr⟩

theorem codeField_append_inj : ∀ {field field' : String × Json} {r r' : List ℕ},
    codeField field ++ r = codeField field' ++ r' → field = field' ∧ r = r'
  | (key, value), (key', value'), r, r', h => by
      simp only [codeField, List.cons_append, List.cons.injEq] at h
      obtain ⟨hvalue, hr⟩ := code_append_inj h.2
      exact ⟨by rw [encode_text_inj h.1, hvalue], hr⟩

end

def codeText (j : Json) : String := toString (Encodable.encode (code j))

theorem codeText_injective : Function.Injective codeText := by
  intro j j' h
  have hcode : code j = code j' := Encodable.encode_injective (Nat.repr_injective h)
  exact (code_append_inj (congrArg (· ++ []) hcode)).1

end Json
