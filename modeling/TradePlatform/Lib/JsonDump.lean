/-
# `TradePlatform.Lib.JsonDump` — the text of a JSON value

`json.dumps` with sorted keys and compact separators: the keys of every object are put in order
(`Json.canonical`), and the value is written as it then stands.
-/
import TradePlatform.Lib.JsonCanonical
import TradePlatform.Lib.JsonReadOff

namespace Json

open JsonText (Text)

mutual

/-- The text of a value as it stands; `float` writes a float. -/
def dump (float : Option ℚ → Text) : Json → Text
  | .null => JsonText.null
  | .bool b => JsonText.bool b
  | .int n => JsonText.int n
  | .float x => float x
  | .str text => JsonText.quote text.toList
  | .arr items => JsonText.array (dumpItems float items)
  | .obj fields => JsonText.object (dumpFields float fields)

def dumpItems (float : Option ℚ → Text) : List Json → List Text
  | [] => []
  | item :: items => dump float item :: dumpItems float items

def dumpFields (float : Option ℚ → Text) : List (String × Json) → List (String × Text)
  | [] => []
  | field :: fields => dumpField float field :: dumpFields float fields

def dumpField (float : Option ℚ → Text) : String × Json → String × Text
  | (key, value) => (key, dump float value)

end

/-- `json.dumps(value, sort_keys=True, separators=(",", ":"))`. -/
def dumps (float : Option ℚ → Text) (value : Json) : Text := dump float value.canonical

variable {float : Option ℚ → Text}

theorem dumpFields_eq (fields : List (String × Json)) :
    dumpFields float fields = fields.map fun field => (field.1, dump float field.2) := by
  induction fields with
  | nil => rw [dumpFields, List.map_nil]
  | cons field fields ih =>
      obtain ⟨key, value⟩ := field
      rw [dumpFields, dumpField, List.map_cons, ih]

def texts (fields : List (String × String)) : Json :=
  .obj (fields.map fun field => (field.1, .str field.2))

theorem canonical_texts {fields : List (String × String)}
    (h : fields.Pairwise fun a b => a.1 < b.1) : (texts fields).canonical = texts fields := by
  have hcanonical : canonicalFields (fields.map fun field => (field.1, .str field.2)) =
      fields.map fun field => (field.1, .str field.2) := by
    rw [canonicalFields_eq, List.map_map]
    rfl
  have hsorted : (fields.map fun field => (field.1, Json.str field.2)).Pairwise
      fun a b => a.1 < b.1 := List.pairwise_map.mpr h
  rw [texts, canonical, hcanonical]
  congr 1
  have hnodup : ((fields.map fun field => (field.1, Json.str field.2)).map Prod.fst).Nodup :=
    List.pairwise_map.mpr (hsorted.imp fun hlt => hlt.ne)
  exact sortBy_eq (fun a ha b hb => List.inj_on_of_nodup_map hnodup ha hb) (.refl _)
    (hsorted.imp fun hlt => hlt.le)

theorem dump_texts (fields : List (String × String)) :
    dump float (texts fields) =
      JsonText.flatObject (fields.map fun field => (field.1, some field.2)) := by
  rw [texts, dump, dumpFields_eq, JsonText.flatObject, List.map_map, List.map_map]
  simp only [Function.comp_def, dump, JsonText.scalar]

end Json
