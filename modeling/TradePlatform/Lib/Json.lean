/-
# `TradePlatform.Lib.Json` — decoded JSON values

What a JSON text decodes to: the values that Python's `json` builds, where `true` is an
integer, a float may equal an integer, and a lookup in anything but an object fails.
-/
import Mathlib

/-- A decoded value.  A float is its exact value; the one that no real number is (`NaN` and
the infinities) is `none`. -/
inductive Json where
  | null
  | bool (value : Bool)
  | int (value : ℤ)
  | float (value : Option ℚ)
  | str (value : String)
  | arr (items : List Json)
  | obj (fields : List (String × Json))

namespace Json

/-- `isinstance(value, int) and not isinstance(value, bool)`. -/
def int? : Json → Option ℤ
  | int n => some n
  | _ => none

def eqInt (n : ℤ) : Json → Bool
  | bool b => decide ((if b then 1 else 0) = n)
  | int m => decide (m = n)
  | float (some x) => decide (x = n)
  | _ => false

def str? : Json → Option String
  | str text => some text
  | _ => none

/-- `fields.get(key)`: a missing key and `null` are both `None`. -/
def get (fields : List (String × Json)) (key : String) : Json := (fields.lookup key).getD null

end Json
