/-
# `TradePlatform.ParameterSpaces` — finite parameter spaces and the index of a point

`strategy_lab_study_v1.py`: a parameter has finitely many values, each a canonical text, and a
space is the product of its parameters in the order of their names.  The point of an index is its
mixed-radix decoding and the index of a point the encoding, so that the two are inverse to each
other (`pointAt_ok`, `indexOf_ok`).
-/
import TradePlatform.CanonicalDecimals
import TradePlatform.Lib.MixedRadix
import TradePlatform.Lib.Dict
import TradePlatform.Lib.Replay
import TradePlatform.Lib.SortBy

namespace TradePlatform

namespace StrategyLabStudy

/-! ## Texts -/

/-- `re.match` of a pattern that ends in `$`: a newline may follow. -/
def beforeNewline (text : List Char) : List Char :=
  if text.getLast? = some '\n' then text.dropLast else text

/-- `_SLUG`: a lower-case letter and at most 127 of `[a-z0-9_.-]`. -/
def isSlug (text : String) : Bool :=
  match beforeNewline text.toList with
  | [] => false
  | c :: rest => c.isLower && decide (rest.length ≤ 127) &&
      rest.all fun c => c.isLower || c.isDigit || c == '_' || c == '.' || c == '-'

def slug (value name : String) : Except Exn Unit :=
  if isSlug value then .ok () else refuse (name ++ "_must_be_a_lowercase_slug")

def digitGroups : List Char → Bool
  | [] => false
  | [c] => c.isDigit
  | c :: '_' :: rest => c.isDigit && digitGroups rest
  | c :: rest => c.isDigit && digitGroups rest

def maxIntDigits : ℕ := 4300

def int? (digit : Char → Option (Fin 10)) (text : String) : Option ℤ :=
  let (negative, body) := Decimal.Parts.takeSign
    ((JsonLines.strip isSpace text.toList).map (Decimal.Parts.asAscii (charset digit)))
  let digits := body.filter (· ≠ '_')
  if digitGroups body ∧ digits.length ≤ maxIntDigits then
    some ((if negative then -1 else 1) * Nat.ofDigitChars 10 digits 0)
  else none

/-! ## Domains -/

inductive ParameterKindV1 where
  | integer | decimal | categorical
deriving DecidableEq

def ParameterKindV1.value : ParameterKindV1 → String
  | integer => "INTEGER"
  | decimal => "DECIMAL"
  | categorical => "CATEGORICAL"

def canonicalValue (digit : Char → Option (Fin 10)) (name : String) (kind : ParameterKindV1)
    (value : String) : Except Exn String :=
  match kind with
  | .integer =>
      match int? digit value with
      | some n => .ok (toString n)
      | none => refuse (name ++ "_integer_value_unparseable")
  | .decimal => decimalText digit (.text value) name
  | .categorical =>
      if value.toList = [] ∨ JsonLines.strip isSpace value.toList ≠ value.toList then
        refuse (name ++ "_categorical_value_must_be_trimmed_text")
      else .ok value

def maxDomainValues : ℕ := 100000

def checkDomain (digit : Char → Option (Fin 10)) (name : String) (kind : ParameterKindV1)
    (values : List String) : Except Exn Unit := do
  slug name "parameter_name"
  if values = [] then refuse ("parameter_domain_empty:" ++ name)
  else if maxDomainValues < values.length then refuse ("parameter_domain_too_large:" ++ name)
  else
    let canonical ← values.mapM (canonicalValue digit name kind)
    if canonical ≠ values then refuse ("parameter_values_not_canonical:" ++ name)
    else if ¬ canonical.Nodup then refuse ("parameter_values_duplicated:" ++ name)
    else .ok ()

structure ParameterDomainV1 (digit : Char → Option (Fin 10)) where
  name : String
  kind : ParameterKindV1
  values : List String
  valid : checkDomain digit name kind values = .ok ()

variable {digit : Char → Option (Fin 10)}

namespace ParameterDomainV1

variable (domain : ParameterDomainV1 digit)

def size : ℕ := domain.values.length

theorem checked : domain.values ≠ [] ∧ domain.values.Nodup := by
  obtain ⟨_, _, h⟩ := Except.bind_eq_ok.mp domain.valid
  obtain ⟨hne, h⟩ := Except.of_ite_error h
  obtain ⟨_, h⟩ := Except.of_ite_error h
  obtain ⟨canonical, _, h⟩ := Except.bind_eq_ok.mp h
  obtain ⟨hsame, h⟩ := Except.of_ite_error h
  obtain ⟨hnodup, _⟩ := Except.of_ite_error h
  rw [not_not.mp hsame, not_not] at hnodup
  exact ⟨hne, hnodup⟩

theorem size_pos : 0 < domain.size := List.length_pos_iff.mpr domain.checked.1

def valueAt (i : ℕ) : String := domain.values.get ⟨i % domain.size, Nat.mod_lt _ domain.size_pos⟩

end ParameterDomainV1

/-! ## Spaces -/

def checkSpace (domains : List (ParameterDomainV1 digit)) : Except Exn Unit :=
  let names := domains.map ParameterDomainV1.name
  if domains = [] then refuse "parameter_space_empty"
  else if names ≠ sortBy id names ∨ ¬ names.Nodup then
    refuse "parameter_space_names_must_be_unique_and_sorted"
  else .ok ()

structure ParameterSpaceV1 (digit : Char → Option (Fin 10)) where
  domains : List (ParameterDomainV1 digit)
  valid : checkSpace domains = .ok ()

abbrev Point := Dict String String

def sortedPoint (point : Point) : Point where
  rows := sortBy toLex point.rows
  nodup := ((sortBy_perm _ _).map _).nodup_iff.mpr point.nodup

namespace ParameterSpaceV1

variable (space : ParameterSpaceV1 digit)

def names : List String := space.domains.map ParameterDomainV1.name

def cardinality : ℕ := (space.domains.map ParameterDomainV1.size).prod

/-- One domain of the loop of `point_at`: the digit comes off, and its value is written. -/
def pointStep (state : ℕ × Point) (domain : ParameterDomainV1 digit) : ℕ × Point :=
  (state.1 / domain.size, Dict.set state.2 domain.name (domain.valueAt state.1))

def pointAt (index : ℤ) : Except Exn Point :=
  if 0 ≤ index ∧ index < space.cardinality then
    .ok (sortedPoint (space.domains.reverse.foldl pointStep (index.toNat, Dict.empty)).2)
  else refuse "parameter_point_index_out_of_range"

def indexStep (point : Point) (index : ℕ) (domain : ParameterDomainV1 digit) : Except Exn ℕ :=
  match Dict.get? point domain.name with
  | none => .error (.keyError domain.name)
  | some value =>
      if value ∈ domain.values then .ok (index * domain.size + domain.values.idxOf value)
      else refuse ("parameter_value_outside_domain:" ++ domain.name)

def indexOf (point : Point) : Except Exn ℕ :=
  if sortBy id (point.rows.map Prod.fst) ≠ space.names then refuse "parameter_point_names_mismatch"
  else space.domains.foldlM (indexStep point) 0

end ParameterSpaceV1

/-! ## The point of an index -/

namespace ParameterDomainV1

variable {domain : ParameterDomainV1 digit} {i : ℕ}

theorem valueAt_mod : domain.valueAt (i % domain.size) = domain.valueAt i := by
  unfold valueAt
  congr 2
  exact Nat.mod_mod i _

theorem valueAt_mem : domain.valueAt i ∈ domain.values := List.get_mem _ _

theorem idxOf_valueAt (h : i < domain.size) : domain.values.idxOf (domain.valueAt i) = i := by
  unfold valueAt
  rw [List.get_eq_getElem, List.Nodup.idxOf_getElem domain.checked.2]
  exact Nat.mod_eq_of_lt h

theorem valueAt_idxOf {value : String} (h : value ∈ domain.values) :
    domain.values.idxOf value < domain.size ∧
      domain.valueAt (domain.values.idxOf value) = value := by
  have hlt : domain.values.idxOf value < domain.size := List.idxOf_lt_length_of_mem h
  refine ⟨hlt, ?_⟩
  unfold valueAt
  simp only [Nat.mod_eq_of_lt hlt, List.get_eq_getElem, List.getElem_idxOf]

end ParameterDomainV1

def item (domain : ParameterDomainV1 digit) (i : ℕ) : String × String :=
  (domain.name, domain.valueAt i)

def items (domains : List (ParameterDomainV1 digit)) (digits : List ℕ) : List (String × String) :=
  List.zipWith item domains digits

def sizes (domains : List (ParameterDomainV1 digit)) : List ℕ :=
  domains.map ParameterDomainV1.size

theorem sizes_pos (domains : List (ParameterDomainV1 digit)) : ∀ size ∈ sizes domains, 0 < size := by
  intro size hsize
  obtain ⟨domain, _, rfl⟩ := List.mem_map.mp hsize
  exact domain.size_pos

variable {domains : List (ParameterDomainV1 digit)} {digits : List ℕ} {i : ℕ}

theorem map_fst_items (h : domains.length = digits.length) :
    (items domains digits).map Prod.fst = domains.map ParameterDomainV1.name := by
  induction domains generalizing digits with
  | nil => rfl
  | cons domain domains ih =>
      cases digits with
      | nil => cases h
      | cons i digits =>
          rw [items, List.zipWith_cons_cons, List.map_cons, List.map_cons]
          exact congrArg _ (ih (Nat.succ.inj h))

theorem length_decode (domains : List (ParameterDomainV1 digit)) (i : ℕ) :
    domains.length = (MixedRadix.decode (sizes domains) i).length := by
  induction domains generalizing i with
  | nil => rfl
  | cons domain domains ih =>
      rw [sizes, List.map_cons, MixedRadix.decode, List.length_cons, List.length_cons]
      exact congrArg _ (ih _)

theorem sizes_cons (domain : ParameterDomainV1 digit) (domains : List (ParameterDomainV1 digit)) :
    (sizes (domain :: domains)).prod = domain.size * (sizes domains).prod := List.prod_cons

theorem items_decode_cons (domain : ParameterDomainV1 digit)
    (domains : List (ParameterDomainV1 digit)) (i : ℕ) :
    items (domain :: domains) (MixedRadix.decode (sizes (domain :: domains)) i) =
      item domain (i / (sizes domains).prod) ::
        items domains (MixedRadix.decode (sizes domains) (i % (sizes domains).prod)) := rfl

theorem foldr_pointStep (hnodup : (domains.map ParameterDomainV1.name).Nodup) (i : ℕ) :
    let state := domains.foldr (fun domain state => ParameterSpaceV1.pointStep state domain)
      (i, Dict.empty)
    state.1 = i / (sizes domains).prod ∧ state.2.rows =
      (items domains (MixedRadix.decode (sizes domains) (i % (sizes domains).prod))).reverse := by
  induction domains with
  | nil => exact ⟨(Nat.div_one i).symm, rfl⟩
  | cons domain domains ih =>
      rw [List.map_cons, List.nodup_cons] at hnodup
      obtain ⟨hindex, hrows⟩ := ih hnodup.2
      dsimp only at hindex hrows ⊢
      rw [List.foldr_cons]
      generalize domains.foldr (fun domain state => ParameterSpaceV1.pointStep state domain)
        (i, Dict.empty) = state at hindex hrows ⊢
      have hmissing : state.2.find? domain.name = none := by
        refine Table.find?_eq_none.mpr fun row hrow => ?_
        rw [hrows, List.mem_reverse] at hrow
        have hname := List.mem_map_of_mem (f := Prod.fst) hrow
        rw [map_fst_items (length_decode domains _)] at hname
        exact fun heq => hnodup.1 (heq ▸ hname)
      have hput : (Dict.set state.2 domain.name (domain.valueAt state.1)).rows =
          state.2.rows ++ [(domain.name, domain.valueAt state.1)] :=
        Table.rows_put_of_none hmissing
      rw [items_decode_cons, sizes_cons, Nat.mod_mul_left_div_self, Nat.mod_mul_left_mod, ← hindex,
        item, ParameterDomainV1.valueAt_mod, List.reverse_cons, ← hrows]
      refine ⟨?_, hput⟩
      rw [ParameterSpaceV1.pointStep, hindex, Nat.div_div_eq_div_mul, mul_comm domain.size]

namespace ParameterSpaceV1

variable {space : ParameterSpaceV1 digit} {point : Point} {index : ℕ}

theorem checked (space : ParameterSpaceV1 digit) : space.names.Pairwise (· < ·) := by
  obtain ⟨_, h⟩ := Except.of_ite_error space.valid
  obtain ⟨hnames, _⟩ := Except.of_ite_error h
  obtain ⟨hsorted, hnodup⟩ := not_or.mp hnames
  have hle := sortBy_pairwise id space.names
  rw [not_not] at hsorted hnodup
  rw [show sortBy id space.names = space.names from hsorted.symm] at hle
  exact hle.imp₂ (fun _ _ hle hne => lt_of_le_of_ne hle hne) hnodup

def ItemsOf (space : ParameterSpaceV1 digit) (index : ℕ) : List (String × String) :=
  items space.domains (MixedRadix.decode (sizes space.domains) index)

theorem map_fst_itemsOf : (space.ItemsOf index).map Prod.fst = space.names :=
  map_fst_items (length_decode space.domains index)

theorem itemsOf_sorted : (space.ItemsOf index).Pairwise fun a b => a.1 < b.1 := by
  have hsorted := space.checked
  rw [← @map_fst_itemsOf _ space index] at hsorted
  exact List.pairwise_map.mp hsorted

theorem pointAt_ok (h : index < space.cardinality) :
    ∃ point, space.pointAt index = .ok point ∧ point.rows = space.ItemsOf index := by
  refine ⟨_, if_pos ⟨Int.natCast_nonneg _, Int.ofNat_lt.mpr h⟩, ?_⟩
  have hrows := (foldr_pointStep (space.checked.imp fun hlt => hlt.ne) index).2
  rw [show (sizes space.domains).prod = space.cardinality from rfl, Nat.mod_eq_of_lt h] at hrows
  show sortBy toLex _ = _
  rw [List.foldl_reverse, Int.toNat_natCast, hrows]
  refine sortBy_eq (fun a _ b _ heq => toLex.injective heq) (List.reverse_perm _).symm ?_
  exact itemsOf_sorted.imp fun hlt => Prod.Lex.le_iff.mpr (.inl hlt)

/-! ## The index of a point -/

structure HasPoint (space : ParameterSpaceV1 digit) (point : Point) : Prop where
  names : (point.rows.map Prod.fst).Perm space.names
  values : ∀ domain ∈ space.domains, ∃ value ∈ domain.values,
    Dict.get? point domain.name = some value

def digitsOf (domains : List (ParameterDomainV1 digit)) (point : Point) : List ℕ :=
  domains.map fun domain => domain.values.idxOf (Dict.getD point domain.name "")

theorem foldlM_indexStep {domains : List (ParameterDomainV1 digit)}
    (h : ∀ domain ∈ domains, ∃ value ∈ domain.values, Dict.get? point domain.name = some value)
    (front : ℕ) : domains.foldlM (indexStep point) front =
      .ok (MixedRadix.encode front (sizes domains) (digitsOf domains point)) := by
  induction domains generalizing front with
  | nil => rfl
  | cons domain domains ih =>
      obtain ⟨value, hmem, hget⟩ := h domain List.mem_cons_self
      have hstep : indexStep point front domain =
          .ok (front * domain.size + domain.values.idxOf (Dict.getD point domain.name "")) := by
        rw [indexStep, hget, Dict.getD, hget]
        exact if_pos hmem
      rw [List.foldlM_cons, hstep, Except.ok_bind,
        ih fun domain hdomain => h domain (List.mem_cons_of_mem _ hdomain)]
      rfl

theorem digitsOf_within {domains : List (ParameterDomainV1 digit)}
    (h : ∀ domain ∈ domains, ∃ value ∈ domain.values, Dict.get? point domain.name = some value) :
    MixedRadix.Within (digitsOf domains point) (sizes domains) := by
  refine List.forall₂_map_left_iff.mpr (List.forall₂_map_right_iff.mpr ?_)
  refine List.forall₂_same.mpr fun domain hdomain => ?_
  obtain ⟨value, hmem, hget⟩ := h domain hdomain
  rw [Dict.getD, hget]
  exact (ParameterDomainV1.valueAt_idxOf hmem).1

theorem names_eq_iff : sortBy id (point.rows.map Prod.fst) = space.names ↔
    (point.rows.map Prod.fst).Perm space.names := by
  constructor
  · intro h
    exact h ▸ (sortBy_perm id _).symm
  · intro h
    exact sortBy_eq (fun a _ b _ heq => heq) h.symm (space.checked.imp fun hlt => hlt.le)

theorem indexOf_of_hasPoint (h : space.HasPoint point) : space.indexOf point =
    .ok (MixedRadix.encode 0 (sizes space.domains) (digitsOf space.domains point)) := by
  rw [indexOf, if_neg (not_not.mpr (names_eq_iff.mpr h.names)), foldlM_indexStep h.values]

/-! ## Points and indices -/

theorem get?_items {domains : List (ParameterDomainV1 digit)} {digits : List ℕ}
    (hnodup : (domains.map ParameterDomainV1.name).Nodup)
    (hrows : ∀ pair ∈ items domains digits, pair ∈ point.rows)
    (hwithin : MixedRadix.Within digits (sizes domains)) :
    digitsOf domains point = digits ∧ ∀ domain ∈ domains, ∃ value ∈ domain.values,
      Dict.get? point domain.name = some value := by
  induction domains generalizing digits with
  | nil =>
      cases hwithin
      exact ⟨rfl, nofun⟩
  | cons domain domains ih =>
      cases hwithin with
      | @cons i _ digits _ hlt hwithin =>
          rw [List.map_cons, List.nodup_cons] at hnodup
          obtain ⟨hdigits, hvalues⟩ := ih hnodup.2
            (fun pair hpair => hrows pair (List.mem_cons_of_mem _ hpair)) hwithin
          have hget : Dict.get? point domain.name = some (domain.valueAt i) :=
            Dict.mem_rows.mp (hrows _ List.mem_cons_self)
          refine ⟨?_, List.forall_mem_cons.mpr
            ⟨⟨_, ParameterDomainV1.valueAt_mem, hget⟩, hvalues⟩⟩
          rw [digitsOf, List.map_cons, Dict.getD, hget]
          exact congrArg₂ _ (ParameterDomainV1.idxOf_valueAt hlt) hdigits

theorem indexOf_pointAt (h : index < space.cardinality) : ∃ point,
    space.pointAt index = .ok point ∧ point.rows = space.ItemsOf index ∧ space.HasPoint point ∧
      space.indexOf point = .ok index := by
  obtain ⟨point, hpoint, hrows⟩ := pointAt_ok h
  have hpos := sizes_pos space.domains
  have hitems : ∀ pair ∈ space.ItemsOf index, pair ∈ point.rows := fun pair hpair => hrows ▸ hpair
  obtain ⟨hdigits, hvalues⟩ := get?_items (space.checked.imp fun hlt => hlt.ne) hitems
    (MixedRadix.decode_within hpos h)
  have hhas : space.HasPoint point := by
    refine ⟨?_, hvalues⟩
    rw [hrows, map_fst_itemsOf]
  refine ⟨point, hpoint, hrows, hhas, ?_⟩
  rw [indexOf_of_hasPoint hhas, hdigits, MixedRadix.encode_decode hpos h, zero_mul, zero_add]

theorem pointAt_indexOf (h : space.HasPoint point) : ∃ index < space.cardinality,
    space.indexOf point = .ok index ∧
      ∃ same, space.pointAt index = .ok same ∧ same.rows.Perm point.rows := by
  have hwithin := digitsOf_within h.values
  have hlt := @MixedRadix.encode_lt _ _ 0 hwithin
  rw [zero_add, one_mul] at hlt
  refine ⟨_, hlt, indexOf_of_hasPoint h, ?_⟩
  obtain ⟨same, hsame, hrows⟩ := pointAt_ok hlt
  refine ⟨same, hsame, ?_⟩
  have hitems : items space.domains (digitsOf space.domains point) =
      space.domains.map fun domain => (domain.name, Dict.getD point domain.name "") := by
    rw [items, digitsOf, List.zipWith_map_right, List.zipWith_self]
    refine List.map_congr_left fun domain hdomain => ?_
    obtain ⟨value, hmem, hget⟩ := h.values domain hdomain
    rw [item, Dict.getD, hget, Option.getD_some, (ParameterDomainV1.valueAt_idxOf hmem).2]
  rw [ItemsOf, MixedRadix.decode_encode hwithin, hitems] at hrows
  refine (List.perm_ext_iff_of_nodup same.nodup.of_map point.nodup.of_map).mpr fun pair => ?_
  obtain ⟨name, value⟩ := pair
  rw [hrows, Dict.mem_rows, List.mem_map]
  constructor
  · rintro ⟨domain, hdomain, heq⟩
    obtain ⟨value', _, hget⟩ := h.values domain hdomain
    obtain ⟨rfl, rfl⟩ := Prod.mk.inj heq
    rw [Dict.getD, hget, Option.getD_some]
  · intro hget
    have hname : name ∈ space.names := by
      rw [← h.names.mem_iff]
      exact List.mem_map_of_mem (f := Prod.fst) (Dict.mem_rows.mpr hget)
    obtain ⟨domain, hdomain, rfl⟩ := List.mem_map.mp hname
    exact ⟨domain, hdomain, by rw [Dict.getD, hget, Option.getD_some]⟩

end ParameterSpaceV1

end StrategyLabStudy

end TradePlatform
