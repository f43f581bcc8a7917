/-
# `TradePlatform.Lib.Decimal` — decimal numbers, by value, with an explicit rounding

Two roundings meet in programs that keep money in decimals: the context of the
arithmetic (so many significant digits, ties to even) and the column a number is
stored in (so many fractional digits, ties away from zero, an error when it does
not fit).  A finite decimal is its value, a rational; a `Context` is the rounding
that every arithmetic operation applies to the exact result, so a development can
be read at the interpreter's default context, at exact arithmetic, or at any
context at all.  Comparison never rounds.
-/
import Mathlib

abbrev Decimal := ℚ

namespace Decimal

/-- A decimal with the exponent it is written with: `1` and `1.0` are one value
and two numerals.  Two numerals have one text precisely when they are equal. -/
structure Numeral where
  value : Decimal
  exponent : ℤ
deriving DecidableEq

/-! ## Rounding to an integer -/

def roundHalfEven (x : ℚ) : ℤ :=
  if x - ⌊x⌋ < 1 / 2 then ⌊x⌋
  else if 1 / 2 < x - ⌊x⌋ then ⌊x⌋ + 1
  else if ⌊x⌋ % 2 = 0 then ⌊x⌋ else ⌊x⌋ + 1

def roundHalfAway (x : ℚ) : ℤ :=
  if 0 ≤ x then ⌊x + 1 / 2⌋ else -⌊-x + 1 / 2⌋

/-! ## The context of the arithmetic -/

structure Context where
  round : ℚ → ℚ

def roundSig (prec : ℕ) (x : ℚ) : ℚ :=
  if x = 0 then 0
  else
    let e : ℤ := Int.log 10 |x| + 1 - prec
    roundHalfEven (x / 10 ^ e) * 10 ^ e

namespace Context

def exact : Context := ⟨id⟩

def default : Context := ⟨roundSig 28⟩

variable (c : Context)

def add (x y : Decimal) : Decimal := c.round (x + y)
def sub (x y : Decimal) : Decimal := c.round (x - y)
def mul (x y : Decimal) : Decimal := c.round (x * y)
def div (x y : Decimal) : Decimal := c.round (x / y)
def neg (x : Decimal) : Decimal := c.round (-x)
def abs (x : Decimal) : Decimal := c.round |x|

/-- The context represents `x`: a result of this value is not rounded. -/
def Represents (x : Decimal) : Prop := c.round x = x

instance (x : Decimal) : Decidable (c.Represents x) :=
  inferInstanceAs (Decidable (c.round x = x))

variable {c}

@[simp] theorem round_exact (x : ℚ) : exact.round x = x := rfl

theorem add_eq {x y : Decimal} (h : c.Represents (x + y)) : c.add x y = x + y := h

theorem sub_eq {x y : Decimal} (h : c.Represents (x - y)) : c.sub x y = x - y := h

end Context

/-! ## Quantized numbers -/

def roundDown (x : ℚ) : ℤ := if 0 ≤ x then ⌊x⌋ else -⌊-x⌋

/-- A context together with its precision: the coefficient of a quantized number may have
so many digits and no more, or any number of them. -/
structure Arithmetic extends Context where
  precision : Option ℕ

namespace Arithmetic

def exact : Arithmetic := ⟨.exact, none⟩

def default : Arithmetic := ⟨.default, some 28⟩

variable (a : Arithmetic)

/-- The number with the given coefficient; `none` is an invalid operation. -/
def scaled (scale : ℕ) (coefficient : ℤ) : Option Decimal :=
  if a.precision.all (fun digits => decide (coefficient.natAbs < 10 ^ digits)) then
    some ((coefficient : ℚ) / 10 ^ scale)
  else none

def quantize (scale : ℕ) (x : Decimal) : Option Decimal :=
  a.scaled scale (roundHalfEven (x * 10 ^ scale))

def quantizeDown (scale : ℕ) (x : Decimal) : Option Decimal :=
  a.scaled scale (roundDown (x * 10 ^ scale))

/-! Exact arithmetic is that of the rationals. -/

@[simp] theorem round_exact (x : Decimal) : exact.round x = x := rfl

@[simp] theorem add_exact (x y : Decimal) : exact.add x y = x + y := rfl

@[simp] theorem sub_exact (x y : Decimal) : exact.sub x y = x - y := rfl

@[simp] theorem mul_exact (x y : Decimal) : exact.mul x y = x * y := rfl

@[simp] theorem div_exact (x y : Decimal) : exact.div x y = x / y := rfl

@[simp] theorem neg_exact (x : Decimal) : exact.neg x = -x := rfl

@[simp] theorem abs_exact (x : Decimal) : exact.abs x = |x| := rfl

theorem scaled_exact (scale : ℕ) (coefficient : ℤ) :
    exact.scaled scale coefficient = some ((coefficient : ℚ) / 10 ^ scale) := by
  simp [scaled, exact]

theorem quantize_exact (scale : ℕ) (x : Decimal) :
    exact.quantize scale x = some ((roundHalfEven (x * 10 ^ scale) : ℚ) / 10 ^ scale) :=
  scaled_exact ..

end Arithmetic

/-! ## The column a number is stored in -/

/-- The value a `NUMERIC(prec, scale)` column stores for `x`: rounded to `scale`
fractional digits, or `none` when more than `prec - scale` digits are left. -/
def numeric (prec scale : ℕ) (x : Decimal) : Option Decimal :=
  let y : ℚ := roundHalfAway (x * 10 ^ scale) / 10 ^ scale
  if |y| < 10 ^ (prec - scale) then some y else none

def Storable (prec scale : ℕ) (x : Decimal) : Prop := numeric prec scale x = some x

instance (prec scale : ℕ) (x : Decimal) : Decidable (Storable prec scale x) :=
  inferInstanceAs (Decidable (_ = _))

end Decimal
