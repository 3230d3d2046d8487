/-!
# Binary64 numbers

The 64-bit binary floating-point format of IEEE 754, held as its word.  A finite number is a
sign, a whole significand and a power of two, so that comparison and rounding are exact
computations on whole numbers and no machine arithmetic is involved.

Main definitions: `Binary64.rank` (a whole number that orders the numbers other than NaN),
`Binary64.ofRatio` (the nearest number to a ratio, an exact tie going to the even
significand) and `Binary64.ofInt?`.

Main statement: `Binary64.lt_asymm`.
-/

namespace Costar

/-- A number in the binary64 format, as its word. -/
structure Binary64 where
  bits : UInt64
deriving DecidableEq, Repr

namespace Binary64

/-! ## Fields of the word -/

/-- The word as a natural number. -/
def word (x : Binary64) : Nat :=
  x.bits.toNat

/-- The sign bit of a word, as a number. -/
def signBit : Nat := 0x8000000000000000

/-- The bit that a significand of full width begins with, which a word leaves out. -/
def leadingBit : Nat := 0x10000000000000

/-- The word without its sign bit. -/
def magnitude (x : Binary64) : Nat :=
  x.word % signBit

/-- Whether the sign bit is set. -/
def isNegative (x : Binary64) : Bool :=
  signBit ≤ x.word

/-- The biased exponent. -/
def exponentField (x : Binary64) : Nat :=
  x.magnitude / leadingBit

/-- The stored part of the significand. -/
def fraction (x : Binary64) : Nat :=
  x.word % leadingBit

/-- Whether the word is one of those that stand for no number. -/
def isNaN (x : Binary64) : Bool :=
  x.exponentField == 2047 && x.fraction != 0

/-- Whether the number is an infinity. -/
def isInfinite (x : Binary64) : Bool :=
  x.exponentField == 2047 && x.fraction == 0

/-- Whether the number is neither an infinity nor NaN. -/
def isFinite (x : Binary64) : Bool :=
  x.exponentField != 2047

/-- Whether the number is one of the two zeros. -/
def isZero (x : Binary64) : Bool :=
  x.magnitude == 0

/-- The whole significand of a finite number. -/
def significand (x : Binary64) : Nat :=
  if x.exponentField = 0 then x.fraction else leadingBit + x.fraction

/-- The power of two that a finite number's significand is multiplied with. -/
def scale (x : Binary64) : Int :=
  if x.exponentField = 0 then -1074 else (x.exponentField : Int) - 1075

/-- The word of a number with a given sign and magnitude. -/
def ofMagnitude (negative : Bool) (magnitude : Nat) : Binary64 :=
  ⟨UInt64.ofNat (if negative then signBit + magnitude else magnitude)⟩

/-- The NaN that stands for all of them. -/
def nan : Binary64 :=
  ofMagnitude false 0x7FF8000000000000

/-- The magnitude of the infinities. -/
def infiniteMagnitude : Nat := 0x7FF0000000000000

/-- The infinity of a sign. -/
def infinity (negative : Bool) : Binary64 :=
  ofMagnitude negative infiniteMagnitude

/-- The number of a word, all the words of NaN being taken for one. -/
def ofWord (w : UInt64) : Binary64 :=
  if isNaN ⟨w⟩ then nan else ⟨w⟩

/-! ## Order -/

/-- Orders the numbers other than NaN; both zeros have rank zero. -/
def rank (x : Binary64) : Int :=
  if x.isNegative then -(x.magnitude : Int) else x.magnitude

/-- Whether one number is below another.  NaN is below nothing and above nothing. -/
def lt (x y : Binary64) : Bool :=
  !x.isNaN && !y.isNaN && x.rank < y.rank

/-- Whether two numbers are equal as numbers: the zeros are, NaN is not even to itself. -/
def eqv (x y : Binary64) : Bool :=
  !x.isNaN && !y.isNaN && x.rank == y.rank

theorem lt_asymm {x y : Binary64} (h : x.lt y = true) : y.lt x = false := by
  simp only [lt, Bool.and_eq_true, decide_eq_true_eq] at h
  have : ¬ y.rank < x.rank := by omega
  simp [lt, this]

/-! ## Exact values -/

/-- Numerator and denominator of the absolute value of a finite number. -/
def ratio (x : Binary64) : Nat × Nat :=
  match x.scale with
  | .ofNat k => (x.significand * Nat.pow 2 k, 1)
  | .negSucc k => (x.significand, Nat.pow 2 (k + 1))

/-- The whole number that a number is equal to, if it is one. -/
def toInt? (x : Binary64) : Option Int :=
  let (num, den) := x.ratio
  if x.isFinite && num % den == 0 then
    some (if x.isNegative then -((num / den : Nat) : Int) else (num / den : Nat))
  else
    none

/-! ## Rounding -/

/-- The quotient rounded to the nearest whole number, an exact tie going to the even one. -/
def divNearest (num den : Nat) : Nat :=
  let q := num / den
  let r := num % den
  if 2 * r < den then q
  else if den < 2 * r then q + 1
  else if q % 2 = 0 then q else q + 1

/-- Numerator and denominator of `num / den` divided by a power of two. -/
def unscale (num den : Nat) : Int → Nat × Nat
  | .ofNat k => (num, den * Nat.pow 2 k)
  | .negSucc k => (num * Nat.pow 2 (k + 1), den)

/-- The power of two for which the significand of `num / den` has fifty-three bits, or the
least power of the format where that is larger. -/
def scaleOf (num den : Nat) : Int :=
  let k : Int := (num.log2 : Int) - den.log2
  let (n, d) := unscale num den k
  max (if n < d then k - 53 else k - 52) (-1074)

/-- The number nearest to `num / den`, an exact tie going to the even significand; a ratio
too large for the format gives an infinity. -/
def ofRatio (negative : Bool) (num den : Nat) : Binary64 :=
  if num = 0 then
    ofMagnitude negative 0
  else
    let q := scaleOf num den
    let (n, d) := unscale num den q
    let magnitude := (q + 1074).toNat * leadingBit + divNearest n d
    ofMagnitude negative (min magnitude infiniteMagnitude)

/-- The number nearest to a whole number, unless that is too large for the format. -/
def ofInt? (n : Int) : Option Binary64 :=
  let x := ofRatio (n < 0) n.natAbs 1
  if x.isInfinite then none else some x

/-- The number nearest to `mantissa * 10 ^ exponent`. -/
def ofDecimal (negative : Bool) (mantissa : Nat) (exponent : Int) : Binary64 :=
  let digits : Int := (toString mantissa).length
  if mantissa = 0 || digits + exponent < -400 then ofMagnitude negative 0
  else if 400 < digits + exponent then infinity negative
  else
    match exponent with
    | .ofNat k => ofRatio negative (mantissa * Nat.pow 10 k) 1
    | .negSucc k => ofRatio negative mantissa (Nat.pow 10 (k + 1))

end Binary64

end Costar
