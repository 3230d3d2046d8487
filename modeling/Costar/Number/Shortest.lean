import Costar.Number.Binary64

/-!
# Shortest decimal text

A finite binary64 number is written with the fewest decimal digits that read back as the
same number, and among those with the nearest to it.  The numbers that read back are those of
the *rounding interval*, which reaches half way to both neighbours and holds its ends exactly
when the significand is even.  The search goes through the decimal grids from the coarsest,
and on each looks at the two neighbours of the number.
-/

namespace Costar.Binary64

/-- A grid of decimal numbers laid over the numbers `n * 2 ^ (scale - 2)`: the number `c` of
the grid is above `n` exactly when `c * step > n * unit`. -/
structure Grid where
  step : Nat
  unit : Nat

/-- The grid of the multiples of `10 ^ k`, against quarters of the last place. -/
def Grid.ofPower (scale k : Int) : Grid where
  step := Nat.pow 10 k.toNat * Nat.pow 2 (2 - scale).toNat
  unit := Nat.pow 2 (scale - 2).toNat * Nat.pow 10 (-k).toNat

/-- The lower end of the rounding interval, in quarters of the last place. -/
def lowerEnd (x : Binary64) : Nat :=
  if x.significand = leadingBit ∧ -1074 < x.scale then 4 * x.significand - 1
  else 4 * x.significand - 2

/-- The upper end of the rounding interval, in quarters of the last place. -/
def upperEnd (x : Binary64) : Nat :=
  4 * x.significand + 2

/-- Whether the number `c` of a grid reads back as `x`. -/
def readsBack (x : Binary64) (g : Grid) (c : Nat) : Bool :=
  if x.significand % 2 = 0 then
    x.lowerEnd * g.unit ≤ c * g.step && c * g.step ≤ x.upperEnd * g.unit
  else
    x.lowerEnd * g.unit < c * g.step && c * g.step < x.upperEnd * g.unit

/-- The number of a grid nearest to `x` among those that read back, an exact tie going to the
even one. -/
def nearestOn (x : Binary64) (g : Grid) : Option Nat :=
  let value := 4 * x.significand * g.unit
  let low := value / g.step
  match x.readsBack g low, x.readsBack g (low + 1) with
  | true, true =>
    let below := value - low * g.step
    let above := (low + 1) * g.step - value
    some (if below < above ∨ (below = above ∧ low % 2 = 0) then low else low + 1)
  | true, false => some low
  | false, true => some (low + 1)
  | false, false => none

/-- The power of ten of the first digit of a finite number other than zero. -/
def leadingPower (x : Binary64) : Int :=
  let (num, den) := x.ratio
  ((toString (num * Nat.pow 10 400 / den)).length : Int) - 401

/-- Significand and power of ten of the shortest decimal number that reads back as `x`, which
is finite and not zero.  Seventeen digits always suffice. -/
def shortest (x : Binary64) : Nat × Int :=
  ((List.range 17).findSome? fun (places : Nat) =>
    let k : Int := x.leadingPower - places
    (x.nearestOn (.ofPower x.scale k)).map (·, k)).getD (0, 0)

end Costar.Binary64

namespace Costar

/-- How a decimal number is laid out as text. -/
structure DecimalLayout where
  /-- The largest number of digits before the point that is written positionally. -/
  maxLeading : Int
  /-- The largest number of zeros after the point that is written positionally. -/
  maxZeros : Int
  /-- The least number of digits in an exponent. -/
  exponentDigits : Nat

namespace DecimalLayout

/-- Writes `0.digits * 10 ^ point`. -/
def write (l : DecimalLayout) (digits : String) (point : Int) : String :=
  if -l.maxZeros ≤ point ∧ point ≤ l.maxLeading then
    if point ≤ 0 then
      "0." ++ "".pushn '0' (-point).toNat ++ digits
    else if digits.length ≤ point then
      digits ++ "".pushn '0' (point - digits.length).toNat ++ ".0"
    else
      let cs := digits.toList
      String.ofList (cs.take point.toNat) ++ "." ++ String.ofList (cs.drop point.toNat)
  else
    let exponent := point - 1
    let size := toString exponent.natAbs
    let mantissa :=
      match digits.toList with
      | [] => ""
      | [d] => String.ofList [d]
      | d :: ds => String.ofList (d :: '.' :: ds)
    mantissa ++ (if exponent < 0 then "e-" else "e+") ++
      "".pushn '0' (l.exponentDigits - size.length) ++ size

end DecimalLayout

/-- Numbers are positional from four zeros after the point up to sixteen digits before it;
an exponent has a sign and at least two digits. -/
def numberLayout : DecimalLayout := ⟨16, 3, 2⟩

/-- The text of a binary64 number. -/
def Binary64.text (x : Binary64) : String :=
  if x.isNaN then "nan"
  else
    let sign := if x.isNegative then "-" else ""
    if x.isInfinite then sign ++ "inf"
    else if x.isZero then sign ++ "0.0"
    else
      let (significand, power) := x.shortest
      let written := toString significand
      let digits := String.ofList (written.toList.reverse.dropWhile (· == '0')).reverse
      sign ++ numberLayout.write digits (written.length + power)

end Costar
