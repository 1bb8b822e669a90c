import LiveLint.Decimal.Binary64

/-!
# The shortest decimal of a number

A number of the binary64 format is written with the fewest digits that read back as the same
number; of the decimals that short, the nearest, and of two as near, the greater. It is written
by place, with no exponent: zeros fill up to the point, and a whole number gets `.0`.

For each count of digits only the two decimals next to the number are tried: if any decimal with
that count reads back, one of the two does.
-/

namespace LiveLint.Decimal

/-- A decimal `digits · 10^scale`. -/
structure Scaled where
  digits : Nat
  scale : Int
deriving DecidableEq, Repr

namespace Scaled

/-- The exact value, as numerator and denominator. -/
def ratio (d : Scaled) : Nat × Nat :=
  (d.digits * tenTo d.scale, tenTo (-d.scale))

/-- The number a decimal reads as. -/
def nearest? (d : Scaled) : Option Binary64 :=
  Binary64.nearest? d.ratio.1 d.ratio.2

end Scaled

/-- How many decimal digits the whole part of a ratio has; zero or less below one. -/
def magnitude (num den : Nat) : Int :=
  if den ≤ num then ((Nat.toDigits 10 (num / den)).length : Int)
  else 1 - ((Nat.toDigits 10 ((den - 1) / num)).length : Int)

/-- The decimals next to `num / den` on the grid `10^scale`: below, and above. -/
def neighbours (num den : Nat) (scale : Int) : Nat × Nat :=
  let q := (num * tenTo (-scale)) / (den * tenTo scale)
  (q, q + 1)

/-- Whether the lower neighbour is nearer than the upper one. -/
def lowerIsNearer (num den low : Nat) (scale : Int) : Bool :=
  2 * (num * tenTo (-scale)) < (2 * low + 1) * (den * tenTo scale)

/-- A decimal with the given grid that reads back as `x`, the nearer if two do. -/
def onGrid? (x : Binary64) (scale : Int) : Option Scaled :=
  let (num, den) := x.ratio
  let (low, high) := neighbours num den scale
  let below : Scaled := ⟨low, scale⟩
  let above : Scaled := ⟨high, scale⟩
  let (first, second) := if lowerIsNearer num den low scale then (below, above) else (above, below)
  if first.nearest? = some x then some first
  else if second.nearest? = some x then some second
  else none

/-- The shortest decimal that reads back as `x`; 17 digits always do. -/
def shortest (x : Binary64) : Scaled :=
  let top := magnitude x.ratio.1 x.ratio.2
  ((List.range 17).findSome? fun (n : Nat) => onGrid? x (top - (n : Int) - 1)).getD ⟨x.sig, 0⟩

/-- The digits without the zeros at their end, which move into the scale. -/
def stripZeros : Nat → Scaled → Scaled
  | 0, d => d
  | n + 1, d =>
    if d.digits % 10 == 0 && d.digits != 0 then stripZeros n ⟨d.digits / 10, d.scale + 1⟩ else d

/-- A decimal written by place, always with a point. -/
def Scaled.render (d : Scaled) : String :=
  let digits := Nat.toDigits 10 d.digits
  if 0 ≤ d.scale then
    String.ofList (digits ++ List.replicate d.scale.toNat '0' ++ ['.', '0'])
  else
    let places := (-d.scale).toNat
    let padded := List.replicate (places + 1 - digits.length) '0' ++ digits
    let whole := padded.length - places
    String.ofList (padded.take whole ++ '.' :: padded.drop whole)

/-- A number written as its shortest decimal, by place. -/
def Binary64.render (x : Binary64) : String :=
  if x.sig = 0 then "0.0" else (stripZeros 400 (shortest x)).render

end LiveLint.Decimal
