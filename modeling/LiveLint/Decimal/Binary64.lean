/-!
# Numbers of the binary64 format

A finite number of the format is `sig · 2^exp` with `sig < 2^53` and `-1074 ≤ exp ≤ 971`.
`Binary64.nearest?` gives the number nearest to a ratio of naturals, a tie going to the even
significand, and nothing where the ratio is too large for the format. All arithmetic is exact.
-/

namespace LiveLint.Decimal

/-- The quotient rounded to the nearest natural, a tie to the even one. -/
def roundDiv (num den : Nat) : Nat :=
  let q := num / den
  let twice := 2 * (num % den)
  if twice < den || (twice == den && q % 2 == 0) then q else q + 1

/-- The power of two for an exponent, one for a negative exponent. -/
def twoTo (e : Int) : Nat :=
  Nat.pow 2 e.toNat

/-- The power of ten for an exponent, one for a negative exponent. -/
def tenTo (e : Int) : Nat :=
  Nat.pow 10 e.toNat

/-- A magnitude of the binary64 format. -/
structure Binary64 where
  sig : Nat
  exp : Int
deriving DecidableEq, Repr

namespace Binary64

/-- The least exponent of the format. -/
def minExp : Int := -1074

/-- The greatest exponent of the format. -/
def maxExp : Int := 971

/-- Zero. -/
def zero : Binary64 := ⟨0, minExp⟩

/-- The exact value, as numerator and denominator. -/
def ratio (x : Binary64) : Nat × Nat :=
  (x.sig * twoTo x.exp, twoTo (-x.exp))

/-- The significand of `num / den` for the exponent `e`, rounded. -/
def roundAt (num den : Nat) (e : Int) : Nat :=
  roundDiv (num * twoTo (-e)) (den * twoTo e)

/-- The exponent for which the significand of `num / den` has 53 bits, or the least one. -/
def exponentOf (num den : Nat) : Int :=
  let guess : Int := (Nat.log2 num : Int) - (Nat.log2 den : Int) - 52
  let low := num * twoTo (-guess) < den * twoTo guess * twoTo 52
  max minExp (if low then guess - 1 else guess)

/-- The nearest magnitude of the format, if the ratio is not too large for it. -/
def nearest? (num den : Nat) : Option Binary64 :=
  if num = 0 then some zero
  else
    let e := exponentOf num den
    let sig := roundAt num den e
    let x : Binary64 := if sig = twoTo 53 then ⟨twoTo 52, e + 1⟩ else ⟨sig, e⟩
    if x.sig = 0 then some zero else if x.exp ≤ maxExp then some x else none

end Binary64

end LiveLint.Decimal
