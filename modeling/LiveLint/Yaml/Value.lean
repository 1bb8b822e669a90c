import LiveLint.Decimal.Shortest
import LiveLint.Yaml.Node

/-!
# Values of YAML nodes

What a plain scalar says decides what it is: nothing, a truth value, a number, or else a text. A
quoted scalar is always a text. Whole numbers may be written in base 16, 8 or 2 after `0x`, `0o`
or `0b`; a zero before other digits makes a text, and so do underscores. A number with a point or
an exponent, or too large for 128 bits, is a binary64 number.

`Stream.isReadable` says whether a text can be read with no schema at all: it is one document, no
mapping has two keys of one value, nothing is nested more than 128 deep, and whole numbers fit into
64 bits.
-/

namespace LiveLint.Yaml

/-- A number with a point or an exponent. -/
inductive Real
  | finite (negative : Bool) (magnitude : Decimal.Binary64)
  | infinite (negative : Bool)
  | nan
deriving DecidableEq, Repr

namespace Real

/-- The number as messages show it. -/
def render : Real → String
  | finite negative magnitude => (if negative then "-" else "") ++ magnitude.render
  | infinite negative => if negative then "-inf" else "inf"
  | nan => "NaN"

/-- Whether two numbers count as one key: both zeros are one. -/
def same : Real → Real → Bool
  | finite n x, finite m y => (x == y && n == m) || (x.sig == 0 && y.sig == 0)
  | x, y => x == y

end Real

/-- What a scalar is. -/
inductive Atom
  | null
  | truth (value : Bool)
  | integer (value : Int)
  | real (value : Real)
  | text (value : String)
deriving DecidableEq, Repr

/-! ## Numbers -/

/-- The value of a digit in a base up to 16. -/
def digitIn? (base : Nat) (c : Char) : Option Nat :=
  (hexValue? c).filter (· < base)

/-- The number that digits write in a base; one digit at least. -/
def natIn? (base : Nat) (cs : List Char) : Option Nat :=
  if cs.isEmpty then none else cs.foldlM (fun n c => (digitIn? base c).map (base * n + ·)) 0

/-- The text without the given sign before it. -/
def dropSign (signs : List Char) (cs : List Char) : List Char :=
  if cs.head?.any signs.contains then cs.drop 1 else cs

/-- Whether a text is digits with a needless zero before them. -/
def hasNeedlessZero (cs : List Char) : Bool :=
  let digits := dropSign ['-', '+'] cs
  1 < digits.length && digits.head? == some '0' && digits.all Char.isDigit

/-- The magnitude that a text without its sign writes. -/
def magnitude? (decimalAllowed : Bool) : List Char → Option Nat
  | '0' :: 'x' :: cs => natIn? 16 cs
  | '0' :: 'o' :: cs => natIn? 8 cs
  | '0' :: 'b' :: cs => natIn? 2 cs
  | cs => if decimalAllowed then natIn? 10 cs else none

/-- The whole number that a text writes, with a sign or without. -/
def integer? (cs : List Char) : Option Int :=
  let decimalAllowed := !hasNeedlessZero cs
  match cs with
  | '-' :: cs => (magnitude? decimalAllowed cs).map fun n => -(n : Int)
  | '+' :: cs => (magnitude? decimalAllowed cs).map fun n => (n : Int)
  | cs => (magnitude? decimalAllowed cs).map fun n => (n : Int)

/-- Whether a whole number fits into 64 bits, with a sign or without. -/
def fits64 (i : Int) : Bool :=
  -9223372036854775808 ≤ i && i ≤ 18446744073709551615

/-- Whether a whole number fits into 128 bits, with a sign or without. -/
def fits128 (i : Int) : Bool :=
  -170141183460469231731687303715884105728 ≤ i && i ≤ 340282366920938463463374607431768211455

/-- The exponent after `e`, if it is written right. -/
def exponent? (cs : List Char) : Option Int :=
  let digits := dropSign ['-', '+'] cs
  (natIn? 10 digits).map fun n => if cs.head? == some '-' then -(n : Int) else n

/-- The decimal that a text without a sign writes: digits, perhaps with a point among or around
them, perhaps with an exponent. -/
def scaled? (cs : List Char) : Option Decimal.Scaled := do
  let isMantissa (c : Char) : Bool := c.isDigit || c == '.'
  let mantissa := cs.takeWhile isMantissa
  let exponent ← match cs.dropWhile isMantissa with
    | [] => some 0
    | c :: r => if c == 'e' || c == 'E' then exponent? r else none
  let whole := mantissa.takeWhile Char.isDigit
  let fraction := (mantissa.dropWhile Char.isDigit).drop 1
  let digits ← if fraction.all Char.isDigit then natIn? 10 (whole ++ fraction) else none
  some ⟨digits, exponent - (fraction.length : Int)⟩

/-- The nearest number to a decimal; far outside the format without the arithmetic. -/
def nearest? (d : Decimal.Scaled) : Option Decimal.Binary64 :=
  let size : Int := (Nat.toDigits 10 d.digits).length + d.scale
  if d.digits = 0 || size < -400 then some .zero
  else if 400 < size then none
  else d.nearest?

/-- The number with a point or an exponent that a text writes. -/
def real? (cs : List Char) : Option Real :=
  let unsigned := dropSign ['+'] cs
  let negative := unsigned.head? == some '-'
  let twoSigns := cs.head? == some '+' && unsigned.head?.any ['+', '-'].contains
  let isName (names : List String) (cs : List Char) : Bool := names.any (·.toList == cs)
  if twoSigns then none
  else if isName [".inf", ".Inf", ".INF"] unsigned then some (.infinite false)
  else if isName ["-.inf", "-.Inf", "-.INF"] cs then some (.infinite true)
  else if isName [".nan", ".NaN", ".NAN"] cs then some .nan
  else do
    let d ← scaled? (dropSign ['-'] unsigned)
    let x ← nearest? d
    some (.finite negative x)

/-! ## Scalars and nodes -/

/-- What a plain scalar is. -/
def Atom.ofPlain (text : String) : Atom :=
  let cs := text.toList
  if text ∈ ["", "~", "null", "Null", "NULL"] then .null
  else if text ∈ ["true", "True", "TRUE"] then .truth true
  else if text ∈ ["false", "False", "FALSE"] then .truth false
  else
    match (integer? cs).filter fits128 with
    | some i => .integer i
    | none =>
      if hasNeedlessZero cs then .text text
      else ((real? cs).map Atom.real).getD (.text text)

/-- What a scalar is. -/
def Atom.ofScalar (plain : Bool) (text : String) : Atom :=
  if plain then .ofPlain text else .text text

/-- Whether two scalars count as one key. -/
def Atom.same : Atom → Atom → Bool
  | .real x, .real y => x.same y
  | x, y => x == y

namespace Node

mutual

/-- Whether two nodes have one value. The order of entries does not matter. -/
def same : Node → Node → Bool
  | .scalar _ p s, .scalar _ q t => (Atom.ofScalar p s).same (Atom.ofScalar q t)
  | .sequence _ xs, .sequence _ ys => sameItems xs ys
  | .mapping _ xs, .mapping _ ys => xs.length == ys.length && sameEntries xs ys
  | _, _ => false

/-- Whether two lists of nodes have the same values in order. -/
def sameItems : List Node → List Node → Bool
  | [], [] => true
  | x :: xs, y :: ys => same x y && sameItems xs ys
  | _, _ => false

/-- Whether every entry of the first list is in the second. -/
def sameEntries : List (Node × Node) → List (Node × Node) → Bool
  | [], _ => true
  | (k, v) :: xs, ys => ys.any (fun (l, w) => same k l && same v w) && sameEntries xs ys

end

mutual

/-- How deep collections are nested. -/
def depth : Node → Nat
  | .scalar .. => 0
  | .broken => 0
  | .sequence _ items => depthOfItems items + 1
  | .mapping _ entries => depthOfEntries entries + 1

/-- How deep collections are nested in any of the nodes. -/
def depthOfItems : List Node → Nat
  | [] => 0
  | x :: xs => max (depth x) (depthOfItems xs)

/-- How deep collections are nested in any key or value. -/
def depthOfEntries : List (Node × Node) → Nat
  | [] => 0
  | (k, v) :: xs => max (max (depth k) (depth v)) (depthOfEntries xs)

end

/-- Whether two keys of the entries have one value. -/
def hasRepeatedKey : List (Node × Node) → Bool
  | [] => false
  | (k, _) :: xs => xs.any (fun (l, _) => same k l) || hasRepeatedKey xs

mutual

/-- Whether nothing is broken, keys are told apart and whole numbers fit, here and inside. -/
def isPlainData : Node → Bool
  | .scalar _ plain text =>
    match Atom.ofScalar plain text with
    | .integer i => fits64 i
    | _ => true
  | .sequence _ items => areItemsPlain items
  | .mapping _ entries => !hasRepeatedKey entries && areEntriesPlain entries
  | .broken => false

/-- The same for all nodes of a list. -/
def areItemsPlain : List Node → Bool
  | [] => true
  | x :: xs => isPlainData x && areItemsPlain xs

/-- The same for all keys and values. -/
def areEntriesPlain : List (Node × Node) → Bool
  | [] => true
  | (k, v) :: xs => isPlainData k && isPlainData v && areEntriesPlain xs

end

/-- Whether the node can be read with no schema. -/
def isReadable (node : Node) : Bool :=
  node.depth ≤ 128 && node.isPlainData

end Node

/-- Whether the text can be read with no schema. -/
def Stream.isReadable : Stream → Bool
  | .empty => true
  | .starting node ending => ending == .whole && node.isReadable

end LiveLint.Yaml
