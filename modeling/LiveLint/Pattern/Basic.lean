import LiveLint.Text.Blank
import LiveLint.Text.Digit
import LiveLint.Text.WordChar

/-!
# Patterns

The patterns that colouring rules are written in: characters and classes of them, one pattern
after another, a choice, repetition that takes as much or as little as it can, the two ends of the
text, the boundary of a word, and numbered groups. A pattern says where in a text something stands
and what each of its groups stands for.

Two facts about a pattern decide how it is repeated. One that `takesNothing` in any text is
repeated at most once. One that `mayTakeNothing` needs care in a repetition, since a turn may end
where it started.
-/

namespace LiveLint

/-- A part of a character class. -/
inductive ClassItem
  | single (c : Char)
  | range (first last : Char)
  | blank
  | word
  | digit
deriving DecidableEq, Repr

/-- Whether a part of a class holds a character. -/
def ClassItem.holds : ClassItem → Char → Bool
  | single c, d => c == d
  | range first last, d => first ≤ d && d ≤ last
  | blank, d => Text.isBlank d
  | word, d => Text.isWord d
  | digit, d => Text.isDigit d

/-- A set of characters: those of its parts, or all others. -/
structure CharClass where
  negated : Bool
  items : List ClassItem
deriving DecidableEq, Repr

/-- Whether a class holds a character. -/
def CharClass.holds (k : CharClass) (c : Char) : Bool :=
  (k.items.any (·.holds c)) != k.negated

/-- A pattern. -/
inductive Pattern
  /-- The empty text. -/
  | empty
  /-- One character of a class. -/
  | one (k : CharClass)
  /-- The start of the whole text. -/
  | start
  /-- The end of the whole text. -/
  | stop
  /-- A place where a word starts or ends. -/
  | boundary
  | seq (p q : Pattern)
  /-- The first, or else the second. -/
  | alt (p q : Pattern)
  /-- Once or not at all. -/
  | opt (greedy : Bool) (p : Pattern)
  /-- Any number of times. -/
  | star (greedy : Bool) (p : Pattern)
  /-- Once or more. -/
  | plus (greedy : Bool) (p : Pattern)
  /-- A numbered group. -/
  | group (number : Nat) (p : Pattern)
deriving DecidableEq, Repr

namespace Pattern

/-- Whether the pattern takes no character in any text. -/
def takesNothing : Pattern → Bool
  | empty | start | stop | boundary => true
  | one _ => false
  | seq p q | alt p q => p.takesNothing && q.takesNothing
  | opt _ p | star _ p | plus _ p | group _ p => p.takesNothing

/-- Whether the pattern can match without taking a character. -/
def mayTakeNothing : Pattern → Bool
  | empty | start | stop | boundary => true
  | one _ => false
  | seq p q => p.mayTakeNothing && q.mayTakeNothing
  | alt p q => p.mayTakeNothing || q.mayTakeNothing
  | opt .. | star .. => true
  | plus _ p | group _ p => p.mayTakeNothing

end Pattern

end LiveLint
