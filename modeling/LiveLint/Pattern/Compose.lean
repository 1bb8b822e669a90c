import LiveLint.Pattern.Basic

/-!
# Composing patterns

How patterns are put together where they are read. Each composition has a normal form, and which
way through a pattern is preferred depends on it.

* A sequence of sequences is one sequence, and the empty text is no part of it.
* A choice of choices is one choice. Where every branch is a sequence and all of them begin
  alike, the common beginning is read once, before a choice of the rests. So in `a*b|a*c` the
  letters are taken before anything is known about the branch, and `a?a|a?b` takes both letters
  of `ab`.
* What takes no character in any text is repeated at most once.
-/

namespace LiveLint

/-- How often something is repeated. -/
inductive Repetition
  | opt
  | star
  | plus
  /-- From `least` times to `most` times, if there is a most. -/
  | counted (least : Nat) (most : Option Nat)
deriving DecidableEq, Repr

namespace Pattern

/-! ## Sequences and choices -/

/-- The parts of a sequence. -/
def parts : Pattern → List Pattern
  | empty => []
  | seq p q => p.parts ++ q.parts
  | p => [p]

/-- The branches of a choice. -/
def branches : Pattern → List Pattern
  | alt p q => p.branches ++ q.branches
  | p => [p]

/-- The sequence of some parts, as they are. It is nested to the left: what the first parts lead
to is known before the next part is looked at. -/
def chain : List Pattern → Pattern
  | [] => .empty
  | p :: ps => ps.foldl .seq p

/-- The choice of some branches, as they are. -/
def choice : List Pattern → Pattern
  | [] => .empty
  | [p] => p
  | p :: ps => .alt p (choice ps)

/-- One pattern after another. -/
def seqOf (ps : List Pattern) : Pattern :=
  chain (ps.flatMap parts)

/-- How two lists begin alike. -/
def commonStart : List Pattern → List Pattern → List Pattern
  | p :: ps, q :: qs => if p = q then p :: commonStart ps qs else []
  | _, _ => []

/-- How all of some sequences begin. A branch that is no sequence has no beginning to share. -/
def sharedStart : List (List Pattern) → List Pattern
  | [] => []
  | ps :: pss => if (ps :: pss).all (2 ≤ ·.length) then pss.foldl commonStart ps else []

/-- The first of several that matches. -/
def altOf (ps : List Pattern) : Pattern :=
  let bs := ps.flatMap branches
  match bs with
  | _ :: _ :: _ =>
    let shared := sharedStart (bs.map parts)
    if shared.isEmpty then choice bs
    else
      let rests := bs.map fun b => chain (b.parts.drop shared.length)
      seqOf (shared ++ [choice (rests.flatMap branches)])
  | bs => choice bs

/-! ## Repetitions -/

/-- A pattern up to `n` times. -/
def upTo (greedy : Bool) (p : Pattern) : Nat → Pattern
  | 0 => .empty
  | 1 => .opt greedy p
  | n + 1 => .opt greedy (.seq p (upTo greedy p n))

/-- A pattern that takes nothing, repeated at most once. -/
def repeatedOnce (r : Repetition) (greedy : Bool) (p : Pattern) : Pattern :=
  match r with
  | .opt | .star => .opt greedy p
  | .plus => p
  | .counted 0 most => if most = some 0 then .empty else .opt greedy p
  | .counted (_ + 1) _ => p

/-- A repeated pattern. -/
def repeated (r : Repetition) (greedy : Bool) (p : Pattern) : Pattern :=
  if p.takesNothing then repeatedOnce r greedy p
  else
    match r with
    | .opt => .opt greedy p
    | .star => .star greedy p
    | .plus => .plus greedy p
    | .counted 0 none => .star greedy p
    | .counted (n + 1) none => seqOf (List.replicate n p ++ [.plus greedy p])
    | .counted least (some most) => seqOf (List.replicate least p ++ [upTo greedy p (most - least)])

end Pattern

end LiveLint
