import LiveLint.Pattern.Basic

/-!
# Where patterns end

Matching is ordered. The left side of a choice is preferred, greedy repetition prefers to go on
and lazy repetition to stop. `Pattern.ends` lists the states in which a pattern can end, the
preferred first, one for each position: where two ways lead to one position, what follows cannot
tell them apart, and the preferred way alone counts.

A way through a pattern never comes twice to the same decision at the same place. The decisions
are the choices, the optional parts and the repetitions; a state remembers those it came to since
the last character was taken. So a turn of a repetition that takes nothing is not followed by
another one, and an inner repetition that has stopped at a place does not start there again in a
later turn of the outer one.

Decisions are told apart by number. The whole pattern is number 1, the parts of number `n` are
`2 * n` and `2 * n + 1`. A repetition whose body may take nothing makes two decisions, whether to
start and whether to go on, and takes the number of its missing second part for the latter. Any
other repetition makes only one.
-/

namespace LiveLint.Pattern

/-! ## States -/

/-- A place in a text. -/
structure Place where
  /-- How many characters lie before. -/
  position : Nat
  /-- The character before, if there is one. -/
  before : Option Char
  /-- The text after. -/
  rest : List Char
deriving DecidableEq, Repr

/-- The start of a text. -/
def Place.start (cs : List Char) : Place := ⟨0, none, cs⟩

/-- What a group stands for, from one position to another. -/
structure Span where
  group : Nat
  start : Nat
  stop : Nat
deriving DecidableEq, Repr

/-- A place, and what happened on the way to it. -/
structure State where
  place : Place
  /-- The groups that were closed, the latest first. -/
  spans : List Span
  /-- The decisions that were made at this place. -/
  decided : List Nat
deriving DecidableEq, Repr

namespace State

/-- Before any part of a pattern. -/
def start (place : Place) : State := ⟨place, [], []⟩

/-- The position of a state. -/
def position (s : State) : Nat := s.place.position

/-- Whether a state is at a position. -/
def isAt (position : Nat) (s : State) : Bool := s.position == position

/-- After one more character, before the text `rest`. -/
def take (s : State) (c : Char) (rest : List Char) : State :=
  { s with place := ⟨s.position + 1, some c, rest⟩, decided := [] }

/-- What follows from a decision, unless it was made at this place before. -/
def deciding (s : State) (decision : Nat) (next : State → List State) : List State :=
  if s.decided.contains decision then []
  else next { s with decided := decision :: s.decided }

/-- With one more closed group, which started at a position. -/
def closing (s : State) (group start : Nat) : State :=
  { s with spans := ⟨group, start, s.position⟩ :: s.spans }

@[simp] theorem position_take (s : State) (c : Char) (rest : List Char) :
    (s.take c rest).position = s.position + 1 := rfl

@[simp] theorem decided_take (s : State) (c : Char) (rest : List Char) :
    (s.take c rest).decided = [] := rfl

theorem deciding_of_not_mem {s : State} {decision : Nat} {next : State → List State}
    (h : decision ∉ s.decided) :
    s.deciding decision next = next { s with decided := decision :: s.decided } := by
  simp [deciding, h]

end State

/-- One state for each position, the first. The bits of `seen` are the positions that do not count
any more. -/
def distinctFrom (seen : Nat) : List State → List State
  | [] => []
  | s :: states =>
    if seen.testBit s.position then distinctFrom seen states
    else s :: distinctFrom (seen ||| 1 <<< s.position) states

/-- One state for each position, the first. -/
def distinct (states : List State) : List State := distinctFrom 0 states

/-! ## Where patterns end -/

/-- The states after one character of a class. -/
def oneEnds (k : CharClass) (s : State) : List State :=
  match s.place.rest with
  | [] => []
  | c :: r => if k.holds c then [s.take c r] else []

/-- The states that a repetition comes to when it decides at `s`, after the states already found,
the latest first. Positions that are already found are not visited again. `turn` gives the states
after one turn and `fuel` bounds the number of turns. -/
def visit (turn : State → List State) (greedy : Bool) (decision : Nat) :
    (fuel : Nat) → (found : List State) → State → List State
  | 0, found, _ => found
  | fuel + 1, found, s =>
    if found.any (·.isAt s.position) || s.decided.contains decision then found
    else
      let s := { s with decided := decision :: s.decided }
      let next := (turn s).filter fun t => s.position < t.position
      if greedy then s :: next.foldl (visit turn greedy decision fuel) found
      else next.foldl (visit turn greedy decision fuel) (s :: found)

/-- The states after any number of turns of a body that cannot take nothing. -/
def starEnds (turn : State → List State) (greedy : Bool) (decision : Nat) (s : State) :
    List State :=
  (visit turn greedy decision (s.place.rest.length + 1) [] s).reverse

/-- The states after one turn or more. -/
def plusEnds (turn : State → List State) (greedy : Bool) (decision : Nat) (s : State) :
    List State :=
  ((turn s).foldl (visit turn greedy decision (s.place.rest.length + 1)) []).reverse

/-- The states after a class taken once or more, the shortest run first. Each of them has decided
whether to go on. -/
def runEnds (k : CharClass) (decision : Nat) (s : State) : List State :=
  go s.place.rest s
where
  /-- The states after one more character or more. -/
  go : List Char → State → List State
    | [], _ => []
    | c :: r, s =>
      if k.holds c then
        let t := { s.take c r with decided := [decision] }
        t :: go r t
      else []

/-- Of what comes after some turns and what comes without any, the preferred first. -/
def prefer (greedy : Bool) (more none : List State) : List State :=
  if greedy then more ++ none else none ++ more

/-- The states in which a pattern can end, the preferred first, one for each position. `here` is
the number of the pattern. -/
def ends : Pattern → (here : Nat) → State → List State
  | empty, _, s => [s]
  | one k, _, s => oneEnds k s
  | start, _, s => if s.position = 0 then [s] else []
  | stop, _, s => if s.place.rest.isEmpty then [s] else []
  | boundary, _, s => if Text.isBoundary s.place.before s.place.rest.head? then [s] else []
  | seq p q, here, s =>
    distinct ((p.ends (2 * here) s).flatMap (q.ends (2 * here + 1)))
  | alt p q, here, s => s.deciding here fun s =>
    distinct (p.ends (2 * here) s ++ q.ends (2 * here + 1) s)
  | opt greedy p, here, s => s.deciding here fun s =>
    distinct (prefer greedy (p.ends (2 * here) s) [s])
  | star greedy (one k), here, s => s.deciding here fun s =>
    let runs := runEnds k here s
    prefer greedy (if greedy then runs.reverse else runs) [s]
  | star greedy p, here, s =>
    let turn := p.ends (2 * here)
    if p.mayTakeNothing then s.deciding here fun s =>
      distinct (prefer greedy (plusEnds turn greedy (2 * here + 1) s) [s])
    else starEnds turn greedy here s
  | plus greedy (one k), here, s =>
    let runs := runEnds k here s
    if greedy then runs.reverse else runs
  | plus greedy p, here, s => plusEnds (p.ends (2 * here)) greedy here s
  | group number p, here, s =>
    (p.ends (2 * here) s).map (·.closing number s.position)

end LiveLint.Pattern
