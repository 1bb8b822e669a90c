import LiveLint.Pattern.Ends

/-!
# Matches

A match is the most preferred way through a pattern at the first place of a text that has any.
Matches are looked for one after the other from the left and do not overlap. A match that takes
nothing does not count right where another one ended.
-/

namespace LiveLint.Pattern

/-- A match: where it starts, and the state in which it ends. -/
structure Match where
  start : Nat
  final : State
deriving DecidableEq, Repr

namespace Match

/-- Where the match ends. -/
def stop (m : Match) : Nat := m.final.position

/-- Whether the match took nothing. -/
def isEmpty (m : Match) : Bool := m.start == m.stop

/-- What a group stands for; group 0 is the whole match. -/
def span? (m : Match) (group : Nat) : Option (Nat × Nat) :=
  if group = 0 then some (m.start, m.stop)
  else (m.final.spans.find? (·.group == group)).map fun span => (span.start, span.stop)

end Match

/-- The preferred match that starts at a place. -/
def matchAt? (p : Pattern) (place : Place) : Option Match :=
  (p.ends 1 (.start place)).head?.map fun final => ⟨place.position, final⟩

/-- The match at the first place that has one, from a place on. -/
def findFrom (p : Pattern) (position : Nat) (before : Option Char) : List Char → Option Match
  | [] => p.matchAt? ⟨position, before, []⟩
  | c :: r =>
    match p.matchAt? ⟨position, before, c :: r⟩ with
    | some m => some m
    | none => p.findFrom (position + 1) (some c) r

/-- The match at the first place that has one, from a place on. -/
def find? (p : Pattern) (place : Place) : Option Match :=
  p.findFrom place.position place.before place.rest

/-- The next match after one that ended at `place`. An empty match does not count there. -/
def next? (p : Pattern) (place : Place) : Option Match :=
  match p.find? place with
  | none => none
  | some m =>
    if m.isEmpty && m.stop == place.position then
      match place.rest with
      | [] => none
      | c :: r => p.find? ⟨place.position + 1, some c, r⟩
    else some m

/-- The matches after one that ended at `place`, one after the other; `fuel` bounds their
number. -/
def matchesAfter (p : Pattern) : Nat → Place → List Match
  | 0, _ => []
  | fuel + 1, place =>
    match p.next? place with
    | none => []
    | some m => m :: p.matchesAfter fuel m.final.place

/-- All matches of a pattern in a text, one after the other, none overlapping another. -/
def allMatches (p : Pattern) (cs : List Char) : List Match :=
  match p.find? (.start cs) with
  | none => []
  | some m => m :: p.matchesAfter (cs.length + 1) m.final.place

end LiveLint.Pattern
