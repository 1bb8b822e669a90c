import LiveLint.Pattern.Compose

/-!
# Reading patterns

The written form of patterns. Most characters stand for themselves. A dot is any character but a
line feed; brackets hold a class; a backslash takes the meaning from a mark, or names a class with
a letter. Parentheses group, and number their groups from the left unless they start with `?:`. A
repetition applies to what stands right before it, and a question mark after it makes it lazy.

A text is first cut into pieces and the pieces are then put together with a stack of open groups.
Each part is kept with the depth of its written form, because a pattern that is nested too deep is
refused.
-/

namespace LiveLint.Pattern

/-- Why a text is no pattern. -/
inductive ReadError
  | unclosedGroup
  | unopenedGroup
  | unknownGroup
  | unclosedClass
  | reversedRange
  | unknownEscape
  | nothingToRepeat
  | badCount
  | tooDeep
deriving DecidableEq, Repr

/-- A part of a pattern, as it is written. -/
structure Part where
  pattern : Pattern
  /-- How deep groups, repetitions, classes, sequences and choices are nested in it. -/
  depth : Nat
deriving DecidableEq, Repr

/-- A piece of a written pattern. -/
inductive Piece
  | item (part : Part)
  | opens (numbered : Bool)
  | closes
  | bar
  | repeats (r : Repetition) (greedy : Bool)
deriving DecidableEq, Repr

/-! ## Pieces -/

/-- The class of one character. -/
def charClass (c : Char) : CharClass := ⟨false, [.single c]⟩

/-- The characters a backslash takes the meaning from: the marks of ASCII, but for the angle
brackets. -/
def isMark (c : Char) : Bool :=
  c.toNat < 128 && !c.isAlphanum && c != '<' && c != '>'

/-- The class that a letter after a backslash names. -/
def classOfLetter? : Char → Option CharClass
  | 'd' => some ⟨false, [.digit]⟩
  | 's' => some ⟨false, [.blank]⟩
  | 'w' => some ⟨false, [.word]⟩
  | 'D' => some ⟨true, [.digit]⟩
  | 'S' => some ⟨true, [.blank]⟩
  | 'W' => some ⟨true, [.word]⟩
  | _ => none

/-- The character that a letter after a backslash names. -/
def charOfLetter? : Char → Option Char
  | 'n' => some '\n'
  | 'r' => some '\r'
  | 't' => some '\t'
  | c => if isMark c then some c else none

/-- The pattern of a letter after a backslash. -/
def escape? (c : Char) : Option Pattern :=
  if c == 'b' then some .boundary
  else ((classOfLetter? c).orElse fun _ => (charOfLetter? c).map charClass).map .one

/-- One end of a range, or a single character, of a class: the character and what follows it. -/
def classChar? : List Char → Option (Char × List Char)
  | [] => none
  | '\\' :: c :: r => (charOfLetter? c).map (·, r)
  | c :: r => some (c, r)

/-- Read the parts of a class up to its bracket; `fuel` bounds their number. -/
def readItems : Nat → (first : Bool) → List Char → Except ReadError (List ClassItem × List Char)
  | 0, _, _ => .error .unclosedClass
  | _, _, [] => .error .unclosedClass
  | fuel + 1, first, c :: r =>
    if c == ']' && !first then .ok ([], r)
    else if c == '[' then .error .unclosedClass
    else
      match c, r.head?.bind classOfLetter? with
      | '\\', some ⟨false, items⟩ => do
        let (more, r) ← readItems fuel false (r.drop 1)
        pure (items ++ more, r)
      | _, _ =>
        match classChar? (c :: r) with
        | none => .error .unknownEscape
        | some (low, '-' :: d :: r) =>
          if d == ']' then do
            let (more, r) ← readItems fuel false ('-' :: d :: r)
            pure (.single low :: more, r)
          else
            match classChar? (d :: r) with
            | none => .error .unknownEscape
            | some (high, r) =>
              if low ≤ high then do
                let (more, r) ← readItems fuel false r
                pure (.range low high :: more, r)
              else .error .reversedRange
        | some (low, r) => do
          let (more, r) ← readItems fuel false r
          pure (.single low :: more, r)

/-- Read a class after its opening bracket. -/
def readClass (cs : List Char) : Except ReadError (CharClass × List Char) := do
  let negated := cs.head? == some '^'
  let (items, r) ← readItems (cs.length + 1) true (if negated then cs.drop 1 else cs)
  pure (⟨negated, items⟩, r)

/-- The number that decimal digits write. -/
def natOf? (cs : List Char) : Option Nat :=
  if cs.isEmpty || !cs.all Char.isDigit then none
  else some (cs.foldl (fun n c => 10 * n + (c.toNat - '0'.toNat)) 0)

/-- Read a count of repetitions after its opening brace. -/
def readCount (cs : List Char) : Except ReadError (Repetition × List Char) :=
  let inside := cs.takeWhile (· != '\x7d')
  let least := inside.takeWhile (· != ',')
  match natOf? least, cs.dropWhile (· != '\x7d'), inside.dropWhile (· != ',') with
  | some n, _ :: r, [] => .ok (.counted n (some n), r)
  | some n, _ :: r, [_] => .ok (.counted n none, r)
  | some n, _ :: r, _ :: most =>
    match natOf? most with
    | some m => if n ≤ m then .ok (.counted n (some m), r) else .error .badCount
    | none => .error .badCount
  | _, _, _ => .error .badCount

/-- A character of a group's name. -/
def isNameChar (c : Char) : Bool :=
  c.isAlphanum || c == '_'

/-- Read what makes a group special, after its opening parenthesis. -/
def readOpening : List Char → Except ReadError (Piece × List Char)
  | '?' :: ':' :: r => .ok (.opens false, r)
  | '?' :: '<' :: r => named r
  | '?' :: 'P' :: '<' :: r => named r
  | '?' :: _ => .error .unknownGroup
  | r => .ok (.opens true, r)
where
  /-- A group with a name, which has a number too. -/
  named (r : List Char) : Except ReadError (Piece × List Char) :=
    match r.takeWhile isNameChar, r.dropWhile isNameChar with
    | c :: _, '>' :: after => if c.isDigit then .error .unknownGroup else .ok (.opens true, after)
    | _, _ => .error .unknownGroup

/-- A repetition, lazy if a question mark follows. -/
def repeatPiece (r : Repetition) : List Char → Piece × List Char
  | '?' :: rest => (.repeats r false, rest)
  | rest => (.repeats r true, rest)

/-- A part that nothing is nested in. -/
def plain (p : Pattern) : Piece := .item ⟨p, 0⟩

/-- A class in brackets. If it has several parts, these are nested once more. -/
def bracketed (k : CharClass) : Piece :=
  .item ⟨.one k, if k.items.length = 1 then 1 else 2⟩

/-- Read one piece. -/
def readPiece (c : Char) (r : List Char) : Except ReadError (Piece × List Char) :=
  match c with
  | '.' => .ok (plain (.one ⟨true, [.single '\n']⟩), r)
  | '^' => .ok (plain .start, r)
  | '$' => .ok (plain .stop, r)
  | '|' => .ok (.bar, r)
  | ')' => .ok (.closes, r)
  | '(' => readOpening r
  | '[' => do
    let (k, r) ← readClass r
    pure (bracketed k, r)
  | '?' => .ok (repeatPiece .opt r)
  | '*' => .ok (repeatPiece .star r)
  | '+' => .ok (repeatPiece .plus r)
  | '\x7b' => do
    let (count, r) ← readCount r
    pure (repeatPiece count r)
  | '\\' =>
    match r with
    | [] => .error .unknownEscape
    | d :: r => ((escape? d).map fun p => (plain p, r)).elim (.error .unknownEscape) .ok
  | c => .ok (plain (.one (charClass c)), r)

/-- Cut a text into pieces; `fuel` bounds their number. -/
def readPieces : Nat → List Char → Except ReadError (List Piece)
  | _, [] => .ok []
  | 0, _ => .ok []
  | fuel + 1, c :: r => do
    let (piece, r) ← readPiece c r
    let pieces ← readPieces fuel r
    pure (piece :: pieces)

/-! ## Putting pieces together -/

/-- How deep the nesting of a pattern may be. -/
def depthLimit : Nat := 250

/-- The depth of a sequence or a choice; it is a level of its own from two members on. -/
def depthOf : List Part → Nat
  | [] => 0
  | [p] => p.depth
  | ps => (ps.map Part.depth).foldl max 0 + 1

/-- Parts one after another. -/
def Part.sequence (ps : List Part) : Part :=
  ⟨seqOf (ps.map Part.pattern), depthOf ps⟩

/-- A choice between parts. -/
def Part.choice (ps : List Part) : Part :=
  ⟨altOf (ps.map Part.pattern), depthOf ps⟩

/-- A repeated part. -/
def Part.repeating (p : Part) (r : Repetition) (greedy : Bool) : Part :=
  ⟨repeated r greedy p.pattern, p.depth + 1⟩

/-- A group that is open, or the whole pattern. -/
structure Frame where
  /-- The number of the group, if it has one. -/
  number : Option Nat
  /-- The choices that are complete, the latest first. -/
  choices : List Part
  /-- The parts of the choice that is being read, the latest first. -/
  parts : List Part
deriving Repr

namespace Frame

/-- All that a frame holds, without its parentheses. -/
def content (f : Frame) : Part :=
  Part.choice ((Part.sequence f.parts.reverse :: f.choices).reverse)

/-- The group of all that a frame holds. -/
def group (f : Frame) : Part :=
  let whole := f.content
  ⟨match f.number with
    | none => whole.pattern
    | some n => .group n whole.pattern, whole.depth + 1⟩

/-- The frame with one more part. -/
def add (f : Frame) (p : Part) : Frame := { f with parts := p :: f.parts }

/-- The frame at the start of its next choice. -/
def next (f : Frame) : Frame :=
  { f with choices := Part.sequence f.parts.reverse :: f.choices, parts := [] }

end Frame

/-- What is open after some pieces. -/
structure Build where
  frame : Frame
  /-- The groups around the innermost one. -/
  outer : List Frame
  /-- The number of the next group. -/
  nextNumber : Nat
deriving Repr

namespace Build

/-- Before the first piece. -/
def start : Build := ⟨⟨none, [], []⟩, [], 1⟩

/-- Put a piece in its place. -/
def step (b : Build) : Piece → Except ReadError Build
  | .item p => .ok { b with frame := b.frame.add p }
  | .bar => .ok { b with frame := b.frame.next }
  | .opens numbered =>
    let number := if numbered then some b.nextNumber else none
    let next := if numbered then b.nextNumber + 1 else b.nextNumber
    .ok ⟨⟨number, [], []⟩, b.frame :: b.outer, next⟩
  | .closes =>
    match b.outer with
    | [] => .error .unopenedGroup
    | f :: outer => .ok { b with frame := f.add b.frame.group, outer := outer }
  | .repeats r greedy =>
    match b.frame.parts with
    | [] => .error .nothingToRepeat
    | p :: parts =>
      .ok { b with frame := { b.frame with parts := p.repeating r greedy :: parts } }

/-- The whole pattern, if no group is open. -/
def finish (b : Build) : Except ReadError Pattern :=
  if !b.outer.isEmpty then .error .unclosedGroup
  else if depthLimit < b.frame.content.depth then .error .tooDeep
  else .ok b.frame.content.pattern

end Build

/-- Read a pattern. -/
def ofText (cs : List Char) : Except ReadError Pattern := do
  let pieces ← readPieces cs.length cs
  let built ← pieces.foldlM Build.step .start
  built.finish

end LiveLint.Pattern
