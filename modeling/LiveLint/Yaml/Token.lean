import LiveLint.Yaml.Scalar

/-!
# Tokens of YAML text

Indentation and the marks of the text become tokens: a block collection starts where a column to
the right of all open ones is reached, and ends where the text goes back to the left.

That a node is a key is known only at the colon after it. So each node that may be a key is kept
as a candidate, one for each open flow collection and one for the block context, and a colon that
finds a candidate puts the key token before it, and before that a mapping start where one is
due. A candidate lives for one line and 1024 bytes. One that stands at the indentation of an open
block has to be a key; the text is refused if it dies.

So a token waits as long as it, or one before it, may still get a key before it. `tokens` gives the
tokens of a text in order; where the text breaks these rules it gives those that were sure before.

A byte order mark may stand at the start of any line, not only of the text. It says nothing, but
it takes a column.
-/

namespace LiveLint.Yaml

/-- What a token is. -/
inductive TokenKind
  | documentStart
  | documentEnd
  | streamEnd
  | blockSequenceStart
  | blockMappingStart
  | blockEnd
  | flowSequenceStart
  | flowSequenceEnd
  | flowMappingStart
  | flowMappingEnd
  | blockEntry
  | flowEntry
  | key
  | value
  | scalar (plain : Bool) (text : String)
deriving DecidableEq, Repr

/-- A token and the places where it starts and stops. -/
structure Token where
  kind : TokenKind
  start : Mark
  stop : Mark
deriving DecidableEq, Repr

/-- A node that is a key if a colon follows. -/
structure Candidate where
  /-- The number of tokens before it. -/
  place : Nat
  mark : Mark
  /-- Whether the text is refused if it is no key. -/
  required : Bool
deriving DecidableEq, Repr

/-- What is known after part of a text. -/
structure Scan where
  cursor : Cursor
  /-- How many tokens are sure. -/
  sure : Nat
  /-- The tokens after the sure ones, which wait. -/
  waiting : Array Token
  /-- The columns of the open block collections, the innermost first. -/
  columns : List Nat
  /-- The candidate of the innermost context first, of the block context last. -/
  candidates : List (Option Candidate)
  /-- Whether a key may start here. -/
  keyAllowed : Bool
  finished : Bool
deriving Repr

namespace Scan

/-- Before the text. -/
def start (text : List Char) : Scan :=
  { cursor := ⟨.start, text⟩
    sure := 0
    waiting := #[]
    columns := []
    candidates := [none]
    keyAllowed := true
    finished := false }

/-- Whether a flow collection is open. -/
def inFlow (s : Scan) : Bool :=
  1 < s.candidates.length

/-- How many tokens there are so far. -/
def size (s : Scan) : Nat :=
  s.sure + s.waiting.size

/-- One more token at the end. -/
def emit (s : Scan) (kind : TokenKind) (start stop : Mark) : Scan :=
  { s with waiting := s.waiting.push ⟨kind, start, stop⟩ }

/-- One more token before the waiting token at `place`, with no extent. -/
def emitAt (s : Scan) (place : Nat) (kind : TokenKind) (mark : Mark) : Scan :=
  { s with waiting := s.waiting.insertIdxIfInBounds (place - s.sure) ⟨kind, mark, mark⟩ }

/-- A token of the next `n` characters. -/
def emitForward (s : Scan) (kind : TokenKind) (n : Nat) : Scan :=
  let next := s.cursor.forward n
  { s.emit kind s.cursor.mark next.mark with cursor := next }

/-- Forget a candidate, unless it had to be a key. -/
def forget? : Option Candidate → Option (Option Candidate)
  | some c => if c.required then none else some none
  | none => some none

/-- Forget the candidate of the innermost context. -/
def dropCandidate (s : Scan) : Option Scan :=
  match s.candidates with
  | [] => some s
  | c :: cs => do
    let c ← forget? c
    some { s with candidates := c :: cs }

/-- Make the next node the candidate of the innermost context. -/
def saveCandidate (s : Scan) : Option Scan :=
  if s.keyAllowed then do
    let s ← s.dropCandidate
    let mark := s.cursor.mark
    let required := !s.inFlow && s.columns.head? == some mark.column
    some { s with candidates := some ⟨s.size, mark, required⟩ :: s.candidates.drop 1 }
  else some s

/-- Whether a candidate is too far away to become a key. -/
def isStale (mark : Mark) (c : Candidate) : Bool :=
  c.mark.line < mark.line || c.mark.offset + 1024 < mark.offset

/-- Forget the candidates that are too far away. -/
def dropStale (s : Scan) : Option Scan := do
  let kept ← s.candidates.mapM fun c =>
    if c.any (isStale s.cursor.mark) then forget? c else some c
  some { s with candidates := kept }

/-- Start a block collection at a column, if it is to the right of all open ones. -/
def openBlock (s : Scan) (column place : Nat) (kind : TokenKind) (mark : Mark) : Scan :=
  if s.inFlow || s.columns.head?.any (column ≤ ·) then s
  else { s.emitAt place kind mark with columns := column :: s.columns }

/-- End the block collections to the right of a column, or all. -/
def closeBlocks (s : Scan) (column : Option Nat) : Scan :=
  if s.inFlow then s
  else
    let isRight (opened : Nat) : Bool := column.all (· < opened)
    let ended := s.columns.takeWhile isRight
    let mark := s.cursor.mark
    { s with
      waiting := s.waiting ++ (ended.map fun _ => (⟨.blockEnd, mark, mark⟩ : Token)).toArray
      columns := s.columns.dropWhile isRight }

/-! ## Between tokens -/

/-- Skip blanks, comments, line breaks, and byte order marks that start a line. A tab may not stand
where a key may start. After a line break a key may start, outside flow collections. -/
def skipFrom (inFlow inComment keyAllowed : Bool) (mark : Mark) : List Char → Bool × Cursor
  | '\r' :: '\n' :: r => skipFrom inFlow false (keyAllowed || !inFlow) (mark.nextLine 2) r
  | c :: r =>
    if isBreak c then
      skipFrom inFlow false (keyAllowed || !inFlow) (mark.nextLine c.utf8Size) r
    else if inComment || c == ' ' || (c == '\t' && (inFlow || !keyAllowed)) ||
        (c == '\ufeff' && mark.column == 0) then
      skipFrom inFlow inComment keyAllowed (mark.pass c) r
    else if c == '#' then skipFrom inFlow true keyAllowed (mark.pass c) r
    else (keyAllowed, ⟨mark, c :: r⟩)
  | [] => (keyAllowed, ⟨mark, []⟩)

/-- Skip to the next token. -/
def skip (s : Scan) : Scan :=
  let (keyAllowed, cursor) := skipFrom s.inFlow false s.keyAllowed s.cursor.mark s.cursor.rest
  { s with keyAllowed, cursor }

/-! ## One token -/

/-- The end of the text, which stands at the start of a line. -/
def readEnd (s : Scan) : Option Scan := do
  let mark := s.cursor.mark
  let mark := if mark.column = 0 then mark else mark.nextLine 0
  let s := { s with cursor := ⟨mark, []⟩ }
  let s ← (s.closeBlocks none).dropCandidate
  some { s.emit .streamEnd mark mark with keyAllowed := false, finished := true }

/-- A document marker. -/
def readMarker (s : Scan) (kind : TokenKind) : Option Scan := do
  let s ← (s.closeBlocks none).dropCandidate
  some { s.emitForward kind 3 with keyAllowed := false }

/-- The start of a flow collection. -/
def readFlowStart (s : Scan) (kind : TokenKind) : Option Scan := do
  let s ← s.saveCandidate
  some { s.emitForward kind 1 with candidates := none :: s.candidates, keyAllowed := true }

/-- The end of a flow collection. -/
def readFlowEnd (s : Scan) (kind : TokenKind) : Option Scan := do
  let s ← s.dropCandidate
  let outer := if s.inFlow then s.candidates.drop 1 else s.candidates
  some { s.emitForward kind 1 with candidates := outer, keyAllowed := false }

/-- A comma between the members of a flow collection. -/
def readFlowEntry (s : Scan) : Option Scan := do
  let s ← s.dropCandidate
  some { s.emitForward .flowEntry 1 with keyAllowed := true }

/-- A dash before a member of a block sequence. -/
def readBlockEntry (s : Scan) : Option Scan := do
  if !s.inFlow && !s.keyAllowed then none
  let mark := s.cursor.mark
  let s := s.openBlock mark.column s.size .blockSequenceStart mark
  let s ← s.dropCandidate
  some { s.emitForward .blockEntry 1 with keyAllowed := true }

/-- A question mark before a key. -/
def readKey (s : Scan) : Option Scan := do
  if !s.inFlow && !s.keyAllowed then none
  let mark := s.cursor.mark
  let s := s.openBlock mark.column s.size .blockMappingStart mark
  let s ← s.dropCandidate
  some { s.emitForward .key 1 with keyAllowed := !s.inFlow }

/-- A colon before a value, which makes the candidate a key. -/
def readValue (s : Scan) : Option Scan :=
  match s.candidates with
  | some c :: outer =>
    let s := s.emitAt c.place .key c.mark
    let s := s.openBlock c.mark.column c.place .blockMappingStart c.mark
    some { s.emitForward .value 1 with candidates := none :: outer, keyAllowed := false }
  | _ => do
    if !s.inFlow && !s.keyAllowed then none
    let mark := s.cursor.mark
    let s := s.openBlock mark.column s.size .blockMappingStart mark
    some { s.emitForward .value 1 with keyAllowed := !s.inFlow }

/-- A quoted scalar. -/
def readQuotedToken (s : Scan) : Option Scan := do
  let s ← s.saveCandidate
  let (text, after) ← readQuoted s.cursor
  let s := s.emit (.scalar false (String.ofList text)) s.cursor.mark after.mark
  some { s with cursor := after, keyAllowed := false }

/-- A plain scalar. -/
def readPlainToken (s : Scan) : Option Scan := do
  let s ← s.saveCandidate
  let indent := (s.columns.head?.map (· + 1)).getD 0
  let plain ← readPlain s.inFlow indent s.cursor
  let s := s.emit (.scalar true (String.ofList plain.text)) s.cursor.mark plain.stop
  some { s with cursor := plain.after, keyAllowed := plain.endsLine }

/-- The characters that no plain scalar starts with. A dash, a question mark or a colon may start
one where it is not a mark of its own. -/
def indicators : List Char :=
  ['-', '?', ':', ',', '[', ']', '\x7b', '\x7d', '#', '&', '*', '!', '|', '>', '\'', '"', '%',
   '@', '\x60']

/-- Whether a plain scalar starts here. -/
def startsPlain (inFlow : Bool) : List Char → Bool
  | [] => false
  | c :: r =>
    (!atGap [c] && !indicators.contains c) ||
    (c == '-' && !(r.head?.any isSpace)) ||
    (!inFlow && (c == '?' || c == ':') && !atGap r)

/-- The token that starts here. Anchors, aliases, tags, directives and block scalars are refused. -/
def readToken (s : Scan) : Option Scan :=
  let rest := s.cursor.rest
  if s.cursor.atMarkerLine then
    s.readMarker (if rest.head? == some '-' then .documentStart else .documentEnd)
  else
    match rest with
    | [] => s.readEnd
    | '[' :: _ => s.readFlowStart .flowSequenceStart
    | '\x7b' :: _ => s.readFlowStart .flowMappingStart
    | ']' :: _ => s.readFlowEnd .flowSequenceEnd
    | '\x7d' :: _ => s.readFlowEnd .flowMappingEnd
    | ',' :: _ => s.readFlowEntry
    | c :: r =>
      if c == '-' && atGap r then s.readBlockEntry
      else if c == '?' && (s.inFlow || atGap r) then s.readKey
      else if c == ':' && (s.inFlow || atGap r) then s.readValue
      else if c == '\'' || c == '"' then s.readQuotedToken
      else if startsPlain s.inFlow rest then s.readPlainToken
      else none

/-- Skip to the next token and read it. -/
def step (s : Scan) : Option Scan := do
  let s ← s.skip.dropStale
  let s ← (s.closeBlocks (some s.cursor.mark.column)).readToken
  s.dropStale

/-- How many of the waiting tokens are sure: those before the first candidate. -/
def surePart (s : Scan) : Nat :=
  s.candidates.foldl (fun n c => (c.map fun c => min n (c.place - s.sure)).getD n) s.waiting.size

/-- The scan without the tokens that have become sure, and those tokens. -/
def release (s : Scan) : Array Token × Scan :=
  let n := s.surePart
  (s.waiting.take n, { s with sure := s.sure + n, waiting := s.waiting.drop n })

/-- Read tokens to the end, or up to where the text breaks the rules, and add those that are sure
to `found`; `fuel` bounds the number of steps. -/
def run : Nat → (found : Array Token) → Scan → Array Token
  | 0, found, _ => found
  | fuel + 1, found, s =>
    if s.finished then found
    else
      match s.step with
      | none => found
      | some s =>
        let (ready, s) := s.release
        run fuel (found ++ ready) s

end Scan

/-- The tokens of a text that are sure. The last one ends the stream if and only if no rule is
broken. -/
def tokens (text : List Char) : List Token :=
  if text.all isAllowed then (Scan.run (text.length + 2) #[] (.start text)).toList else []

end LiveLint.Yaml
