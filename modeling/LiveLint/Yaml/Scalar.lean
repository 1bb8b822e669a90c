import LiveLint.Yaml.Cursor

/-!
# Scalars of YAML text

A plain scalar runs over lines as long as they are indented, and ends at a colon or, in a flow
collection, at the collection's own marks. A quoted scalar runs to its quote. Both fold the line
breaks inside. In single quotes a quote is written twice; in double quotes a backslash starts an
escape, or takes the line break after it away.
-/

namespace LiveLint.Yaml

/-! ## Plain scalars -/

/-- A plain scalar that has been read. -/
structure PlainScalar where
  text : List Char
  /-- Where its last character ends. -/
  stop : Mark
  /-- Where reading goes on, after the gap that follows. -/
  after : Cursor
  /-- Whether that gap goes over a line's end. -/
  endsLine : Bool
deriving Repr

/-- The marks of flow collections. -/
def isFlowMark (c : Char) : Bool :=
  c == ',' || c == '[' || c == ']' || c == '{' || c == '}'

/-- Read a piece of a plain scalar that has no gap. A colon that touches a mark of the flow
collection around it is refused. -/
def readPiece (inFlow : Bool) (mark : Mark) : List Char → Option (List Char × Cursor)
  | [] => some ([], ⟨mark, []⟩)
  | c :: r =>
    if atGap (c :: r) then some ([], ⟨mark, c :: r⟩)
    else if inFlow && c == ':' && r.head?.any (fun d => isFlowMark d || d == '?') then none
    else if (c == ':' && atGap r) || (inFlow && isFlowMark c) then some ([], ⟨mark, c :: r⟩)
    else (readPiece inFlow (mark.pass c) r).map fun (piece, after) => (c :: piece, after)

/-- Read pieces and the gaps between them. `pieces` are those already read, the latest first, and
`fuel` bounds the number of the others. -/
def readPieces (inFlow : Bool) (indent : Nat) :
    Nat → (pieces : List (List Char)) → Gap → (stop : Mark) → Cursor → Option PlainScalar
  | 0, _, _, _, _ => none
  | fuel + 1, pieces, gap, stop, cursor =>
    if cursor.atMarkerLine || cursor.rest.head? == some '#' then
      some ⟨pieces.reverse.flatten, stop, cursor, gap.isBroken⟩
    else do
      let (piece, afterPiece) ← readPiece inFlow cursor.mark cursor.rest
      let (pieces, gap, stop) :=
        if piece.isEmpty then (pieces, gap, stop)
        else (piece :: gap.fold :: pieces, Gap.inline [], afterPiece.mark)
      if afterPiece.rest.isEmpty || !atGap afterPiece.rest then
        some ⟨pieces.reverse.flatten, stop, afterPiece, gap.isBroken⟩
      else
        let (gap, afterGap) ← readGap indent gap afterPiece.mark afterPiece.rest
        if !inFlow && afterGap.mark.column < indent then
          some ⟨pieces.reverse.flatten, stop, afterGap, gap.isBroken⟩
        else readPieces inFlow indent fuel pieces gap stop afterGap

/-- Read a plain scalar whose lines are indented by `indent` columns at least. -/
def readPlain (inFlow : Bool) (indent : Nat) (cursor : Cursor) : Option PlainScalar :=
  readPieces inFlow indent (cursor.rest.length + 1) [] (.inline []) cursor.mark cursor

/-! ## Quoted scalars -/

/-- The escapes of one character. -/
def simpleEscapes : List (Char × Char) :=
  [('0', '\x00'), ('a', '\x07'), ('b', '\x08'), ('t', '\t'), ('\t', '\t'), ('n', '\n'),
   ('v', '\x0b'), ('f', '\x0c'), ('r', '\r'), ('e', '\x1b'), (' ', ' '), ('"', '"'),
   ('/', '/'), ('\\', '\\'), ('N', '\x85'), ('_', '\xa0'), ('L', '\u2028'), ('P', '\u2029')]

/-- The escapes by code, with the number of their digits. -/
def codeEscapes : List (Char × Nat) :=
  [('x', 2), ('u', 4), ('U', 8)]

/-- The value of a hexadecimal digit. -/
def hexValue? (c : Char) : Option Nat :=
  if c.isDigit then some (c.toNat - '0'.toNat)
  else if 'a' ≤ c ∧ c ≤ 'f' then some (c.toNat - 'a'.toNat + 10)
  else if 'A' ≤ c ∧ c ≤ 'F' then some (c.toNat - 'A'.toNat + 10)
  else none

/-- The number that hexadecimal digits write. -/
def hexNumber? (digits : List Char) : Option Nat :=
  digits.foldlM (fun n c => (hexValue? c).map (16 * n + ·)) 0

/-- The character of a code, if there is one. -/
def charOfCode? (n : Nat) : Option Char :=
  if n.isValidChar then some (Char.ofNat n) else none

/-- Read an escape after its backslash: the character, and how many characters it took. -/
def readEscape : List Char → Option (Char × Nat)
  | [] => none
  | c :: r =>
    match simpleEscapes.lookup c with
    | some d => some (d, 1)
    | none => do
      let count ← codeEscapes.lookup c
      if r.length < count then none
      else
        let d ← charOfCode? (← hexNumber? (r.take count))
        some (d, count + 1)

/-- Skip one line break. -/
def skipBreak (cursor : Cursor) : Cursor :=
  match cursor.rest with
  | '\r' :: '\n' :: r => ⟨cursor.mark.nextLine 2, r⟩
  | c :: r => ⟨cursor.mark.nextLine c.utf8Size, r⟩
  | [] => cursor

/-- Read a quoted scalar after its opening quote; `fuel` bounds the number of steps. -/
def readQuotedFrom (quote : Char) : Nat → Cursor → Option (List Char × Cursor)
  | 0, _ => none
  | fuel + 1, cursor =>
    let thenRead (text : List Char) (next : Cursor) : Option (List Char × Cursor) :=
      (readQuotedFrom quote fuel next).map fun (more, after) => (text ++ more, after)
    let acrossGap (gap : Gap) (place : Cursor) : Option (List Char × Cursor) := do
      let (gap, next) ← readGap 0 gap place.mark place.rest
      if next.atMarkerLine then none else thenRead gap.fold next
    match cursor.rest with
    | [] => none
    | c :: r =>
      if isSpace c || isBreak c then acrossGap (.inline []) cursor
      else if c == quote then
        if quote == '\'' && r.head? == some '\'' then thenRead ['\''] (cursor.forward 2)
        else some ([], cursor.forward 1)
      else if quote == '"' && c == '\\' then
        if r.head?.any isBreak then acrossGap (.broken [] []) (skipBreak (cursor.forward 1))
        else do
          let (d, count) ← readEscape r
          thenRead [d] (cursor.forward (count + 1))
      else thenRead [c] (cursor.forward 1)

/-- Read a quoted scalar that the cursor stands at. -/
def readQuoted (cursor : Cursor) : Option (List Char × Cursor) := do
  let quote ← cursor.rest.head?
  readQuotedFrom quote (cursor.rest.length + 1) (cursor.forward 1)

end LiveLint.Yaml
