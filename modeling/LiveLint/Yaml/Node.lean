import LiveLint.Yaml.Token

/-!
# Nodes of YAML text

A text is a stream of documents, and a document is one node: a scalar, a sequence or a mapping,
each with the place where it starts. Where a node is left out, it is an empty plain scalar that
stands where it was missed. A mapping keeps its entries in order, repeated keys too.

A text may stop being YAML on the way. What stands before that place is read all the same, and a
broken node stands for the rest. So the collections around the place are there with the members
before it. Each reader gives the node and the tokens after it; there are none after a broken node.
-/

namespace LiveLint.Yaml

/-- A piece of data and the place where it is written. -/
inductive Node
  | scalar (mark : Mark) (plain : Bool) (text : String)
  | sequence (mark : Mark) (items : List Node)
  | mapping (mark : Mark) (entries : List (Node × Node))
  /-- From here on the text is no YAML. -/
  | broken
deriving Repr

namespace Node

/-- A node that is left out. -/
def missing (mark : Mark) : Node :=
  .scalar mark true ""

/-- Whether the node is left out, or a plain scalar that is empty. -/
def isMissing : Node → Bool
  | scalar _ plain text => plain && text.isEmpty
  | _ => false

end Node

/-- Whether the first token is of one of the kinds. -/
def nextIs (kinds : List TokenKind) (ts : List Token) : Bool :=
  ts.head?.any fun t => kinds.contains t.kind

/-- The node that is missing before the next token. Without a token nothing is known of it. -/
def missingBefore (ts : List Token) : Node × List Token :=
  match ts with
  | [] => (.broken, [])
  | t :: ts => (.missing t.start, t :: ts)

mutual

/-- Read a node. Block collections are read in the block context only, and a sequence may stand at
the column of the mapping around it. `fuel` bounds the steps. -/
def readNode : Nat → (inBlock : Bool) → (inMapping : Bool) → List Token → Node × List Token
  | 0, _, _, _ => (.broken, [])
  | _, _, _, [] => (.broken, [])
  | fuel + 1, inBlock, inMapping, t :: ts =>
    match t.kind, inBlock, inMapping with
    | .scalar plain text, _, _ => (.scalar t.start plain text, ts)
    | .flowSequenceStart, _, _ =>
      let (items, ts) := readFlowItems fuel true ts
      (.sequence t.start items, ts)
    | .flowMappingStart, _, _ =>
      let (entries, ts) := readFlowEntries fuel true ts
      (.mapping t.start entries, ts)
    | .blockSequenceStart, true, _ =>
      let (items, ts) := readBlockItems fuel ts
      (.sequence t.start items, ts)
    | .blockMappingStart, true, _ =>
      let (entries, ts) := readBlockEntries fuel ts
      (.mapping t.start entries, ts)
    | .blockEntry, _, true =>
      let (items, ts) := readLevelItems fuel (t :: ts)
      (.sequence t.start items, ts)
    | _, _, _ => (.broken, [])

/-- Read a node of a block collection, unless one of the given kinds of tokens stands in its
place. -/
def readBlockPart : Nat → (absent : List TokenKind) → (inMapping : Bool) → Mark → List Token →
    Node × List Token
  | 0, _, _, _, _ => (.broken, [])
  | fuel + 1, absent, inMapping, mark, ts =>
    if nextIs absent ts then (.missing mark, ts) else readNode fuel true inMapping ts

/-- Read the members of a block sequence. -/
def readBlockItems : Nat → List Token → List Node × List Token
  | 0, _ => ([.broken], [])
  | _, [] => ([.broken], [])
  | fuel + 1, t :: ts =>
    match t.kind with
    | .blockEntry =>
      let (item, ts) := readBlockPart fuel [.blockEntry, .blockEnd] false t.stop ts
      let (items, ts) := readBlockItems fuel ts
      (item :: items, ts)
    | .blockEnd => ([], ts)
    | _ => ([.broken], [])

/-- Read the members of a block sequence that stands at the column of the mapping around it. -/
def readLevelItems : Nat → List Token → List Node × List Token
  | 0, _ => ([.broken], [])
  | _, [] => ([.broken], [])
  | fuel + 1, t :: ts =>
    match t.kind with
    | .blockEntry =>
      let absent : List TokenKind := [.blockEntry, .key, .value, .blockEnd]
      let (item, ts) := readBlockPart fuel absent false t.stop ts
      let (items, ts) := readLevelItems fuel ts
      (item :: items, ts)
    | _ => ([], t :: ts)

/-- Read the entries of a block mapping. -/
def readBlockEntries : Nat → List Token → List (Node × Node) × List Token
  | 0, _ => ([(.broken, .broken)], [])
  | _, [] => ([(.broken, .broken)], [])
  | fuel + 1, t :: ts =>
    match t.kind with
    | .key =>
      let (key, ts) := readBlockPart fuel [.key, .value, .blockEnd] true t.stop ts
      let (value, ts) := readBlockValue fuel ts
      let (entries, ts) := readBlockEntries fuel ts
      ((key, value) :: entries, ts)
    | .blockEnd => ([], ts)
    | _ => ([(.broken, .broken)], [])

/-- Read the value of a block entry. -/
def readBlockValue : Nat → List Token → Node × List Token
  | 0, _ => (.broken, [])
  | fuel + 1, ts =>
    match ts with
    | ⟨.value, _, stop⟩ :: ts => readBlockPart fuel [.key, .value, .blockEnd] true stop ts
    | ts => missingBefore ts

/-- Read the value of a flow entry; `ends` are the tokens that end one. -/
def readFlowValue : Nat → (ends : List TokenKind) → List Token → Node × List Token
  | 0, _, _ => (.broken, [])
  | fuel + 1, ends, ts =>
    match ts with
    | ⟨.value, _, _⟩ :: ts =>
      if nextIs ends ts then missingBefore ts else readNode fuel false false ts
    | ts => missingBefore ts

/-- Read the members of a flow sequence. A member with a question mark or a colon is a mapping of
one entry. -/
def readFlowItems : Nat → (first : Bool) → List Token → List Node × List Token
  | 0, _, _ => ([.broken], [])
  | _, _, [] => ([.broken], [])
  | fuel + 1, first, t :: ts =>
    if t.kind = .flowSequenceEnd then ([], ts)
    else if !first && t.kind != .flowEntry then ([.broken], [])
    else
      match if first then t :: ts else ts with
      | ⟨.flowSequenceEnd, _, _⟩ :: ts => ([], ts)
      | ⟨.key, mark, _⟩ :: ts =>
        let ends : List TokenKind := [.flowEntry, .flowSequenceEnd]
        let (key, ts) :=
          if nextIs (.value :: ends) ts then
            (Node.missing ((ts.head?.map Token.stop).getD mark), ts.drop 1)
          else readNode fuel false false ts
        let (value, ts) := readFlowValue fuel ends ts
        let (items, ts) := readFlowItems fuel false ts
        (.mapping mark [(key, value)] :: items, ts)
      | ts =>
        let (item, ts) := readNode fuel false false ts
        let (items, ts) := readFlowItems fuel false ts
        (item :: items, ts)

/-- Read the entries of a flow mapping. A key without a mark before it that no colon follows has
no value. -/
def readFlowEntries : Nat → (first : Bool) → List Token → List (Node × Node) × List Token
  | 0, _, _ => ([(.broken, .broken)], [])
  | _, _, [] => ([(.broken, .broken)], [])
  | fuel + 1, first, t :: ts =>
    if t.kind = .flowMappingEnd then ([], ts)
    else if !first && t.kind != .flowEntry then ([(.broken, .broken)], [])
    else
      match if first then t :: ts else ts with
      | ⟨.flowMappingEnd, _, _⟩ :: ts => ([], ts)
      | ⟨.key, _, _⟩ :: ts =>
        let ends : List TokenKind := [.flowEntry, .flowMappingEnd]
        let (key, ts) :=
          if nextIs (.value :: ends) ts then missingBefore ts else readNode fuel false false ts
        let (value, ts) := readFlowValue fuel ends ts
        let (entries, ts) := readFlowEntries fuel false ts
        ((key, value) :: entries, ts)
      | ts =>
        let (key, ts) := readNode fuel false false ts
        let (value, ts) := missingBefore ts
        let (entries, ts) := readFlowEntries fuel false ts
        ((key, value) :: entries, ts)

end

/-! ## Documents -/

/-- How a text goes on after its first document. -/
inductive Ending
  /-- It ends. -/
  | whole
  /-- It stops being YAML, in the document or right behind it. -/
  | broken
  /-- There is more of it, a document or not. -/
  | another
deriving DecidableEq, Repr

/-- How a text goes on, by the tokens after its first document. -/
def Ending.ofTokens (ts : List Token) : Ending :=
  if ts.isEmpty then .broken
  else if nextIs [.streamEnd] (ts.dropWhile fun t => t.kind == .documentEnd) then .whole
  else .another

/-- What a text holds. -/
inductive Stream
  /-- Blanks and comments at most. -/
  | empty
  /-- A document, and what comes after it. -/
  | starting (node : Node) (ending : Ending)
deriving Repr

/-- Whether a token ends a document without being part of it. -/
def endsDocument (t : Token) : Bool :=
  t.kind == .documentStart || t.kind == .documentEnd || t.kind == .streamEnd

/-- Read the node of a document after its marker, if it has one. -/
def readDocument (fuel : Nat) (ts : List Token) : Node × List Token :=
  match ts with
  | ⟨.documentStart, _, _⟩ :: ts =>
    if ts.head?.any endsDocument then missingBefore ts else readNode fuel true false ts
  | ts => readNode fuel true false ts

/-- What the tokens of a text hold. -/
def Stream.ofTokens (ts : List Token) : Stream :=
  if nextIs [.streamEnd] ts then .empty
  else
    let (node, after) := readDocument (4 * ts.length + 4) ts
    .starting node (.ofTokens after)

/-- What a text holds. -/
def Stream.ofText (text : List Char) : Stream :=
  .ofTokens (tokens text)

end LiveLint.Yaml
