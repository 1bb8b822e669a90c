import LiveLint.Buildconf.Document
import LiveLint.Buildconf.Finding

/-!
# Header and layout

The first meaningful line has to be the header, to the letter; a document has exactly one valid
header. Blocks have known tags, lines have no tabs, and there are as many openers as closers. A
line counts as an opener for the balance if it merely starts with a bracket.
-/

namespace LiveLint.Buildconf

/-- The header line of a document. -/
def headerText : List Char := ['!', 'm', 'u', 'f', ' ', '4']

/-- The tags a block can have. -/
def blockTags : List String :=
  ["workspace", "profile", "tool", "bake", "run", "export"]

/-- The header in its place. -/
def firstLineFindings (doc : Document) : List Finding :=
  match doc.meaningfulLines.head? with
  | none => [.noHeader]
  | some first =>
    if first.trimmed = headerText then []
    else [.misplacedHeader first.number, .noHeader]

/-- The valid headers of a document. -/
def validHeaders (doc : Document) : List Line :=
  doc.lines.filter (·.kind == .header true)

/-- One valid header and no more. -/
def headerCountFindings (doc : Document) : List Finding :=
  reportIf (validHeaders doc).isEmpty .noValidHeader ++
  (validHeaders doc).tail.map fun line => .repeatedHeader line.number

/-- The header. -/
def headerFindings (doc : Document) : List Finding :=
  firstLineFindings doc ++ headerCountFindings doc

/-- The tag of an opener that is not known. -/
def unknownTag? (line : Line) : Option Finding :=
  match line.kind with
  | .opener tag _ => if tag ∈ blockTags then none else some (.unknownTag tag line.number)
  | _ => none

/-- Whether a line has a tab anywhere. -/
def hasTab (line : Line) : Bool :=
  line.raw.contains '\t'

/-- Whether a line starts with a bracket. -/
def startsWithBracket (line : Line) : Bool :=
  ['['].isPrefixOf line.trimmed

/-- Whether openers and closers are as many. -/
def isBalanced (doc : Document) : Bool :=
  doc.lines.countP startsWithBracket == doc.lines.countP (·.kind == .closer)

/-- Tags, tabs and balance. -/
def layoutFindings (doc : Document) : List Finding :=
  doc.lines.filterMap unknownTag? ++
  ((doc.lines.find? hasTab).map fun line => Finding.tab line.number).toList ++
  reportIf (!isBalanced doc) .unbalanced

end LiveLint.Buildconf
