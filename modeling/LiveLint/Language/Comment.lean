import LiveLint.Text.Blank

/-!
# Comment tokens

How a language marks comments, for an editor that switches them on and off. A token that is empty
counts as none.
-/

namespace LiveLint.Language

/-- The tokens that mark comments, as far as a language has them. -/
structure CommentTokens where
  line : Option String
  blockStart : Option String
  blockEnd : Option String
deriving DecidableEq, Repr

namespace CommentTokens

/-- A language with comments up to the end of the line only. -/
def ofLine (line : String) : CommentTokens :=
  ⟨some line, none, none⟩

/-- A language with comments of both forms. -/
def ofLineAndBlock (line blockStart blockEnd : String) : CommentTokens :=
  ⟨some line, some blockStart, some blockEnd⟩

/-- Whether a token is there and not empty. -/
def isSet (token : Option String) : Bool :=
  token.any fun s => !s.isEmpty

/-- Whether the language has comments up to the end of the line. -/
def hasLine (t : CommentTokens) : Bool :=
  isSet t.line

/-- Whether the language has comments with a start and an end. -/
def hasBlock (t : CommentTokens) : Bool :=
  isSet t.blockStart && isSet t.blockEnd

/-- Whether a line is nothing but a comment, apart from its indentation. -/
def isLineComment (t : CommentTokens) (line : List Char) : Bool :=
  t.line.any fun token => !token.isEmpty && token.toList.isPrefixOf (Text.trimStart line)

end CommentTokens

end LiveLint.Language
