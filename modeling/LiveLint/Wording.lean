import LiveLint.Severity
import LiveLint.SourceKind
import LiveLint.Text.Search

/-!
# Severity from wording

A message may arrive without a severity: from another tool, or written by hand. `Wording.grade`
derives one from the words alone. A message that opens with the tag of a kind is graded by the
phrases known for that kind: one phrase of an error makes it an error, whatever else it says; a
build configuration message that recommends something is a suggestion; all else is a warning.
-/

namespace LiveLint.Wording

/-- Phrases of errors in a C source. -/
def cErrorPhrases : List String :=
  ["missing main function", "empty file", "unbalanced braces"]

/-- Phrases of errors in a build configuration. -/
def buildconfErrorPhrases : List String :=
  ["must be the first meaningful line",
   "missing !muf 4 header",
   "invalid header line",
   "missing [workspace] block",
   "multiple [workspace] blocks",
   "workspace is missing .set",
   "must be a relative path",
   "is not declared by any [profile] block",
   "missing [tool",
   "missing [bake",
   "missing [run",
   "missing .exec",
   "duplicate tool",
   "duplicate bake",
   "uses undeclared tool",
   "has no .make",
   "has no [run",
   "has no .output",
   "must live under target/out/",
   "has no file extension",
   "tab characters are not allowed",
   "tool \"",
   "run \""]

/-- Phrases of recommendations for a build configuration. -/
def buildconfSuggestionPhrases : List String :=
  ["recommended", "prefer", "snake_case"]

/-- Whether a message contains one of the phrases. -/
def hasAnyOf (phrases : List String) (message : List Char) : Bool :=
  phrases.any fun phrase => Text.occurs phrase.toList message

/-- Whether a message opens with the tag of `kind`. -/
def isAbout (kind : SourceKind) (message : List Char) : Bool :=
  kind.messageTag.toList.isPrefixOf message

/-- The severity that the words of a message tell. -/
def grade (message : String) : Severity :=
  let text := message.toList
  if isAbout .c text then
    if hasAnyOf cErrorPhrases text then .error else .warning
  else if isAbout .buildconf text then
    if hasAnyOf buildconfErrorPhrases text then .error
    else if hasAnyOf buildconfSuggestionPhrases text then .suggestion
    else .warning
  else .warning

theorem hasAnyOf_iff {phrases : List String} {message : List Char} :
    hasAnyOf phrases message = true ↔ ∃ p ∈ phrases, p.toList <:+: message := by
  simp [hasAnyOf, Text.occurs_iff]

end LiveLint.Wording
