import LiveLint.SourceKind
import LiveLint.Text.Search

/-!
# Paths

A path is a text cut at slashes. A part that is empty or a single point leads nowhere, so a slash
at the end does not change the name. The extension is what follows the last point of the name, if
something stands before that point; `..` is no name.
-/

namespace LiveLint.CommandLine

/-- The parts of a path between slashes. -/
def pathParts (cs : List Char) : List (List Char) :=
  cs.foldr (fun c parts => if c = '/' then [] :: parts else parts.modifyHead (c :: ·)) [[]]

/-- Whether a part of a path leads somewhere. -/
def isStep (part : List Char) : Bool :=
  !part.isEmpty && part != ['.']

/-- The name that a path ends in. -/
def fileName? (path : String) : Option (List Char) :=
  ((pathParts path.toList).filter isStep).getLast?.filter (· != ['.', '.'])

/-- The extension of a path, without its point. -/
def extension? (path : String) : Option String :=
  (fileName? path).bind fun name =>
    let extension := Text.afterLast '.' name
    if extension.length + 1 < name.length then some (String.ofList extension) else none

/-- The kind of source that a path names. -/
def sourceKind? (path : String) : Option SourceKind :=
  (extension? path).bind SourceKind.ofExtension?

end LiveLint.CommandLine
