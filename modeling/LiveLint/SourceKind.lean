/-!
# Source kinds

Two small formats are linted: C sources and build configurations. A kind owns its short name, the
tag that opens every message about it, and the file extensions it is known by.
-/

namespace LiveLint

/-- What a text is written in. -/
inductive SourceKind
  /-- A C source. -/
  | c
  /-- A build configuration. -/
  | buildconf
deriving DecidableEq, Repr

namespace SourceKind

/-- Both kinds, in the order they are shown and checked. -/
def all : List SourceKind := [.c, .buildconf]

/-- The short name. -/
def name : SourceKind → String
  | c => "c"
  | buildconf => "buildconf"

/-- The tag that opens the messages about this kind. -/
def messageTag : SourceKind → String
  | c => "C:"
  | buildconf => "buildconf:"

/-- The kind of a file, from its extension without the dot. -/
def ofExtension? (extension : String) : Option SourceKind :=
  if extension ∈ ["c", "h"] then some .c
  else if extension ∈ ["muf", "buildconf", "steelconf"] then some .buildconf
  else none

/-- The kind of a given short name. -/
def ofName? (text : String) : Option SourceKind :=
  all.find? (·.name == text)

theorem ofName?_name (kind : SourceKind) : ofName? kind.name = some kind := by
  cases kind <;> decide

end SourceKind

end LiveLint
