import LiveLint.Buildconf.Check.Tool

/-!
# Bakes, outputs and sources

A bake makes sources, runs a tool and has one output; its name is in snake case, and its sources
have different ids. An output lies under the output directory, has a file extension, no blanks,
and a path of its own. The source patterns of a document are of a known kind, quoted, and say
something; that they should be quoted is told once for the whole document.
-/

namespace LiveLint.Buildconf

/-- The directives of a bake. The inputs, outputs and flags of a run are let pass. -/
def namesInBake : List String :=
  ["make", "needs", "output", "takes", "set", "emits"]

/-- The kinds of source patterns. -/
def sourceKinds : List String :=
  ["cglob", "glob", "file", "list"]

/-- Where every output has to lie. -/
def outputDirectory : String := "target/out/"

/-! ## Bakes -/

/-- Whether a name is in snake case: lower-case ASCII letters, digits and low lines, one at
least. -/
def isSnakeCase (name : String) : Bool :=
  !name.isEmpty && name.toList.all fun c => c.isLower || c.isDigit || c == '_'

/-- One output per bake. -/
def outputCountFindings (bake : Block) (name : String) : List Finding :=
  match (bake.directivesOf "output").length with
  | 0 => [.bakeLacksOutput name bake.line]
  | 1 => []
  | _ => [.manyOutputs name bake.line]

/-- The ids of a bake's sources, with their lines. -/
def sourceIds (makes : List Directive) : List (String × Nat) :=
  makes.filterMap fun d => (d.arg? 0).map (·, d.line)

/-- One bake of a given name. -/
def namedBakeFindings (bake : Block) (name : String) : List Finding :=
  reportIf (!bake.has "make") (.bakeLacksSource name bake.line) ++
  reportIf (!bake.children.any (·.tag == "run")) (.bakeLacksRun name bake.line) ++
  outputCountFindings bake name ++
  reportIf (!isSnakeCase name) (.oddBakeName name bake.line) ++
  ((bake.otherDirectives namesInBake).map fun d => .oddBakeDirective name d.name d.line) ++
  ((repeats (·.1) (sourceIds (bake.directivesOf "make"))).map fun (id, line) =>
    .repeatedSource name id line)

/-- Every bake with a name. -/
def bakeFindings (doc : Document) : List Finding :=
  (doc.blocksOf "bake").flatMap fun bake => (bake.name.map (namedBakeFindings bake)).getD []

/-! ## Outputs -/

/-- Whether a path ends in a dot and ASCII letters or digits, one at least. -/
def hasExtension (path : List Char) : Bool :=
  let reversed := path.reverse
  let extension := reversed.takeWhile Char.isAlphanum
  !extension.isEmpty && (reversed.dropWhile Char.isAlphanum).head? == some '.'

/-- The paths of the outputs, with their lines. -/
def outputPaths (doc : Document) : List (String × Nat) :=
  (doc.directivesOf "output").filterMap fun d => (d.arg? 1).map (·, d.line)

/-- One output, which may repeat the path of an earlier one. -/
def pathFindings (path : String) (line : Nat) (isRepeat : Bool) : List Finding :=
  let text := path.toList
  reportIf (!outputDirectory.toList.isPrefixOf text) (.strayOutput path line) ++
  reportIf (!hasExtension text) (.outputLacksExtension path line) ++
  reportIf (text.any Text.isBlank) (.blankInOutput path line) ++
  reportIf isRepeat (.repeatedOutput path line)

/-- Every output with a path. -/
def outputFindings (doc : Document) : List Finding :=
  (markRepeats (·.1) (outputPaths doc)).flatMap fun ((path, line), isRepeat) =>
    pathFindings path line isRepeat

/-! ## Sources -/

/-- Whether a source has a pattern without quotes. -/
def hasBarePattern (make : Directive) : Bool :=
  make.args[2]?.any fun a => !a.quoted

/-- Whether a source has no pattern, or a quoted one of nothing but blanks. -/
def hasEmptyPattern (make : Directive) : Bool :=
  match make.args[2]? with
  | none => true
  | some a => a.quoted && Text.isAllBlank a.text.toList

/-- One source; `firstBare` is the line of the first whose pattern is not quoted. -/
def patternFindings (firstBare : Option Nat) (make : Directive) : List Finding :=
  (match make.arg? 1 with
   | none => []
   | some kind => reportIf (!sourceKinds.contains kind) (.unknownSourceKind kind make.line)) ++
  reportIf (hasBarePattern make && firstBare == some make.line) (.bareSource make.line) ++
  reportIf (hasEmptyPattern make) (.emptySource make.line)

/-- Every source. -/
def sourceFindings (doc : Document) : List Finding :=
  let makes := doc.directivesOf "make"
  makes.flatMap (patternFindings ((makes.find? hasBarePattern).map Directive.line))

end LiveLint.Buildconf
