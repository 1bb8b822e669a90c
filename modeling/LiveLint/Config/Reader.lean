import LiveLint.Config.Basic
import LiveLint.Text.Blank
import LiveLint.Yaml.Value

/-!
# Reading lint configurations

A configuration is a YAML mapping of at most four fields, all optional:

```
disabled: [C010, B091]
severity:
  C011: error
buildconf: true
```

A field that is left empty decides nothing, except that a truth value cannot be left out. Fields
are read in the order they are written, and the first mistake is told, with the path and the place
of what is wrong. That the text stops being YAML somewhere, or goes on after the mapping, matters
only if nothing before it is wrong. A text of nothing but blanks or comments is the default
configuration.

`ConfigError.message` tells the mistake whatever else is wrong with the text. `explanation?` is for
readers of configurations alone: it tells the mistake only where the text can be read as YAML of no
particular shape.
-/

namespace LiveLint

/-- Where in a configuration something stands. -/
inductive ConfigPath
  | document
  | field (name : String)
  | item (name : String) (index : Nat)
  | entry (name key : String)
deriving DecidableEq, Repr

/-- What stands where something else was wanted. -/
inductive Found
  | atom (a : Yaml.Atom)
  | sequence
  | mapping
deriving DecidableEq, Repr

/-- What was wanted. -/
inductive Wanted
  | config
  | fieldName
  | truth
  | sequence
  | mapping
  | text
  | severity
deriving DecidableEq, Repr

/-- Why a text is no configuration. -/
inductive ConfigError
  /-- The text stops being YAML. -/
  | malformed
  /-- The text goes on after the configuration. -/
  | severalDocuments
  | unknownField (name : String) (mark : Yaml.Mark)
  /-- A field comes twice in the mapping that starts at the mark. -/
  | repeatedField (name : String) (mark : Yaml.Mark)
  | wrongType (path : ConfigPath) (found : Found) (wanted : Wanted) (mark : Yaml.Mark)
  | unknownSeverity (path : ConfigPath) (word : String) (mark : Yaml.Mark)
deriving DecidableEq, Repr

/-! ## Wording -/

/-- The path before a message, with its colon. -/
def ConfigPath.render : ConfigPath → String
  | document => ""
  | field name => name ++ ": "
  | item name index => name ++ "[" ++ toString index ++ "]: "
  | entry name key => name ++ "." ++ key ++ ": "

/-- A text between backticks. -/
def ticked (s : String) : String :=
  "\x60" ++ s ++ "\x60"

/-- A whole number, in words. One that does not fit into 64 bits is told with its width. -/
def integerText (i : Int) : String :=
  let width := if Yaml.fits64 i then "" else if i < 0 then " as i128" else " as u128"
  "integer " ++ ticked (toString i) ++ width

/-- What was found, in words. -/
def Found.render : Found → String
  | atom .null => "unit value"
  | atom (.truth b) => "boolean " ++ ticked (LintConfig.inspectBool b)
  | atom (.integer i) => integerText i
  | atom (.real x) => "floating point " ++ ticked x.render
  | atom (.text s) => "string " ++ Text.quote s
  | sequence => "sequence"
  | mapping => "map"

/-- What was wanted, in words. -/
def Wanted.render : Wanted → String
  | config => "struct LintConfig"
  | fieldName => "field identifier"
  | truth => "a boolean"
  | sequence => "a sequence"
  | mapping => "a map"
  | text => "a string"
  | severity => "a YAML tag starting with '!'"

/-- The names of the fields. -/
def LintConfig.fieldNames : List String :=
  ["disabled", "severity", "c", "buildconf"]

/-- The names that are allowed, in words. -/
def oneOf (names : List String) : String :=
  "expected one of " ++ String.intercalate ", " (names.map ticked)

/-- The place after a message. The very start of a text is not told. -/
def placeText (mark : Yaml.Mark) : String :=
  if mark.offset = 0 then ""
  else " at line " ++ toString (mark.line + 1) ++ " column " ++ toString (mark.column + 1)

/-- What to tell the owner of the configuration. -/
def ConfigError.message : ConfigError → String
  | malformed => "YAML parse error: not a well-formed document"
  | severalDocuments =>
    "YAML parse error: deserializing from YAML containing more than one document is not supported"
  | unknownField name mark =>
    "YAML parse error: unknown field " ++ ticked name ++ ", " ++ oneOf LintConfig.fieldNames ++
      placeText mark
  | repeatedField name mark =>
    "YAML parse error: duplicate field " ++ ticked name ++ placeText mark
  | wrongType path found wanted mark =>
    "YAML parse error: " ++ path.render ++ "invalid type: " ++ found.render ++ ", expected " ++
      wanted.render ++ placeText mark
  | unknownSeverity path word mark =>
    "YAML parse error: " ++ path.render ++ "unknown variant " ++ ticked word ++ ", " ++
      oneOf (Severity.all.map Severity.name) ++ placeText mark

/-! ## Reading -/

namespace LintConfig

open Yaml (Node)

/-- The mistake that a node is not what is wanted. -/
def mistake {α : Type} (path : ConfigPath) (wanted : Wanted) : Node → Except ConfigError α
  | .scalar mark plain text =>
    .error (.wrongType path (.atom (Yaml.Atom.ofScalar plain text)) wanted mark)
  | .sequence mark _ => .error (.wrongType path .sequence wanted mark)
  | .mapping mark _ => .error (.wrongType path .mapping wanted mark)
  | .broken => .error .malformed

/-- Read a text; any scalar is one, and keeps its spelling. -/
def readText (path : ConfigPath) (wanted : Wanted) : Node → Except ConfigError String
  | .scalar _ _ text => .ok text
  | node => mistake path wanted node

/-- The truth value that a node says. -/
def truth? : Node → Option Bool
  | .scalar _ plain text =>
    match Yaml.Atom.ofScalar plain text with
    | .truth b => some b
    | _ => none
  | _ => none

/-- Read a truth value. -/
def readTruth (path : ConfigPath) (node : Node) : Except ConfigError Bool :=
  match truth? node with
  | some b => .ok b
  | none => mistake path .truth node

/-- Read the codes that are switched off. -/
def readDisabled (node : Node) : Except ConfigError (List String) :=
  match node with
  | .sequence _ items =>
    items.zipIdx.mapM fun (item, index) => readText (.item "disabled" index) .text item
  | node => if node.isMissing then .ok [] else mistake (.field "disabled") .sequence node

/-- Read the severity of a code. -/
def readSeverity (path : ConfigPath) : Node → Except ConfigError Severity
  | .scalar mark _ word =>
    match Severity.ofName? word with
    | some s => .ok s
    | none => .error (.unknownSeverity path word mark)
  | node => mistake path .severity node

/-- Read the severities of codes. -/
def readSeverities (node : Node) : Except ConfigError (List (String × Severity)) :=
  match node with
  | .mapping _ entries =>
    entries.mapM fun (key, value) => do
      let code ← readText (.field "severity") .text key
      let s ← readSeverity (.entry "severity" code) value
      pure (code, s)
  | node => if node.isMissing then .ok [] else mistake (.field "severity") .mapping node

/-- Read one field into a configuration. -/
def readField (config : LintConfig) (name : String) (mark : Yaml.Mark) (value : Node) :
    Except ConfigError LintConfig :=
  match name with
  | "disabled" => do
    let codes ← readDisabled value
    pure (codes.foldl disable config)
  | "severity" => do
    let decisions ← readSeverities value
    pure (decisions.foldl (fun config (code, s) => config.regrade code s) config)
  | "c" => do pure { config with c := ← readTruth (.field "c") value }
  | "buildconf" => do pure { config with buildconf := ← readTruth (.field "buildconf") value }
  | name => .error (.unknownField name mark)

/-- Read the fields of the mapping at `start` in order; none may come twice. -/
def readFields (start : Yaml.Mark) (config : LintConfig) (seen : List String) :
    List (Node × Node) → Except ConfigError LintConfig
  | [] => .ok config
  | (.scalar mark _ name, value) :: rest => do
    if seen.contains name then throw (.repeatedField name start)
    let config ← readField config name mark value
    readFields start config (name :: seen) rest
  | (key, _) :: _ => mistake .document .fieldName key

/-- Read the node of a document. -/
def ofNode (node : Node) : Except ConfigError LintConfig :=
  match node with
  | .mapping mark entries => readFields mark default [] entries
  | node => if node.isMissing then .ok default else mistake .document .config node

/-- Read a configuration from a stream of documents, which has to end after the first one. -/
def ofStream : Yaml.Stream → Except ConfigError LintConfig
  | .empty => .ok default
  | .starting node ending => do
    let config ← ofNode node
    match ending with
    | .whole => .ok config
    | .broken => .error .malformed
    | .another => .error .severalDocuments

/-- Read a configuration. -/
def ofYaml (text : String) : Except ConfigError LintConfig :=
  let cs := text.toList
  if Text.isAllBlank cs then .ok default else ofStream (.ofText cs)

end LintConfig

/-- The message about a mistake in a text, if the text can be read as YAML of no particular
shape. -/
def ConfigError.explanation? (e : ConfigError) (text : String) : Option String :=
  if (Yaml.Stream.ofText text.toList).isReadable then some e.message else none

end LiveLint
