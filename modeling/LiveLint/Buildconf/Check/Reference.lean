import LiveLint.Buildconf.Check.Bake

/-!
# References

What one part of a document says about another. A bake is exported or needed by its name, and
every name so used is a bake's. An input that is renamed for a tool is the id of some source, an
output that is renamed is declared, and what they are renamed to looks like a flag.
-/

namespace LiveLint.Buildconf

/-! ## Bakes by name -/

/-- All names that the given directives mention. -/
def mentioned (directives : List Directive) : List String :=
  directives.flatMap fun d => d.args.map Argument.text

/-- Bakes that nothing refers to. -/
def unusedBakes (doc : Document) : List Finding :=
  let names := mentioned (doc.directivesOf "ref" ++ doc.directivesOf "needs")
  (doc.named "bake").flatMap fun (name, line) =>
    reportIf (!names.contains name) (.unusedBake name line)

/-- Whether an export block refers to anything. -/
def hasExport (doc : Document) : Bool :=
  (doc.blocksOf "export").any fun b =>
    (b.directivesOf "ref").any fun d => !d.args.isEmpty

/-- Whether a line is a header, valid or not. -/
def isHeader (line : Line) : Bool :=
  match line.kind with
  | .header _ => true
  | _ => false

/-- Something is exported. -/
def exportFindings (doc : Document) : List Finding :=
  reportIf (!hasExport doc) (.nothingExported ((doc.lines.find? isHeader).map Line.number))

/-- The names in the given directives that no bake has. -/
def unknownTargets (bakes : List String) (found : String → Nat → Finding)
    (directives : List Directive) : List Finding :=
  directives.flatMap fun d => d.args.flatMap fun target =>
    reportIf (!bakes.contains target.text) (found target.text d.line)

/-- References to bakes. -/
def referenceFindings (doc : Document) : List Finding :=
  let bakes := (doc.named "bake").map (·.1)
  unusedBakes doc ++ exportFindings doc ++
  unknownTargets bakes .unknownRef (doc.directivesOf "ref") ++
  unknownTargets bakes .unknownNeed (doc.directivesOf "needs")

/-! ## Inputs and outputs by name -/

/-- Whether a text starts with a hyphen. -/
def looksLikeFlag (text : String) : Bool :=
  ['-'].isPrefixOf text.toList

/-- The directives of the form `x as y`. -/
def renamesAmong (directives : List Directive) : List Directive :=
  directives.filter (·.hasKeyword 1 "as")

/-- The findings about one argument, if it is there. -/
def argumentFindings (argument : Option String) (check : String → List Finding) : List Finding :=
  (argument.map check).getD []

/-- One renamed input; `ids` are the ids of all sources. -/
def inputFindings (ids : List String) (takes : Directive) : List Finding :=
  (argumentFindings (takes.arg? 0) fun id =>
    reportIf (!ids.contains id) (.unknownInput id takes.line)) ++
  argumentFindings (takes.arg? 2) fun flag =>
    reportIf (!looksLikeFlag flag && flag != "@args") (.oddInputFlag flag takes.line)

/-- One renamed output; `outputs` are the names of all declared ones. -/
def resultFindings (outputs : List String) (emits : Directive) : List Finding :=
  (argumentFindings (emits.arg? 0) fun output =>
    reportIf (!outputs.contains output) (.unknownOutput output emits.line)) ++
  argumentFindings (emits.arg? 2) fun flag =>
    reportIf (!looksLikeFlag flag) (.oddOutputFlag flag emits.line)

/-- The first arguments of the given directives. -/
def firstArguments (directives : List Directive) : List String :=
  directives.filterMap (·.arg? 0)

/-- Inputs and outputs of all steps. -/
def renamingFindings (doc : Document) : List Finding :=
  let outputs := doc.directivesOf "output"
  let emits := doc.directivesOf "emits"
  (renamesAmong (doc.directivesOf "takes")).flatMap
    (inputFindings (firstArguments (doc.directivesOf "make"))) ++
  (renamesAmong emits).flatMap (resultFindings (firstArguments outputs)) ++
  reportIf (!outputs.isEmpty && emits.isEmpty) .outputsNotEmitted

end LiveLint.Buildconf
