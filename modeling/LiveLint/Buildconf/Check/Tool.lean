import LiveLint.Buildconf.Document
import LiveLint.Buildconf.Finding
import LiveLint.Buildconf.Repeat
import LiveLint.Text.Search

/-!
# Tools and runs

A document declares tools, and runs use them: every tool is run somewhere, and every run names a
declared tool. A tool says what it executes, and is called like it. A run stands inside a bake,
takes something in and emits something, and sets its flags.
-/

namespace LiveLint.Buildconf

/-- The directives of a tool. -/
def namesInTool : List String :=
  ["exec"]

/-- The directives of a run. -/
def namesInRun : List String :=
  ["takes", "emits", "set", "include", "define", "libdir", "lib"]

/-- The directives of a block that are not among the given ones. -/
def Block.otherDirectives (b : Block) (allowed : List String) : List Directive :=
  b.directives.filter fun d => !allowed.contains d.name

/-! ## All tools, bakes and runs -/

/-- Tools, bakes, runs and commands are all there. -/
def absences (doc : Document) : List Finding :=
  reportIf (doc.named "tool").isEmpty .noTool ++
  reportIf (doc.named "bake").isEmpty .noBake ++
  reportIf (doc.named "run").isEmpty .noRun ++
  reportIf (doc.directivesOf "exec").isEmpty .noCommand

/-- No two tools and no two bakes have one name. -/
def repeatedNames (doc : Document) : List Finding :=
  ((repeats (·.1) (doc.named "tool")).map fun (name, line) => Finding.repeatedTool name line) ++
  ((repeats (·.1) (doc.named "bake")).map fun (name, line) => .repeatedBake name line)

/-- Tools that no run uses. -/
def idleTools (doc : Document) : List Finding :=
  let used := (doc.named "run").map (·.1)
  (doc.named "tool").flatMap fun (name, line) =>
    reportIf (!used.contains name) (.idleTool name line)

/-- Runs of tools that are not declared. -/
def unknownTools (doc : Document) : List Finding :=
  let declared := (doc.named "tool").map (·.1)
  (doc.named "run").flatMap fun (name, line) =>
    reportIf (!declared.contains name) (.unknownTool name line)

/-- Presence and cross-use of tools, bakes and runs. -/
def presenceFindings (doc : Document) : List Finding :=
  absences doc ++ repeatedNames doc ++ idleTools doc ++ unknownTools doc

/-! ## One tool -/

/-- The command of a directive: its arguments with a space between, trimmed. -/
def Directive.command (exec : Directive) : List Char :=
  Text.trim (String.intercalate " " (exec.args.map Argument.text)).toList

/-- Whether a tool that executes the given command is called like it. The binary is what follows
the last slash; a command that ends in a slash has none. -/
def toolNameFindings (tool : String) (exec : Directive) : List Finding :=
  let binary := String.ofList (Text.afterLast '/' exec.command)
  reportIf (!binary.isEmpty && binary != tool) (.misnamedTool tool binary exec.line)

/-- One tool of a given name. -/
def namedToolFindings (tool : Block) (name : String) : List Finding :=
  (match (tool.directivesOf "exec").head? with
   | none => [Finding.toolLacksCommand name tool.line]
   | some exec => toolNameFindings name exec) ++
  (tool.otherDirectives namesInTool).map fun d => .oddToolDirective name d.name d.line

/-- One command, wherever it stands. -/
def commandFindings (exec : Directive) : List Finding :=
  let command := exec.command
  let shown := String.ofList command
  if command.isEmpty then [.emptyCommand exec.line]
  else
    reportIf (command.contains ' ') (.spacedCommand shown exec.line) ++
    reportIf (['.', '/'].isPrefixOf command || ['.', '.', '/'].isPrefixOf command)
      (.relativeCommand shown exec.line)

/-- Every tool with a name, and every command. -/
def toolFindings (doc : Document) : List Finding :=
  ((doc.blocksOf "tool").flatMap fun tool =>
    (tool.name.map (namedToolFindings tool)).getD []) ++
  (doc.directivesOf "exec").flatMap commandFindings

/-! ## One run -/

/-- One run of a given tool. -/
def namedRunFindings (run : Block) (tool : String) : List Finding :=
  let takes := run.has "takes"
  let emits := run.has "emits"
  reportIf (!takes && !emits) (.runLacksFiles tool run.line) ++
  reportIf (takes && !emits) (.runLacksResult tool run.line) ++
  reportIf (!run.has "set") (.runLacksFlags tool run.line) ++
  ((run.otherDirectives namesInRun).map fun d => .oddRunDirective tool d.name d.line) ++
  reportIf (run.parentTag != some "bake") (.looseRun tool run.line)

/-- Every run with a name. -/
def runFindings (doc : Document) : List Finding :=
  (doc.blocksOf "run").flatMap fun run => (run.name.map (namedRunFindings run)).getD []

end LiveLint.Buildconf
