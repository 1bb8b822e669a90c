import LiveLint.Workspace.Basic

/-!
# Runs of operations

The operations of a workspace as data, so that what holds after every run can be stated: a run is
a list of operations, and `Workspace.run` folds it. Each operation has a reply, which is what its
caller sees.
-/

namespace LiveLint

/-- An operation of a workspace, or of the user of an editor. -/
inductive Op
  | setText (kind : SourceKind) (text : String)
  | check (kind : SourceKind)
  | reset (kind : SourceKind)
  | addEditor (text : String)
  | edit (id : EditorId) (text : String)
  | attach (kind : SourceKind) (id : EditorId)
  | detach (kind : SourceKind)
  | takeEdit (kind : SourceKind)
  | configure (config : LintConfig)
  | useAnalyzer (analyzer : Analyzer)
  | subscribe
  | build

/-- What the caller of an operation sees. -/
inductive Reply
  /-- The report on a buffer. -/
  | report (report : Report)
  /-- The number of a new editor. -/
  | editor (id : EditorId)
  /-- The editor that was let go, if one was attached. -/
  | released (editor : Option Editor)
  /-- The number of a new subscriber. -/
  | subscriber (number : Nat)
  | build (build : Build)
  /-- The operation had nothing to work on. -/
  | nothing
  | done

namespace Workspace

/-- Perform an operation. -/
def perform (w : Workspace) : Op → Workspace × Reply
  | .setText kind text =>
    let w := w.setText kind text
    (w, .report (w.report kind))
  | .check kind =>
    let w := w.pass kind
    (w, .report (w.report kind))
  | .reset kind =>
    let w := w.reset kind
    (w, .report (w.report kind))
  | .addEditor text =>
    let (w, id) := w.addEditor text
    (w, .editor id)
  | .edit id text =>
    if (w.editor? id).isSome then (w.edit id text, .done) else (w, .nothing)
  | .attach kind id =>
    if (w.editor? id).isSome then
      let w := w.attach kind id
      (w, .report (w.report kind))
    else (w, .nothing)
  | .detach kind => (w.detach kind, .released (w.attached? kind))
  | .takeEdit kind =>
    if (w.attached? kind).isSome then
      let w := w.takeEdit kind
      (w, .report (w.report kind))
    else (w, .nothing)
  | .configure config => (w.configure config, .done)
  | .useAnalyzer analyzer =>
    let w := w.useAnalyzer analyzer
    (w, .report (w.report analyzer.kind))
  | .subscribe =>
    let (w, number) := w.subscribe
    (w, .subscriber number)
  | .build =>
    let (w, build) := w.build
    (w, .build build)

/-- Perform operations one after the other. -/
def run (w : Workspace) (ops : List Op) : Workspace :=
  ops.foldl (fun w op => (w.perform op).1) w

@[simp] theorem run_nil (w : Workspace) : w.run [] = w := rfl

@[simp] theorem run_cons (w : Workspace) (op : Op) (ops : List Op) :
    w.run (op :: ops) = (w.perform op).1.run ops := rfl

end Workspace

end LiveLint
