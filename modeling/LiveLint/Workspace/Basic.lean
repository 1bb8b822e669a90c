import LiveLint.Analyzer
import LiveLint.Build
import LiveLint.Editor
import LiveLint.Starter

/-!
# The workspace

A workspace keeps one buffer of each kind under check. Whatever changes a text, an analyzer or
the configuration is followed at once by a pass: the analyzer reads the whole text, the
configuration decides on what it found, and the sorted report goes to the attached editor as
markers and to every subscriber as an update. Between two operations every buffer is clean: its
report belongs to its text.

Editors are known by their number, in the order in which they were made, because a host keeps
editing one after the workspace has let it go. What subscribers received and what happened inside
is written down in the order in which it happened.
-/

namespace LiveLint

/-- Whether a report belongs to the text of its buffer. -/
inductive Freshness
  | clean
  | dirty
deriving DecidableEq, Repr

/-- The word for a state. -/
def Freshness.name : Freshness → String
  | clean => "clean"
  | dirty => "dirty"

/-- The number of an editor. -/
abbrev EditorId := Nat

/-- A text under check. -/
structure Buffer where
  kind : SourceKind
  text : String
  state : Freshness
  /-- How often the text was replaced. -/
  version : Nat
  /-- The outcome of the last pass. -/
  report : Report
  analyzer : Analyzer
  /-- The attached editor. -/
  editor : Option EditorId

/-- What a subscriber is told of a pass. -/
structure Update where
  kind : SourceKind
  version : Nat
  report : Report

/-- An update that a subscriber received. Subscribers are numbered from 1. -/
structure Delivery where
  subscriber : Nat
  update : Update

/-- Something that happened inside a workspace. -/
inductive Event
  | pass (kind : SourceKind) (version errors warnings suggestions : Nat)
  | becameClean (kind : SourceKind) (version : Nat)
  | becameDirty (kind : SourceKind) (version : Nat)
  | published (kind : SourceKind) (markers : Nat)
  | attached (kind : SourceKind) (language : String)
  | built (status : BuildStatus) (diagnostics : Nat)
deriving DecidableEq, Repr

/-- The buffers under check and all that belongs to them. -/
structure Workspace where
  config : LintConfig
  c : Buffer
  buildconf : Buffer
  /-- How many subscribers there are. -/
  subscribers : Nat
  /-- All editors that were made. -/
  editors : List Editor
  /-- What subscribers received, in order. -/
  deliveries : List Delivery
  /-- What happened, in order. -/
  events : List Event

namespace Buffer

/-- The starter buffer of a kind, before its first pass. -/
def starter (kind : SourceKind) : Buffer :=
  ⟨kind, Starter.text kind, .dirty, 0, .empty, .builtIn kind, none⟩

/-- The buffer with another text. -/
def withText (d : Buffer) (text : String) : Buffer :=
  { d with text, version := d.version + 1, state := .dirty }

/-- The buffer after a pass. -/
def checked (d : Buffer) (config : LintConfig) : Buffer :=
  { d with report := d.analyzer.report config d.kind d.text, state := .clean }

/-- The number of lines of the text. -/
def lineCount (d : Buffer) : Nat :=
  (Text.splitLines d.text.toList).length

/-- The markers of the last pass. -/
def markers (d : Buffer) : List Marker :=
  Marker.ofDiagnostics (.ofText d.text) d.report.diagnostics

/-- What subscribers are told of the last pass. -/
def update (d : Buffer) : Update :=
  ⟨d.kind, d.version, d.report⟩

/-- What a pass writes down. -/
def passEvents (d : Buffer) : List Event :=
  let report := d.report
  [.pass d.kind d.version (report.count .error) (report.count .warning)
     (report.count .suggestion),
   .becameClean d.kind d.version] ++
  (if d.editor.isSome then [.published d.kind d.markers.length] else [])

end Buffer

namespace Workspace

/-- The buffer of a kind. -/
def buffer (w : Workspace) : SourceKind → Buffer
  | .c => w.c
  | .buildconf => w.buildconf

/-- The workspace with another buffer in its place. -/
def withBuffer (w : Workspace) (kind : SourceKind) (d : Buffer) : Workspace :=
  match kind with
  | .c => { w with c := d }
  | .buildconf => { w with buildconf := d }

/-- An editor by its number. -/
def editor? (w : Workspace) (id : EditorId) : Option Editor :=
  w.editors[id]?

/-- The workspace with an editor changed. -/
def modifyEditor (w : Workspace) (id : EditorId) (f : Editor → Editor) : Workspace :=
  { w with editors := w.editors.modify id f }

/-- The workspace with its attached editor of a kind changed, if there is one. -/
def modifyAttached (w : Workspace) (kind : SourceKind) (f : Editor → Editor) : Workspace :=
  match (w.buffer kind).editor with
  | none => w
  | some id => w.modifyEditor id f

/-- The workspace with events written down. -/
def note (w : Workspace) (events : List Event) : Workspace :=
  { w with events := w.events ++ events }

/-- The workspace after every subscriber, in order, received an update. -/
def deliver (w : Workspace) (update : Update) : Workspace :=
  let received := (List.range' 1 w.subscribers).map fun subscriber => Delivery.mk subscriber update
  { w with deliveries := w.deliveries ++ received }

/-- Run a pass over the buffer of a kind. -/
def pass (w : Workspace) (kind : SourceKind) : Workspace :=
  let d := (w.buffer kind).checked w.config
  (((w.withBuffer kind d).note d.passEvents).modifyAttached kind (·.showing d.markers)).deliver
    d.update

/-- Run a pass over each buffer. -/
def passAll (w : Workspace) : Workspace :=
  (w.pass .c).pass .buildconf

/-- A workspace with the starter buffers, checked under a configuration. -/
def start (config : LintConfig) : Workspace :=
  passAll
    { config, c := .starter .c, buildconf := .starter .buildconf, subscribers := 0, editors := [],
      deliveries := [], events := [] }

/-! ## Questions -/

/-- The last report on the buffer of a kind. -/
def report (w : Workspace) (kind : SourceKind) : Report :=
  (w.buffer kind).report

/-- One report of both buffers. -/
def combined (w : Workspace) : Report :=
  .merge [w.c.report, w.buildconf.report]

/-- The editor attached to a kind. -/
def attached? (w : Workspace) (kind : SourceKind) : Option Editor :=
  (w.buffer kind).editor.bind w.editor?

/-! ## Operations -/

/-- Replace a text and run a pass. -/
def setText (w : Workspace) (kind : SourceKind) (text : String) : Workspace :=
  let d := (w.buffer kind).withText text
  ((w.withBuffer kind d).note [.becameDirty kind d.version]).pass kind

/-- Bring back the starter text, in the attached editor too. -/
def reset (w : Workspace) (kind : SourceKind) : Workspace :=
  (w.modifyAttached kind (·.withText (Starter.text kind))).setText kind (Starter.text kind)

/-- Make an editor, which is not attached yet. -/
def addEditor (w : Workspace) (text : String) : Workspace × EditorId :=
  ({ w with editors := w.editors ++ [.ofText text] }, w.editors.length)

/-- The user of an editor changes its text; the workspace is not told. -/
def edit (w : Workspace) (id : EditorId) (text : String) : Workspace :=
  w.modifyEditor id (·.withText text)

/-- Attach an editor: tell it of the language, take its text and run a pass. An editor that was
attached is let go. -/
def attach (w : Workspace) (kind : SourceKind) (id : EditorId) : Workspace :=
  match w.editor? id with
  | none => w
  | some e =>
    let profile := Language.Profile.ofKind kind
    let d := { w.buffer kind with editor := some id }
    (((w.modifyEditor id (·.learn profile)).note [.attached kind profile.id]).withBuffer
      kind d).setText kind e.text

/-- Let the attached editor go. -/
def detach (w : Workspace) (kind : SourceKind) : Workspace :=
  w.withBuffer kind { w.buffer kind with editor := none }

/-- Take over the text of the attached editor, if there is one. -/
def takeEdit (w : Workspace) (kind : SourceKind) : Workspace :=
  match w.attached? kind with
  | none => w
  | some e => w.setText kind e.text

/-- Use another configuration from now on. -/
def configure (w : Workspace) (config : LintConfig) : Workspace :=
  { w with config }.passAll

/-- Put an analyzer in place of the one of its kind. -/
def useAnalyzer (w : Workspace) (analyzer : Analyzer) : Workspace :=
  let kind := analyzer.kind
  (w.withBuffer kind { w.buffer kind with analyzer }).pass kind

/-- Add a subscriber and give its number. -/
def subscribe (w : Workspace) : Workspace × Nat :=
  ({ w with subscribers := w.subscribers + 1 }, w.subscribers + 1)

/-- Run a pass over each buffer and tell how the build ended. -/
def build (w : Workspace) : Workspace × Build :=
  let w := w.passAll
  let b : Build := ⟨w.combined⟩
  (w.note [.built b.status b.report.size], b)

end Workspace

end LiveLint
