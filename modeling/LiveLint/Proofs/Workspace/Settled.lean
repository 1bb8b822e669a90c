import LiveLint.Proofs.Workspace.Frame
import Mathlib.Data.List.Induction

/-!
# Between two operations every buffer is settled

A buffer is settled when one more pass would change nothing: it is clean, and its report is what
its analyzer finds in its text under the active configuration. Three things can make a report
stale, another text, another configuration and another analyzer, and every operation that brings
one of them ends in a pass over each buffer concerned. So one operation keeps both buffers settled
(`settled_perform`), and so does any run (`settled_run`).
-/

namespace LiveLint

/-! ## Settled buffers -/

/-- One more pass would change nothing. -/
def Buffer.Settled (config : LintConfig) (d : Buffer) : Prop :=
  d.checked config = d

namespace Buffer

variable {config : LintConfig} {d : Buffer}

/-- A pass over a buffer that was just checked finds the same again. -/
theorem settled_checked (d : Buffer) (config : LintConfig) : (d.checked config).Settled config :=
  rfl

theorem Settled.state_eq (h : d.Settled config) : d.state = .clean := by
  rw [← h]
  rfl

theorem Settled.report_eq (h : d.Settled config) :
    d.report = d.analyzer.report config d.kind d.text := by
  conv_lhs => rw [← h]
  rfl

theorem settled_of_eq (state : d.state = .clean)
    (report : d.report = d.analyzer.report config d.kind d.text) : d.Settled config := by
  obtain ⟨kind, text, _, version, _, analyzer, editor⟩ := d
  simp only at state report
  subst state report
  rfl

/-- Which editor a buffer belongs to is nothing to a pass. -/
theorem Settled.withEditor (h : d.Settled config) (editor : Option EditorId) :
    ({ d with editor } : Buffer).Settled config :=
  settled_of_eq h.state_eq h.report_eq

end Buffer

namespace Workspace

variable {w : Workspace}

/-- Both buffers are settled under the active configuration. -/
def Settled (w : Workspace) : Prop :=
  ∀ kind, (w.buffer kind).Settled w.config

/-- Two passes in a row settle both buffers, whatever they were before. -/
theorem settled_passAll (w : Workspace) : w.passAll.Settled := by
  intro kind
  rw [buffer_passAll, config_passAll]
  exact Buffer.settled_checked _ _

theorem settled_start (config : LintConfig) : (start config).Settled :=
  settled_passAll _

theorem Settled.pass (h : w.Settled) (kind : SourceKind) : (w.pass kind).Settled := by
  intro k
  rw [buffer_pass, config_pass]
  split
  · exact Buffer.settled_checked _ _
  · exact h k

theorem Settled.setText (h : w.Settled) (kind : SourceKind) (text : String) :
    (w.setText kind text).Settled := by
  intro k
  rw [buffer_setText, config_setText]
  split
  · exact Buffer.settled_checked _ _
  · exact h k

theorem Settled.reset (h : w.Settled) (kind : SourceKind) : (w.reset kind).Settled := by
  intro k
  rw [buffer_reset, config_reset]
  split
  · exact Buffer.settled_checked _ _
  · exact h k

theorem Settled.attach (h : w.Settled) (kind : SourceKind) (id : EditorId) :
    (w.attach kind id).Settled := by
  cases found : w.editor? id with
  | none =>
    rw [attach_of_missing w kind found]
    exact h
  | some e =>
    intro k
    rw [buffer_attach w kind k found, config_attach]
    split
    · exact Buffer.settled_checked _ _
    · exact h k

theorem Settled.detach (h : w.Settled) (kind : SourceKind) : (w.detach kind).Settled := by
  intro k
  rw [buffer_detach]
  have config : (w.detach kind).config = w.config := config_withBuffer w kind _
  rw [config]
  split
  · exact (h k).withEditor none
  · exact h k

theorem Settled.takeEdit (h : w.Settled) (kind : SourceKind) : (w.takeEdit kind).Settled := by
  cases found : w.attached? kind with
  | none =>
    rw [takeEdit_of_unattached w kind found]
    exact h
  | some e =>
    rw [takeEdit_of_attached w kind found]
    exact h.setText kind e.text

theorem Settled.useAnalyzer (h : w.Settled) (analyzer : Analyzer) :
    (w.useAnalyzer analyzer).Settled := by
  intro k
  rw [buffer_useAnalyzer, config_useAnalyzer]
  split
  · exact Buffer.settled_checked _ _
  · exact h k

/-- An operation that touches no buffer and no configuration leaves them settled. -/
theorem Settled.of_same {v : Workspace} (h : w.Settled) (config : v.config = w.config)
    (buffer : ∀ k, v.buffer k = w.buffer k) : v.Settled := by
  intro k
  rw [config, buffer k]
  exact h k

/-- **Every operation settles what it stirs.** -/
theorem settled_perform (h : w.Settled) (op : Op) : (w.perform op).1.Settled := by
  cases op with
  | setText kind text => exact h.setText kind text
  | check kind => exact h.pass kind
  | reset kind => exact h.reset kind
  | addEditor text => exact h.of_same rfl fun k => buffer_addEditor w k text
  | edit id text =>
    rw [perform_edit]
    exact h.of_same rfl fun k => buffer_edit w k id text
  | attach kind id =>
    rw [perform_attach]
    exact h.attach kind id
  | detach kind => exact h.detach kind
  | takeEdit kind =>
    rw [perform_takeEdit]
    exact h.takeEdit kind
  | configure config => exact settled_passAll _
  | useAnalyzer analyzer => exact h.useAnalyzer analyzer
  | subscribe => exact h.of_same rfl fun k => buffer_subscribe w k
  | build =>
    intro k
    show (w.build.1.buffer k).Settled w.build.1.config
    rw [buffer_build, config_build]
    exact Buffer.settled_checked _ _

theorem settled_run (h : w.Settled) (ops : List Op) : (w.run ops).Settled := by
  induction ops generalizing w with
  | nil => exact h
  | cons op ops ih =>
    rw [run_cons]
    exact ih (settled_perform h op)

end Workspace

end LiveLint
