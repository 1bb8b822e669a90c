import LiveLint.Proofs.Workspace.Settled

/-!
# What the calls alone tell

`Ledger` adds up a list of operations without looking at a workspace: which configuration and
which analyzer were put in last, whether an editor is attached, and how many calls gave the buffer
of a kind a text. The last of these counts an edit only if an editor was attached to take it from,
and an attachment only if there was such an editor.

A workspace that performed the operations has it all so (`agrees_run`). Together with the fact that
both buffers are settled after any run this gives the main statement, `run_settled`: no history of
calls leaves a stale report behind.
-/

namespace LiveLint

/-- What a list of operations says about one kind. -/
structure Ledger where
  /-- The configuration that was put in last. -/
  config : LintConfig
  /-- The analyzer of the kind that was put in last. -/
  analyzer : Analyzer
  /-- How many editors were made. -/
  editors : Nat
  /-- Whether an editor was attached to the kind and not let go since. -/
  attached : Bool
  /-- How many calls gave the buffer of the kind a text. -/
  replacements : Nat

namespace Ledger

/-- Before the first operation. -/
def start (config : LintConfig) (kind : SourceKind) : Ledger :=
  ⟨config, .builtIn kind, 0, false, 0⟩

/-- One more text. -/
def replaced (l : Ledger) : Ledger :=
  { l with replacements := l.replacements + 1 }

/-- Enter one operation into the ledger of a kind. -/
def enter (kind : SourceKind) (l : Ledger) : Op → Ledger
  | .setText k _ => if k = kind then l.replaced else l
  | .reset k => if k = kind then l.replaced else l
  | .addEditor _ => { l with editors := l.editors + 1 }
  | .attach k id => if k = kind ∧ id < l.editors then { l.replaced with attached := true } else l
  | .detach k => if k = kind then { l with attached := false } else l
  | .takeEdit k => if k = kind ∧ l.attached then l.replaced else l
  | .configure config => { l with config }
  | .useAnalyzer analyzer => if analyzer.kind = kind then { l with analyzer } else l
  | .check _ | .edit _ _ | .subscribe | .build => l

/-- The ledger of a kind after a list of operations. -/
def ofOps (config : LintConfig) (kind : SourceKind) (ops : List Op) : Ledger :=
  ops.foldl (enter kind) (start config kind)

end Ledger

/-! ## A workspace agrees with the ledger -/

/-- The buffer of a kind has what the ledger says of it. -/
structure Buffer.Agrees (d : Buffer) (kind : SourceKind) (l : Ledger) : Prop where
  kind_eq : d.kind = kind
  analyzer_eq : d.analyzer = l.analyzer
  analyzer_kind : d.analyzer.kind = kind
  attached_eq : d.editor.isSome = l.attached
  version_eq : d.version = l.replacements

/-- The workspace has what the ledger of a kind says, and only editors that were made are
attached. -/
structure Workspace.Agrees (w : Workspace) (kind : SourceKind) (l : Ledger) : Prop where
  config_eq : w.config = l.config
  editors_eq : w.editors.length = l.editors
  buffer : (w.buffer kind).Agrees kind l
  known : ∀ id, (w.buffer kind).editor = some id → id < w.editors.length

namespace Buffer.Agrees

variable {d : Buffer} {kind : SourceKind} {l : Ledger}

theorem checked (h : d.Agrees kind l) (config : LintConfig) : (d.checked config).Agrees kind l :=
  ⟨h.kind_eq, h.analyzer_eq, h.analyzer_kind, h.attached_eq, h.version_eq⟩

theorem withText (h : d.Agrees kind l) (text : String) : (d.withText text).Agrees kind l.replaced :=
  ⟨h.kind_eq, h.analyzer_eq, h.analyzer_kind, h.attached_eq, congrArg (· + 1) h.version_eq⟩

theorem withEditor (h : d.Agrees kind l) (editor : Option EditorId) :
    ({ d with editor } : Buffer).Agrees kind { l with attached := editor.isSome } :=
  ⟨h.kind_eq, h.analyzer_eq, h.analyzer_kind, rfl, h.version_eq⟩

theorem withAnalyzer (h : d.Agrees kind l) {analyzer : Analyzer} (same : analyzer.kind = kind) :
    ({ d with analyzer } : Buffer).Agrees kind { l with analyzer } :=
  ⟨h.kind_eq, rfl, same, h.attached_eq, h.version_eq⟩

/-- What a ledger says of other things is nothing to a buffer. -/
theorem of_ledger (h : d.Agrees kind l) {l' : Ledger} (analyzer : l'.analyzer = l.analyzer)
    (attached : l'.attached = l.attached) (replacements : l'.replacements = l.replacements) :
    d.Agrees kind l' :=
  ⟨h.kind_eq, h.analyzer_eq.trans analyzer.symm, h.analyzer_kind,
    h.attached_eq.trans attached.symm, h.version_eq.trans replacements.symm⟩

end Buffer.Agrees

namespace Workspace

variable {w : Workspace} {kind : SourceKind} {l : Ledger}

theorem agrees_start (config : LintConfig) (kind : SourceKind) :
    (start config).Agrees kind (.start config kind) := by
  have buffer : ((start config).buffer kind) = (Buffer.starter kind).checked config := by
    rw [start, buffer_passAll]
    cases kind <;> rfl
  refine ⟨config_passAll _, length_editors_passAll _, ?_, ?_⟩
  · rw [buffer]
    exact ⟨rfl, rfl, Analyzer.kind_builtIn kind, rfl, rfl⟩
  · intro id held
    rw [buffer] at held
    exact absurd held (by simp [Buffer.checked, Buffer.starter])

theorem Agrees.attached_iff (h : w.Agrees kind l) :
    (w.attached? kind).isSome = true ↔ l.attached = true := by
  rw [← h.buffer.attached_eq]
  constructor
  · intro found
    obtain ⟨e, he⟩ := Option.isSome_iff_exists.mp found
    obtain ⟨id, held, _⟩ := (attached?_eq_some_iff w kind).mp he
    rw [held]
    rfl
  · intro held
    obtain ⟨id, hid⟩ := Option.isSome_iff_exists.mp held
    have made : (w.editor? id).isSome = true := (editor?_isSome_iff w id).mpr (h.known id hid)
    rw [attached?, hid]
    exact made

/-- Another buffer that agrees, with the same editor, in a workspace with the same editors. -/
theorem Agrees.replace {v : Workspace} {d : Buffer} {l' : Ledger} (h : w.Agrees kind l)
    (config : v.config = l'.config) (editors : v.editors.length = w.editors.length)
    (made : l'.editors = l.editors) (buffer : v.buffer kind = d) (agrees : d.Agrees kind l')
    (editor : d.editor = (w.buffer kind).editor) : v.Agrees kind l' := by
  refine ⟨config, ?_, ?_, ?_⟩
  · rw [editors, h.editors_eq, made]
  · rw [buffer]
    exact agrees
  · intro id held
    rw [buffer, editor] at held
    rw [editors]
    exact h.known id held

/-- A change to other parts, or one that has the buffer checked again, goes into no ledger. -/
theorem Agrees.of_same {v : Workspace} (h : w.Agrees kind l) (config : v.config = w.config)
    (editors : v.editors.length = w.editors.length)
    (buffer : v.buffer kind = w.buffer kind ∨ v.buffer kind = (w.buffer kind).checked w.config) :
    v.Agrees kind l := by
  have active := config.trans h.config_eq
  rcases buffer with same | checked
  · exact h.replace active editors rfl same h.buffer rfl
  · exact h.replace active editors rfl checked (h.buffer.checked w.config) rfl

theorem Agrees.pass (h : w.Agrees kind l) (k : SourceKind) : (w.pass k).Agrees kind l := by
  refine h.of_same (config_pass w k) (length_editors_pass w k) ?_
  rw [buffer_pass]
  split
  · exact Or.inr rfl
  · exact Or.inl rfl

theorem Agrees.setText (h : w.Agrees kind l) (k : SourceKind) (text : String) :
    (w.setText k text).Agrees kind (if k = kind then l.replaced else l) := by
  by_cases same : k = kind
  · subst same
    rw [if_pos rfl]
    have buffer : (w.setText k text).buffer k = ((w.buffer k).withText text).checked w.config := by
      rw [buffer_setText, if_pos rfl]
    exact h.replace ((config_setText w k text).trans h.config_eq) (length_editors_setText w k text)
      rfl buffer ((h.buffer.withText text).checked w.config) rfl
  · rw [if_neg same]
    refine h.of_same (config_setText w k text) (length_editors_setText w k text) (Or.inl ?_)
    rw [buffer_setText, if_neg (Ne.symm same)]

/-- Another editor of the buffer, or none. -/
theorem Agrees.withEditor (h : w.Agrees kind l) (k : SourceKind) (editor : Option EditorId)
    (made : ∀ id, editor = some id → id < w.editors.length) :
    (w.withBuffer k { w.buffer k with editor }).Agrees kind
      (if k = kind then { l with attached := editor.isSome } else l) := by
  by_cases same : k = kind
  · subst same
    rw [if_pos rfl]
    refine ⟨(config_withBuffer w k _).trans h.config_eq, ?_, ?_, ?_⟩
    · rw [editors_withBuffer]
      exact h.editors_eq
    · rw [buffer_withBuffer, if_pos rfl]
      exact h.buffer.withEditor editor
    · intro id held
      rw [buffer_withBuffer, if_pos rfl] at held
      rw [editors_withBuffer]
      exact made id held
  · rw [if_neg same]
    refine h.of_same (config_withBuffer w k _) ?_ (Or.inl ?_)
    · rw [editors_withBuffer]
    · rw [buffer_withBuffer, if_neg (Ne.symm same)]

theorem Agrees.attach (h : w.Agrees kind l) (k : SourceKind) (id : EditorId) :
    (w.attach k id).Agrees kind (l.enter kind (.attach k id)) := by
  simp only [Ledger.enter, ← h.editors_eq]
  cases found : w.editor? id with
  | none =>
    -- there is no such editor, and the ledger knows it by the number
    have missing : ¬id < w.editors.length := by
      rw [← editor?_isSome_iff, found]
      exact Bool.false_ne_true
    rw [attach_of_missing w k found, if_neg fun both => missing both.2]
    exact h
  | some e =>
    have made : id < w.editors.length := by
      rw [← editor?_isSome_iff, found]
      rfl
    have told : ((w.modifyEditor id (·.learn (.ofKind k))).note
        [.attached k (Language.Profile.ofKind k).id]).Agrees kind l :=
      h.of_same rfl (by simp) (Or.inl (by simp))
    have held := (told.withEditor k (some id) (by simpa using made)).setText k e.text
    simp only [Workspace.attach, found]
    by_cases same : k = kind
    · rw [if_pos same, if_pos same] at held
      rw [if_pos ⟨same, made⟩]
      exact held
    · rw [if_neg same, if_neg same] at held
      rw [if_neg fun both => same both.1]
      exact held

theorem Agrees.takeEdit (h : w.Agrees kind l) (k : SourceKind) :
    (w.takeEdit k).Agrees kind (l.enter kind (.takeEdit k)) := by
  simp only [Ledger.enter]
  cases found : w.attached? k with
  | none =>
    rw [takeEdit_of_unattached w k found, if_neg]
    · exact h
    · rintro ⟨rfl, attached⟩
      rw [← h.attached_iff, found] at attached
      exact Bool.false_ne_true attached
  | some e =>
    rw [takeEdit_of_attached w k found]
    have taken := h.setText k e.text
    by_cases same : k = kind
    · subst same
      have attached : l.attached = true := by
        rw [← h.attached_iff, found]
        rfl
      rw [if_pos rfl] at taken
      rw [if_pos ⟨rfl, attached⟩]
      exact taken
    · rw [if_neg same] at taken
      rw [if_neg fun both => same both.1]
      exact taken

theorem Agrees.configure (h : w.Agrees kind l) (config : LintConfig) :
    (w.configure config).Agrees kind { l with config } := by
  refine h.replace (config_configure w config) (length_editors_configure w config) rfl
    (buffer_configure w kind config) ?_ rfl
  exact (h.buffer.checked config).of_ledger rfl rfl rfl

theorem Agrees.useAnalyzer (h : w.Agrees kind l) (analyzer : Analyzer) :
    (w.useAnalyzer analyzer).Agrees kind (l.enter kind (.useAnalyzer analyzer)) := by
  simp only [Ledger.enter]
  by_cases same : analyzer.kind = kind
  · rw [if_pos same]
    have buffer : (w.useAnalyzer analyzer).buffer kind =
        ({ w.buffer kind with analyzer } : Buffer).checked w.config := by
      rw [buffer_useAnalyzer, if_pos same.symm]
    exact h.replace ((config_useAnalyzer w analyzer).trans h.config_eq)
      (length_editors_useAnalyzer w analyzer) rfl buffer
      ((h.buffer.withAnalyzer same).checked w.config) rfl
  · rw [if_neg same]
    refine h.of_same (config_useAnalyzer w analyzer) (length_editors_useAnalyzer w analyzer)
      (Or.inl ?_)
    rw [buffer_useAnalyzer, if_neg (Ne.symm same)]

theorem Agrees.addEditor (h : w.Agrees kind l) (text : String) :
    (w.addEditor text).1.Agrees kind { l with editors := l.editors + 1 } := by
  have longer := length_editors_addEditor w text
  refine ⟨h.config_eq, ?_, ?_, ?_⟩
  · rw [longer, h.editors_eq]
  · rw [buffer_addEditor]
    exact h.buffer.of_ledger rfl rfl rfl
  · intro id held
    rw [buffer_addEditor] at held
    rw [longer]
    exact Nat.lt_succ_of_lt (h.known id held)

/-- **One operation and its entry.** -/
theorem agrees_perform (h : w.Agrees kind l) (op : Op) :
    (w.perform op).1.Agrees kind (l.enter kind op) := by
  cases op with
  | setText k text => exact h.setText k text
  | check k => exact h.pass k
  | reset k =>
    have wound : (w.modifyAttached k (·.withText (Starter.text k))).Agrees kind l :=
      h.of_same (by simp) (by simp) (Or.inl (by simp))
    exact wound.setText k (Starter.text k)
  | addEditor text => exact h.addEditor text
  | edit id text =>
    rw [perform_edit]
    exact h.of_same rfl (length_editors_modifyEditor w id _) (Or.inl (buffer_edit w kind id text))
  | attach k id =>
    rw [perform_attach]
    exact h.attach k id
  | detach k => exact h.withEditor k none fun id none => by cases none
  | takeEdit k =>
    rw [perform_takeEdit]
    exact h.takeEdit k
  | configure config => exact h.configure config
  | useAnalyzer analyzer => exact h.useAnalyzer analyzer
  | subscribe => exact h.of_same rfl rfl (Or.inl (buffer_subscribe w kind))
  | build =>
    exact h.of_same (config_build w) (length_editors_build w) (Or.inr (buffer_build w kind))

theorem agrees_run (h : w.Agrees kind l) (ops : List Op) :
    (w.run ops).Agrees kind (ops.foldl (Ledger.enter kind) l) := by
  induction ops generalizing w l with
  | nil => exact h
  | cons op ops ih =>
    rw [run_cons, List.foldl_cons]
    exact ih (agrees_perform h op)

/-- **No history leaves a stale report.** After any run from any configuration each buffer is
clean and of its own kind, its analyzer is of that kind, and its report is what that analyzer
finds in its text under the active configuration, or nothing if the configuration switches the
kind off. Configuration and analyzer are the last that the calls put in, and the version counts
the calls that gave the buffer a text. -/
theorem run_settled (config : LintConfig) (ops : List Op) (kind : SourceKind) :
    let w := (start config).run ops
    let d := w.buffer kind
    let calls := Ledger.ofOps config kind ops
    d.state = .clean ∧ d.kind = kind ∧ d.analyzer.kind = kind ∧
    d.report =
      (if w.config.checksKind kind then
        .ofDiagnostics (w.config.apply (d.analyzer.analyze d.text))
      else .empty) ∧
    w.config = calls.config ∧ d.analyzer = calls.analyzer ∧ d.version = calls.replacements := by
  intro w d calls
  have settled : d.Settled w.config := settled_run (settled_start config) ops kind
  have agrees : w.Agrees kind calls := agrees_run (agrees_start config kind) ops
  have report := settled.report_eq
  rw [agrees.buffer.kind_eq] at report
  exact ⟨settled.state_eq, agrees.buffer.kind_eq, agrees.buffer.analyzer_kind, report,
    agrees.config_eq, agrees.buffer.analyzer_eq, agrees.buffer.version_eq⟩

end Workspace

end LiveLint
