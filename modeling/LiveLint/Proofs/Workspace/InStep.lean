import LiveLint.Proofs.Workspace.Independence

/-!
# Editors in step with their buffers

An attached editor is in step if it holds the text of the buffer and shows the markers of the last
report over that text. A text comes into a buffer in four ways. Attaching an editor and taking over
an edit take the text of the editor, and a reset puts the starter text into both. Setting a text
puts it into the buffer alone, so it leaves the editor behind with markers for a text it does not
hold, unless it holds that text already (`drift`).

The main statement, `inStep_run`, is about runs in which no other text is set while an editor is
attached, and no editor is attached to both kinds. If whatever the user types into an attached
editor is taken over at once (`Attended`), attached editors are in step behind every operation.
-/

namespace LiveLint.Workspace

/-! ## Runs that keep editors in step -/

/-- The attached editor holds the text of the buffer, and its markers are for that text. -/
def InStep (w : Workspace) (kind : SourceKind) : Prop :=
  ∀ e, w.attached? kind = some e →
    e.text = (w.buffer kind).text ∧
    e.markers = Marker.ofDiagnostics (.ofText e.text) (w.buffer kind).report.diagnostics

/-- What the user types into an attached editor is taken over by the very next operation. -/
def Attended : Workspace → List Op → Prop
  | _, [] => True
  | w, op :: ops =>
    (∀ id text kind, op = .edit id text → (w.buffer kind).editor = some id →
      ops.head? = some (.takeEdit kind)) ∧
    Attended (w.perform op).1 ops

/-- No other text is set than the one an attached editor holds, and no editor is attached to one
kind while it is attached to the other. -/
def Fits (w : Workspace) : Op → Prop
  | .setText kind text => ∀ e, w.attached? kind = some e → e.text = text
  | .attach kind id => ∀ k, k ≠ kind → (w.buffer k).editor ≠ some id
  | _ => True

/-- Every operation fits the state in which it is performed. -/
def AllFit : Workspace → List Op → Prop
  | _, [] => True
  | w, op :: ops => w.Fits op ∧ AllFit (w.perform op).1 ops

/-- A run is attended up to every operation but an edit. -/
theorem attended_of_append {w : Workspace} {before after : List Op}
    (h : Attended w (before ++ after)) (last : ∀ id text, before.getLast? ≠ some (.edit id text)) :
    Attended w before := by
  induction before generalizing w with
  | nil => trivial
  | cons op rest ih =>
    obtain ⟨now, later⟩ := h
    refine ⟨?_, ?_⟩
    · intro id text kind edit held
      have next := now id text kind edit held
      cases rest with
      | nil => exact absurd (congrArg some edit) (last id text)
      | cons op' rest => exact next
    · apply ih later
      intro id text ends
      cases rest with
      | nil => cases ends
      | cons op' rest =>
        apply last id text
        rw [List.getLast?_cons_cons]
        exact ends

theorem attended_of_unedited {w : Workspace} {ops : List Op}
    (unedited : ∀ id text, .edit id text ∉ ops) : Attended w ops := by
  induction ops generalizing w with
  | nil => trivial
  | cons op ops ih =>
    refine ⟨?_, ih fun id text later => unedited id text (List.mem_cons_of_mem _ later)⟩
    rintro id text kind rfl
    exact absurd List.mem_cons_self (unedited id text)

theorem allFit_of_append {w : Workspace} {before after : List Op}
    (h : AllFit w (before ++ after)) : AllFit w before := by
  induction before generalizing w with
  | nil => trivial
  | cons op rest ih => exact ⟨h.1, ih h.2⟩

/-! ## The attached editor and small changes -/

section Small

variable {w v : Workspace} {kind : SourceKind}

@[simp] theorem attached?_note (events : List Event) :
    (w.note events).attached? kind = w.attached? kind := by
  rw [attached?, buffer_note]
  rfl

/-- Another buffer with the same editor. -/
theorem attached?_withBuffer {d : Buffer} (same : d.editor = (w.buffer kind).editor) :
    (w.withBuffer kind d).attached? kind = w.attached? kind := by
  unfold attached?
  rw [buffer_withBuffer, if_pos rfl, same]
  cases (w.buffer kind).editor with
  | none => rfl
  | some id => exact editor?_withBuffer w kind id d

theorem attached?_modifyAttached (f : Editor → Editor) :
    (w.modifyAttached kind f).attached? kind = (w.attached? kind).map f := by
  unfold attached?
  rw [buffer_modifyAttached]
  cases held : (w.buffer kind).editor with
  | none => rfl
  | some id =>
    show (w.modifyAttached kind f).editor? id = (w.editor? id).map f
    rw [editor?_modifyAttached, if_pos held]

/-- The attached editor is given the markers of the pass. -/
theorem attached?_pass :
    (w.pass kind).attached? kind =
      (w.attached? kind).map (·.showing ((w.pass kind).buffer kind).markers) := by
  conv_lhs => unfold attached?
  rw [editor_buffer_pass]
  unfold attached?
  cases held : (w.buffer kind).editor with
  | none => rfl
  | some id =>
    show (w.pass kind).editor? id = (w.editor? id).map _
    rw [editor?_pass, if_pos held]

/-- A side that looks the same is in step if it was so. -/
theorem InStep.of_sameSide {ids : List EditorId} (h : w.InStep kind)
    (same : SameSide kind ids w v) (held : ∀ id, (w.buffer kind).editor = some id → id ∈ ids) :
    v.InStep kind := by
  intro e attached
  rw [same.attached?_eq held] at attached
  rw [same.buffer]
  exact h e attached

/-- **A pass.** If the editor holds the text that is checked, it is in step behind the pass. -/
theorem inStep_pass (text : ∀ e, w.attached? kind = some e → e.text = (w.buffer kind).text) :
    (w.pass kind).InStep kind := by
  intro e attached
  rw [attached?_pass] at attached
  obtain ⟨old, held, rfl⟩ := Option.map_eq_some_iff.mp attached
  have buffer : (w.pass kind).buffer kind = (w.buffer kind).checked w.config := by
    rw [buffer_pass, if_pos rfl]
  have same : old.text = ((w.pass kind).buffer kind).text := by
    rw [buffer]
    exact text old held
  refine ⟨same, ?_⟩
  show ((w.pass kind).buffer kind).markers = Marker.ofDiagnostics (.ofText old.text) _
  rw [same]
  rfl

theorem InStep.pass (h : w.InStep kind) : (w.pass kind).InStep kind :=
  inStep_pass fun e attached => (h e attached).1

theorem inStep_setText {text : String} (holds : ∀ e, w.attached? kind = some e → e.text = text) :
    (w.setText kind text).InStep kind := by
  apply inStep_pass
  intro e attached
  rw [attached?_note, attached?_withBuffer (by rfl)] at attached
  rw [buffer_note, buffer_withBuffer, if_pos rfl]
  exact holds e attached

theorem inStep_reset : (w.reset kind).InStep kind := by
  apply inStep_setText
  intro e attached
  rw [attached?_modifyAttached] at attached
  obtain ⟨old, _, rfl⟩ := Option.map_eq_some_iff.mp attached
  rfl

theorem inStep_attach {id : EditorId} {e : Editor} (found : w.editor? id = some e) :
    (w.attach kind id).InStep kind := by
  simp only [attach, found]
  apply inStep_setText
  intro e' attached
  unfold attached? at attached
  rw [buffer_withBuffer, if_pos rfl] at attached
  have learned : ((w.modifyEditor id (·.learn (.ofKind kind))).editor? id) = some e' := by
    simpa using attached
  rw [editor?_modifyEditor, if_pos rfl, found] at learned
  rw [← Option.some.inj learned]
  rfl

/-- Whatever the editor held before, its text is taken over. -/
theorem inStep_takeEdit : (w.takeEdit kind).InStep kind := by
  cases found : w.attached? kind with
  | none =>
    rw [takeEdit_of_unattached w kind found]
    intro e attached
    rw [found] at attached
    cases attached
  | some e =>
    rw [takeEdit_of_attached w kind found]
    apply inStep_setText
    intro e' attached
    rw [Option.some.inj (found.symm.trans attached)]

theorem inStep_detach : (w.detach kind).InStep kind := by
  intro e attached
  unfold attached? at attached
  rw [buffer_detach, if_pos rfl] at attached
  cases attached

theorem InStep.useAnalyzer {analyzer : Analyzer} (h : w.InStep analyzer.kind) :
    (w.useAnalyzer analyzer).InStep analyzer.kind := by
  apply inStep_pass
  intro e attached
  rw [attached?_withBuffer (by rfl)] at attached
  rw [buffer_withBuffer, if_pos rfl]
  exact (h e attached).1

end Small

/-! ## One operation -/

/-- Attached editors were made, and are attached to one kind only. -/
structure Placed (w : Workspace) : Prop where
  known : ∀ kind id, (w.buffer kind).editor = some id → id < w.editors.length
  apart : ∀ k k' id, (w.buffer k).editor = some id → (w.buffer k').editor = some id → k = k'

/-- Attached editors are in their places and in step. -/
structure Kept (w : Workspace) : Prop extends Placed w where
  inStep : ∀ kind, w.InStep kind

theorem length_editors_le_perform (w : Workspace) (op : Op) :
    w.editors.length ≤ (w.perform op).1.editors.length := by
  cases op with
  | setText kind text => exact Nat.le_of_eq (length_editors_setText w kind text).symm
  | check kind => exact Nat.le_of_eq (length_editors_pass w kind).symm
  | reset kind => simp [perform, reset]
  | addEditor text => simp [perform]
  | edit id text =>
    rw [perform_edit]
    exact Nat.le_of_eq (length_editors_modifyEditor w id _).symm
  | attach kind id =>
    rw [perform_attach, attach]
    split <;> simp
  | detach kind => simp [perform, detach]
  | takeEdit kind =>
    rw [perform_takeEdit, takeEdit]
    split <;> simp
  | configure config => exact Nat.le_of_eq (length_editors_configure w config).symm
  | useAnalyzer analyzer => exact Nat.le_of_eq (length_editors_useAnalyzer w analyzer).symm
  | subscribe => exact Nat.le_refl _
  | build => exact Nat.le_of_eq (length_editors_build w).symm

section Keeping

variable {w : Workspace} {op : Op} {kind k : SourceKind}

theorem Placed.perform (h : w.Placed) (fits : w.Fits op) : (w.perform op).1.Placed := by
  refine ⟨?_, ?_⟩
  · intro kind id held
    have longer := length_editors_le_perform w op
    rcases held_of_perform op held with before | ⟨_, e, found⟩
    · exact Nat.lt_of_lt_of_le (h.known kind id before) longer
    · have made : id < w.editors.length := by
        rw [← editor?_isSome_iff, found]
        rfl
      exact Nat.lt_of_lt_of_le made longer
  · intro k k' id held held'
    by_contra other
    rcases held_of_perform op held with before | ⟨rfl, _⟩
    · rcases held_of_perform op held' with before' | ⟨rfl, _⟩
      · exact other (h.apart k k' id before before')
      · -- what is attached to the one kind just now was not attached to the other
        exact fits k other before
    · rcases held_of_perform _ held' with before' | ⟨same, _⟩
      · exact fits k' (Ne.symm other) before'
      · exact other (Op.attach.inj same).1

theorem InStep.of_sameSide_held {v : Workspace} (h : w.InStep kind)
    (same : SameSide kind (w.buffer kind).editor.toList w v) : v.InStep kind := by
  apply h.of_sameSide same
  intro id held
  rw [Option.mem_toList]
  exact held

/-- An operation on one kind leaves the other in step, if it names no editor of the other. -/
theorem InStep.perform_other (h : w.InStep kind) (placed : w.Placed) (on : op.IsOn k)
    (other : kind ≠ k) (fresh : ∀ id ∈ op.editors, (w.buffer kind).editor ≠ some id) :
    (w.perform op).1.InStep kind := by
  apply h.of_sameSide_held
  apply frame_perform on other
  intro id reached held
  rw [Option.mem_toList] at held
  rcases List.mem_append.mp reached with attached | named
  · rw [Option.mem_toList] at attached
    exact other (placed.apart kind k id held attached)
  · exact fresh id named held

theorem InStep.edit (h : w.InStep kind) {id : EditorId}
    (apart : (w.buffer kind).editor ≠ some id) (text : String) : (w.edit id text).InStep kind := by
  apply h.of_sameSide_held
  apply SameSide.of_modifyEditor
  rw [Option.mem_toList]
  exact apart

/-- An operation on a kind that keeps it in step and names no editor of the other. -/
theorem Kept.perform_on (h : w.Kept) (on : op.IsOn k) (fits : w.Fits op)
    (own : (w.perform op).1.InStep k)
    (fresh : ∀ kind, kind ≠ k → ∀ id ∈ op.editors, (w.buffer kind).editor ≠ some id) :
    (w.perform op).1.Kept := by
  refine ⟨h.toPlaced.perform fits, ?_⟩
  intro kind
  by_cases same : kind = k
  · rw [same]
    exact own
  · exact (h.inStep kind).perform_other h.toPlaced on same (fresh kind same)

theorem Kept.perform_unnamed (h : w.Kept) (on : op.IsOn k) (fits : w.Fits op)
    (own : (w.perform op).1.InStep k) (unnamed : op.editors = []) : (w.perform op).1.Kept := by
  apply h.perform_on on fits own
  intro kind _ id named
  rw [unnamed] at named
  cases named

theorem Kept.pass (h : w.Kept) (kind : SourceKind) : (w.pass kind).Kept := by
  show (w.perform (.check kind)).1.Kept
  exact h.perform_unnamed rfl trivial (h.inStep kind).pass rfl

theorem Kept.passAll (h : w.Kept) : w.passAll.Kept :=
  (h.pass .c).pass .buildconf

theorem Kept.attach (h : w.Kept) {id : EditorId} (fits : w.Fits (.attach k id)) :
    (w.perform (.attach k id)).1.Kept := by
  refine h.perform_on (k := k) rfl fits ?_ ?_
  · rw [perform_attach]
    cases found : w.editor? id with
    | none =>
      rw [attach_of_missing w k found]
      exact h.inStep k
    | some e => exact inStep_attach found
  · intro kind other i named
    rw [List.mem_singleton.mp named]
    exact fits kind other

/-- Nothing but the configuration, the events or the number of subscribers is changed. -/
theorem Kept.of_same {v : Workspace} (h : w.Kept) (buffer : ∀ kind, v.buffer kind = w.buffer kind)
    (editors : v.editors = w.editors) : v.Kept := by
  refine ⟨⟨?_, ?_⟩, ?_⟩
  · intro kind id held
    rw [buffer] at held
    rw [editors]
    exact h.known kind id held
  · intro k k' id held held'
    rw [buffer] at held held'
    exact h.apart k k' id held held'
  · intro kind e attached
    have same : v.attached? kind = w.attached? kind := by
      unfold attached? editor?
      rw [buffer, editors]
    rw [same] at attached
    rw [buffer]
    exact h.inStep kind e attached

theorem Kept.addEditor (h : w.Kept) (text : String) : (w.perform (.addEditor text)).1.Kept := by
  refine ⟨h.toPlaced.perform trivial, ?_⟩
  intro kind
  apply (h.inStep kind).of_sameSide_held
  refine ⟨rfl, rfl, buffer_addEditor w kind text, ?_⟩
  intro id held
  rw [Option.mem_toList] at held
  exact List.getElem?_append_left (h.known kind id held)

/-- **One operation**, unless it is an edit of an attached editor. -/
theorem Kept.perform (h : w.Kept) (fits : w.Fits op)
    (quiet : ∀ id text kind, op = .edit id text → (w.buffer kind).editor ≠ some id) :
    (w.perform op).1.Kept := by
  cases op with
  | setText k text => exact h.perform_unnamed rfl fits (inStep_setText fits) rfl
  | check k => exact h.pass k
  | reset k => exact h.perform_unnamed rfl fits inStep_reset rfl
  | detach k => exact h.perform_unnamed rfl fits inStep_detach rfl
  | takeEdit k =>
    have own : (w.perform (.takeEdit k)).1.InStep k := by
      rw [perform_takeEdit]
      exact inStep_takeEdit
    exact h.perform_unnamed rfl fits own rfl
  | useAnalyzer analyzer => exact h.perform_unnamed rfl fits (h.inStep _).useAnalyzer rfl
  | attach k id => exact h.attach fits
  | addEditor text => exact h.addEditor text
  | edit id text =>
    refine ⟨h.toPlaced.perform fits, ?_⟩
    intro kind
    rw [perform_edit]
    exact (h.inStep kind).edit (quiet id text kind rfl) text
  | configure config =>
    have changed : ({ w with config } : Workspace).Kept :=
      h.of_same (fun kind => by cases kind <;> rfl) rfl
    exact changed.passAll
  | subscribe => exact h.of_same (buffer_subscribe w) rfl
  | build => exact h.passAll.of_same (fun kind => buffer_note _ kind _) rfl

/-- **An edit of an attached editor and taking it over.** Between the two the editor is ahead of its
buffer, and only this one. -/
theorem Kept.edit_takeEdit (h : w.Kept) {id : EditorId}
    (held : (w.buffer kind).editor = some id) (text : String) :
    (((w.perform (.edit id text)).1.perform (.takeEdit kind)).1).Kept := by
  have placed : (w.perform (.edit id text)).1.Placed := h.toPlaced.perform trivial
  refine ⟨placed.perform trivial, ?_⟩
  intro k
  by_cases same : k = kind
  · rw [same, perform_takeEdit]
    exact inStep_takeEdit
  · have ahead : (w.perform (.edit id text)).1.InStep k := by
      rw [perform_edit]
      apply (h.inStep k).edit
      intro attached
      exact same (h.apart k kind id attached held)
    exact ahead.perform_other (k := kind) placed rfl same fun i named => by cases named

/-! ## Runs -/

theorem kept_start (config : LintConfig) : (start config).Kept := by
  have unattached : ∀ kind, ((start config).buffer kind).editor = none := by
    intro kind
    rw [start, buffer_passAll]
    cases kind <;> rfl
  refine ⟨⟨?_, ?_⟩, ?_⟩
  · intro kind id held
    rw [unattached] at held
    cases held
  · intro k k' id held _
    rw [unattached] at held
    cases held
  · intro kind e attached
    rw [attached?, unattached] at attached
    cases attached

/-- **An attended run.** By induction on its length, since an edit of an attached editor and the
operation behind it go together. -/
theorem Kept.run (h : w.Kept) {ops : List Op} (attended : Attended w ops) (fit : AllFit w ops) :
    (w.run ops).Kept := by
  induction n : ops.length using Nat.strongRecOn generalizing w ops with
  | _ n ih =>
    cases ops with
    | nil => exact h
    | cons op rest =>
      rw [List.length_cons] at n
      by_cases typed : ∃ id text kind, op = .edit id text ∧ (w.buffer kind).editor = some id
      · obtain ⟨id, text, kind, rfl, held⟩ := typed
        have next := attended.1 id text kind rfl held
        cases rest with
        | nil => cases next
        | cons op' rest =>
          obtain rfl : op' = .takeEdit kind := Option.some.inj next
          rw [List.length_cons] at n
          exact ih rest.length (by omega) (h.edit_takeEdit held text) attended.2.2 fit.2.2 rfl
      · have quiet : ∀ id text kind, op = .edit id text → (w.buffer kind).editor ≠ some id :=
          fun id text kind edit held => typed ⟨id, text, kind, edit, held⟩
        exact ih rest.length (by omega) (h.perform fit.1 quiet) attended.2 fit.2 rfl

end Keeping

/-- **Attached editors are in step.** Take any run in which whatever is typed into an attached
editor is taken over at once, no other text is set than the one an attached editor holds, and no
editor is attached to both kinds. Then behind every operation each attached editor holds the text
of its buffer, and shows the markers for it; behind an edit, once it is taken over. -/
theorem inStep_run (config : LintConfig) (ops : List Op) (attended : Attended (start config) ops)
    (fit : AllFit (start config) ops) (before after : List Op) (split : ops = before ++ after)
    (last : ∀ id text, before.getLast? ≠ some (.edit id text)) (kind : SourceKind) :
    ((start config).run before).InStep kind := by
  subst split
  have kept := (kept_start config).run (attended_of_append attended last) (allFit_of_append fit)
  exact kept.inStep kind

/-- What is typed into an attached editor is taken over, the same text is set, and there is a
build. -/
def keptUp : List Op :=
  [.addEditor "int x", .attach .c 0, .edit 0 "int x;", .takeEdit .c, .setText .c "int x;", .build]

theorem inStep_run_keptUp :
    Attended (start .default) keptUp ∧ AllFit (start .default) keptUp ∧ keptUp = keptUp ++ [] ∧
    (∀ id text, keptUp.getLast? ≠ some (.edit id text)) ∧
    (((start .default).run keptUp).attached? .c).isSome = true ∧
    ((start .default).run keptUp).InStep .c := by
  have alone : (((start .default).run (keptUp.take 2)).buffer .buildconf).editor = none := by
    decide +kernel
  have holds : (((start .default).run (keptUp.take 4)).attached? .c).map Editor.text =
      some "int x;" := by
    decide +kernel
  have attended : Attended (start .default) keptUp := by
    refine ⟨nofun, nofun, ?_, attended_of_unedited (by simp)⟩
    rintro id text kind ⟨⟩ held
    cases kind with
    | c => rfl
    | buildconf => cases alone.symm.trans held
  have fit : AllFit (start .default) keptUp := by
    refine ⟨trivial, ?_, trivial, trivial, ?_, trivial, trivial⟩
    · intro k other held
      cases k with
      | c => exact other rfl
      | buildconf =>
        have free : (((start .default).run (keptUp.take 1)).buffer .buildconf).editor = none := by
          decide +kernel
        cases free.symm.trans held
    · intro e attached
      have text := holds
      rw [show ((start .default).run (keptUp.take 4)).attached? .c = some e from attached] at text
      exact Option.some.inj text
  have last : ∀ id text, keptUp.getLast? ≠ some (.edit id text) := nofun
  have there : (((start .default).run keptUp).attached? .c).isSome = true := by
    decide +kernel
  have inStep := inStep_run .default keptUp attended fit keptUp [] (List.append_nil _).symm last .c
  exact ⟨attended, fit, (List.append_nil _).symm, last, there, inStep⟩

/-- An editor is attached, and then another text is set. -/
def setBehind : List Op :=
  [.addEditor "int x;", .attach .c 0, .setText .c ""]

/-- One editor is attached to both kinds, and then one of them is reset. -/
def shared : List Op :=
  [.addEditor "int x;", .attach .c 0, .attach .buildconf 0, .reset .c]

/-- **Editors can drift apart from their buffers.** A text that is set is not put into the attached
editor, so the editor holds another text than the one its markers are for. And an editor cannot
follow two buffers. -/
theorem drift :
    Attended (start .default) setBehind ∧ ¬((start .default).run setBehind).InStep .c ∧
    Attended (start .default) shared ∧ ¬((start .default).run shared).InStep .buildconf := by
  -- what the editor holds, and what the buffer holds
  have behind : (((start .default).run setBehind).attached? .c).map Editor.text = some "int x;" ∧
      (((start .default).run setBehind).buffer .c).text = "" := by
    decide +kernel
  have torn : (((start .default).run shared).attached? .buildconf).map Editor.text =
        some (Starter.text .c) ∧
      (((start .default).run shared).buffer .buildconf).text = "int x;" ∧
      Starter.text .c ≠ "int x;" := by
    decide +kernel
  refine ⟨attended_of_unedited (by simp [setBehind]), ?_,
    attended_of_unedited (by simp [shared]), ?_⟩
  · intro inStep
    obtain ⟨e, attached, text⟩ := Option.map_eq_some_iff.mp behind.1
    have same := (inStep e attached).1
    rw [text, behind.2] at same
    exact absurd same (by decide)
  · intro inStep
    obtain ⟨e, attached, text⟩ := Option.map_eq_some_iff.mp torn.1
    have same := (inStep e attached).1
    rw [text, torn.2.1] at same
    exact torn.2.2 same

end LiveLint.Workspace
