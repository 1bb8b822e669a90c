import LiveLint.Workspace.Op

/-!
# What an operation of a workspace touches

Every operation is put together from a few small changes: another buffer in its place, an editor
changed, something written down, a pass. For each of them this file says what becomes of the
configuration, of either buffer and of the list of editors. With these equations a proof about
runs never opens the definition of an operation.

The main facts are `buffer_pass` and `buffer_setText`: a pass changes the buffer of its own kind
and no other, and what it leaves there depends on that buffer and on the configuration alone.
-/

namespace LiveLint.Workspace

variable (w : Workspace) (kind k : SourceKind)

/-! ## Small changes -/

@[simp] theorem config_withBuffer (d : Buffer) : (w.withBuffer kind d).config = w.config := by
  cases kind <;> rfl

@[simp] theorem editors_withBuffer (d : Buffer) : (w.withBuffer kind d).editors = w.editors := by
  cases kind <;> rfl

theorem buffer_withBuffer (d : Buffer) :
    (w.withBuffer kind d).buffer k = if k = kind then d else w.buffer k := by
  cases kind <;> cases k <;> rfl

@[simp] theorem config_note (events : List Event) : (w.note events).config = w.config := rfl

@[simp] theorem editors_note (events : List Event) : (w.note events).editors = w.editors := rfl

@[simp] theorem buffer_note (events : List Event) : (w.note events).buffer k = w.buffer k := by
  cases k <;> rfl

@[simp] theorem config_deliver (update : Update) : (w.deliver update).config = w.config := rfl

@[simp] theorem editors_deliver (update : Update) : (w.deliver update).editors = w.editors := rfl

@[simp] theorem buffer_deliver (update : Update) : (w.deliver update).buffer k = w.buffer k := by
  cases k <;> rfl

@[simp] theorem config_modifyEditor (id : EditorId) (f : Editor → Editor) :
    (w.modifyEditor id f).config = w.config := rfl

@[simp] theorem length_editors_modifyEditor (id : EditorId) (f : Editor → Editor) :
    (w.modifyEditor id f).editors.length = w.editors.length := by
  simp [modifyEditor]

@[simp] theorem buffer_modifyEditor (id : EditorId) (f : Editor → Editor) :
    (w.modifyEditor id f).buffer k = w.buffer k := by
  cases k <;> rfl

@[simp] theorem config_modifyAttached (f : Editor → Editor) :
    (w.modifyAttached kind f).config = w.config := by
  unfold modifyAttached
  split <;> rfl

@[simp] theorem length_editors_modifyAttached (f : Editor → Editor) :
    (w.modifyAttached kind f).editors.length = w.editors.length := by
  unfold modifyAttached
  split
  · rfl
  · exact length_editors_modifyEditor w _ f

@[simp] theorem buffer_modifyAttached (f : Editor → Editor) :
    (w.modifyAttached kind f).buffer k = w.buffer k := by
  unfold modifyAttached
  split
  · rfl
  · exact buffer_modifyEditor w k _ f

/-! ## Passes -/

@[simp] theorem config_pass : (w.pass kind).config = w.config := by
  simp [pass]

@[simp] theorem length_editors_pass : (w.pass kind).editors.length = w.editors.length := by
  simp [pass]

/-- A pass checks the buffer of its kind and leaves the other as it was. -/
theorem buffer_pass :
    (w.pass kind).buffer k = if k = kind then (w.buffer k).checked w.config else w.buffer k := by
  simp only [pass, buffer_deliver, buffer_modifyAttached, buffer_note, buffer_withBuffer]
  split
  · next h => rw [h]
  · rfl

@[simp] theorem config_passAll : w.passAll.config = w.config := by
  simp [passAll]

@[simp] theorem length_editors_passAll : w.passAll.editors.length = w.editors.length := by
  simp [passAll]

/-- Each buffer is checked once, and neither pass sees what the other left. -/
@[simp] theorem buffer_passAll : w.passAll.buffer k = (w.buffer k).checked w.config := by
  rw [passAll, buffer_pass, buffer_pass, config_pass]
  cases k <;> rfl

/-! ## Operations -/

@[simp] theorem config_setText (text : String) : (w.setText kind text).config = w.config := by
  simp [setText]

@[simp] theorem length_editors_setText (text : String) :
    (w.setText kind text).editors.length = w.editors.length := by
  simp [setText]

/-- A new text goes into the buffer of its kind, which is checked at once. -/
theorem buffer_setText (text : String) :
    (w.setText kind text).buffer k =
      if k = kind then ((w.buffer k).withText text).checked w.config else w.buffer k := by
  simp only [setText, buffer_pass, buffer_note, buffer_withBuffer, config_note, config_withBuffer]
  split
  · next h => rw [h]
  · rfl

@[simp] theorem config_reset : (w.reset kind).config = w.config := by
  simp [reset]

theorem buffer_reset :
    (w.reset kind).buffer k =
      if k = kind then ((w.buffer k).withText (Starter.text kind)).checked w.config
      else w.buffer k := by
  simp [reset, buffer_setText]

theorem attach_of_missing {id : EditorId} (h : w.editor? id = none) : w.attach kind id = w := by
  simp [attach, h]

@[simp] theorem config_attach (id : EditorId) : (w.attach kind id).config = w.config := by
  unfold attach
  split <;> simp

/-- Attaching an editor puts its number and its text into the buffer of the kind. -/
theorem buffer_attach {id : EditorId} {e : Editor} (h : w.editor? id = some e) :
    (w.attach kind id).buffer k =
      if k = kind then
        (({ w.buffer k with editor := some id } : Buffer).withText e.text).checked w.config
      else w.buffer k := by
  simp only [attach, h, buffer_setText, buffer_withBuffer, buffer_note, buffer_modifyEditor,
    config_withBuffer, config_note, config_modifyEditor]
  split
  · next h => rw [h]
  · rfl

theorem buffer_detach :
    (w.detach kind).buffer k =
      if k = kind then { w.buffer k with editor := none } else w.buffer k := by
  simp only [detach, buffer_withBuffer]
  split
  · next h => rw [h]
  · rfl

theorem takeEdit_of_unattached (h : w.attached? kind = none) : w.takeEdit kind = w := by
  simp [takeEdit, h]

theorem takeEdit_of_attached {e : Editor} (h : w.attached? kind = some e) :
    w.takeEdit kind = w.setText kind e.text := by
  simp [takeEdit, h]

@[simp] theorem config_configure (config : LintConfig) : (w.configure config).config = config := by
  simp [configure]

@[simp] theorem length_editors_configure (config : LintConfig) :
    (w.configure config).editors.length = w.editors.length := by
  simp [configure]

/-- Another configuration has both buffers checked again. -/
@[simp] theorem buffer_configure (config : LintConfig) :
    (w.configure config).buffer k = (w.buffer k).checked config := by
  rw [configure, buffer_passAll]
  cases k <;> rfl

@[simp] theorem config_useAnalyzer (analyzer : Analyzer) :
    (w.useAnalyzer analyzer).config = w.config := by
  simp [useAnalyzer]

@[simp] theorem length_editors_useAnalyzer (analyzer : Analyzer) :
    (w.useAnalyzer analyzer).editors.length = w.editors.length := by
  simp [useAnalyzer]

/-- Another analyzer goes into the buffer of its own kind, which is checked at once. -/
theorem buffer_useAnalyzer (analyzer : Analyzer) :
    (w.useAnalyzer analyzer).buffer k =
      if k = analyzer.kind then ({ w.buffer k with analyzer } : Buffer).checked w.config
      else w.buffer k := by
  simp only [useAnalyzer, buffer_pass, buffer_withBuffer, config_withBuffer]
  split
  · next h => rw [h]
  · rfl

@[simp] theorem config_build : w.build.1.config = w.config := by
  simp [build]

@[simp] theorem length_editors_build : w.build.1.editors.length = w.editors.length := by
  simp [build]

@[simp] theorem buffer_build : w.build.1.buffer k = (w.buffer k).checked w.config := by
  simp [build]

@[simp] theorem buffer_addEditor (text : String) :
    (w.addEditor text).1.buffer k = w.buffer k := by
  cases k <;> rfl

@[simp] theorem length_editors_addEditor (text : String) :
    (w.addEditor text).1.editors.length = w.editors.length + 1 := by
  simp [addEditor]

@[simp] theorem buffer_edit (id : EditorId) (text : String) :
    (w.edit id text).buffer k = w.buffer k :=
  buffer_modifyEditor w k id _

@[simp] theorem buffer_subscribe : w.subscribe.1.buffer k = w.buffer k := by
  cases k <;> rfl

/-! ## Editors by number -/

theorem editor?_isSome_iff (id : EditorId) :
    (w.editor? id).isSome = true ↔ id < w.editors.length := by
  simp [editor?]

theorem attached?_eq_some_iff {e : Editor} :
    w.attached? kind = some e ↔
      ∃ id, (w.buffer kind).editor = some id ∧ w.editor? id = some e := by
  simp [attached?, Option.bind_eq_some_iff]

/-! ## Operations as data

An operation that has nothing to work on changes nothing, so its reply is the only place where
this shows. -/

theorem edit_of_missing {id : EditorId} (h : ¬(w.editor? id).isSome = true) (text : String) :
    w.edit id text = w := by
  rw [editor?_isSome_iff] at h
  have same : w.editors.modify id (·.withText text) = w.editors :=
    List.modify_eq_self (Nat.le_of_not_lt h)
  simp [edit, modifyEditor, same]

@[simp] theorem perform_edit (id : EditorId) (text : String) :
    (w.perform (.edit id text)).1 = w.edit id text := by
  simp only [perform]
  split
  · rfl
  · next h => exact (edit_of_missing w h text).symm

@[simp] theorem perform_attach (id : EditorId) :
    (w.perform (.attach kind id)).1 = w.attach kind id := by
  simp only [perform]
  split
  · rfl
  · next h => exact (attach_of_missing w kind (Option.not_isSome_iff_eq_none.mp h)).symm

@[simp] theorem perform_takeEdit : (w.perform (.takeEdit kind)).1 = w.takeEdit kind := by
  simp only [perform]
  split
  · rfl
  · next h => exact (takeEdit_of_unattached w kind (Option.not_isSome_iff_eq_none.mp h)).symm

end LiveLint.Workspace
