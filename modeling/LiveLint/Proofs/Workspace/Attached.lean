import LiveLint.Proofs.Workspace.History
import Mathlib.Data.List.Induction

/-!
# What an attached editor shows

An editor that is attached to a kind, and to no other, shows the markers of the last pass over the
buffer of that kind, knows the language, and has been given markers once for every pass since it
was attached. `Presents` says so of one state of a workspace; `Presents.perform` is what one
operation does to it, and `presents_serveAll` what any number of requests do.

An editor that is attached to no kind is nothing to a workspace: only its user changes it
(`editor?_perform_of_free`), until it is attached. The main statement, `attached_serveAll`, is
about runs in which no editor is attached twice, so one that was let go or replaced stays as it
was.
-/

namespace LiveLint

/-! ## What an editor was told -/

/-- An editor knows the language of a kind and was given markers so many times. -/
structure Editor.Told (e : Editor) (kind : SourceKind) (updates : Nat) : Prop where
  updates_eq : e.markerUpdates = updates
  language_eq : e.language = some (Language.Profile.ofKind kind).id
  candidateCount_eq : e.candidateCount = (Language.Profile.ofKind kind).vocabulary.candidates.length

namespace Editor.Told

variable {e : Editor} {kind : SourceKind} {n : Nat}

theorem withText (h : e.Told kind n) (text : String) : (e.withText text).Told kind n :=
  ⟨h.updates_eq, h.language_eq, h.candidateCount_eq⟩

theorem showing (h : e.Told kind n) (markers : List Marker) :
    (e.showing markers).Told kind (n + 1) :=
  ⟨congrArg (· + 1) h.updates_eq, h.language_eq, h.candidateCount_eq⟩

end Editor.Told

/-- How many passes of a list are over the buffer of a kind. -/
def passCount (kind : SourceKind) (ps : List Pass) : Nat :=
  ps.countP (·.kind == kind)

@[simp] theorem passCount_nil (kind : SourceKind) : passCount kind [] = 0 := rfl

theorem passCount_append (kind : SourceKind) (ps qs : List Pass) :
    passCount kind (ps ++ qs) = passCount kind ps + passCount kind qs :=
  List.countP_append

@[simp] theorem passCount_singleton (kind k : SourceKind) (after : Workspace) :
    passCount kind [⟨k, after⟩] = if k = kind then 1 else 0 := by
  cases kind <;> cases k <;> rfl

/-- Passes over both buffers are one over each. -/
@[simp] theorem passCount_passesOverAll (kind : SourceKind) (w : Workspace) :
    passCount kind w.passesOverAll = 1 := by
  cases kind <;> rfl

namespace Workspace

/-! ## One editor and small changes -/

section Small

variable (w : Workspace) (kind : SourceKind) (id : EditorId)

@[simp] theorem editor?_withBuffer (d : Buffer) :
    (w.withBuffer kind d).editor? id = w.editor? id := by
  rw [editor?, editors_withBuffer, editor?]

@[simp] theorem editor?_note (events : List Event) :
    (w.note events).editor? id = w.editor? id := rfl

@[simp] theorem editor?_deliver (update : Update) : (w.deliver update).editor? id = w.editor? id :=
  rfl

theorem editor?_modifyEditor (other : EditorId) (f : Editor → Editor) :
    (w.modifyEditor other f).editor? id =
      if other = id then (w.editor? id).map f else w.editor? id := by
  simp only [editor?, modifyEditor, List.getElem?_modify]
  split
  · rfl
  · simp

/-- The attached editor is changed, and no other. -/
theorem editor?_modifyAttached (f : Editor → Editor) :
    (w.modifyAttached kind f).editor? id =
      if (w.buffer kind).editor = some id then (w.editor? id).map f else w.editor? id := by
  unfold modifyAttached
  cases held : (w.buffer kind).editor with
  | none => rfl
  | some other =>
    simp only [editor?_modifyEditor, Option.some.injEq]

/-- A pass gives the attached editor the markers of what it found. -/
theorem editor?_pass :
    (w.pass kind).editor? id =
      if (w.buffer kind).editor = some id then
        (w.editor? id).map (·.showing ((w.pass kind).buffer kind).markers)
      else w.editor? id := by
  have buffer : (w.pass kind).buffer kind = (w.buffer kind).checked w.config := by
    rw [buffer_pass, if_pos rfl]
  rw [buffer, pass, editor?_deliver, editor?_modifyAttached, buffer_note, buffer_withBuffer,
    if_pos rfl, editor?_note, editor?_withBuffer]
  rfl

theorem editor_buffer_pass (k : SourceKind) :
    ((w.pass kind).buffer k).editor = (w.buffer k).editor := by
  rw [buffer_pass]
  split <;> rfl

end Small

/-! ## An editor that is attached -/

/-- The editor is attached to this kind and to no other. -/
def HeldBy (w : Workspace) (kind : SourceKind) (id : EditorId) : Prop :=
  ∀ k, (w.buffer k).editor = some id ↔ k = kind

/-- The editor is attached to this kind alone, knows its language, and shows the markers of its
buffer; it was given markers `n` times. -/
structure Presents (w : Workspace) (kind : SourceKind) (id : EditorId) (n : Nat) : Prop where
  held : w.HeldBy kind id
  editor : ∃ e, w.editor? id = some e ∧ e.Told kind n ∧ e.markers = (w.buffer kind).markers

section Presenting

variable {w v : Workspace} {kind : SourceKind} {id : EditorId} {n : Nat}

/-- A change to other things. -/
theorem Presents.of_same (h : Presents w kind id n) (held : v.HeldBy kind id)
    (same : v.editor? id = w.editor? id) (buffer : v.buffer kind = w.buffer kind) :
    Presents v kind id n := by
  refine ⟨held, ?_⟩
  rw [same, buffer]
  exact h.editor

/-- What the user types into an editor, this one or another, is not what it shows. -/
theorem Presents.edit (h : Presents w kind id n) (other : EditorId) (text : String) :
    Presents (w.edit other text) kind id n := by
  obtain ⟨e, found, told, markers⟩ := h.editor
  refine ⟨?_, ?_⟩
  · intro k
    rw [buffer_edit]
    exact h.held k
  · rw [buffer_edit, Workspace.edit, editor?_modifyEditor, found]
    split
    · exact ⟨e.withText text, rfl, told.withText text, markers⟩
    · exact ⟨e, rfl, told, markers⟩

theorem Presents.retype (h : Presents w kind id n) (k : SourceKind) (text : String) :
    Presents (w.modifyAttached k (·.withText text)) kind id n := by
  unfold modifyAttached
  split
  · exact h
  · exact h.edit _ text

/-- A pass attaches nothing and lets nothing go. -/
theorem HeldBy.pass (held : v.HeldBy kind id) (k : SourceKind) : (v.pass k).HeldBy kind id := by
  intro j
  rw [editor_buffer_pass]
  exact held j

/-- **A pass.** An attached editor that was told of its kind shows what was found. -/
theorem presents_pass (held : v.HeldBy kind id) {e : Editor} (found : v.editor? id = some e)
    (told : e.Told kind n) : Presents (v.pass kind) kind id (n + 1) := by
  refine ⟨held.pass kind, e.showing ((v.pass kind).buffer kind).markers, ?_, told.showing _, rfl⟩
  rw [editor?_pass, if_pos ((held kind).mpr rfl), found]
  rfl

/-- Once its buffer was checked, in whatever way it was changed before, the editor was given markers
once more. A pass over the other buffer is nothing to it. -/
theorem Presents.recheck (h : Presents w kind id n) (k : SourceKind) (held : v.HeldBy kind id)
    (same : v.editor? id = w.editor? id) (buffer : k ≠ kind → v.buffer kind = w.buffer kind) :
    Presents (v.pass k) kind id (n + if k = kind then 1 else 0) := by
  by_cases own : k = kind
  · subst own
    obtain ⟨e, found, told, _⟩ := h.editor
    rw [if_pos rfl]
    exact presents_pass held (same.trans found) told
  · rw [if_neg own]
    refine h.of_same (held.pass k) ?_ ?_
    · rw [editor?_pass, if_neg (mt (held k).mp own), same]
    · rw [buffer_pass, if_neg (Ne.symm own), buffer own]

theorem Presents.pass (h : Presents w kind id n) (k : SourceKind) :
    Presents (w.pass k) kind id (n + if k = kind then 1 else 0) :=
  h.recheck k h.held rfl fun _ => rfl

theorem Presents.passAll (h : Presents w kind id n) : Presents w.passAll kind id (n + 1) := by
  have both := (h.pass .c).pass .buildconf
  cases kind <;> exact both

theorem Presents.setText (h : Presents w kind id n) (k : SourceKind) (text : String) :
    Presents (w.setText k text) kind id (n + if k = kind then 1 else 0) := by
  refine h.recheck k ?_ ?_ ?_
  · intro j
    rw [buffer_note, buffer_withBuffer]
    split
    · next same =>
      subst same
      exact h.held j
    · exact h.held j
  · simp
  · intro other
    rw [buffer_note, buffer_withBuffer, if_neg (Ne.symm other)]

theorem Presents.useAnalyzer (h : Presents w kind id n) (analyzer : Analyzer) :
    Presents (w.useAnalyzer analyzer) kind id (n + if analyzer.kind = kind then 1 else 0) := by
  refine h.recheck analyzer.kind ?_ ?_ ?_
  · intro j
    rw [buffer_withBuffer]
    split
    · next same =>
      subst same
      exact h.held _
    · exact h.held j
  · simp
  · intro other
    rw [buffer_withBuffer, if_neg (Ne.symm other)]

/-- Another editor in the place of the one of the other kind. -/
theorem Presents.withEditor (h : Presents w kind id n) {k : SourceKind} (other : k ≠ kind)
    {editor : Option EditorId} (fresh : editor ≠ some id) :
    Presents (w.withBuffer k { w.buffer k with editor }) kind id n := by
  refine h.of_same ?_ (editor?_withBuffer w k id _) ?_
  · intro j
    rw [buffer_withBuffer]
    split
    · next same => exact iff_of_false fresh (same ▸ other)
    · exact h.held j
  · rw [buffer_withBuffer, if_neg (Ne.symm other)]

/-- Another editor is attached, to the other kind. -/
theorem Presents.attach (h : Presents w kind id n) {k : SourceKind} {other : EditorId}
    (fresh : other ≠ id) {e : Editor} (found : w.editor? other = some e) (apart : k ≠ kind) :
    Presents (w.attach k other) kind id n := by
  have told : Presents ((w.modifyEditor other (·.learn (.ofKind k))).note
      [.attached k (Language.Profile.ofKind k).id]) kind id n := by
    refine h.of_same ?_ ?_ (by simp)
    · intro j
      rw [buffer_note, buffer_modifyEditor]
      exact h.held j
    · rw [editor?_note, editor?_modifyEditor, if_neg fresh]
  have different : some other ≠ some id := mt Option.some.inj fresh
  have attached := (told.withEditor apart different).setText k e.text
  rw [if_neg apart] at attached
  simp only [Workspace.attach, found]
  simpa using attached

/-- An editor is attached to a kind by being attached just now, or it was so before. -/
theorem held_of_perform (op : Op) (held : ((w.perform op).1.buffer kind).editor = some id) :
    (w.buffer kind).editor = some id ∨
      op = .attach kind id ∧ ∃ e, w.editor? id = some e := by
  cases op with
  | setText k text =>
    simp only [perform, buffer_setText] at held
    exact Or.inl (by split at held <;> exact held)
  | check k =>
    simp only [perform, editor_buffer_pass] at held
    exact Or.inl held
  | reset k =>
    simp only [perform, buffer_reset] at held
    exact Or.inl (by split at held <;> exact held)
  | addEditor text => exact Or.inl (by simpa [perform] using held)
  | edit other text => exact Or.inl (by simpa using held)
  | attach k other =>
    rw [perform_attach] at held
    cases found : w.editor? other with
    | none =>
      rw [attach_of_missing w k found] at held
      exact Or.inl held
    | some e =>
      rw [buffer_attach w k kind found] at held
      split at held
      · next same =>
        -- the buffer of the kind holds the editor that was attached just now
        obtain rfl : other = id := Option.some.inj held
        exact Or.inr ⟨by rw [same], e, found⟩
      · exact Or.inl held
  | detach k =>
    simp only [perform, buffer_detach] at held
    split at held
    · cases held
    · exact Or.inl held
  | takeEdit k =>
    rw [perform_takeEdit] at held
    cases found : w.attached? k with
    | none =>
      rw [takeEdit_of_unattached w k found] at held
      exact Or.inl held
    | some e =>
      rw [takeEdit_of_attached w k found, buffer_setText] at held
      exact Or.inl (by split at held <;> exact held)
  | configure config =>
    simp only [perform, buffer_configure] at held
    exact Or.inl held
  | useAnalyzer analyzer =>
    simp only [perform, buffer_useAnalyzer] at held
    exact Or.inl (by split at held <;> exact held)
  | subscribe => exact Or.inl (by simpa [perform] using held)
  | build =>
    simp only [perform, buffer_build] at held
    exact Or.inl held

/-- **One operation.** An editor that was attached before and is attached behind it was given
markers once for every pass over its buffer, and shows the last ones. -/
theorem Presents.perform (h : Presents w kind id n) (op : Op) (fresh : ∀ k, op ≠ .attach k id)
    (held : ((w.perform op).1.buffer kind).editor = some id) :
    Presents (w.perform op).1 kind id (n + passCount kind (w.passesOf op)) := by
  cases op with
  | setText k text =>
    rw [passesOf, passCount_singleton]
    exact h.setText k text
  | check k =>
    rw [passesOf, passCount_singleton]
    exact h.pass k
  | reset k =>
    rw [passesOf, passCount_singleton]
    exact (h.retype k _).setText k _
  | addEditor text =>
    refine h.of_same ?_ ?_ (buffer_addEditor w kind text)
    · intro k
      rw [Workspace.perform, buffer_addEditor]
      exact h.held k
    · obtain ⟨e, found, _⟩ := h.editor
      have made : id < w.editors.length := by
        rw [← editor?_isSome_iff, found]
        rfl
      exact List.getElem?_append_left made
  | edit other text =>
    rw [perform_edit]
    exact h.edit other text
  | attach k other =>
    have apart : other ≠ id := fun same => fresh k (by rw [same])
    simp only [passesOf]
    rw [perform_attach] at held ⊢
    cases found : w.editor? other with
    | none =>
      rw [attach_of_missing w k found]
      exact h
    | some e =>
      rw [buffer_attach w k kind found] at held
      by_cases same : k = kind
      · -- another editor took the place, so this one is not attached any more
        rw [if_pos same.symm] at held
        exact absurd (Option.some.inj held) apart
      · rw [Option.isSome_some, if_pos rfl, passCount_singleton, if_neg same]
        exact h.attach apart found same
  | detach k =>
    simp only [Workspace.perform, buffer_detach] at held
    by_cases same : k = kind
    · rw [if_pos same.symm] at held
      cases held
    · exact h.withEditor same (Option.some_ne_none id).symm
  | takeEdit k =>
    simp only [passesOf]
    rw [perform_takeEdit]
    cases found : w.attached? k with
    | none =>
      rw [takeEdit_of_unattached w k found]
      exact h
    | some e =>
      rw [takeEdit_of_attached w k found, Option.isSome_some, if_pos rfl, passCount_singleton]
      exact h.setText k e.text
  | configure config =>
    have same : ∀ k, ({ w with config } : Workspace).buffer k = w.buffer k := by
      intro k
      cases k <;> rfl
    have told : Presents { w with config } kind id n := by
      refine h.of_same ?_ rfl (same kind)
      intro k
      rw [same]
      exact h.held k
    rw [passesOf, passCount_passesOverAll]
    exact told.passAll
  | useAnalyzer analyzer =>
    rw [passesOf, passCount_singleton]
    exact h.useAnalyzer analyzer
  | subscribe =>
    refine h.of_same ?_ rfl (buffer_subscribe w kind)
    intro k
    rw [Workspace.perform, buffer_subscribe]
    exact h.held k
  | build =>
    have checked := h.passAll
    rw [passesOf, passCount_passesOverAll]
    refine checked.of_same ?_ rfl (buffer_note _ kind _)
    intro k
    show ((w.passAll.note _).buffer k).editor = some id ↔ k = kind
    rw [buffer_note]
    exact checked.held k

/-- An editor that is attached for the first time shows the markers of the pass that follows. -/
theorem presents_attach {e : Editor} (found : w.editor? id = some e) (new : e.markerUpdates = 0)
    (free : ∀ k, (w.buffer k).editor ≠ some id) (kind : SourceKind) :
    Presents (w.attach kind id) kind id 1 := by
  have told : (e.learn (.ofKind kind)).Told kind 0 := ⟨new, rfl, rfl⟩
  simp only [attach, found, Workspace.setText]
  refine presents_pass ?_ ?_ told
  · intro k
    simp only [buffer_note, buffer_withBuffer, buffer_modifyEditor]
    split
    · next same => exact iff_of_true rfl same
    · next other => exact iff_of_false (free k) other
  · simp [editor?_modifyEditor, found]

/-! ## An editor that is not attached -/

/-- What the user types into an editor, as far as an operation is that. -/
def typedInto (id : EditorId) : Op → List String
  | .edit other text => if other = id then [text] else []
  | _ => []

theorem editor?_setText_of_free (free : ∀ k, (w.buffer k).editor ≠ some id) (kind : SourceKind)
    (text : String) : (w.setText kind text).editor? id = w.editor? id := by
  have held :
      ((w.withBuffer kind ((w.buffer kind).withText text)).buffer kind).editor ≠ some id := by
    rw [buffer_withBuffer, if_pos rfl]
    exact free kind
  rw [setText, editor?_pass, buffer_note, if_neg held, editor?_note, editor?_withBuffer]

theorem editor?_passAll_of_free (free : ∀ k, (w.buffer k).editor ≠ some id) :
    w.passAll.editor? id = w.editor? id := by
  have second : ((w.pass .c).buffer .buildconf).editor ≠ some id := by
    rw [editor_buffer_pass]
    exact free .buildconf
  rw [passAll, editor?_pass, if_neg second, editor?_pass, if_neg (free .c)]

/-- **An editor that is not attached is changed by its user alone**, as long as it is not
attached. The only other thing that can happen is that it is made. -/
theorem editor?_perform_of_free (free : ∀ k, (w.buffer k).editor ≠ some id) (op : Op)
    (fresh : ∀ k, op ≠ .attach k id) :
    (w.perform op).1.editor? id = (w.editor? id).map ((typedInto id op).foldl Editor.withText ·) ∨
      w.editor? id = none ∧ ∃ text, (w.perform op).1.editor? id = some (.ofText text) := by
  -- but for making and typing, every operation leaves the editor as it is
  have left : typedInto id op = [] → (w.perform op).1.editor? id = w.editor? id →
      (w.perform op).1.editor? id =
        (w.editor? id).map ((typedInto id op).foldl Editor.withText ·) := by
    intro none same
    simp [none, same]
  cases op with
  | setText k text => exact Or.inl (left rfl (editor?_setText_of_free free k text))
  | check k =>
    refine Or.inl (left rfl ?_)
    simp only [perform, editor?_pass, if_neg (free k)]
  | reset k =>
    have same : (w.modifyAttached k (·.withText (Starter.text k))).editor? id = w.editor? id := by
      rw [editor?_modifyAttached, if_neg (free k)]
    refine Or.inl (left rfl ((editor?_setText_of_free ?_ k _).trans same))
    intro j
    rw [buffer_modifyAttached]
    exact free j
  | addEditor text =>
    rcases Nat.lt_trichotomy id w.editors.length with made | now | later
    · exact Or.inl (left rfl (List.getElem?_append_left made))
    · refine Or.inr ⟨List.getElem?_eq_none (Nat.le_of_eq now.symm), text, ?_⟩
      simp [perform, addEditor, editor?, now]
    · refine Or.inl (left rfl ?_)
      simp only [perform, addEditor, editor?]
      rw [List.getElem?_eq_none, List.getElem?_eq_none (Nat.le_of_lt later)]
      rw [List.length_append, List.length_singleton]
      exact later
  | edit other text =>
    rw [perform_edit, edit, editor?_modifyEditor, typedInto]
    refine Or.inl ?_
    split
    · rfl
    · simp
  | attach k other =>
    have apart : other ≠ id := fun same => fresh k (by rw [same])
    refine Or.inl (left rfl ?_)
    rw [perform_attach]
    cases known : w.editor? other with
    | none => rw [attach_of_missing w k known]
    | some o =>
      simp only [attach, known]
      rw [editor?_setText_of_free]
      · rw [editor?_withBuffer, editor?_note, editor?_modifyEditor, if_neg apart]
      · intro j
        rw [buffer_withBuffer]
        split
        · exact mt Option.some.inj apart
        · rw [buffer_note, buffer_modifyEditor]
          exact free j
  | detach k => exact Or.inl (left rfl (editor?_withBuffer w k id _))
  | takeEdit k =>
    refine Or.inl (left rfl ?_)
    rw [perform_takeEdit]
    cases known : w.attached? k with
    | none => rw [takeEdit_of_unattached w k known]
    | some o =>
      rw [takeEdit_of_attached w k known]
      exact editor?_setText_of_free free k o.text
  | configure config =>
    refine Or.inl (left rfl (editor?_passAll_of_free (w := { w with config }) ?_))
    intro k
    cases k
    · exact free .c
    · exact free .buildconf
  | useAnalyzer analyzer =>
    have held : ((w.withBuffer analyzer.kind { w.buffer analyzer.kind with analyzer }).buffer
        analyzer.kind).editor ≠ some id := by
      rw [buffer_withBuffer, if_pos rfl]
      exact free analyzer.kind
    refine Or.inl (left rfl ?_)
    simp only [perform, useAnalyzer, editor?_pass, if_neg held, editor?_withBuffer]
  | subscribe => exact Or.inl (left rfl rfl)
  | build => exact Or.inl (left rfl (editor?_passAll_of_free free))

end Presenting

/-! ## Runs -/

/-- The editor that a request attaches. -/
def attachedBy? : Request → Option EditorId
  | .perform (.attach _ id) => some id
  | _ => none

/-- The editors that requests attach, in order. -/
def attachments (requests : List Request) : List EditorId :=
  requests.filterMap attachedBy?

/-- No editor is attached twice. -/
def AttachedOnce (requests : List Request) : Prop :=
  (attachments requests).Nodup

/-- What the user types into an editor between requests. -/
def typed (id : EditorId) (requests : List Request) : List String :=
  requests.flatMap fun
    | .perform op => typedInto id op
    | _ => []

section Runs

variable {w : Workspace} {kind : SourceKind} {id : EditorId} {n : Nat}

theorem attachments_snoc (requests : List Request) (request : Request) :
    attachments (requests ++ [request]) = attachments requests ++ (attachedBy? request).toList := by
  rw [attachments, List.filterMap_append]
  cases h : attachedBy? request <;> simp [attachments, h]

/-- Another editor is attached, or none. -/
theorem fresh_of_attachedBy? {op : Op} (h : attachedBy? (.perform op) ≠ some id) (k : SourceKind) :
    op ≠ .attach k id := by
  rintro rfl
  exact h rfl

theorem held_of_serve (request : Request)
    (held : ((w.serve request).1.buffer kind).editor = some id) :
    (w.buffer kind).editor = some id ∨
      request = .perform (.attach kind id) ∧ ∃ e, w.editor? id = some e := by
  cases request with
  | perform op =>
    rcases held_of_perform op held with before | ⟨rfl, known⟩
    · exact Or.inl before
    · exact Or.inr ⟨rfl, known⟩
  | report k => exact Or.inl held
  | combined => exact Or.inl held

theorem Presents.serve (h : Presents w kind id n) (request : Request)
    (fresh : attachedBy? request ≠ some id)
    (held : ((w.serve request).1.buffer kind).editor = some id) :
    Presents (w.serve request).1 kind id (n + passCount kind (w.passesOfRequest request)) := by
  cases request with
  | perform op => exact h.perform op (fresh_of_attachedBy? fresh) held
  | report k => exact h
  | combined => exact h

theorem editor?_serve_of_free (free : ∀ k, (w.buffer k).editor ≠ some id) (request : Request)
    (fresh : attachedBy? request ≠ some id) :
    (w.serve request).1.editor? id =
        (w.editor? id).map ((typed id [request]).foldl Editor.withText ·) ∨
      w.editor? id = none ∧ ∃ text, (w.serve request).1.editor? id = some (.ofText text) := by
  cases request with
  | perform op =>
    rw [typed, List.flatMap_singleton]
    exact editor?_perform_of_free free op (fresh_of_attachedBy? fresh)
  | report k => exact Or.inl (by simp [Workspace.serve, typed])
  | combined => exact Or.inl (by simp [Workspace.serve, typed])

theorem markerUpdates_foldl_withText (texts : List String) (e : Editor) :
    (texts.foldl Editor.withText e).markerUpdates = e.markerUpdates := by
  induction texts generalizing e with
  | nil => rfl
  | cons text texts ih => exact ih (e.withText text)

/-- An editor that is attached was attached by a request. -/
theorem mem_attachments_of_held {config : LintConfig} {requests : List Request}
    (held : (((start config).serveAll requests).buffer kind).editor = some id) :
    id ∈ attachments requests := by
  induction requests using List.reverseRecOn with
  | nil =>
    rw [serveAll_nil, start, buffer_passAll] at held
    cases kind <;> cases held
  | append_singleton requests request ih =>
    rw [serveAll_append] at held
    rw [attachments_snoc]
    rcases held_of_serve request held with before | ⟨rfl, _⟩
    · exact List.mem_append_left _ (ih before)
    · simp [attachedBy?]

/-- An editor that was never attached was never given markers. -/
theorem markerUpdates_of_unattached {config : LintConfig} {requests : List Request} {e : Editor}
    (never : id ∉ attachments requests)
    (found : ((start config).serveAll requests).editor? id = some e) : e.markerUpdates = 0 := by
  induction requests using List.reverseRecOn generalizing e with
  | nil =>
    have none : (start config).editors.length = 0 := length_editors_passAll _
    rw [serveAll_nil, editor?, List.length_eq_zero_iff.mp none] at found
    cases found
  | append_singleton requests request ih =>
    rw [attachments_snoc, List.mem_append, not_or] at never
    rw [serveAll_append] at found
    have free : ∀ k, (((start config).serveAll requests).buffer k).editor ≠ some id :=
      fun _ held => never.1 (mem_attachments_of_held held)
    rcases editor?_serve_of_free free request (mt Option.mem_toList.mpr never.2) with
        kept | ⟨_, text, made⟩
    · obtain ⟨old, known, typed⟩ := Option.map_eq_some_iff.mp (kept.symm.trans found)
      rw [← typed, markerUpdates_foldl_withText]
      exact ih never.1 known
    · rw [← Option.some.inj (made.symm.trans found)]
      rfl

theorem attachedOnce_snoc {requests : List Request} {request : Request}
    (once : AttachedOnce (requests ++ [request])) :
    AttachedOnce requests ∧ ∀ id ∈ attachments requests, attachedBy? request ≠ some id := by
  rw [AttachedOnce, attachments_snoc, List.nodup_append] at once
  refine ⟨once.1, ?_⟩
  intro id before now
  exact once.2.2 id before id (Option.mem_toList.mpr now) rfl

/-- **An attached editor after any requests.** It was attached by one of them, and has been given
markers once for every pass over its buffer from then on. -/
theorem presents_serveAll {config : LintConfig} {requests : List Request}
    (once : AttachedOnce requests)
    (held : (((start config).serveAll requests).buffer kind).editor = some id) :
    ∃ before after, requests = before ++ .perform (.attach kind id) :: after ∧
      Presents ((start config).serveAll requests) kind id
        (passCount kind (((start config).serveAll before).history
          (.perform (.attach kind id) :: after))) := by
  induction requests using List.reverseRecOn with
  | nil => cases mem_attachments_of_held held
  | append_singleton requests request ih =>
    obtain ⟨earlier, fresh⟩ := attachedOnce_snoc once
    have unattached : ∀ i, attachedBy? request = some i → ∀ k,
        (((start config).serveAll requests).buffer k).editor ≠ some i := fun i now k old =>
      fresh i (mem_attachments_of_held old) now
    rw [serveAll_append] at held ⊢
    rcases held_of_serve request held with old | ⟨rfl, e, found⟩
    · -- it was attached before, so its count goes on
      obtain ⟨before, after, split, presents⟩ := ih earlier old
      have more : requests ++ [request] =
          before ++ .perform (.attach kind id) :: (after ++ [request]) := by
        rw [split, List.append_assoc, List.cons_append]
      refine ⟨before, after ++ [request], more, ?_⟩
      have later := presents.serve request (fresh id (mem_attachments_of_held old)) held
      have same : ((start config).serveAll before).serveAll (.perform (.attach kind id) :: after) =
          (start config).serveAll requests := by
        rw [split, serveAll_append]
      rw [← List.cons_append, history_append, passCount_append, same]
      simpa [history] using later
    · -- it is attached just now, so its count starts
      have never : id ∉ attachments requests := fun old => fresh id old rfl
      refine ⟨requests, [], rfl, ?_⟩
      have first := presents_attach found (markerUpdates_of_unattached never found)
        (unattached id rfl) kind
      have one : passCount kind (((start config).serveAll requests).history
          [.perform (.attach kind id)]) = 1 := by
        simp [history, passesOfRequest, passesOf, found]
      rw [one]
      simpa [Workspace.serve] using first

/-- An editor that was let go or replaced is not attached again, and only its user changes it. -/
theorem editor?_serveAll_of_released {config : LintConfig} {before after : List Request}
    {e : Editor}
    (once : AttachedOnce (before ++ after)) (was : id ∈ attachments before)
    (free : ∀ k, (((start config).serveAll before).buffer k).editor ≠ some id)
    (found : ((start config).serveAll before).editor? id = some e) :
    (∀ k, (((start config).serveAll (before ++ after)).buffer k).editor ≠ some id) ∧
    ((start config).serveAll (before ++ after)).editor? id =
      some ((typed id after).foldl Editor.withText e) := by
  induction after using List.reverseRecOn with
  | nil =>
    rw [List.append_nil]
    exact ⟨free, found⟩
  | append_singleton after request ih =>
    rw [← List.append_assoc] at once ⊢
    obtain ⟨earlier, fresh⟩ := attachedOnce_snoc once
    have other : attachedBy? request ≠ some id := by
      refine fresh id ?_
      rw [attachments, List.filterMap_append]
      exact List.mem_append_left _ was
    obtain ⟨still, kept⟩ := ih earlier
    rw [serveAll_append]
    refine ⟨?_, ?_⟩
    · intro k held
      rcases held_of_serve request held with old | ⟨rfl, _⟩
      · exact still k old
      · exact other rfl
    · rcases editor?_serve_of_free still request other with same | ⟨missing, _⟩
      · rw [serveAll_cons, serveAll_nil, same, kept]
        simp [typed, List.flatMap_append, List.foldl_append]
      · rw [missing] at kept
        cases kept

/-- **Editors follow their buffers, and only theirs.** In a run that attaches no editor twice, an
attached editor was attached to its kind by one of the requests. It shows the markers for the text
and the report of the buffer, was given markers once for every pass over it since, the one of the
attachment included, and knows the language of the kind. An editor that was attached and is not so
any more, because it was let go or replaced, is from then on as its user leaves it. -/
theorem attached_serveAll (config : LintConfig) (requests : List Request)
    (once : AttachedOnce requests) :
    let w := start config
    let v := w.serveAll requests
    (∀ kind id, (v.buffer kind).editor = some id →
      ∃ before after e, requests = before ++ .perform (.attach kind id) :: after ∧
        v.editor? id = some e ∧
        e.markers =
          Marker.ofDiagnostics (.ofText (v.buffer kind).text) (v.buffer kind).report.diagnostics ∧
        e.markerUpdates = passCount kind
          ((w.serveAll before).history (.perform (.attach kind id) :: after)) ∧
        e.language = some (Language.Profile.ofKind kind).id ∧
        e.candidateCount = (Language.Profile.ofKind kind).vocabulary.candidates.length) ∧
    (∀ before after id e, requests = before ++ after → id ∈ attachments before →
      (∀ kind, ((w.serveAll before).buffer kind).editor ≠ some id) →
      (w.serveAll before).editor? id = some e →
      v.editor? id = some ((typed id after).foldl Editor.withText e)) := by
  intro w v
  refine ⟨?_, ?_⟩
  · intro kind id held
    obtain ⟨before, after, split, presents⟩ := presents_serveAll once held
    obtain ⟨e, found, told, markers⟩ := presents.editor
    exact ⟨before, after, e, split, found, markers, told.updates_eq, told.language_eq,
      told.candidateCount_eq⟩
  · rintro before after id e rfl was free found
    exact (editor?_serveAll_of_released once was free found).2

end Runs

/-- One editor is attached, its user types, and another editor takes its place. -/
def handover : List Request :=
  [.perform (.addEditor "int x"), .perform (.attach .c 0), .perform (.edit 0 "int x;"),
   .perform (.takeEdit .c), .perform (.addEditor ""), .perform (.attach .c 1)]

/-- The user of the first editor goes on typing, and there is a build. -/
def afterwards : List Request :=
  [.perform (.edit 0 "int y;"), .perform .build]

theorem attached_serveAll_handover :
    let w := start .default
    let v := w.serveAll (handover ++ afterwards)
    AttachedOnce (handover ++ afterwards) ∧
    (∃ before after e, handover ++ afterwards = before ++ .perform (.attach .c 1) :: after ∧
      v.editor? 1 = some e ∧
      e.markers =
        Marker.ofDiagnostics (.ofText (v.buffer .c).text) (v.buffer .c).report.diagnostics ∧
      e.markerUpdates =
        passCount .c ((w.serveAll before).history (.perform (.attach .c 1) :: after)) ∧
      e.language = some (Language.Profile.ofKind .c).id ∧
      e.candidateCount = (Language.Profile.ofKind .c).vocabulary.candidates.length) ∧
    ∃ e, (w.serveAll handover).editor? 0 = some e ∧ v.editor? 0 = some (e.withText "int y;") := by
  have once : AttachedOnce (handover ++ afterwards) := by
    unfold AttachedOnce
    decide
  obtain ⟨attached, released⟩ := attached_serveAll .default (handover ++ afterwards) once
  have held : (((start .default).serveAll (handover ++ afterwards)).buffer .c).editor = some 1 := by
    decide +kernel
  have free : ∀ kind, (((start .default).serveAll handover).buffer kind).editor ≠ some 0 := by
    intro kind
    cases kind <;> decide +kernel
  have known : (((start .default).serveAll handover).editor? 0).isSome = true := by
    decide +kernel
  obtain ⟨e, found⟩ := Option.isSome_iff_exists.mp known
  have kept := released handover afterwards 0 e rfl (by decide) free found
  exact ⟨once, attached .c 1 held, e, found, kept⟩

end Workspace

end LiveLint
