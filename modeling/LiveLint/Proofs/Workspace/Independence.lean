import LiveLint.Proofs.Workspace.Attached

/-!
# The two buffers are independent

A side of a workspace is the buffer of a kind with some editors, together with what both buffers
share: the configuration and the number of subscribers. `SameSide` says that two workspaces do not
differ on a side. An operation on a kind can reach its buffer, the editor attached to it and the
editors it names (`reach`), and two facts about it carry everything here:

* it leaves every side alone that it cannot reach (`frame_perform`);
* what it does on its own side, what it replies and what it tells subscribers depends on that side
  alone (`local_perform`).

So two operations on different kinds that reach different editors can be performed in either order,
which is the main statement, `perform_either_order`. Subscribers may notice, since the updates of
the two kinds come in another order; the updates of each kind come as before.
-/

namespace LiveLint

/-! ## What an operation can reach -/

/-- Whether an operation is about the buffer of a kind alone. What a user types is about no buffer
until it is taken over, so it may go with either. -/
def Op.IsOn (kind : SourceKind) : Op → Prop
  | .setText k _ | .check k | .reset k | .attach k _ | .detach k | .takeEdit k => k = kind
  | .useAnalyzer analyzer => analyzer.kind = kind
  | .edit _ _ => True
  | .addEditor _ | .configure _ | .subscribe | .build => False

/-- The editors that an operation names. -/
def Op.editors : Op → List EditorId
  | .edit id _ | .attach _ id => [id]
  | _ => []

namespace Workspace

/-- The editors that an operation on a kind can reach: the one that is attached to the kind, and
those it names. -/
def reach (w : Workspace) (kind : SourceKind) (op : Op) : List EditorId :=
  (w.buffer kind).editor.toList ++ op.editors

/-- Two workspaces do not differ on the buffer of a kind and some editors, and agree on what both
buffers share. -/
structure SameSide (kind : SourceKind) (ids : List EditorId) (w v : Workspace) : Prop where
  config : v.config = w.config
  subscribers : v.subscribers = w.subscribers
  buffer : v.buffer kind = w.buffer kind
  editor : ∀ id ∈ ids, v.editor? id = w.editor? id

namespace SameSide

variable {kind : SourceKind} {ids : List EditorId} {w v u : Workspace}

theorem refl (w : Workspace) : SameSide kind ids w w :=
  ⟨rfl, rfl, rfl, fun _ _ => rfl⟩

theorem trans (h : SameSide kind ids w v) (h' : SameSide kind ids v u) :
    SameSide kind ids w u := by
  refine ⟨h'.config.trans h.config, h'.subscribers.trans h.subscribers,
    h'.buffer.trans h.buffer, ?_⟩
  intro id hid
  exact (h'.editor id hid).trans (h.editor id hid)

/-- Editors that are known on one side are known on the other. -/
theorem isSome_eq (h : SameSide kind ids w v) {id : EditorId} (hid : id ∈ ids) :
    (v.editor? id).isSome = (w.editor? id).isSome := by
  rw [h.editor id hid]

/-- The attached editor is the same where it is one of the editors of the side. -/
theorem attached?_eq (h : SameSide kind ids w v)
    (held : ∀ id, (w.buffer kind).editor = some id → id ∈ ids) :
    v.attached? kind = w.attached? kind := by
  unfold attached?
  rw [h.buffer]
  cases attached : (w.buffer kind).editor with
  | none => rfl
  | some id => exact h.editor id (held id attached)

/-! ## Sides that a change leaves alone -/

section Frame

variable {k : SourceKind}

theorem of_withBuffer (other : kind ≠ k) (d : Buffer) : SameSide kind ids w (w.withBuffer k d) := by
  refine ⟨config_withBuffer w k d, subscribers_withBuffer w k d, ?_, ?_⟩
  · rw [buffer_withBuffer, if_neg other]
  · intro id _
    exact editor?_withBuffer w k id d

theorem of_note (events : List Event) : SameSide kind ids w (w.note events) :=
  ⟨rfl, rfl, buffer_note w kind events, fun _ _ => rfl⟩

theorem of_modifyEditor {id : EditorId} (outside : id ∉ ids) (f : Editor → Editor) :
    SameSide kind ids w (w.modifyEditor id f) := by
  refine ⟨rfl, rfl, buffer_modifyEditor w kind id f, ?_⟩
  intro i hi
  have apart : id ≠ i := fun same => outside (same ▸ hi)
  rw [editor?_modifyEditor, if_neg apart]

theorem of_modifyAttached (outside : ∀ id, (w.buffer k).editor = some id → id ∉ ids)
    (f : Editor → Editor) : SameSide kind ids w (w.modifyAttached k f) := by
  unfold modifyAttached
  cases attached : (w.buffer k).editor with
  | none => exact refl w
  | some id => exact of_modifyEditor (outside id attached) f

theorem of_pass (other : kind ≠ k) (outside : ∀ id, (w.buffer k).editor = some id → id ∉ ids) :
    SameSide kind ids w (w.pass k) := by
  refine ⟨config_pass w k, subscribers_pass w k, ?_, ?_⟩
  · rw [buffer_pass, if_neg other]
  · intro id hid
    rw [editor?_pass, if_neg fun attached => outside id attached hid]

theorem of_setText (other : kind ≠ k) (outside : ∀ id, (w.buffer k).editor = some id → id ∉ ids)
    (text : String) : SameSide kind ids w (w.setText k text) := by
  have replaced : SameSide kind ids w (w.withBuffer k ((w.buffer k).withText text)) :=
    of_withBuffer other _
  have noted := replaced.trans (of_note [.becameDirty k ((w.buffer k).withText text).version])
  apply noted.trans
  apply of_pass other
  intro id attached
  rw [buffer_note, buffer_withBuffer, if_pos rfl] at attached
  exact outside id attached

theorem of_attach (other : kind ≠ k) {id : EditorId} (outside : id ∉ ids) :
    SameSide kind ids w (w.attach k id) := by
  cases found : w.editor? id with
  | none =>
    rw [attach_of_missing w k found]
    exact refl w
  | some e =>
    simp only [attach, found]
    have told : SameSide kind ids w _ :=
      ((of_modifyEditor outside (·.learn (.ofKind k))).trans
        (of_note [.attached k (Language.Profile.ofKind k).id])).trans
        (of_withBuffer other { w.buffer k with editor := some id })
    apply told.trans
    apply of_setText other
    intro i attached
    rw [buffer_withBuffer, if_pos rfl] at attached
    obtain rfl : id = i := Option.some.inj attached
    exact outside

end Frame

/-! ## The same change on both sides -/

theorem withBuffer (h : SameSide kind ids w v) (d : Buffer) :
    SameSide kind ids (w.withBuffer kind d) (v.withBuffer kind d) := by
  refine ⟨?_, ?_, ?_, ?_⟩
  · rw [config_withBuffer, config_withBuffer, h.config]
  · rw [subscribers_withBuffer, subscribers_withBuffer, h.subscribers]
  · rw [buffer_withBuffer, buffer_withBuffer, if_pos rfl, if_pos rfl]
  · intro id hid
    rw [editor?_withBuffer, editor?_withBuffer, h.editor id hid]

theorem note (h : SameSide kind ids w v) (events events' : List Event) :
    SameSide kind ids (w.note events) (v.note events') := by
  refine ⟨h.config, h.subscribers, ?_, h.editor⟩
  rw [buffer_note, buffer_note, h.buffer]

theorem modifyEditor (h : SameSide kind ids w v) (id : EditorId) (f : Editor → Editor) :
    SameSide kind ids (w.modifyEditor id f) (v.modifyEditor id f) := by
  refine ⟨h.config, h.subscribers, ?_, ?_⟩
  · rw [buffer_modifyEditor, buffer_modifyEditor, h.buffer]
  · intro i hi
    rw [editor?_modifyEditor, editor?_modifyEditor, h.editor i hi]

theorem modifyAttached (h : SameSide kind ids w v) (f : Editor → Editor) :
    SameSide kind ids (w.modifyAttached kind f) (v.modifyAttached kind f) := by
  unfold Workspace.modifyAttached
  rw [h.buffer]
  cases (w.buffer kind).editor with
  | none => exact h
  | some id => exact h.modifyEditor id f

theorem pass (h : SameSide kind ids w v) : SameSide kind ids (w.pass kind) (v.pass kind) := by
  have buffer : (v.pass kind).buffer kind = (w.pass kind).buffer kind := by
    rw [buffer_pass, buffer_pass, if_pos rfl, if_pos rfl, h.buffer, h.config]
  refine ⟨?_, ?_, buffer, ?_⟩
  · rw [config_pass, config_pass, h.config]
  · rw [subscribers_pass, subscribers_pass, h.subscribers]
  · intro id hid
    rw [editor?_pass, editor?_pass, buffer, h.buffer, h.editor id hid]

theorem setText (h : SameSide kind ids w v) (text : String) :
    SameSide kind ids (w.setText kind text) (v.setText kind text) := by
  unfold Workspace.setText
  rw [h.buffer]
  exact ((h.withBuffer _).note _ _).pass

theorem attach (h : SameSide kind ids w v) {id : EditorId} (hid : id ∈ ids) :
    SameSide kind ids (w.attach kind id) (v.attach kind id) := by
  unfold Workspace.attach
  rw [h.editor id hid, h.buffer]
  cases w.editor? id with
  | none => exact h
  | some e => exact (((h.modifyEditor id _).note _ _).withBuffer _).setText e.text

theorem takeEdit (h : SameSide kind ids w v)
    (held : ∀ id, (w.buffer kind).editor = some id → id ∈ ids) :
    SameSide kind ids (w.takeEdit kind) (v.takeEdit kind) := by
  unfold Workspace.takeEdit
  rw [h.attached?_eq held]
  cases w.attached? kind with
  | none => exact h
  | some e => exact h.setText e.text

theorem useAnalyzer {analyzer : Analyzer} (h : SameSide analyzer.kind ids w v) :
    SameSide analyzer.kind ids (w.useAnalyzer analyzer) (v.useAnalyzer analyzer) := by
  simp only [Workspace.useAnalyzer, h.buffer]
  exact (h.withBuffer _).pass

theorem report_eq (h : SameSide kind ids w v) : v.report kind = w.report kind := by
  rw [report, h.buffer, report]

/-- A pass behind which the sides are the same is told in the same way. -/
theorem deliveries_eq (h : SameSide kind ids w v) :
    (Pass.mk kind v).deliveries = (Pass.mk kind w).deliveries := by
  have update : (Pass.mk kind v).update = (Pass.mk kind w).update := by
    rw [Pass.update, Pass.buffer, h.buffer]
    rfl
  show (List.range' 1 v.subscribers).map _ = (List.range' 1 w.subscribers).map _
  rw [update, h.subscribers]

end SameSide

/-! ## Frame and locality -/

section Operations

variable {w v : Workspace} {kind k : SourceKind} {ids : List EditorId} {op : Op}

theorem mem_reach_of_held (op : Op) {id : EditorId} (held : (w.buffer kind).editor = some id) :
    id ∈ w.reach kind op := by
  rw [reach, held]
  exact List.mem_cons_self

theorem mem_reach_of_named {id : EditorId} (named : id ∈ op.editors) : id ∈ w.reach kind op :=
  List.mem_append_right _ named

/-- **An operation leaves alone what it cannot reach.** -/
theorem frame_perform (on : op.IsOn k) (other : kind ≠ k)
    (outside : List.Disjoint (w.reach k op) ids) : SameSide kind ids w (w.perform op).1 := by
  have attached : ∀ id, (w.buffer k).editor = some id → id ∉ ids := fun id held hid =>
    outside (mem_reach_of_held op held) hid
  have named : ∀ id ∈ op.editors, id ∉ ids := fun id hid => outside (mem_reach_of_named hid)
  cases op with
  | setText k' text =>
    obtain rfl : k' = k := on
    exact .of_setText other attached text
  | check k' =>
    obtain rfl : k' = k := on
    exact .of_pass other attached
  | reset k' =>
    obtain rfl : k' = k := on
    have wound : SameSide kind ids w _ := .of_modifyAttached attached (·.withText (Starter.text k'))
    apply wound.trans
    apply SameSide.of_setText other
    rw [buffer_modifyAttached]
    exact attached
  | edit id text =>
    rw [perform_edit]
    exact .of_modifyEditor (named id List.mem_cons_self) _
  | attach k' id =>
    obtain rfl : k' = k := on
    rw [perform_attach]
    exact .of_attach other (named id List.mem_cons_self)
  | detach k' =>
    obtain rfl : k' = k := on
    exact .of_withBuffer other _
  | takeEdit k' =>
    obtain rfl : k' = k := on
    rw [perform_takeEdit, takeEdit]
    split
    · exact .refl w
    · exact .of_setText other attached _
  | useAnalyzer analyzer =>
    obtain rfl : analyzer.kind = k := on
    have replaced : SameSide kind ids w _ :=
      .of_withBuffer other { w.buffer analyzer.kind with analyzer }
    apply replaced.trans
    apply SameSide.of_pass other
    intro id held
    rw [buffer_withBuffer, if_pos rfl] at held
    exact attached id held
  | addEditor text => exact on.elim
  | configure config => exact on.elim
  | subscribe => exact on.elim
  | build => exact on.elim

/-- **An operation depends on its own side alone**: what it leaves there, what it replies, and
what subscribers are told of its passes. -/
theorem local_perform (on : op.IsOn kind) (h : SameSide kind ids w v)
    (reached : w.reach kind op ⊆ ids) :
    SameSide kind ids (w.perform op).1 (v.perform op).1 ∧
    (v.perform op).2 = (w.perform op).2 ∧
    (v.passesOf op).flatMap Pass.deliveries = (w.passesOf op).flatMap Pass.deliveries := by
  have held : ∀ id, (w.buffer kind).editor = some id → id ∈ ids := fun id hid =>
    reached (mem_reach_of_held op hid)
  have named : ∀ id ∈ op.editors, id ∈ ids := fun id hid => reached (mem_reach_of_named hid)
  -- an operation that ends in one pass replies with the report of that pass
  have passed : ∀ {a b : Workspace}, SameSide kind ids a b →
      SameSide kind ids a b ∧ Reply.report (b.report kind) = Reply.report (a.report kind) ∧
      [Pass.mk kind b].flatMap Pass.deliveries = [Pass.mk kind a].flatMap Pass.deliveries := by
    intro a b same
    refine ⟨same, by rw [same.report_eq], ?_⟩
    rw [List.flatMap_singleton, List.flatMap_singleton, same.deliveries_eq]
  cases op with
  | setText k text =>
    obtain rfl : k = kind := on
    exact passed (h.setText text)
  | check k =>
    obtain rfl : k = kind := on
    exact passed h.pass
  | reset k =>
    obtain rfl : k = kind := on
    exact passed ((h.modifyAttached _).setText _)
  | edit id text =>
    have known := h.isSome_eq (named id List.mem_cons_self)
    refine ⟨?_, ?_, rfl⟩
    · rw [perform_edit, perform_edit]
      exact h.modifyEditor id _
    · simp only [perform, known]
      split <;> rfl
  | attach k id =>
    obtain rfl : k = kind := on
    have member := named id List.mem_cons_self
    have known := h.isSome_eq member
    simp only [passesOf, perform, known]
    split
    · exact passed (h.attach member)
    · exact ⟨h, rfl, rfl⟩
  | detach k =>
    obtain rfl : k = kind := on
    refine ⟨?_, congrArg Reply.released (h.attached?_eq held), rfl⟩
    simp only [perform, detach, h.buffer]
    exact h.withBuffer _
  | takeEdit k =>
    obtain rfl : k = kind := on
    simp only [passesOf, perform, h.attached?_eq held]
    split
    · exact passed (h.takeEdit held)
    · exact ⟨h, rfl, rfl⟩
  | useAnalyzer analyzer =>
    obtain rfl : analyzer.kind = kind := on
    exact passed h.useAnalyzer
  | addEditor text => exact on.elim
  | configure config => exact on.elim
  | subscribe => exact on.elim
  | build => exact on.elim

/-- The passes of an operation on a kind are over its buffer. -/
theorem kind_of_mem_passesOf (on : op.IsOn kind) {p : Pass} (h : p ∈ w.passesOf op) :
    p.kind = kind := by
  have one : ∀ {k v}, k = kind → p ∈ [Pass.mk k v] → p.kind = kind := by
    intro k v same hp
    rw [List.mem_singleton.mp hp]
    exact same
  cases op with
  | setText k text => exact one on h
  | check k => exact one on h
  | reset k => exact one on h
  | attach k id =>
    simp only [passesOf] at h
    split at h
    · exact one on h
    · cases h
  | takeEdit k =>
    simp only [passesOf] at h
    split at h
    · exact one on h
    · cases h
  | useAnalyzer analyzer => exact one on h
  | edit id text => cases h
  | detach k => cases h
  | addEditor text => exact on.elim
  | configure config => exact on.elim
  | subscribe => exact on.elim
  | build => exact on.elim

/-- An operation on a kind tells of no other kind. -/
theorem told_of_other (on : op.IsOn kind) (other : k ≠ kind) :
    ((w.passesOf op).flatMap Pass.deliveries).filter (·.update.kind == k) = [] := by
  rw [List.filter_eq_nil_iff]
  intro d hd
  obtain ⟨p, hp, made⟩ := List.mem_flatMap.mp hd
  obtain ⟨subscriber, _, rfl⟩ := List.mem_map.mp made
  have kind := kind_of_mem_passesOf on hp
  show ¬(p.kind == k) = true
  rw [kind, beq_iff_eq]
  exact Ne.symm other

end Operations

/-! ## Two operations -/

/-- What a subscriber received about the buffer of a kind. -/
def receivedOf (w : Workspace) (kind : SourceKind) (subscriber : Nat) : List Update :=
  (w.received subscriber).filter (·.kind == kind)

theorem receivedOf_eq (w : Workspace) (kind : SourceKind) (subscriber : Nat) :
    w.receivedOf kind subscriber =
      ((w.deliveries.filter (·.update.kind == kind)).filter (·.subscriber == subscriber)).map
        Delivery.update := by
  rw [receivedOf, received, List.filter_map, List.filter_filter, List.filter_filter]
  congr 2
  funext d
  exact Bool.and_comm _ _

/-- Both have told the same of each kind. -/
def ToldAlike (w v : Workspace) : Prop :=
  ∀ kind, w.deliveries.filter (·.update.kind == kind) = v.deliveries.filter (·.update.kind == kind)

section Both

variable {w : Workspace} {k k' : SourceKind} {p q : Op}

/-- An operation in front of one on the other side is nothing to it. -/
theorem local_after (hp : p.IsOn k) (hq : q.IsOn k') (other : k ≠ k')
    (apart : List.Disjoint (w.reach k p) (w.reach k' q)) :
    SameSide k' (w.reach k' q) (w.perform q).1 ((w.perform p).1.perform q).1 ∧
    ((w.perform p).1.perform q).2 = (w.perform q).2 ∧
    ((w.perform p).1.passesOf q).flatMap Pass.deliveries =
      (w.passesOf q).flatMap Pass.deliveries :=
  local_perform hq (frame_perform hp other.symm apart) (List.Subset.refl _)

/-- An operation behind one on the other side leaves what that one left. -/
theorem frame_after (hp : p.IsOn k) (hq : q.IsOn k') (other : k ≠ k') {ids : List EditorId}
    (apart : List.Disjoint (w.reach k p) (w.reach k' q))
    (outside : List.Disjoint (w.reach k' q) ids) :
    SameSide k ids (w.perform p).1 ((w.perform p).1.perform q).1 := by
  apply frame_perform hq other
  -- the operation in front does not change what the one behind it can reach
  have same : (w.perform p).1.reach k' q = w.reach k' q := by
    rw [reach, (frame_perform hp other.symm apart).buffer]
    rfl
  rw [same]
  exact outside

theorem told_after (own : w.InPlace) (hp : p.IsOn k) (hq : q.IsOn k') (other : k ≠ k')
    (apart : List.Disjoint (w.reach k p) (w.reach k' q)) :
    ((w.perform p).1.perform q).1.deliveries =
      w.deliveries ++ (w.passesOf p).flatMap Pass.deliveries ++
        (w.passesOf q).flatMap Pass.deliveries := by
  have first := (tells_perform own p).deliveries
  have second := (tells_perform (own.serve (.perform p)) q).deliveries
  have same := (local_after hp hq other apart).2.2
  calc ((w.perform p).1.perform q).1.deliveries
      = (w.perform p).1.deliveries ++ ((w.perform p).1.passesOf q).flatMap Pass.deliveries := second
    _ = _ := by rw [first, same]

theorem toldAlike_after (own : w.InPlace) (hp : p.IsOn k) (hq : q.IsOn k') (other : k ≠ k')
    (apart : List.Disjoint (w.reach k p) (w.reach k' q)) :
    ToldAlike ((w.perform p).1.perform q).1 ((w.perform q).1.perform p).1 := by
  intro kind
  rw [told_after own hp hq other apart, told_after own hq hp other.symm (List.disjoint_symm apart)]
  simp only [List.filter_append]
  -- one of the two operations tells nothing of the kind, so their order does not show
  by_cases same : kind = k
  · have silent := told_of_other (w := w) hq (same ▸ other)
    rw [silent, List.append_nil, List.append_nil]
  · have silent := told_of_other (w := w) hp same
    rw [silent, List.append_nil, List.append_nil]

theorem editors_after (hp : p.IsOn k) (hq : q.IsOn k') (other : k ≠ k')
    (apart : List.Disjoint (w.reach k p) (w.reach k' q)) :
    ((w.perform p).1.perform q).1.editors = ((w.perform q).1.perform p).1.editors := by
  refine List.ext_getElem? ?_
  intro id
  show ((w.perform p).1.perform q).1.editor? id = ((w.perform q).1.perform p).1.editor? id
  by_cases inQ : id ∈ w.reach k' q
  · have direct := (local_after hp hq other apart).1.editor id inQ
    have later := (frame_after hq hp other.symm (List.disjoint_symm apart) apart).editor id inQ
    exact direct.trans later.symm
  · by_cases inP : id ∈ w.reach k p
    · have direct := (local_after hq hp other.symm (List.disjoint_symm apart)).1.editor id inP
      have later := (frame_after hp hq other apart (List.disjoint_symm apart)).editor id inP
      exact later.trans direct.symm
    · -- neither operation can reach the editor
      have outP : List.Disjoint (w.reach k p) [id] := by
        rw [List.disjoint_singleton]
        exact inP
      have outQ : List.Disjoint (w.reach k' q) [id] := by
        rw [List.disjoint_singleton]
        exact inQ
      have member : id ∈ [id] := List.mem_cons_self
      have pq := ((frame_perform hp other.symm outP).editor id member)
      have qp := ((frame_perform hq other outQ).editor id member)
      have pq' := (frame_after hp hq other apart outQ).editor id member
      have qp' := (frame_after hq hp other.symm (List.disjoint_symm apart) outP).editor id member
      exact (pq'.trans pq).trans (qp'.trans qp).symm

end Both

/-- **The two buffers are independent.** In every state that requests lead to, take an operation on
one kind and an operation on the other that cannot reach the same editors. The first leaves the
buffer of the other kind as it is, and every editor that it cannot reach. And the two can be
performed in either order: the replies are the same, and so are the configuration, both buffers,
all editors and the subscribers. Each subscriber receives the same updates of each kind, in the
same order; only how the updates of the two kinds are interleaved may differ. -/
theorem perform_either_order (config : LintConfig) (requests : List Request) {k k' : SourceKind}
    (other : k ≠ k') {p q : Op} (hp : p.IsOn k) (hq : q.IsOn k')
    (apart : List.Disjoint (((start config).serveAll requests).reach k p)
      (((start config).serveAll requests).reach k' q)) :
    let w := (start config).serveAll requests
    let pq := (w.perform p).1.perform q
    let qp := (w.perform q).1.perform p
    (w.perform p).1.buffer k' = w.buffer k' ∧
    (∀ id, id ∉ w.reach k p → (w.perform p).1.editor? id = w.editor? id) ∧
    qp.2 = (w.perform p).2 ∧ pq.2 = (w.perform q).2 ∧
    pq.1.config = qp.1.config ∧ (∀ kind, pq.1.buffer kind = qp.1.buffer kind) ∧
    pq.1.editors = qp.1.editors ∧ pq.1.subscribers = qp.1.subscribers ∧
    ∀ kind subscriber, pq.1.receivedOf kind subscriber = qp.1.receivedOf kind subscriber := by
  intro w pq qp
  have own : w.InPlace := (inPlace_start config).serveAll requests
  have frame := frame_perform hp other.symm apart
  have onQ := local_after hp hq other apart
  have onP := local_after hq hp other.symm (List.disjoint_symm apart)
  have behindP := frame_after hp hq other apart (List.disjoint_symm apart)
  have behindQ := frame_after hq hp other.symm (List.disjoint_symm apart) apart
  refine ⟨frame.buffer, ?_, onP.2.1, onQ.2.1, ?_, ?_, editors_after hp hq other apart, ?_, ?_⟩
  · intro id outside
    have single : List.Disjoint (w.reach k p) [id] := by
      rw [List.disjoint_singleton]
      exact outside
    exact (frame_perform hp other.symm single).editor id List.mem_cons_self
  · exact behindP.config.trans onP.1.config.symm
  · intro kind
    by_cases same : kind = k
    · subst same
      exact behindP.buffer.trans onP.1.buffer.symm
    · have only : kind = k' := by
        cases kind <;> cases k <;> cases k' <;> simp_all
      subst only
      exact onQ.1.buffer.trans behindQ.buffer.symm
  · exact behindP.subscribers.trans onP.1.subscribers.symm
  · intro kind subscriber
    rw [receivedOf_eq, receivedOf_eq, toldAlike_after own hp hq other apart kind]

/-- An editor is attached to each kind, somebody subscribes, and the user types into the first. -/
def sideBySide : List Request :=
  [.perform (.addEditor "int x"), .perform (.attach .c 0), .perform (.addEditor "!muf 3"),
   .perform (.attach .buildconf 1), .perform .subscribe, .perform (.edit 0 "int x;")]

theorem perform_either_order_sideBySide :
    let w := (start .default).serveAll sideBySide
    let pq := (w.perform (.takeEdit .c)).1.perform (.reset .buildconf)
    let qp := (w.perform (.reset .buildconf)).1.perform (.takeEdit .c)
    SourceKind.c ≠ .buildconf ∧ (Op.takeEdit .c).IsOn .c ∧ (Op.reset .buildconf).IsOn .buildconf ∧
    w.reach .c (.takeEdit .c) = [0] ∧ w.reach .buildconf (.reset .buildconf) = [1] ∧
    List.Disjoint (w.reach .c (.takeEdit .c)) (w.reach .buildconf (.reset .buildconf)) ∧
    (w.perform (.takeEdit .c)).1.buffer .buildconf = w.buffer .buildconf ∧
    (∀ id, id ∉ w.reach .c (.takeEdit .c) →
      (w.perform (.takeEdit .c)).1.editor? id = w.editor? id) ∧
    qp.2 = (w.perform (.takeEdit .c)).2 ∧ pq.2 = (w.perform (.reset .buildconf)).2 ∧
    pq.1.config = qp.1.config ∧ (∀ kind, pq.1.buffer kind = qp.1.buffer kind) ∧
    pq.1.editors = qp.1.editors ∧ pq.1.subscribers = qp.1.subscribers ∧
    ∀ kind subscriber, pq.1.receivedOf kind subscriber = qp.1.receivedOf kind subscriber := by
  have reachC : ((start .default).serveAll sideBySide).reach .c (.takeEdit .c) = [0] := by
    decide +kernel
  have reachB : ((start .default).serveAll sideBySide).reach .buildconf (.reset .buildconf) =
      [1] := by
    decide +kernel
  have apart : List.Disjoint (((start .default).serveAll sideBySide).reach .c (.takeEdit .c))
      (((start .default).serveAll sideBySide).reach .buildconf (.reset .buildconf)) := by
    rw [reachC, reachB, List.disjoint_singleton]
    decide
  exact ⟨by decide, rfl, rfl, reachC, reachB, apart,
    perform_either_order .default sideBySide (by decide) rfl rfl apart⟩

end Workspace

end LiveLint
