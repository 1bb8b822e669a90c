import LiveLint.Proofs.Workspace.Frame
import Mathlib.Data.List.Nodup

/-!
# Who is told of which pass

A host makes requests of a workspace: it has an operation performed, or it asks a question.
`passesOf` is the table of the passes that an operation runs, each with the workspace right behind
it, and `history` puts the passes of a whole list of requests in a row. It looks neither at
deliveries nor at events.

The main statement is `told_serveAll`: the passes that were written down are those of the history,
each of them went to all subscribers of its time in the order in which they came, and a subscriber
received the passes since it came, each once and as the buffer stood behind it. One operation is
`tells_perform`; its cases are put together from `tells_pass` by `Tells.trans`, so an operation
that runs no pass, or two, needs no argument of its own.
-/

namespace LiveLint

/-! ## Requests -/

/-- What a host wants of a workspace: an operation, or the answer to a question. -/
inductive Request
  | perform (op : Op)
  /-- The last report on a buffer. -/
  | report (kind : SourceKind)
  /-- One report of both buffers. -/
  | combined

namespace Workspace

/-- Serve a request. A question leaves the workspace as it is. -/
def serve (w : Workspace) : Request → Workspace × Reply
  | .perform op => w.perform op
  | .report kind => (w, .report (w.report kind))
  | .combined => (w, .report w.combined)

/-- Serve requests one after the other. -/
def serveAll (w : Workspace) (requests : List Request) : Workspace :=
  requests.foldl (fun w request => (w.serve request).1) w

@[simp] theorem serveAll_nil (w : Workspace) : w.serveAll [] = w := rfl

@[simp] theorem serveAll_cons (w : Workspace) (request : Request) (requests : List Request) :
    w.serveAll (request :: requests) = (w.serve request).1.serveAll requests := rfl

theorem serveAll_append (w : Workspace) (requests more : List Request) :
    w.serveAll (requests ++ more) = (w.serveAll requests).serveAll more := by
  simp [serveAll]

end Workspace

/-! ## Passes -/

/-- A pass over the buffer of a kind, and the workspace right behind it. -/
structure Pass where
  kind : SourceKind
  after : Workspace

namespace Pass

/-- The buffer of the pass as it stands behind it. -/
def buffer (p : Pass) : Buffer :=
  p.after.buffer p.kind

/-- What subscribers are to be told. -/
def update (p : Pass) : Update :=
  ⟨p.kind, p.buffer.version, p.buffer.report⟩

/-- One delivery to every subscriber there is, in the order in which they came. -/
def deliveries (p : Pass) : List Delivery :=
  (List.range' 1 p.after.subscribers).map (Delivery.mk · p.update)

/-- What is written down of the pass. -/
def entry (p : Pass) : SourceKind × Nat :=
  (p.kind, p.buffer.version)

end Pass

/-- How many subscribers an operation adds. -/
def Op.newSubscribers : Op → Nat
  | subscribe => 1
  | _ => 0

/-- The kind and the version of a pass that was written down. -/
def Event.pass? : Event → Option (SourceKind × Nat)
  | pass kind version _ _ _ => some (kind, version)
  | _ => none

namespace Workspace

/-- The passes over both buffers. -/
def passesOverAll (w : Workspace) : List Pass :=
  [⟨.c, w.pass .c⟩, ⟨.buildconf, w.passAll⟩]

/-- The passes that an operation runs. A new text, analyzer or editor has its buffer checked, and
so has the text of the attached editor; a configuration and a build have both checked. -/
def passesOf (w : Workspace) (op : Op) : List Pass :=
  let one (kind : SourceKind) : List Pass := [⟨kind, (w.perform op).1⟩]
  match op with
  | .setText kind _ | .check kind | .reset kind => one kind
  | .attach kind id => if (w.editor? id).isSome then one kind else []
  | .takeEdit kind => if (w.attached? kind).isSome then one kind else []
  | .useAnalyzer analyzer => one analyzer.kind
  | .configure config => passesOverAll { w with config }
  | .build => passesOverAll w
  | .addEditor _ | .edit _ _ | .detach _ | .subscribe => []

/-- The passes of a request. A question runs none. -/
def passesOfRequest (w : Workspace) : Request → List Pass
  | .perform op => w.passesOf op
  | .report _ | .combined => []

/-- The passes of a list of requests, in order. -/
def history (w : Workspace) : List Request → List Pass
  | [] => []
  | request :: requests => w.passesOfRequest request ++ (w.serve request).1.history requests

/-- The passes that a workspace has written down. -/
def passLog (w : Workspace) : List (SourceKind × Nat) :=
  w.events.filterMap Event.pass?

/-- What a subscriber received. -/
def received (w : Workspace) (subscriber : Nat) : List Update :=
  (w.deliveries.filter (·.subscriber == subscriber)).map Delivery.update

theorem history_append (w : Workspace) (requests more : List Request) :
    w.history (requests ++ more) =
      w.history requests ++ (w.serveAll requests).history more := by
  induction requests generalizing w with
  | nil => rfl
  | cons request requests ih =>
    rw [List.cons_append, history, history, serveAll_cons, ih, List.append_assoc]

/-! ## What small changes write down -/

section Small

variable (w : Workspace) (kind : SourceKind)

@[simp] theorem deliveries_withBuffer (d : Buffer) :
    (w.withBuffer kind d).deliveries = w.deliveries := by
  cases kind <;> rfl

@[simp] theorem passLog_withBuffer (d : Buffer) : (w.withBuffer kind d).passLog = w.passLog := by
  cases kind <;> rfl

@[simp] theorem subscribers_withBuffer (d : Buffer) :
    (w.withBuffer kind d).subscribers = w.subscribers := by
  cases kind <;> rfl

@[simp] theorem deliveries_modifyAttached (f : Editor → Editor) :
    (w.modifyAttached kind f).deliveries = w.deliveries := by
  unfold modifyAttached
  split <;> rfl

@[simp] theorem passLog_modifyAttached (f : Editor → Editor) :
    (w.modifyAttached kind f).passLog = w.passLog := by
  unfold modifyAttached
  split <;> rfl

@[simp] theorem subscribers_modifyAttached (f : Editor → Editor) :
    (w.modifyAttached kind f).subscribers = w.subscribers := by
  unfold modifyAttached
  split <;> rfl

@[simp] theorem deliveries_note (events : List Event) :
    (w.note events).deliveries = w.deliveries := rfl

@[simp] theorem subscribers_note (events : List Event) :
    (w.note events).subscribers = w.subscribers := rfl

@[simp] theorem passLog_note (events : List Event) :
    (w.note events).passLog = w.passLog ++ events.filterMap Event.pass? := by
  simp [passLog, note]

@[simp] theorem passLog_deliver (update : Update) : (w.deliver update).passLog = w.passLog := rfl

@[simp] theorem subscribers_pass : (w.pass kind).subscribers = w.subscribers := by
  simp [pass, deliver]

@[simp] theorem subscribers_passAll : w.passAll.subscribers = w.subscribers := by
  simp [passAll]

/-- A pass writes itself down once. -/
theorem pass?_passEvents (d : Buffer) :
    d.passEvents.filterMap Event.pass? = [(d.kind, d.version)] := by
  unfold Buffer.passEvents
  cases d.editor <;> rfl

end Small

/-! ## Buffers keep their kinds -/

/-- Each buffer is of the kind it stands for. -/
def InPlace (w : Workspace) : Prop :=
  ∀ kind, (w.buffer kind).kind = kind

/-- No operation makes a buffer one of another kind. -/
theorem kind_buffer_perform (w : Workspace) (op : Op) (kind : SourceKind) :
    ((w.perform op).1.buffer kind).kind = (w.buffer kind).kind := by
  cases op with
  | setText k text =>
    simp only [perform, buffer_setText]
    split <;> rfl
  | check k =>
    simp only [perform, buffer_pass]
    split <;> rfl
  | reset k =>
    simp only [perform, buffer_reset]
    split <;> rfl
  | addEditor text => simp [perform]
  | edit id text => simp
  | attach k id =>
    rw [perform_attach]
    cases found : w.editor? id with
    | none => rw [attach_of_missing w k found]
    | some e =>
      rw [buffer_attach w k kind found]
      split <;> rfl
  | detach k =>
    simp only [perform, buffer_detach]
    split <;> rfl
  | takeEdit k =>
    rw [perform_takeEdit]
    cases found : w.attached? k with
    | none => rw [takeEdit_of_unattached w k found]
    | some e =>
      rw [takeEdit_of_attached w k found, buffer_setText]
      split <;> rfl
  | configure config =>
    simp only [perform, buffer_configure]
    rfl
  | useAnalyzer analyzer =>
    simp only [perform, buffer_useAnalyzer]
    split <;> rfl
  | subscribe => simp [perform]
  | build =>
    simp only [perform, buffer_build]
    rfl

theorem InPlace.serve {w : Workspace} (h : w.InPlace) (request : Request) :
    (w.serve request).1.InPlace := by
  cases request with
  | perform op =>
    intro kind
    exact (kind_buffer_perform w op kind).trans (h kind)
  | report k => exact h
  | combined => exact h

theorem InPlace.serveAll {w : Workspace} (h : w.InPlace) (requests : List Request) :
    (w.serveAll requests).InPlace := by
  induction requests generalizing w with
  | nil => exact h
  | cons request requests ih => exact ih (h.serve request)

theorem inPlace_start (config : LintConfig) : (start config).InPlace := by
  intro kind
  rw [start, buffer_passAll]
  cases kind <;> rfl

/-! ## Operations and their passes -/

/-- All that was written down and delivered between two states of a workspace belongs to the given
passes, in their order. -/
structure Tells (w : Workspace) (ps : List Pass) (v : Workspace) : Prop where
  deliveries : v.deliveries = w.deliveries ++ ps.flatMap Pass.deliveries
  log : v.passLog = w.passLog ++ ps.map Pass.entry

section Telling

variable {w v u : Workspace} {ps qs : List Pass}

theorem Tells.trans (h : Tells w ps v) (h' : Tells v qs u) : Tells w (ps ++ qs) u := by
  refine ⟨?_, ?_⟩
  · rw [h'.deliveries, h.deliveries, List.flatMap_append, List.append_assoc]
  · rw [h'.log, h.log, List.map_append, List.append_assoc]

/-- Where nothing was delivered and no pass written down, there was no pass. -/
theorem tells_nothing (deliveries : v.deliveries = w.deliveries) (log : v.passLog = w.passLog) :
    Tells w [] v :=
  ⟨by simpa using deliveries, by simpa using log⟩

/-- **One pass.** It is written down and delivered to all subscribers in order, as its buffer
stands behind it. -/
theorem tells_pass (kind : SourceKind) (own : (w.buffer kind).kind = kind) :
    Tells w [⟨kind, w.pass kind⟩] (w.pass kind) := by
  have buffer : (w.pass kind).buffer kind = (w.buffer kind).checked w.config := by
    rw [buffer_pass, if_pos rfl]
  -- the buffer tells its own kind, which is the kind of the pass
  have update : ((w.buffer kind).checked w.config).update =
      (Pass.mk kind (w.pass kind)).update := by
    rw [Pass.update, Pass.buffer, buffer, Buffer.update]
    exact congrArg (Update.mk · _ _) own
  refine ⟨?_, ?_⟩
  · rw [List.flatMap_singleton, Pass.deliveries, subscribers_pass, ← update]
    simp [pass, deliver]
  · have entry : (Pass.mk kind (w.pass kind)).entry = (kind, (w.buffer kind).version) := by
      rw [Pass.entry, Pass.buffer, buffer]
      rfl
    rw [List.map_singleton, entry, pass, passLog_deliver, passLog_modifyAttached, passLog_note,
      passLog_withBuffer, pass?_passEvents]
    exact congrArg (fun k => w.passLog ++ [(k, (w.buffer kind).version)]) own

/-- A pass after changes that tell nothing is the pass of the whole. -/
theorem tells_pass_after (kind : SourceKind) (deliveries : v.deliveries = w.deliveries)
    (log : v.passLog = w.passLog) (own : (v.buffer kind).kind = kind) :
    Tells w [⟨kind, v.pass kind⟩] (v.pass kind) :=
  (tells_nothing deliveries log).trans (tells_pass kind own)

theorem tells_passAll (own : w.InPlace) : Tells w w.passesOverAll w.passAll := by
  have second : ((w.pass .c).buffer .buildconf).kind = .buildconf := by
    rw [buffer_pass, if_neg (by decide)]
    exact own .buildconf
  exact (tells_pass .c (own .c)).trans (tells_pass .buildconf second)

theorem tells_setText (own : w.InPlace) (kind : SourceKind) (text : String) :
    Tells w [⟨kind, w.setText kind text⟩] (w.setText kind text) := by
  refine tells_pass_after kind (by simp) ?_ ?_
  · simp [Event.pass?]
  · rw [buffer_note, buffer_withBuffer, if_pos rfl]
    exact own kind

/-- A new text after changes that tell nothing and leave all buffers of their kinds. -/
theorem tells_setText_after (kind : SourceKind) (text : String)
    (deliveries : v.deliveries = w.deliveries) (log : v.passLog = w.passLog) (own : v.InPlace) :
    Tells w [⟨kind, v.setText kind text⟩] (v.setText kind text) :=
  (tells_nothing deliveries log).trans (tells_setText own kind text)

theorem tells_attach (own : w.InPlace) (kind : SourceKind) {id : EditorId} {e : Editor}
    (found : w.editor? id = some e) :
    Tells w [⟨kind, w.attach kind id⟩] (w.attach kind id) := by
  simp only [attach, found]
  refine tells_setText_after kind e.text (by simp [modifyEditor]) ?_ ?_
  · rw [passLog_withBuffer, passLog_note]
    simp [Event.pass?, modifyEditor, passLog]
  · intro k
    rw [buffer_withBuffer]
    split
    · next same =>
      subst same
      exact own k
    · rw [buffer_note, buffer_modifyEditor]
      exact own k

theorem tells_useAnalyzer (own : w.InPlace) (analyzer : Analyzer) :
    Tells w [⟨analyzer.kind, w.useAnalyzer analyzer⟩] (w.useAnalyzer analyzer) := by
  refine tells_pass_after analyzer.kind (by simp) (by simp) ?_
  rw [buffer_withBuffer, if_pos rfl]
  exact own analyzer.kind

/-- **One operation and its passes.** -/
theorem tells_perform (own : w.InPlace) (op : Op) :
    Tells w (w.passesOf op) (w.perform op).1 := by
  cases op with
  | setText kind text => exact tells_setText own kind text
  | check kind => exact tells_pass kind (own kind)
  | reset kind =>
    refine tells_setText_after kind _ (by simp) (by simp) ?_
    intro k
    rw [buffer_modifyAttached]
    exact own k
  | addEditor text => exact tells_nothing rfl rfl
  | edit id text =>
    rw [perform_edit]
    exact tells_nothing rfl rfl
  | attach kind id =>
    simp only [passesOf, perform_attach]
    cases found : w.editor? id with
    | none =>
      rw [attach_of_missing w kind found]
      exact tells_nothing rfl rfl
    | some e => exact tells_attach own kind found
  | detach kind => exact tells_nothing (by simp [perform, detach]) (by simp [perform, detach])
  | takeEdit kind =>
    simp only [passesOf, perform_takeEdit]
    cases found : w.attached? kind with
    | none =>
      rw [takeEdit_of_unattached w kind found]
      exact tells_nothing rfl rfl
    | some e =>
      rw [takeEdit_of_attached w kind found]
      exact tells_setText own kind e.text
  | configure config =>
    have same : ({ w with config } : Workspace).InPlace := by
      intro k
      cases k
      · exact own .c
      · exact own .buildconf
    have told := tells_passAll same
    exact ⟨told.deliveries, told.log⟩
  | useAnalyzer analyzer => exact tells_useAnalyzer own analyzer
  | subscribe => exact tells_nothing rfl rfl
  | build =>
    have noted : Tells w.passAll [] w.build.1 :=
      tells_nothing rfl (by simp [build, Event.pass?])
    exact (tells_passAll own).trans noted

theorem tells_serve (own : w.InPlace) (request : Request) :
    Tells w (w.passesOfRequest request) (w.serve request).1 := by
  cases request with
  | perform op => exact tells_perform own op
  | report kind => exact tells_nothing rfl rfl
  | combined => exact tells_nothing rfl rfl

/-- What was written down and delivered after any requests is what their history says. -/
theorem tells_serveAll (own : w.InPlace) (requests : List Request) :
    Tells w (w.history requests) (w.serveAll requests) := by
  induction requests generalizing w with
  | nil => exact tells_nothing rfl rfl
  | cons request requests ih =>
    rw [serveAll_cons]
    exact (tells_serve own request).trans (ih (own.serve request))

end Telling

/-! ## Subscribers -/

section Subscribers

variable {w : Workspace}

@[simp] theorem subscribers_setText (w : Workspace) (kind : SourceKind) (text : String) :
    (w.setText kind text).subscribers = w.subscribers := by
  simp [setText]

theorem subscribers_perform (w : Workspace) (op : Op) :
    (w.perform op).1.subscribers = w.subscribers + op.newSubscribers := by
  cases op with
  | setText kind text => exact subscribers_setText w kind text
  | check kind => exact subscribers_pass w kind
  | reset kind => simp [perform, reset, Op.newSubscribers]
  | addEditor text => rfl
  | edit id text =>
    rw [perform_edit]
    rfl
  | attach kind id =>
    rw [perform_attach, attach]
    split
    · rfl
    · rw [subscribers_setText, subscribers_withBuffer, subscribers_note]
      rfl
  | detach kind => exact subscribers_withBuffer w kind _
  | takeEdit kind =>
    rw [perform_takeEdit, takeEdit]
    split
    · rfl
    · exact subscribers_setText w kind _
  | configure config => exact subscribers_passAll _
  | useAnalyzer analyzer => simp [perform, useAnalyzer, Op.newSubscribers]
  | subscribe => rfl
  | build => exact subscribers_passAll w

/-- An operation that runs a pass adds no subscriber. -/
theorem subscribers_of_mem_passesOf {op : Op} {p : Pass} (h : p ∈ w.passesOf op) :
    p.after.subscribers = w.subscribers := by
  have both : ∀ v : Workspace, p ∈ v.passesOverAll → p.after.subscribers = v.subscribers := by
    intro v hp
    rcases List.mem_cons.mp hp with rfl | hp
    · exact subscribers_pass v .c
    · rw [List.mem_singleton.mp hp]
      exact subscribers_passAll v
  have one : op.newSubscribers = 0 → ∀ kind, p ∈ [Pass.mk kind (w.perform op).1] →
      p.after.subscribers = w.subscribers := by
    intro none kind hp
    rw [List.mem_singleton.mp hp, subscribers_perform, none, Nat.add_zero]
  cases op with
  | setText kind text => exact one rfl kind h
  | check kind => exact one rfl kind h
  | reset kind => exact one rfl kind h
  | attach kind id =>
    simp only [passesOf] at h
    split at h
    · exact one rfl kind h
    · cases h
  | takeEdit kind =>
    simp only [passesOf] at h
    split at h
    · exact one rfl kind h
    · cases h
  | useAnalyzer analyzer => exact one rfl analyzer.kind h
  | configure config => exact both { w with config } h
  | build => exact both w h
  | addEditor text => cases h
  | edit id text => cases h
  | detach kind => cases h
  | subscribe => cases h

theorem subscribers_le_serve (w : Workspace) (request : Request) :
    w.subscribers ≤ (w.serve request).1.subscribers := by
  cases request with
  | perform op =>
    have grown := subscribers_perform w op
    simp only [serve]
    omega
  | report kind => exact Nat.le_refl _
  | combined => exact Nat.le_refl _

theorem subscribers_of_mem_passesOfRequest {request : Request} {p : Pass}
    (h : p ∈ w.passesOfRequest request) : p.after.subscribers = w.subscribers := by
  cases request with
  | perform op => exact subscribers_of_mem_passesOf h
  | report kind => cases h
  | combined => cases h

theorem subscribers_le_serveAll (w : Workspace) (requests : List Request) :
    w.subscribers ≤ (w.serveAll requests).subscribers := by
  induction requests generalizing w with
  | nil => exact Nat.le_refl _
  | cons request requests ih => exact Nat.le_trans (subscribers_le_serve w request) (ih _)

/-- A pass of a history goes to the subscribers before it and to none that come after it. -/
theorem subscribers_of_mem_history {requests : List Request} {p : Pass}
    (h : p ∈ w.history requests) :
    w.subscribers ≤ p.after.subscribers ∧
      p.after.subscribers ≤ (w.serveAll requests).subscribers := by
  induction requests generalizing w with
  | nil => cases h
  | cons request requests ih =>
    have first := subscribers_le_serve w request
    rcases List.mem_append.mp h with now | later
    · rw [subscribers_of_mem_passesOfRequest now]
      exact ⟨Nat.le_refl _, Nat.le_trans first (subscribers_le_serveAll _ requests)⟩
    · obtain ⟨lower, upper⟩ := ih later
      exact ⟨Nat.le_trans first lower, upper⟩

/-! ## What one subscriber receives -/

/-- Of the deliveries of a pass a subscriber gets one, if it is there. -/
theorem received_of_pass (p : Pass) (subscriber : Nat) :
    (p.deliveries.filter (·.subscriber == subscriber)).map Delivery.update =
      if 1 ≤ subscriber ∧ subscriber ≤ p.after.subscribers then [p.update] else [] := by
  have own : ((fun d : Delivery => d.subscriber == subscriber) ∘ (Delivery.mk · p.update)) =
      (· == subscriber) := rfl
  rw [Pass.deliveries, List.filter_map, own, List.filter_beq, List.map_map, List.map_replicate]
  have member : subscriber ∈ List.range' 1 p.after.subscribers ↔
      1 ≤ subscriber ∧ subscriber ≤ p.after.subscribers := by
    rw [List.mem_range'_1]
    omega
  split
  · next there =>
    rw [List.count_eq_one_of_mem List.nodup_range' (member.mpr there)]
    rfl
  · next absent =>
    rw [List.count_eq_zero_of_not_mem (mt member.mp absent)]
    rfl

/-- A subscriber that every pass of a list knows receives each of them once. -/
theorem received_of_known {ps : List Pass} {subscriber : Nat} (positive : 1 ≤ subscriber)
    (known : ∀ p ∈ ps, subscriber ≤ p.after.subscribers) :
    ((ps.flatMap Pass.deliveries).filter (·.subscriber == subscriber)).map Delivery.update =
      ps.map Pass.update := by
  induction ps with
  | nil => rfl
  | cons p ps ih =>
    have here := known p List.mem_cons_self
    rw [List.flatMap_cons, List.filter_append, List.map_append, received_of_pass,
      if_pos ⟨positive, here⟩, ih fun q hq => known q (List.mem_cons_of_mem _ hq), List.map_cons,
      List.singleton_append]

/-- A subscriber that no pass of a list knows receives none of them. -/
theorem received_of_unknown {ps : List Pass} {subscriber : Nat}
    (unknown : ∀ p ∈ ps, p.after.subscribers < subscriber) :
    ((ps.flatMap Pass.deliveries).filter (·.subscriber == subscriber)).map Delivery.update =
      [] := by
  induction ps with
  | nil => rfl
  | cons p ps ih =>
    have here := unknown p List.mem_cons_self
    rw [List.flatMap_cons, List.filter_append, List.map_append, received_of_pass,
      if_neg (by omega), ih fun q hq => unknown q (List.mem_cons_of_mem _ hq), List.append_nil]

end Subscribers

theorem deliveries_start (config : LintConfig) : (start config).deliveries = [] := by
  simp [start, passAll, pass, deliver]

/-- **Nobody misses a pass, and nobody is told of one twice.** After any requests the passes that
were written down are those of the history. Each of them was delivered to all subscribers of its
time, in the order in which they came, as its buffer stood behind it, and nothing else was
delivered. So whoever subscribes then receives the passes of all that follows, each once and in
order, and no earlier one. -/
theorem told_serveAll (config : LintConfig) (requests : List Request) :
    let w := start config
    let v := w.serveAll requests
    v.passLog = w.passLog ++ (w.history requests).map Pass.entry ∧
    v.deliveries = (w.history requests).flatMap Pass.deliveries ∧
    ∀ more : List Request,
      let (u, subscriber) := v.subscribe
      (u.serveAll more).received subscriber = (u.history more).map Pass.update := by
  intro w v
  have told : Tells w (w.history requests) v := tells_serveAll (inPlace_start config) requests
  have earlier : v.deliveries = (w.history requests).flatMap Pass.deliveries := by
    rw [told.deliveries, deliveries_start, List.nil_append]
  refine ⟨told.log, earlier, ?_⟩
  intro more
  show (v.subscribe.1.serveAll more).received (v.subscribers + 1) =
    (v.subscribe.1.history more).map Pass.update
  have own : v.subscribe.1.InPlace := by
    intro kind
    rw [buffer_subscribe]
    exact (inPlace_start config).serveAll requests kind
  have later : (v.subscribe.1.serveAll more).deliveries =
      v.deliveries ++ (v.subscribe.1.history more).flatMap Pass.deliveries :=
    (tells_serveAll own more).deliveries
  rw [received, later, earlier, List.filter_append, List.map_append, received_of_unknown,
    received_of_known, List.nil_append]
  · exact Nat.succ_le_succ (Nat.zero_le _)
  · -- the passes after the subscription know the new subscriber
    intro p hp
    exact (subscribers_of_mem_history hp).1
  · -- the passes before it do not
    intro p hp
    exact Nat.lt_succ_of_le (subscribers_of_mem_history hp).2

/-- A subscription between two operations hears of the passes of the second one only, which are two
for a build. -/
example :
    ((((start .default).serveAll [.perform (.check .c)]).subscribe.1).history
      [.perform .build, .combined]).map Pass.kind = [.c, .buildconf] := by
  rfl

end Workspace

end LiveLint
