import LiveLint.Proofs.Buildconf.Moved
import Mathlib.Data.List.Perm.Basic

/-!
# Rearranged documents have the same findings

Two documents are rearranged if their lines, blocks and directives pair up, in whatever order and on
whatever lines. They have the same findings then, also in whatever order and on whatever lines
(`documentFindings_rearranged`).

Most checks look at one block or one directive at a time, and what they ask of the rest of the
document is what occurs there. Five look for the first of something, or for the second: a repeat, a
second workspace, a second header, a tab, a bare source. Which one they find depends on the order,
but what they say of it does not, and neither does how often they say it: a key is repeated once
less than it is there (`count_repeats`), and a bare source is told once if there is any
(`bareFindings_eq`).
-/

namespace LiveLint.Buildconf

/-! ## Lists that pair up -/

/-- The members of two lists pair up, in whatever order. -/
def Rearranged {α β : Type} (R : α → β → Prop) (xs : List α) (ys : List β) : Prop :=
  ∃ zs, xs.Perm zs ∧ List.Forall₂ R zs ys

namespace Rearranged

variable {α β γ δ : Type} {R : α → β → Prop} {S : γ → δ → Prop}
variable {xs xs' : List α} {ys ys' : List β}

theorem of_forall₂ (h : List.Forall₂ R xs ys) : Rearranged R xs ys :=
  ⟨xs, .refl xs, h⟩

theorem of_perm_left (p : xs.Perm xs') (h : Rearranged R xs' ys) : Rearranged R xs ys := by
  obtain ⟨zs, perm, related⟩ := h
  exact ⟨zs, p.trans perm, related⟩

theorem of_perm_right (h : Rearranged R xs ys) (p : ys.Perm ys') : Rearranged R xs ys' := by
  obtain ⟨zs, perm, related⟩ := h
  -- pairing and reordering can be done in either order
  have paired : Relation.Comp (List.Forall₂ R) List.Perm zs ys' := ⟨ys, related, p⟩
  rw [List.forall₂_comp_perm_eq_perm_comp_forall₂] at paired
  obtain ⟨ws, perm', related'⟩ := paired
  exact ⟨ws, perm.trans perm', related'⟩

/-- What has the same keys pairs up. -/
theorem of_map_perm {f : α → γ} {g : β → γ} (p : (xs.map f).Perm (ys.map g))
    (hR : ∀ x y, f x = g y → R x y) : Rearranged R xs ys := by
  have keyed : Rearranged (fun x k => f x = k) xs (xs.map f) :=
    of_forall₂ (List.forall₂_map_right_iff.mpr (List.forall₂_same.mpr fun _ _ => rfl))
  obtain ⟨zs, perm, related⟩ := keyed.of_perm_right p
  exact ⟨zs, perm, (List.forall₂_map_right_iff.mp related).imp hR⟩

theorem append (h : Rearranged R xs ys) (h' : Rearranged R xs' ys') :
    Rearranged R (xs ++ xs') (ys ++ ys') := by
  obtain ⟨zs, perm, related⟩ := h
  obtain ⟨zs', perm', related'⟩ := h'
  exact ⟨zs ++ zs', perm.append perm', List.rel_append related related'⟩

/-- Two stretches that change places. -/
theorem swap (h : List.Forall₂ R xs ys) (h' : List.Forall₂ R xs' ys') :
    Rearranged R (xs ++ xs') (ys' ++ ys) :=
  ⟨xs' ++ xs, List.perm_append_comm, List.rel_append h' h⟩

theorem filter (h : Rearranged R xs ys) {p : α → Bool} {q : β → Bool}
    (hp : ∀ x y, R x y → p x = q y) : Rearranged R (xs.filter p) (ys.filter q) := by
  obtain ⟨zs, perm, related⟩ := h
  exact ⟨zs.filter p, perm.filter p, filter_forall₂ related hp⟩

theorem filterMap (h : Rearranged R xs ys) {f : α → Option γ} {g : β → Option δ}
    (hf : ∀ x y, R x y → Option.Rel S (f x) (g y)) :
    Rearranged S (xs.filterMap f) (ys.filterMap g) := by
  obtain ⟨zs, perm, related⟩ := h
  exact ⟨zs.filterMap f, perm.filterMap f, List.rel_filterMap (fun x y hxy => hf x y hxy) related⟩

theorem map (h : Rearranged R xs ys) {f : α → γ} {g : β → δ} (hf : ∀ x y, R x y → S (f x) (g y)) :
    Rearranged S (xs.map f) (ys.map g) := by
  obtain ⟨zs, perm, related⟩ := h
  exact ⟨zs.map f, perm.map f, List.rel_map (fun x y hxy => hf x y hxy) related⟩

theorem flatMap (h : Rearranged R xs ys) {f : α → List γ} {g : β → List δ}
    (hf : ∀ x y, R x y → List.Forall₂ S (f x) (g y)) :
    Rearranged S (xs.flatMap f) (ys.flatMap g) := by
  obtain ⟨zs, perm, related⟩ := h
  exact ⟨zs.flatMap f, perm.flatMap_right f, List.rel_flatMap related fun x y hxy => hf x y hxy⟩

/-- Two things made of each member can be made one after the other. -/
theorem flatMap_append {f g : α → List γ} {f' g' : β → List δ}
    (h : Rearranged S (xs.flatMap f) (ys.flatMap f'))
    (h' : Rearranged S (xs.flatMap g) (ys.flatMap g')) :
    Rearranged S (xs.flatMap fun x => f x ++ g x) (ys.flatMap fun y => f' y ++ g' y) := by
  apply of_perm_left (List.flatMap_append_perm xs f g).symm
  exact (h.append h').of_perm_right (List.flatMap_append_perm ys f' g')

theorem map_perm (h : Rearranged R xs ys) {f : α → γ} {g : β → γ}
    (hf : ∀ x y, R x y → f x = g y) : (xs.map f).Perm (ys.map g) := by
  obtain ⟨zs, perm, related⟩ := h
  rw [← map_eq_of_forall₂ related hf]
  exact perm.map f

theorem perm {ys : List α} (h : Rearranged (· = ·) xs ys) : xs.Perm ys := by
  obtain ⟨zs, perm, related⟩ := h
  rwa [← eq_of_forall₂ related]

theorem length_eq (h : Rearranged R xs ys) : xs.length = ys.length := by
  obtain ⟨zs, perm, related⟩ := h
  exact perm.length_eq.trans related.length_eq

theorem isEmpty_eq (h : Rearranged R xs ys) : xs.isEmpty = ys.isEmpty := by
  obtain ⟨zs, perm, related⟩ := h
  exact perm.isEmpty_eq.trans (isEmpty_eq_of_forall₂ related)

theorem any_eq (h : Rearranged R xs ys) {p : α → Bool} {q : β → Bool}
    (hp : ∀ x y, R x y → p x = q y) : xs.any p = ys.any q := by
  obtain ⟨zs, perm, related⟩ := h
  exact perm.any_eq.trans (any_eq_of_forall₂ related hp)

theorem countP_eq (h : Rearranged R xs ys) {p : α → Bool} {q : β → Bool}
    (hp : ∀ x y, R x y → p x = q y) : xs.countP p = ys.countP q := by
  obtain ⟨zs, perm, related⟩ := h
  exact (perm.countP_eq p).trans (countP_eq_of_forall₂ related hp)

/-- The first of a sort need not be paired with the first, but there is one on both sides. -/
theorem find? (h : Rearranged R xs ys) {p : α → Bool} {q : β → Bool}
    (hp : ∀ x y, R x y → p x = q y) :
    Option.Rel (fun _ _ => True) (xs.find? p) (ys.find? q) := by
  have same := (h.filter hp).isEmpty_eq
  rw [← List.head?_filter, ← List.head?_filter]
  cases found : xs.filter p with
  | nil =>
    rw [found] at same
    rw [List.isEmpty_iff.mp same.symm]
    exact .none
  | cons x _ =>
    cases found' : ys.filter q with
    | nil =>
      rw [found, found'] at same
      cases same
    | cons y _ => exact .some trivial

end Rearranged

/-! ## Repeats -/

section Repeats

variable {α : Type} (key : α → String)

theorem count_repeatsAfter (k : String) (seen : List String) (xs : List α) :
    ((((markRepeatsAfter key seen xs).filter (·.2)).map (·.1)).map key).count k =
      if k ∈ seen then (xs.map key).count k else (xs.map key).count k - 1 := by
  induction xs generalizing seen with
  | nil => simp [markRepeatsAfter]
  | cons x xs ih =>
    have later := ih (key x :: seen)
    rw [List.map_cons, List.count_cons]
    by_cases met : key x ∈ seen
    · -- a key that was seen before is a repeat, whether it is this one or another
      have kept : (markRepeatsAfter key seen (x :: xs)).filter (·.2) =
          (x, true) :: (markRepeatsAfter key (key x :: seen) xs).filter (·.2) := by
        simp [markRepeatsAfter, met]
      have same : k ∈ key x :: seen ↔ k ∈ seen := by
        rw [List.mem_cons]
        refine or_iff_right_of_imp ?_
        rintro rfl
        exact met
      rw [kept, List.map_cons, List.map_cons, List.count_cons, later]
      simp only [same]
      by_cases this : key x = k
      · subst this
        simp [met]
      · simp [this]
    · have dropped : (markRepeatsAfter key seen (x :: xs)).filter (·.2) =
          (markRepeatsAfter key (key x :: seen) xs).filter (·.2) := by
        simp [markRepeatsAfter, met]
      rw [dropped, later]
      by_cases this : key x = k
      · subst this
        simp [met]
      · simp [this, Ne.symm this]

/-- A key is repeated once less than it is there. -/
theorem count_repeats (k : String) (xs : List α) :
    ((repeats key xs).map key).count k = (xs.map key).count k - 1 := by
  have counted := count_repeatsAfter key k [] xs
  rwa [if_neg List.not_mem_nil] at counted

theorem map_repeats_perm {xs ys : List α} (h : (xs.map key).Perm (ys.map key)) :
    ((repeats key xs).map key).Perm ((repeats key ys).map key) := by
  rw [List.perm_iff_count]
  intro k
  rw [count_repeats, count_repeats, h.count_eq]

/-- To report on the marked ones is to report on the repeats. -/
theorem flatMap_markRepeats (xs : List α) (f : α → Finding) :
    ((markRepeats key xs).flatMap fun x => reportIf x.2 (f x.1)) = (repeats key xs).map f := by
  have marked : ∀ ms : List (α × Bool),
      (ms.flatMap fun x => reportIf x.2 (f x.1)) = ((ms.filter (·.2)).map (·.1)).map f := by
    intro ms
    induction ms with
    | nil => rfl
    | cons m ms ih =>
      rw [List.flatMap_cons, ih]
      cases repeated : m.2 <;> simp [reportIf, repeated]
  exact marked (markRepeats key xs)

end Repeats

/-! ## Rearranged documents -/

/-- Any two lines. -/
def Anywhere (_ _ : Nat) : Prop :=
  True

/-- The same line but for its number. -/
structure Line.SameText (line line' : Line) : Prop where
  raw : line.raw = line'.raw
  kind : line.kind = line'.kind

/-- The lines, blocks and directives of two documents pair up. -/
structure Document.Rearranged (doc doc' : Document) : Prop where
  /-- Where a document begins is not up to the order. -/
  first : doc.meaningfulLines.head?.map Line.trimmed = doc'.meaningfulLines.head?.map Line.trimmed
  lines : Buildconf.Rearranged Line.SameText doc.lines doc'.lines
  blocks : Buildconf.Rearranged (Block.Alike Anywhere) doc.blocksInOrder doc'.blocksInOrder
  directives :
    Buildconf.Rearranged (Directive.Alike Anywhere) doc.directivesInOrder doc'.directivesInOrder

/-- The same findings, in whatever order and on whatever lines. -/
abbrev Reordered : List Finding → List Finding → Prop :=
  Rearranged (Finding.Moved Anywhere)

namespace Document.Rearranged

variable {doc doc' : Document}

theorem blocksOf (h : doc.Rearranged doc') (tag : String) :
    Buildconf.Rearranged (Block.Alike Anywhere) (doc.blocksOf tag) (doc'.blocksOf tag) := by
  refine h.blocks.filter ?_
  intro b b' hb
  rw [hb.tag_eq]

theorem directivesOf (h : doc.Rearranged doc') (name : String) :
    Buildconf.Rearranged (Directive.Alike Anywhere) (doc.directivesOf name)
      (doc'.directivesOf name) := by
  refine h.directives.filter ?_
  intro d d' hd
  rw [hd.name_eq]

theorem named (h : doc.Rearranged doc') (tag : String) :
    Buildconf.Rearranged (Placed Anywhere) (doc.named tag) (doc'.named tag) := by
  refine (h.blocksOf tag).filterMap ?_
  intro b b' hb
  rw [← hb.name_eq]
  cases b.name with
  | none => exact .none
  | some name => exact .some ⟨name, hb.line⟩

theorem names_perm (h : doc.Rearranged doc') (tag : String) :
    ((doc.named tag).map (·.1)).Perm ((doc'.named tag).map (·.1)) := by
  refine (h.named tag).map_perm ?_
  rintro _ _ ⟨name, _⟩
  rfl

end Document.Rearranged

/-- The texts that repeat one are the same. -/
theorem repeats_rearranged {xs ys : List (String × Nat)} (h : Rearranged (Placed Anywhere) xs ys) :
    Rearranged (Placed Anywhere) (repeats (·.1) xs) (repeats (·.1) ys) := by
  have keys : (xs.map (·.1)).Perm (ys.map (·.1)) := by
    refine h.map_perm ?_
    rintro _ _ ⟨key, _⟩
    rfl
  refine .of_map_perm (map_repeats_perm Prod.fst keys) ?_
  rintro ⟨key, n⟩ ⟨key', n'⟩ same
  obtain rfl : key = key' := same
  exact ⟨key, trivial⟩

theorem reordered_reportIf {c c' : Bool} {f f' : Finding} (same : c = c')
    (h : f.Moved Anywhere f') : Reordered (reportIf c f) (reportIf c' f') :=
  .of_forall₂ (moved_reportIf same h)

/-- As many findings of one kind. -/
theorem moved_of_length_eq {α : Type} {f : α → Finding} (hf : ∀ x y, (f x).Moved Anywhere (f y))
    {xs ys : List α} (same : xs.length = ys.length) : Moved Anywhere (xs.map f) (ys.map f) := by
  induction xs generalizing ys with
  | nil =>
    rw [List.eq_nil_of_length_eq_zero same.symm]
    exact .nil
  | cons x xs ih =>
    cases ys with
    | nil => cases same
    | cons y ys => exact .cons (hf x y) (ih (Nat.succ.inj same))

theorem moved_option {α : Type} {f : α → Finding} (hf : ∀ x y, (f x).Moved Anywhere (f y))
    {o o' : Option α} (h : Option.Rel (fun _ _ => True) o o') :
    Moved Anywhere (o.map f).toList (o'.map f).toList := by
  cases h with
  | none => exact .nil
  | some => exact .cons (hf _ _) .nil

variable {doc doc' : Document}

/-! ## Header and layout -/

theorem firstLineFindings_rearranged (h : doc.Rearranged doc') :
    Reordered (firstLineFindings doc) (firstLineFindings doc') := by
  apply Rearranged.of_forall₂
  have first := h.first
  unfold firstLineFindings
  cases start : doc.meaningfulLines.head? with
  | none =>
    rw [start] at first
    rw [Option.map_eq_none_iff.mp first.symm]
    exact .cons ⟨rfl, rfl, .none⟩ .nil
  | some line =>
    rw [start] at first
    obtain ⟨line', start', trimmed⟩ := Option.map_eq_some_iff.mp first.symm
    rw [start']
    dsimp only
    rw [trimmed]
    split
    · exact .nil
    · exact .cons ⟨rfl, rfl, .some trivial⟩ (.cons ⟨rfl, rfl, .none⟩ .nil)

theorem headerFindings_rearranged (h : doc.Rearranged doc') :
    Reordered (headerFindings doc) (headerFindings doc') := by
  have valid : Rearranged Line.SameText (validHeaders doc) (validHeaders doc') := by
    refine h.lines.filter ?_
    intro line line' same
    rw [same.kind]
  refine (firstLineFindings_rearranged h).append (.append ?_ ?_)
  · exact reordered_reportIf valid.isEmpty_eq ⟨rfl, rfl, .none⟩
  · apply Rearranged.of_forall₂
    refine moved_of_length_eq ?_ ?_
    · intro line line'
      exact ⟨rfl, rfl, .some trivial⟩
    · rw [List.length_tail, List.length_tail, valid.length_eq]

theorem layoutFindings_rearranged (h : doc.Rearranged doc') :
    Reordered (layoutFindings doc) (layoutFindings doc') := by
  have balance : isBalanced doc = isBalanced doc' := by
    unfold isBalanced
    congr 1
    · refine h.lines.countP_eq ?_
      intro line line' same
      rw [startsWithBracket, Line.trimmed, same.raw]
      rfl
    · refine h.lines.countP_eq ?_
      intro line line' same
      rw [same.kind]
  refine .append (.append ?_ ?_) (reordered_reportIf (congrArg not balance) ⟨rfl, rfl, .none⟩)
  · refine h.lines.filterMap ?_
    intro line line' same
    unfold unknownTag?
    rw [← same.kind]
    cases line.kind with
    | opener tag name =>
      dsimp only
      split
      · exact .none
      · exact .some ⟨rfl, rfl, .some trivial⟩
    | blank => exact .none
    | comment => exact .none
    | header valid => exact .none
    | closer => exact .none
    | directive name rest => exact .none
    | text => exact .none
  · apply Rearranged.of_forall₂
    refine moved_option ?_ (h.lines.find? ?_)
    · intro line line'
      exact ⟨rfl, rfl, .some trivial⟩
    · intro line line' same
      rw [hasTab, same.raw, hasTab]

/-! ## The workspace -/

theorem workspaceCountFindings_moved_of_length {bs bs' : List Block}
    (same : bs.length = bs'.length) :
    Moved Anywhere (workspaceCountFindings bs) (workspaceCountFindings bs') := by
  rcases bs with _ | ⟨b, _ | ⟨second, rest⟩⟩ <;> rcases bs' with _ | ⟨b', _ | ⟨second', rest'⟩⟩ <;>
    simp at same
  · exact .cons ⟨rfl, rfl, .none⟩ .nil
  · exact .nil
  · exact .cons ⟨rfl, rfl, .some trivial⟩ .nil

theorem settingFindings_congr {profiles profiles' : List String} (h : profiles.Perm profiles') :
    settingFindings profiles = settingFindings profiles' := by
  funext set
  unfold settingFindings
  simp only [h.contains_eq]

theorem workspaceFindings_rearranged (h : doc.Rearranged doc') :
    Reordered (workspaceFindings doc) (workspaceFindings doc') := by
  have workspaces := h.blocksOf "workspace"
  dsimp only [workspaceFindings, declaredProfiles]
  rw [settingFindings_congr (h.names_perm "profile")]
  refine .append (.of_forall₂ (workspaceCountFindings_moved_of_length workspaces.length_eq)) ?_
  refine workspaces.flatMap ?_
  intro b b' hb
  refine List.rel_append (unsetKeys_moved hb) ?_
  exact moved_flatMap (hb.directivesOf "set") fun _ _ hd => settingFindings_moved _ hd

/-! ## Tools and runs -/

theorem absences_rearranged (h : doc.Rearranged doc') :
    Reordered (absences doc) (absences doc') := by
  refine .append (.append (.append ?_ ?_) ?_) ?_
  · exact reordered_reportIf (h.named "tool").isEmpty_eq ⟨rfl, rfl, .none⟩
  · exact reordered_reportIf (h.named "bake").isEmpty_eq ⟨rfl, rfl, .none⟩
  · exact reordered_reportIf (h.named "run").isEmpty_eq ⟨rfl, rfl, .none⟩
  · exact reordered_reportIf (h.directivesOf "exec").isEmpty_eq ⟨rfl, rfl, .none⟩

theorem repeatedNames_rearranged (h : doc.Rearranged doc') :
    Reordered (repeatedNames doc) (repeatedNames doc') := by
  refine .append ?_ ?_
  · refine (repeats_rearranged (h.named "tool")).map ?_
    rintro _ _ ⟨name, line⟩
    exact ⟨rfl, rfl, .some line⟩
  · refine (repeats_rearranged (h.named "bake")).map ?_
    rintro _ _ ⟨name, line⟩
    exact ⟨rfl, rfl, .some line⟩

/-- A check of the names of a tag that looks them up in a list. -/
theorem lookup_rearranged {xs ys : List (String × Nat)} (h : Rearranged (Placed Anywhere) xs ys)
    {names names' : List String} (same : names.Perm names') {found : String → Nat → Finding}
    (hfound : ∀ name n n', (found name n).Moved Anywhere (found name n')) :
    Reordered (xs.flatMap fun (name, line) => reportIf (!names.contains name) (found name line))
      (ys.flatMap fun (name, line) => reportIf (!names'.contains name) (found name line)) := by
  refine h.flatMap ?_
  rintro _ _ ⟨name, line⟩
  exact moved_reportIf (congrArg not same.contains_eq) (hfound name _ _)

theorem presenceFindings_rearranged (h : doc.Rearranged doc') :
    Reordered (presenceFindings doc) (presenceFindings doc') := by
  refine .append (.append ((absences_rearranged h).append (repeatedNames_rearranged h)) ?_) ?_
  · exact lookup_rearranged (h.named "tool") (h.names_perm "run") fun _ _ _ =>
      ⟨rfl, rfl, .some trivial⟩
  · exact lookup_rearranged (h.named "run") (h.names_perm "tool") fun _ _ _ =>
      ⟨rfl, rfl, .some trivial⟩

/-- A check of the blocks that have a name. -/
theorem named_rearranged {bs bs' : List Block} {check : Block → String → List Finding}
    (h : Rearranged (Block.Alike Anywhere) bs bs')
    (hcheck : ∀ b b' name, b.Alike Anywhere b' → Moved Anywhere (check b name) (check b' name)) :
    Reordered (bs.flatMap fun b => (b.name.map (check b)).getD [])
      (bs'.flatMap fun b => (b.name.map (check b)).getD []) := by
  obtain ⟨bs'', perm, alike⟩ := h
  exact ⟨_, perm.flatMap_right _, moved_named alike hcheck⟩

theorem toolFindings_rearranged (h : doc.Rearranged doc') :
    Reordered (toolFindings doc) (toolFindings doc') := by
  refine .append ?_ ?_
  · exact named_rearranged (h.blocksOf "tool") fun _ _ name hb => namedToolFindings_moved hb name
  · exact (h.directivesOf "exec").flatMap fun _ _ hd => commandFindings_moved hd

theorem runFindings_rearranged (h : doc.Rearranged doc') :
    Reordered (runFindings doc) (runFindings doc') :=
  named_rearranged (h.blocksOf "run") fun _ _ tool hb => namedRunFindings_moved hb tool

/-! ## Bakes, outputs and sources -/

theorem bakeFindings_rearranged (h : doc.Rearranged doc') :
    Reordered (bakeFindings doc) (bakeFindings doc') :=
  named_rearranged (h.blocksOf "bake") fun _ _ name hb => namedBakeFindings_moved hb name

theorem outputPaths_rearranged (h : doc.Rearranged doc') :
    Rearranged (Placed Anywhere) (outputPaths doc) (outputPaths doc') := by
  refine (h.directivesOf "output").filterMap ?_
  intro d d' hd
  rw [← hd.arg?_eq]
  cases d.arg? 1 with
  | none => exact .none
  | some text => exact .some ⟨text, hd.line⟩

/-- Whether a path is a repeat decides only on the last thing said of it. -/
theorem pathFindings_eq (path : String) (line : Nat) (isRepeat : Bool) :
    pathFindings path line isRepeat =
      pathFindings path line false ++ reportIf isRepeat (.repeatedOutput path line) := by
  simp [pathFindings, reportIf]

theorem outputFindings_rearranged (h : doc.Rearranged doc') :
    Reordered (outputFindings doc) (outputFindings doc') := by
  have paths := outputPaths_rearranged h
  have apart : ∀ doc : Document, outputFindings doc =
      (markRepeats (·.1) (outputPaths doc)).flatMap fun x =>
        pathFindings x.1.1 x.1.2 false ++ reportIf x.2 (.repeatedOutput x.1.1 x.1.2) := by
    intro doc
    unfold outputFindings
    congr 1
    funext x
    exact pathFindings_eq x.1.1 x.1.2 x.2
  -- without their marks the paths are what they were
  have unmarked : ∀ xs : List (String × Nat),
      ((markRepeats (·.1) xs).flatMap fun x => pathFindings x.1.1 x.1.2 false) =
        xs.flatMap fun x => pathFindings x.1 x.2 false := by
    intro xs
    have through := List.flatMap_map Prod.fst (fun x : String × Nat => pathFindings x.1 x.2 false)
      (markRepeats (·.1) xs)
    rw [← through, map_fst_markRepeats]
  rw [apart, apart]
  refine .flatMap_append ?_ ?_
  · rw [unmarked, unmarked]
    refine paths.flatMap ?_
    rintro _ _ ⟨path, line⟩
    refine List.rel_append (List.rel_append (List.rel_append ?_ ?_) ?_) ?_
    · exact moved_reportIf rfl ⟨rfl, rfl, .some line⟩
    · exact moved_reportIf rfl ⟨rfl, rfl, .some line⟩
    · exact moved_reportIf rfl ⟨rfl, rfl, .some line⟩
    · exact moved_reportIf rfl ⟨rfl, rfl, .some line⟩
  · rw [flatMap_markRepeats (·.1) (outputPaths doc) fun x => .repeatedOutput x.1 x.2,
      flatMap_markRepeats (·.1) (outputPaths doc') fun x => .repeatedOutput x.1 x.2]
    refine (repeats_rearranged paths).map ?_
    rintro _ _ ⟨path, line⟩
    exact ⟨rfl, rfl, .some line⟩

/-- The first bare source is told once, if no two sources share a line. -/
theorem bareFindings_eq {makes : List Directive} (h : makes.Pairwise (·.line < ·.line)) :
    (makes.flatMap fun d => reportIf (hasBarePattern d &&
        (makes.find? hasBarePattern).map Directive.line == some d.line) (.bareSource d.line)) =
      ((makes.find? hasBarePattern).map fun d => Finding.bareSource d.line).toList := by
  induction makes with
  | nil => rfl
  | cons d ds ih =>
    obtain ⟨below, later⟩ := List.pairwise_cons.mp h
    rw [List.flatMap_cons]
    cases bare : hasBarePattern d with
    | false =>
      rw [List.find?_cons_of_neg (by simp [bare]), ih later]
      rfl
    | true =>
      rw [List.find?_cons_of_pos bare]
      have others : (ds.flatMap fun e => reportIf (hasBarePattern e &&
          (some d).map Directive.line == some e.line) (.bareSource e.line)) = [] := by
        refine List.flatMap_eq_nil_iff.mpr ?_
        intro e he
        have ne : d.line ≠ e.line := Nat.ne_of_lt (below e he)
        simp [reportIf, ne]
      rw [others]
      simp [reportIf]

/-- What is said of a source besides that it is bare. -/
theorem patternFindings_eq (first : Option Nat) (make : Directive) :
    patternFindings first make =
      (match make.arg? 1 with
       | none => []
       | some kind => reportIf (!sourceKinds.contains kind) (.unknownSourceKind kind make.line)) ++
      reportIf (hasBarePattern make && first == some make.line) (.bareSource make.line) ++
      reportIf (hasEmptyPattern make) (.emptySource make.line) :=
  rfl

theorem sourceFindings_rearranged (h : doc.Rearranged doc')
    (sorted : doc.directivesInOrder.Pairwise (·.line < ·.line))
    (sorted' : doc'.directivesInOrder.Pairwise (·.line < ·.line)) :
    Reordered (sourceFindings doc) (sourceFindings doc') := by
  have makes := h.directivesOf "make"
  dsimp only [sourceFindings]
  simp only [funext (patternFindings_eq _)]
  refine .flatMap_append (.flatMap_append ?_ ?_) ?_
  · refine makes.flatMap ?_
    intro d d' hd
    rw [← hd.arg?_eq]
    split
    · exact .nil
    · exact moved_reportIf rfl ⟨rfl, rfl, .some hd.line⟩
  · have below : (doc.directivesOf "make").Pairwise (·.line < ·.line) := sorted.filter _
    have below' : (doc'.directivesOf "make").Pairwise (·.line < ·.line) := sorted'.filter _
    rw [bareFindings_eq below, bareFindings_eq below']
    apply Rearranged.of_forall₂
    refine moved_option ?_ (makes.find? fun _ _ hd => hasBarePattern_eq hd)
    intro d d'
    exact ⟨rfl, rfl, .some trivial⟩
  · refine makes.flatMap ?_
    intro d d' hd
    exact moved_reportIf (hasEmptyPattern_eq hd) ⟨rfl, rfl, .some hd.line⟩

/-! ## References -/

theorem mentioned_perm {ds ds' : List Directive}
    (h : Rearranged (Directive.Alike Anywhere) ds ds') : (mentioned ds).Perm (mentioned ds') := by
  refine (h.flatMap ?_).perm
  intro d d' hd
  rw [hd.args_eq]
  exact List.forall₂_same.mpr fun _ _ => rfl

theorem hasExport_rearranged (h : doc.Rearranged doc') : hasExport doc = hasExport doc' := by
  refine (h.blocksOf "export").any_eq ?_
  intro b b' hb
  refine any_eq_of_forall₂ (hb.directivesOf "ref") ?_
  intro d d' hd
  rw [hd.args_eq]

theorem exportFindings_rearranged (h : doc.Rearranged doc') :
    Reordered (exportFindings doc) (exportFindings doc') := by
  have header : Option.Rel (fun _ _ => True) (doc.lines.find? isHeader)
      (doc'.lines.find? isHeader) := by
    refine h.lines.find? ?_
    intro line line' same
    rw [isHeader, same.kind, isHeader]
  refine reordered_reportIf (congrArg not (hasExport_rearranged h)) ⟨rfl, rfl, ?_⟩
  exact map_optionRel header fun _ _ _ => trivial

theorem unknownTargets_congr {bakes bakes' : List String} (same : bakes.Perm bakes') :
    unknownTargets bakes = unknownTargets bakes' := by
  funext found directives
  unfold unknownTargets
  simp only [same.contains_eq]

theorem unknownTargets_rearranged (bakes : List String) {found : String → Nat → Finding}
    (hfound : ∀ target n n', (found target n).Moved Anywhere (found target n'))
    {ds ds' : List Directive} (h : Rearranged (Directive.Alike Anywhere) ds ds') :
    Reordered (unknownTargets bakes found ds) (unknownTargets bakes found ds') := by
  obtain ⟨ds'', perm, alike⟩ := h
  refine ⟨unknownTargets bakes found ds'', perm.flatMap_right _, ?_⟩
  exact unknownTargets_moved bakes (fun target n n' _ => hfound target n n') alike

theorem referenceFindings_rearranged (h : doc.Rearranged doc') :
    Reordered (referenceFindings doc) (referenceFindings doc') := by
  have refs := h.directivesOf "ref"
  have needs := h.directivesOf "needs"
  dsimp only [referenceFindings]
  rw [unknownTargets_congr (h.names_perm "bake")]
  refine .append (.append (.append ?_ (exportFindings_rearranged h)) ?_) ?_
  · exact lookup_rearranged (h.named "bake") (mentioned_perm (refs.append needs)) fun _ _ _ =>
      ⟨rfl, rfl, .some trivial⟩
  · exact unknownTargets_rearranged _ (fun _ _ _ => ⟨rfl, rfl, .some trivial⟩) refs
  · exact unknownTargets_rearranged _ (fun _ _ _ => ⟨rfl, rfl, .some trivial⟩) needs

/-! ## Inputs and outputs by name -/

theorem firstArguments_perm {ds ds' : List Directive}
    (h : Rearranged (Directive.Alike Anywhere) ds ds') :
    (firstArguments ds).Perm (firstArguments ds') := by
  obtain ⟨ds'', perm, alike⟩ := h
  rw [← firstArguments_eq alike]
  exact perm.filterMap _

theorem inputFindings_congr {ids ids' : List String} (same : ids.Perm ids') :
    inputFindings ids = inputFindings ids' := by
  funext takes
  unfold inputFindings
  simp only [same.contains_eq]

theorem resultFindings_congr {outputs outputs' : List String} (same : outputs.Perm outputs') :
    resultFindings outputs = resultFindings outputs' := by
  funext emits
  unfold resultFindings
  simp only [same.contains_eq]

theorem renamingFindings_rearranged (h : doc.Rearranged doc') :
    Reordered (renamingFindings doc) (renamingFindings doc') := by
  have outputs := h.directivesOf "output"
  have emits := h.directivesOf "emits"
  have renames : ∀ {ds ds' : List Directive}, Rearranged (Directive.Alike Anywhere) ds ds' →
      Rearranged (Directive.Alike Anywhere) (renamesAmong ds) (renamesAmong ds') :=
    fun alike => alike.filter fun _ _ hd => hd.hasKeyword_eq 1 "as"
  dsimp only [renamingFindings]
  rw [inputFindings_congr (firstArguments_perm (h.directivesOf "make")),
    resultFindings_congr (firstArguments_perm outputs), outputs.isEmpty_eq, emits.isEmpty_eq]
  refine .append (.append ?_ ?_) ?_
  · exact (renames (h.directivesOf "takes")).flatMap fun _ _ hd => inputFindings_moved _ hd
  · exact (renames emits).flatMap fun _ _ hd => resultFindings_moved _ hd
  · exact reordered_reportIf rfl ⟨rfl, rfl, .none⟩

/-! ## All checks -/

/-- **Rearranged documents have the same findings, in whatever order and on whatever lines.** -/
theorem documentFindings_rearranged (h : doc.Rearranged doc')
    (sorted : doc.directivesInOrder.Pairwise (·.line < ·.line))
    (sorted' : doc'.directivesInOrder.Pairwise (·.line < ·.line)) :
    Reordered (documentFindings doc) (documentFindings doc') := by
  unfold documentFindings
  refine .append ?_ (layoutFindings_rearranged h)
  refine .append ?_ (renamingFindings_rearranged h)
  refine .append ?_ (sourceFindings_rearranged h sorted sorted')
  refine .append ?_ (referenceFindings_rearranged h)
  refine .append ?_ (runFindings_rearranged h)
  refine .append ?_ (toolFindings_rearranged h)
  refine .append ?_ (outputFindings_rearranged h)
  refine .append ?_ (bakeFindings_rearranged h)
  refine .append ?_ (presenceFindings_rearranged h)
  exact (headerFindings_rearranged h).append (workspaceFindings_rearranged h)

end LiveLint.Buildconf
