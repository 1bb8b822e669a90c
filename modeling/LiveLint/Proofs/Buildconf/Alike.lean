import LiveLint.Proofs.Buildconf.Faithful
import LiveLint.Proofs.Lists

/-!
# Documents that differ in their line numbers

Two documents are alike if they say the same on lines that correspond. `r n n'` reads: line `n` of
the one corresponds to line `n'` of the other. Lines of layout correspond to nothing, and nothing
here asks about them.

`step_alike` is the step of the argument and `ofLines_alike` the run: a reader that is in alike
states and reads alike lines is in alike states again, and lines of layout leave it where it is
(`ofLines_filter`). So alike lines make alike documents, which is `parse_alike`.
-/

namespace LiveLint.Buildconf

variable {r : Nat → Nat → Prop}

/-! ## Lines of layout -/

theorem opener?_cases (t : List Char) :
    opener? t = none ∨ ∃ tag name, opener? t = some (.opener tag name) := by
  unfold opener?
  split
  · dsimp only
    split_ifs
    · exact Or.inl rfl
    · exact Or.inr ⟨_, _, rfl⟩
    · exact Or.inl rfl
  · exact Or.inl rfl

theorem directive?_cases (t : List Char) :
    directive? t = none ∨ ∃ name rest, directive? t = some (.directive name rest) := by
  unfold directive?
  split
  · dsimp only
    split_ifs
    · exact Or.inr ⟨_, _, rfl⟩
    · exact Or.inl rfl
  · exact Or.inl rfl

/-- A line is layout if, trimmed, it is empty or starts with two semicolons. -/
theorem LineKind.ofTrimmed_layout_iff (t : List Char) :
    (ofTrimmed t = .blank ∨ ofTrimmed t = .comment) ↔ t = [] ∨ [';', ';'] <+: t := by
  unfold ofTrimmed
  split_ifs with empty comment header closer
  · simp [List.isEmpty_iff.mp empty]
  · simp [List.isPrefixOf_iff_prefix.mp comment]
  · simp only [or_self, false_iff]
    simpa [List.isPrefixOf_iff_prefix] using And.intro empty comment
  · simp [closer]
  · have other : ((opener? t).orElse fun _ => directive? t).getD .text ≠ .blank ∧
        ((opener? t).orElse fun _ => directive? t).getD .text ≠ .comment := by
      rcases opener?_cases t with opener | ⟨tag, name, opener⟩
      · rcases directive?_cases t with directive | ⟨name, rest, directive⟩ <;>
          simp [opener, directive]
      · simp [opener]
    simp only [other.1, other.2, or_self, false_iff]
    simpa [List.isPrefixOf_iff_prefix] using And.intro empty comment

theorem isMeaningful_iff {line : Line} (kind : line.kind = .ofLine line.raw) :
    line.isMeaningful = true ↔ line.trimmed ≠ [] ∧ ¬[';', ';'] <+: line.trimmed := by
  have layout := LineKind.ofTrimmed_layout_iff line.trimmed
  rw [← not_or, ← layout]
  unfold Line.isMeaningful
  rw [kind]
  simp [LineKind.ofLine, Line.trimmed]

/-! ## What is alike -/

/-- The same line but for its number and its blanks. -/
structure Line.Alike (r : Nat → Nat → Prop) (line line' : Line) : Prop where
  trimmed : line.trimmed = line'.trimmed
  kind : line.kind = line'.kind
  number : r line.number line'.number

/-- The same directive on corresponding lines. -/
inductive Directive.Alike (r : Nat → Nat → Prop) : Directive → Directive → Prop
  | intro (name rest : String) (args : List Argument) {n n' : Nat} (line : r n n') :
      Alike r ⟨name, rest, n, args⟩ ⟨name, rest, n', args⟩

/-- The same block on corresponding lines, with alike things inside. -/
inductive Block.Alike (r : Nat → Nat → Prop) : Block → Block → Prop
  | intro (tag : String) (name parentTag : Option String) {n n' : Nat} {ds ds' : List Directive}
      {bs bs' : List Block} (line : r n n') (directives : List.Forall₂ (Directive.Alike r) ds ds')
      (children : List.Forall₂ (Alike r) bs bs') :
      Alike r ⟨tag, name, n, parentTag, ds, bs⟩ ⟨tag, name, n', parentTag, ds', bs'⟩

/-- States of a reader with alike blocks and directives at the same places. -/
structure Nesting.Alike (r : Nat → Nat → Prop) (s s' : Nesting) : Prop where
  stack : List.Forall₂ (Block.Alike r) s.stack s'.stack
  closed : List.Forall₂ (Block.Alike r) s.closed s'.closed
  loose : List.Forall₂ (Directive.Alike r) s.loose s'.loose

/-- What a check can ask of a document is alike. -/
structure Document.Alike (r : Nat → Nat → Prop) (doc doc' : Document) : Prop where
  lines : List.Forall₂ (Line.Alike r) doc.meaningfulLines doc'.meaningfulLines
  blocks : List.Forall₂ (Block.Alike r) doc.blocksInOrder doc'.blocksInOrder
  directives : List.Forall₂ (Directive.Alike r) doc.directivesInOrder doc'.directivesInOrder

/-! ## Directives and blocks -/

namespace Directive.Alike

variable {d d' : Directive}

theorem line (h : d.Alike r d') : r d.line d'.line := by
  obtain ⟨_, _, _, line⟩ := h
  exact line

theorem name_eq (h : d.Alike r d') : d.name = d'.name := by
  obtain ⟨_, _, _, _⟩ := h
  rfl

theorem args_eq (h : d.Alike r d') : d.args = d'.args := by
  obtain ⟨_, _, _, _⟩ := h
  rfl

end Directive.Alike

namespace Block.Alike

variable {b b' : Block}

theorem line (h : b.Alike r b') : r b.line b'.line := by
  obtain ⟨_, _, _, line, _, _⟩ := h
  exact line

theorem name_eq (h : b.Alike r b') : b.name = b'.name := by
  obtain ⟨_, _, _, _, _, _⟩ := h
  rfl

theorem parentTag_eq (h : b.Alike r b') : b.parentTag = b'.parentTag := by
  obtain ⟨_, _, _, _, _, _⟩ := h
  rfl

theorem directives (h : b.Alike r b') :
    List.Forall₂ (Directive.Alike r) b.directives b'.directives := by
  obtain ⟨_, _, _, _, directives, _⟩ := h
  exact directives

theorem children (h : b.Alike r b') : List.Forall₂ (Block.Alike r) b.children b'.children := by
  obtain ⟨_, _, _, _, _, children⟩ := h
  exact children

theorem tag_eq (h : b.Alike r b') : b.tag = b'.tag := by
  obtain ⟨_, _, _, _, _, _⟩ := h
  rfl

theorem withDirective {d d' : Directive} (h : b.Alike r b') (hd : d.Alike r d') :
    (b.withDirective d).Alike r (b'.withDirective d') := by
  obtain ⟨tag, name, parentTag, line, directives, children⟩ := h
  exact ⟨tag, name, parentTag, line, List.rel_append directives (.cons hd .nil), children⟩

theorem withChild {c c' : Block} (h : b.Alike r b') (hc : c.Alike r c') :
    (b.withChild c).Alike r (b'.withChild c') := by
  obtain ⟨tag, name, parentTag, line, directives, children⟩ := h
  exact ⟨tag, name, parentTag, line, directives, List.rel_append children (.cons hc .nil)⟩

mutual

/-- Walks over alike blocks meet alike blocks. -/
theorem subtree : ∀ (b : Block) {b' : Block}, b.Alike r b' →
    List.Forall₂ (Block.Alike r) b.subtree b'.subtree
  | ⟨_, _, _, _, _, bs⟩, _, h => by
    obtain ⟨_, _, _, line, directives, children⟩ := h
    rw [Block.subtree, Block.subtree]
    exact .cons ⟨_, _, _, line, directives, children⟩ (subtrees bs children)

/-- Walks over alike forests meet alike blocks. -/
theorem subtrees : ∀ (bs : List Block) {bs' : List Block}, List.Forall₂ (Block.Alike r) bs bs' →
    List.Forall₂ (Block.Alike r) (Block.subtrees bs) (Block.subtrees bs')
  | [], _, h => by
    cases h
    rw [Block.subtrees]
    exact .nil
  | b :: bs, _, h => by
    obtain _ | ⟨first, rest⟩ := h
    rw [Block.subtrees, Block.subtrees]
    exact List.rel_append (subtree b first) (subtrees bs rest)

end

end Block.Alike

/-! ## What a reader does -/

namespace Nesting

theorem close_alike {s s' : Nesting} (h : s.Alike r s') : s.close.Alike r s'.close := by
  obtain ⟨stack, closed, loose⟩ := s
  obtain ⟨stack', closed', loose'⟩ := s'
  obtain ⟨hstack, hclosed, hloose⟩ := h
  -- the stacks are equally high, so the closer meets the same case in both
  rcases hstack with _ | ⟨top, _ | ⟨parent, rest⟩⟩
  · exact ⟨.nil, hclosed, hloose⟩
  · exact ⟨.nil, List.rel_append hclosed (.cons top .nil), hloose⟩
  · exact ⟨.cons (parent.withChild top) rest, hclosed, hloose⟩

theorem addDirective_alike {s s' : Nesting} {d d' : Directive} (h : s.Alike r s')
    (hd : d.Alike r d') : (s.addDirective d).Alike r (s'.addDirective d') := by
  obtain ⟨stack, closed, loose⟩ := s
  obtain ⟨stack', closed', loose'⟩ := s'
  obtain ⟨hstack, hclosed, hloose⟩ := h
  rcases hstack with _ | ⟨top, rest⟩
  · exact ⟨.nil, hclosed, List.rel_append hloose (.cons hd .nil)⟩
  · exact ⟨.cons (top.withDirective hd) rest, hclosed, hloose⟩

theorem opened_alike {s s' : Nesting} (h : s.Alike r s') (tag : String) (name : Option String)
    {n n' : Nat} (line : r n n') : (s.opened tag name n).Alike r (s'.opened tag name n') := by
  obtain ⟨stack, closed, loose⟩ := s
  obtain ⟨stack', closed', loose'⟩ := s'
  obtain ⟨hstack, hclosed, hloose⟩ := h
  have parent : stack.head?.map Block.tag = stack'.head?.map Block.tag := by
    rcases hstack with _ | ⟨top, _⟩
    · rfl
    · exact congrArg some top.tag_eq
  refine ⟨?_, hclosed, hloose⟩
  show List.Forall₂ _ (.opened tag name n (stack.head?.map Block.tag) :: stack)
    (.opened tag name n' (stack'.head?.map Block.tag) :: stack')
  rw [parent]
  exact .cons ⟨tag, name, _, line, .nil, .nil⟩ hstack

/-- **One line.** Alike states are alike after alike lines. -/
theorem step_alike {s s' : Nesting} {line line' : Line} (h : s.Alike r s')
    (hline : line.Alike r line') : (s.step line).Alike r (s'.step line') := by
  unfold step
  rw [← hline.kind]
  cases line.kind with
  | opener tag name => exact opened_alike h tag name hline.number
  | closer => exact close_alike h
  | directive name rest => exact addDirective_alike h ⟨name, rest, _, hline.number⟩
  | blank => exact h
  | comment => exact h
  | header valid => exact h
  | text => exact h

/-- **All lines.** Alike lines lead to alike states. -/
theorem ofLines_alike {lines lines' : List Line} (h : List.Forall₂ (Line.Alike r) lines lines') :
    (ofLines lines).Alike r (ofLines lines') := by
  have start_alike : start.Alike r start := ⟨.nil, .nil, .nil⟩
  refine List.rel_foldl (P := Nesting.Alike r) (R := Line.Alike r) ?_ start_alike h
  intro s s' hs line line' hline
  exact step_alike hs hline

theorem closeAll_alike (n : Nat) {s s' : Nesting} (h : s.Alike r s') :
    (closeAll n s).Alike r (closeAll n s') := by
  induction n generalizing s s' with
  | zero => exact h
  | succ n ih => exact ih (close_alike h)

theorem finish_alike {s s' : Nesting} (h : s.Alike r s') : s.finish.Alike r s'.finish := by
  rw [finish, finish, h.stack.length_eq]
  exact closeAll_alike _ h

/-! ## Reading past layout -/

theorem step_of_layout (s : Nesting) {line : Line} (h : line.isMeaningful = false) :
    s.step line = s := by
  unfold Line.isMeaningful at h
  unfold step
  cases kind : line.kind <;> simp [kind] at h <;> rfl

theorem ofLines_filter (lines : List Line) :
    ofLines (lines.filter Line.isMeaningful) = ofLines lines := by
  induction lines using List.reverseRecOn with
  | nil => rfl
  | append_singleton lines line ih =>
    rw [List.filter_append, ofLines_snoc, ← ih]
    cases meaningful : line.isMeaningful with
    | false => simp [meaningful, step_of_layout _ meaningful]
    | true => simp [meaningful, ofLines_snoc]

end Nesting

theorem isMeaningful_of_directive? {line : Line} {d : Directive} (h : line.directive? = some d) :
    line.isMeaningful = true := by
  unfold Line.directive? at h
  unfold Line.isMeaningful
  cases kind : line.kind <;> simp [kind] at h ⊢

theorem directivesIn_filter (lines : List Line) :
    directivesIn (lines.filter Line.isMeaningful) = directivesIn lines := by
  rw [directivesIn, List.filterMap_filter, directivesIn]
  refine List.filterMap_congr ?_
  intro line _
  cases directive : line.directive? with
  | none => simp
  | some d => simp [isMeaningful_of_directive? directive]

theorem directive?_alike {line line' : Line} (h : line.Alike r line') :
    Option.Rel (Directive.Alike r) line.directive? line'.directive? := by
  unfold Line.directive?
  rw [← h.kind]
  cases line.kind with
  | directive name rest => exact .some ⟨name, rest, _, h.number⟩
  | blank => exact .none
  | comment => exact .none
  | header valid => exact .none
  | opener tag name => exact .none
  | closer => exact .none
  | text => exact .none

namespace Document

/-- Alike lines make alike documents. -/
theorem parse_alike {cs cs' : List Char}
    (h : List.Forall₂ (Line.Alike r) (parse cs).meaningfulLines (parse cs').meaningfulLines) :
    (parse cs).Alike r (parse cs') := by
  have lines : List.Forall₂ (Line.Alike r) ((Line.ofText cs).filter Line.isMeaningful)
      ((Line.ofText cs').filter Line.isMeaningful) := h
  have nesting := Nesting.finish_alike (Nesting.ofLines_alike lines)
  rw [Nesting.ofLines_filter, Nesting.ofLines_filter] at nesting
  refine ⟨h, Block.Alike.subtrees _ nesting.closed, ?_⟩
  -- the directives in the order of the lines do not depend on the tree
  rw [directivesInOrder_parse, directivesInOrder_parse, ← directivesIn_filter,
    ← directivesIn_filter (Line.ofText cs')]
  exact List.rel_filterMap (fun _ _ hline => directive?_alike hline) lines

end Document

end LiveLint.Buildconf
