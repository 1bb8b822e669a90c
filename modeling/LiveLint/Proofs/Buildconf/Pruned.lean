import LiveLint.Proofs.Buildconf.Nesting

/-!
# A directive less

Which blocks a document has, and how they nest, is not up to its directives. So reading lines and
then leaving out some of the directives comes to the same as not reading the lines of those
(`finish_pruned_of_left_out`). What to keep may go by the tag of the block a directive stands in.
-/

namespace LiveLint.Buildconf

/-! ## Trees with fewer directives -/

namespace Block

variable (keep : String → Directive → Bool)

mutual

/-- The block with those directives only that are kept, and so the blocks inside it. -/
def pruned : Block → Block
  | ⟨tag, name, line, parentTag, directives, children⟩ =>
    ⟨tag, name, line, parentTag, directives.filter (keep tag), prunedAll children⟩

/-- The same for all blocks of a forest. -/
def prunedAll : List Block → List Block
  | [] => []
  | b :: bs => b.pruned :: prunedAll bs

end

theorem prunedAll_eq_map (bs : List Block) : prunedAll keep bs = bs.map (pruned keep) := by
  induction bs with
  | nil => rw [prunedAll, List.map_nil]
  | cons b bs ih => rw [prunedAll, ih, List.map_cons]

/-- Nothing but directives is left out. -/
theorem pruned_eq (b : Block) : b.pruned keep =
    { b with
      directives := b.directives.filter (keep b.tag)
      children := b.children.map (pruned keep) } := by
  cases b
  rw [pruned, prunedAll_eq_map]

@[simp] theorem tag_pruned (b : Block) : (b.pruned keep).tag = b.tag := by
  rw [pruned_eq]

theorem pruned_opened (tag : String) (name : Option String) (line : Nat)
    (parentTag : Option String) :
    (opened tag name line parentTag).pruned keep = opened tag name line parentTag := by
  rw [pruned_eq]
  rfl

theorem pruned_withChild (b child : Block) :
    (b.withChild child).pruned keep = (b.pruned keep).withChild (child.pruned keep) := by
  rw [pruned_eq, pruned_eq keep b]
  simp [withChild]

variable {keep}

theorem pruned_withDirective_of_kept {b : Block} {d : Directive} (h : keep b.tag d = true) :
    (b.withDirective d).pruned keep = (b.pruned keep).withDirective d := by
  rw [pruned_eq, pruned_eq keep b]
  simp [withDirective, h]

theorem pruned_withDirective_of_left {b : Block} {d : Directive} (h : keep b.tag d = false) :
    (b.withDirective d).pruned keep = b.pruned keep := by
  rw [pruned_eq, pruned_eq keep b]
  simp [withDirective, h]

/-- A block that keeps all its directives changes in what stands in it at most. -/
theorem pruned_of_kept {b : Block} (h : ∀ d, keep b.tag d = true) :
    b.pruned keep = { b with children := b.children.map (pruned keep) } := by
  rw [pruned_eq, List.filter_eq_self.mpr fun d _ => h d]

mutual

theorem subtree_pruned : ∀ b : Block, (b.pruned keep).subtree = b.subtree.map (pruned keep)
  | ⟨tag, name, line, parentTag, directives, children⟩ => by
    rw [pruned, subtree, subtree, subtrees_pruned children, List.map_cons, pruned]

/-- A walk meets the same blocks. -/
theorem subtrees_pruned : ∀ bs : List Block,
    subtrees (prunedAll keep bs) = (subtrees bs).map (pruned keep)
  | [] => by rw [prunedAll, subtrees, List.map_nil]
  | b :: bs => by
    rw [prunedAll, subtrees, subtrees, subtree_pruned b, subtrees_pruned bs, List.map_append]

end

end Block

/-! ## Reading without some of the directives -/

namespace Nesting

/-- The state with those directives only that are kept; loose ones all are. -/
def pruned (keep : String → Directive → Bool) (s : Nesting) : Nesting where
  stack := s.stack.map (Block.pruned keep)
  closed := s.closed.map (Block.pruned keep)
  loose := s.loose

variable {keep : String → Directive → Bool} {s : Nesting}

theorem close_pruned (s : Nesting) : (s.pruned keep).close = s.close.pruned keep := by
  obtain ⟨_ | ⟨b, _ | ⟨parent, rest⟩⟩, closed, loose⟩ := s
  · rfl
  · simp [pruned, close]
  · simp [pruned, close, Block.pruned_withChild]

theorem addDirective_pruned {d : Directive} (h : ∀ tag, keep tag d = true) :
    (s.pruned keep).addDirective d = (s.addDirective d).pruned keep := by
  obtain ⟨_ | ⟨b, rest⟩, closed, loose⟩ := s
  · rfl
  · simp [pruned, addDirective, Block.pruned_withDirective_of_kept (h b.tag)]

theorem opened_pruned (tag : String) (name : Option String) (n : Nat) :
    (s.pruned keep).opened tag name n = (s.opened tag name n).pruned keep := by
  obtain ⟨stack, closed, loose⟩ := s
  have parent : (stack.map (Block.pruned keep)).head?.map Block.tag =
      stack.head?.map Block.tag := by
    cases stack with
    | nil => rfl
    | cons b rest => exact congrArg some (Block.tag_pruned keep b)
  show Nesting.mk (.opened tag name n ((stack.map (Block.pruned keep)).head?.map Block.tag) ::
    stack.map (Block.pruned keep)) _ _ = _
  rw [parent, ← Block.pruned_opened keep]
  rfl

/-- **One line.** A line that is no directive, or one that is kept everywhere, is read alike. -/
theorem step_pruned {line : Line} (h : ∀ d, line.directive? = some d → ∀ tag, keep tag d = true) :
    (s.pruned keep).step line = (s.step line).pruned keep := by
  unfold step
  cases kind : line.kind with
  | opener tag name => exact opened_pruned tag name line.number
  | closer => exact close_pruned s
  | directive name rest => exact addDirective_pruned (h _ (by rw [Line.directive?, kind]))
  | blank => rfl
  | comment => rfl
  | header valid => rfl
  | text => rfl

/-- The lines have no directive that is not kept. -/
def KeepsAll (keep : String → Directive → Bool) (lines : List Line) : Prop :=
  ∀ line ∈ lines, ∀ d, line.directive? = some d → ∀ tag, keep tag d = true

/-- **Many lines.** -/
theorem foldl_step_pruned {lines : List Line} (h : KeepsAll keep lines) :
    lines.foldl step (s.pruned keep) = (lines.foldl step s).pruned keep := by
  induction lines generalizing s with
  | nil => rfl
  | cons line lines ih =>
    obtain ⟨first, rest⟩ := List.forall_mem_cons.mp h
    rw [List.foldl_cons, step_pruned first, ih rest, List.foldl_cons]

theorem ofLines_pruned {lines : List Line} (h : KeepsAll keep lines) :
    (ofLines lines).pruned keep = ofLines lines :=
  (foldl_step_pruned (s := start) h).symm

theorem finish_pruned (s : Nesting) : (s.pruned keep).finish = s.finish.pruned keep := by
  have all : ∀ (n : Nat) (s : Nesting),
      closeAll n (s.pruned keep) = (closeAll n s).pruned keep := by
    intro n
    induction n with
    | zero => exact fun _ => rfl
    | succ n ih =>
      intro s
      rw [closeAll, close_pruned, ih, closeAll]
  have height : (s.pruned keep).stack.length = s.stack.length := List.length_map _
  rw [finish, height, all, finish]

/-- A directive that is not kept in the innermost open block is as good as not read. -/
theorem addDirective_pruned_of_left {b : Block} {rest : List Block} {d : Directive}
    (top : s.stack = b :: rest) (left : keep b.tag d = false) :
    (s.addDirective d).pruned keep = s.pruned keep := by
  obtain ⟨stack, closed, loose⟩ := s
  obtain rfl : stack = b :: rest := top
  show Nesting.mk ((b.withDirective d).pruned keep :: rest.map (Block.pruned keep)) _ _ = _
  rw [Block.pruned_withDirective_of_left left]
  rfl

theorem step_of_directive? {line : Line} {d : Directive} (h : line.directive? = some d) :
    s.step line = s.addDirective d := by
  rcases step_cases s line with ⟨_, _, kind, _⟩ | ⟨kind, _⟩ | ⟨d', found, _, _, step⟩ | ⟨none, _⟩
  · rw [Line.directive?, kind] at h
    cases h
  · rw [Line.directive?, kind] at h
    cases h
  · rw [step, Option.some.inj (found.symm.trans h)]
  · rw [none] at h
    cases h

/-- **Leaving a directive out.** One directive is not kept in the block it is read into, and all
others are. Then to leave it out is to read the lines without it. -/
theorem finish_pruned_of_left_out {lines back : List Line} {line : Line} {b : Block}
    {rest : List Block} {d : Directive} (before : KeepsAll keep lines)
    (top : (ofLines lines).stack = b :: rest) (directive : line.directive? = some d)
    (left : keep b.tag d = false) (behind : KeepsAll keep back) :
    (ofLines (lines ++ back)).finish = (ofLines (lines ++ line :: back)).finish.pruned keep := by
  have read : (ofLines (lines ++ line :: back)).pruned keep = ofLines (lines ++ back) := by
    calc (ofLines (lines ++ line :: back)).pruned keep
        = (back.foldl step ((ofLines lines).step line)).pruned keep := by
          rw [ofLines, List.foldl_append, List.foldl_cons, ← ofLines]
      _ = back.foldl step (((ofLines lines).addDirective d).pruned keep) := by
          rw [← foldl_step_pruned behind, step_of_directive? directive]
      _ = back.foldl step (ofLines lines) := by
          rw [addDirective_pruned_of_left top left, ofLines_pruned before]
      _ = ofLines (lines ++ back) := by
          rw [ofLines, ofLines, List.foldl_append]
  rw [← finish_pruned, read]

end Nesting

end LiveLint.Buildconf
