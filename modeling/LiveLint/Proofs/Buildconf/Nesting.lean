import LiveLint.Proofs.Buildconf.OpenBlock

/-!
# What nesting does with the lines

A reader of a document walks over its lines with a stack of open blocks, and a block is put into
the one around it only when it is closed. This file relates that walk to the flat list of lines.

`Nesting.blocks` lists every block that was opened so far, open or closed, in the order of the
openers. An opener adds one block at the end of this list; a directive and a closer change one
block of it in place (`addDirective_cases`, `close_cases`). Everything below follows from that by
induction on the lines read so far: the list has the openers of these lines
(`openings_ofLines`), no directive is lost or doubled (`perm_directives_ofLines`), and each block
has the directives and the closed blocks that it owns by `ownerOf` and no others
(`directives_ofLines`, `children_ofLines`).

Blocks that are open at the end are closed by closers that follow the text, which changes the
owner of no line (`finish_eq_ofLines`).
-/

namespace LiveLint.Buildconf

/-! ## Facts of the lines -/

/-- What an opener says: its number, the tag and the name. -/
def Line.opening? (line : Line) : Option (Nat × String × Option String) :=
  match line.kind with
  | .opener tag name => some (line.number, tag, name)
  | _ => none

/-- The directive of a line, if it is one. -/
def Line.directive? (line : Line) : Option Directive :=
  match line.kind with
  | .directive name rest =>
    some { name, rest, line := line.number, args := Argument.ofRest rest }
  | _ => none

/-- What the openers of a list of lines say, in order. -/
def openings (lines : List Line) : List (Nat × String × Option String) :=
  lines.filterMap Line.opening?

/-- The directives of a list of lines, in order. -/
def directivesIn (lines : List Line) : List Directive :=
  lines.filterMap Line.directive?

/-- What the opener of a block says. -/
def Block.opening (b : Block) : Nat × String × Option String :=
  (b.line, b.tag, b.name)

/-- A block apart from what it holds. -/
def Block.bare (b : Block) : Block :=
  .opened b.tag b.name b.line b.parentTag

section Facts

variable {lines : List Line} {n : Nat}

theorem openings_snoc (lines : List Line) (line : Line) :
    openings (lines ++ [line]) = openings lines ++ line.opening?.toList := by
  simp [openings, List.filterMap_append, List.filterMap_cons]
  cases line.opening? <;> rfl

theorem directivesIn_snoc (lines : List Line) (line : Line) :
    directivesIn (lines ++ [line]) = directivesIn lines ++ line.directive?.toList := by
  simp [directivesIn, List.filterMap_append, List.filterMap_cons]
  cases line.directive? <;> rfl

theorem Line.number_of_opening? {line : Line} {h : Nat × String × Option String}
    (hh : line.opening? = some h) : h.1 = line.number := by
  unfold Line.opening? at hh
  split at hh
  · cases hh
    rfl
  · cases hh

theorem Line.kind_of_opening? {line : Line} {h : Nat × String × Option String}
    (hh : line.opening? = some h) : line.kind = .opener h.2.1 h.2.2 := by
  unfold Line.opening? at hh
  split at hh
  · next kind =>
    cases hh
    exact kind
  · cases hh

theorem Line.number_of_directive? {line : Line} {d : Directive} (hd : line.directive? = some d) :
    d.line = line.number := by
  unfold Line.directive? at hd
  split at hd
  · cases hd
    rfl
  · cases hd

theorem exists_line_of_mem_openings {h : Nat × String × Option String} (hh : h ∈ openings lines) :
    ∃ line ∈ lines, line.number = h.1 := by
  obtain ⟨line, hline, hopening⟩ := List.mem_filterMap.mp hh
  exact ⟨line, hline, (Line.number_of_opening? hopening).symm⟩

theorem exists_line_of_mem_directivesIn {d : Directive} (hd : d ∈ directivesIn lines) :
    ∃ line ∈ lines, line.number = d.line := by
  obtain ⟨line, hline, hdirective⟩ := List.mem_filterMap.mp hd
  exact ⟨line, hline, (Line.number_of_directive? hdirective).symm⟩

theorem pairwise_openings (h : Ascending lines) : (openings lines).Pairwise (·.1 < ·.1) := by
  refine List.Pairwise.filterMap Line.opening? ?_ h
  intro x y hxy a ha b hb
  rwa [Line.number_of_opening? ha, Line.number_of_opening? hb]

/-- There is one opener on a line. -/
theorem eq_of_mem_openings (h : Ascending lines) {a b : Nat × String × Option String}
    (ha : a ∈ openings lines) (hb : b ∈ openings lines) (same : a.1 = b.1) : a = b :=
  eq_of_growing (pairwise_openings h) ha hb same

theorem pairwise_directivesIn (h : Ascending lines) :
    (directivesIn lines).Pairwise (·.line < ·.line) := by
  refine List.Pairwise.filterMap Line.directive? ?_ h
  intro x y hxy a ha b hb
  rwa [Line.number_of_directive? ha, Line.number_of_directive? hb]

end Facts

/-! ## Walking over blocks -/

namespace Block

theorem subtree_eq (b : Block) : b.subtree = b :: subtrees b.children := by
  cases b
  rw [subtree]

theorem subtrees_eq_flatMap (bs : List Block) : subtrees bs = bs.flatMap subtree := by
  induction bs with
  | nil => rw [subtrees, List.flatMap_nil]
  | cons b bs ih => rw [subtrees, ih, List.flatMap_cons]

theorem subtrees_append (bs cs : List Block) :
    subtrees (bs ++ cs) = subtrees bs ++ subtrees cs := by
  simp only [subtrees_eq_flatMap, List.flatMap_append]

theorem subtrees_singleton (b : Block) : subtrees [b] = b.subtree := by
  rw [subtrees_eq_flatMap, List.flatMap_singleton]

/-- A walk over a forest meets its roots in order. -/
theorem sublist_subtrees (bs : List Block) : bs.Sublist (subtrees bs) := by
  induction bs with
  | nil => exact List.nil_sublist _
  | cons b bs ih =>
    rw [subtrees, subtree_eq]
    exact (ih.trans (List.sublist_append_right _ _)).cons_cons b

end Block

/-- What holds of all blocks is still to be shown of the one that changed in its place. -/
theorem forall_mem_of_change {P Q : Block → Prop} {before after : List Block} {b b' : Block}
    (old : ∀ z ∈ before ++ b :: after, P z)
    (other : ∀ z, z ∈ before ∨ z ∈ after → P z → Q z) (own : P b → Q b') :
    ∀ z ∈ before ++ b' :: after, Q z := by
  intro z hz
  rcases List.mem_append.mp hz with hz | hz
  · exact other z (Or.inl hz) (old z (List.mem_append_left _ hz))
  · rcases List.mem_cons.mp hz with rfl | hz
    · exact own (old b (by simp))
    · exact other z (Or.inr hz) (old z (by simp [hz]))

/-! ## What a line does -/

namespace Nesting

/-- Every block that was opened so far, in the order of the openers. -/
def blocks (s : Nesting) : List Block :=
  Block.subtrees s.closed ++ s.stack.reverse.flatMap Block.subtree

/-- The state with one more block open. -/
def opened (s : Nesting) (tag : String) (name : Option String) (line : Nat) : Nesting :=
  { s with stack := .opened tag name line (s.stack.head?.map Block.tag) :: s.stack }

/-- All that a line can do. -/
theorem step_cases (s : Nesting) (line : Line) :
    (∃ tag name, line.kind = .opener tag name ∧ s.step line = s.opened tag name line.number) ∨
    (line.kind = .closer ∧ s.step line = s.close) ∨
    (∃ d, line.directive? = some d ∧ line.opening? = none ∧ (∀ stack, openStep stack line = stack) ∧
      s.step line = s.addDirective d) ∨
    (line.directive? = none ∧ line.opening? = none ∧ (∀ stack, openStep stack line = stack) ∧
      s.step line = s) := by
  unfold step opened Line.directive? Line.opening? openStep
  cases line.kind <;> simp

theorem blocks_opened (s : Nesting) (tag : String) (name : Option String) (line : Nat) :
    (s.opened tag name line).blocks =
      s.blocks ++ [.opened tag name line (s.stack.head?.map Block.tag)] := by
  simp [blocks, opened, Block.subtree_eq, Block.opened, Block.subtrees]

/-- A block on the stack has its place among all blocks, whatever it holds itself. -/
theorem blocks_of_stack (s : Nesting) (above : List Block) {rest : List Block} {b : Block}
    (h : s.stack = above ++ b :: rest) :
    s.blocks = (Block.subtrees s.closed ++ rest.reverse.flatMap Block.subtree) ++
      b :: (Block.subtrees b.children ++ above.reverse.flatMap Block.subtree) := by
  rw [blocks, h]
  simp [List.flatMap_append, Block.subtree_eq b]

/-- The block on top of the stack is among all blocks. -/
theorem top_mem_blocks {s : Nesting} {b : Block} {rest : List Block} (h : s.stack = b :: rest) :
    b ∈ s.blocks := by
  rw [blocks_of_stack s [] h]
  exact List.mem_append_right _ List.mem_cons_self

/-- A directive goes to the loose ones, or into the innermost open block, which stays in its
place. -/
theorem addDirective_cases (s : Nesting) (d : Directive) :
    (s.stack = [] ∧ s.addDirective d = { s with loose := s.loose ++ [d] }) ∨
    (∃ b rest before after, s.stack = b :: rest ∧
      s.addDirective d = { s with stack := b.withDirective d :: rest } ∧
      s.blocks = before ++ b :: after ∧
      (s.addDirective d).blocks = before ++ b.withDirective d :: after) := by
  cases h : s.stack with
  | nil => exact Or.inl ⟨rfl, by simp [addDirective, h]⟩
  | cons b rest =>
    have result : s.addDirective d = { s with stack := b.withDirective d :: rest } := by
      simp [addDirective, h]
    refine Or.inr ⟨b, rest, _, _, rfl, result, blocks_of_stack s [] h, ?_⟩
    rw [result]
    exact blocks_of_stack _ [] rfl

/-- A closer is passed over, or it ends a block outside any other, or it puts the innermost open
block into the one around it, which stays in its place. -/
theorem close_cases (s : Nesting) :
    (s.stack = [] ∧ s.close = s) ∨
    (∃ b, s.stack = [b] ∧ s.close = { s with stack := [], closed := s.closed ++ [b] } ∧
      s.close.blocks = s.blocks) ∨
    (∃ b parent rest before after, s.stack = b :: parent :: rest ∧
      s.close = { s with stack := parent.withChild b :: rest } ∧
      s.blocks = before ++ parent :: after ∧
      s.close.blocks = before ++ parent.withChild b :: after) := by
  match h : s.stack with
  | [] => exact Or.inl ⟨rfl, by simp [close, h]⟩
  | [b] =>
    have result : s.close = { s with stack := [], closed := s.closed ++ [b] } := by
      simp [close, h]
    refine Or.inr (Or.inl ⟨b, rfl, result, ?_⟩)
    rw [result, blocks, blocks, h, Block.subtrees_append, Block.subtrees_singleton]
    simp
  | b :: parent :: rest =>
    have result : s.close = { s with stack := parent.withChild b :: rest } := by
      simp [close, h]
    refine Or.inr (Or.inr ⟨b, parent, rest, _, _, rfl, result,
      blocks_of_stack s [b] h, ?_⟩)
    rw [result, blocks_of_stack _ [] rfl]
    -- the block that was ended is walked over at the end of its parent, where it stood before
    simp [Block.withChild, Block.subtrees_append, Block.subtrees_singleton]

@[simp] theorem ofLines_nil : ofLines [] = start := rfl

theorem ofLines_snoc (lines : List Line) (line : Line) :
    ofLines (lines ++ [line]) = (ofLines lines).step line := by
  simp [ofLines]

/-! ## What has been read -/

/-- The stack holds the open openers. -/
theorem stack_ofLines (lines : List Line) :
    (ofLines lines).stack.map Block.line = openStack lines := by
  induction lines using List.reverseRecOn with
  | nil => rfl
  | append_singleton lines line ih =>
    rw [ofLines_snoc, openStack_snoc, ← ih]
    rcases step_cases (ofLines lines) line with ⟨tag, name, kind, step⟩ | ⟨kind, step⟩ |
        ⟨d, _, _, same, step⟩ | ⟨_, _, same, step⟩ <;> rw [step]
    · -- an opener is pushed
      rw [openStep, kind]
      rfl
    · -- a closer takes the top away, if there is one
      rw [openStep, kind]
      rcases close_cases (ofLines lines) with ⟨stack, close⟩ | ⟨b, stack, close, _⟩ |
          ⟨b, parent, rest, _, _, stack, close, _⟩
      · rw [close, stack]
        rfl
      · rw [close, stack]
        rfl
      · rw [close, stack]
        rfl
    · -- a directive stays inside the top block
      rw [same]
      rcases addDirective_cases (ofLines lines) d with ⟨stack, add⟩ | ⟨b, rest, _, _, stack, add, _⟩
      · rw [add]
      · rw [add, stack]
        rfl
    · rw [same]

/-- Only an opener changes the list of blocks apart from what they hold, and it adds one at the
end. -/
theorem map_bare_step (s : Nesting) (line : Line) :
    (s.step line).blocks.map Block.bare = s.blocks.map Block.bare ++
      line.opening?.toList.map fun (number, tag, name) =>
        .opened tag name number (s.stack.head?.map Block.tag) := by
  rcases step_cases s line with ⟨tag, name, kind, step⟩ | ⟨kind, step⟩ |
      ⟨d, _, none, _, step⟩ | ⟨_, none, _, step⟩ <;> rw [step]
  · -- an opener adds its own block
    rw [blocks_opened, List.map_append, Line.opening?, kind]
    rfl
  · -- a closer moves a block, which changes what another holds
    rw [Line.opening?, kind, Option.toList_none, List.map_nil, List.append_nil]
    rcases close_cases s with ⟨_, close⟩ | ⟨b, _, _, same⟩ |
        ⟨b, parent, rest, before, after, _, _, old, new⟩
    · rw [close]
    · rw [same]
    · rw [new, old, List.map_append, List.map_append, List.map_cons, List.map_cons]
      rfl
  · -- a directive changes what one block holds
    rw [none, Option.toList_none, List.map_nil, List.append_nil]
    rcases addDirective_cases s d with ⟨_, add⟩ | ⟨b, rest, before, after, _, _, old, new⟩
    · rw [add]
      rfl
    · rw [new, old, List.map_append, List.map_append, List.map_cons, List.map_cons]
      rfl
  · rw [none, Option.toList_none, List.map_nil, List.append_nil]

/-- The blocks have the openers that were read, in order. -/
theorem openings_ofLines (lines : List Line) :
    (ofLines lines).blocks.map Block.opening = openings lines := by
  induction lines using List.reverseRecOn with
  | nil => rfl
  | append_singleton lines line ih =>
    have bare : Block.opening = Block.opening ∘ Block.bare := rfl
    rw [ofLines_snoc, openings_snoc, ← ih, bare, ← List.map_map, map_bare_step, List.map_append,
      List.map_map]
    congr 1
    cases line.opening? <;> rfl

/-- No directive is lost and none is kept twice. -/
theorem perm_directives_ofLines (lines : List Line) :
    ((ofLines lines).loose ++ (ofLines lines).blocks.flatMap Block.directives).Perm
      (directivesIn lines) := by
  induction lines using List.reverseRecOn with
  | nil => exact List.Perm.refl _
  | append_singleton lines line ih =>
    rw [ofLines_snoc, directivesIn_snoc]
    rcases step_cases (ofLines lines) line with ⟨tag, name, kind, step⟩ | ⟨kind, step⟩ |
        ⟨d, some, _, _, step⟩ | ⟨none, _, _, step⟩ <;> rw [step]
    · -- the new block has no directives yet
      have none : line.directive? = none := by rw [Line.directive?, kind]
      rw [none, Option.toList_none, List.append_nil, blocks_opened, List.flatMap_append]
      simpa [opened, Block.opened] using ih
    · -- a block that is moved keeps its directives
      have none : line.directive? = none := by rw [Line.directive?, kind]
      rw [none, Option.toList_none, List.append_nil]
      rcases close_cases (ofLines lines) with ⟨_, close⟩ | ⟨b, _, close, same⟩ |
          ⟨b, parent, rest, before, after, _, close, old, new⟩
      · rw [close]
        exact ih
      · rw [same, close]
        exact ih
      · rw [new, close]
        rw [old] at ih
        simpa [Block.withChild] using ih
    · -- the directive is put in once
      rw [some, Option.toList_some]
      rcases addDirective_cases (ofLines lines) d with ⟨_, add⟩ |
          ⟨b, rest, before, after, _, add, old, new⟩
      · rw [add]
        refine List.Perm.trans ?_ (ih.append_right [d])
        show ((ofLines lines).loose ++ [d] ++
          (ofLines lines).blocks.flatMap Block.directives).Perm _
        rw [List.append_assoc, List.append_assoc]
        exact List.perm_append_comm.append_left _
      · rw [new, add]
        rw [old] at ih
        refine List.Perm.trans ?_ (ih.append_right [d])
        simp only [List.flatMap_append, List.flatMap_cons, Block.withDirective, List.append_assoc]
        -- the new directive moves over what stands in later blocks
        refine (List.Perm.append_left _ (List.Perm.append_left _ (List.Perm.append_left _ ?_)))
        exact List.perm_append_comm
    · -- nothing to put in
      rw [none, Option.toList_none, List.append_nil]
      exact ih

/-! ## Who owns what -/

theorem pairwise_line_blocks {lines : List Line} (h : Ascending lines) :
    (ofLines lines).blocks.Pairwise (·.line < ·.line) := by
  have sorted := pairwise_openings h
  rw [← openings_ofLines, List.pairwise_map] at sorted
  exact sorted

theorem opening_mem_of_mem_blocks {lines : List Line} {b : Block}
    (hb : b ∈ (ofLines lines).blocks) : b.opening ∈ openings lines := by
  rw [← openings_ofLines]
  exact List.mem_map_of_mem hb

/-- Two blocks at different places stand on different lines. -/
theorem line_ne_of_split {lines : List Line} (h : Ascending lines) {before after : List Block}
    {b z : Block} (split : (ofLines lines).blocks = before ++ b :: after)
    (hz : z ∈ before ∨ z ∈ after) : z.line ≠ b.line := by
  have sorted := pairwise_line_blocks h
  rw [split] at sorted
  obtain ⟨_, right, cross⟩ := List.pairwise_append.mp sorted
  rcases hz with hz | hz
  · exact Nat.ne_of_lt (cross z hz b List.mem_cons_self)
  · exact Nat.ne_of_gt ((List.pairwise_cons.mp right).1 z hz)

/-- The directives that the opener on a given line owns, or that nothing owns. -/
def owned (lines : List Line) (owner : Option Nat) : List Directive :=
  (directivesIn lines).filter fun d => ownerOf lines d.line = owner

theorem ownerOf_snoc {lines : List Line} {line : Line} {n : Nat} (h : n ≤ line.number) :
    ownerOf (lines ++ [line]) n = ownerOf lines n := by
  refine ownerOf_append ?_
  intro x hx
  rwa [List.mem_singleton.mp hx]

theorem owned_snoc {lines : List Line} {line : Line} (h : ∀ x ∈ lines, x.number < line.number)
    (owner : Option Nat) :
    owned (lines ++ [line]) owner =
      owned lines owner ++
        line.directive?.toList.filter fun _ => (openStack lines).head? = owner := by
  rw [owned, directivesIn_snoc, List.filter_append, owned]
  congr 1
  · refine List.filter_congr ?_
    intro d hd
    obtain ⟨x, hx, hnumber⟩ := exists_line_of_mem_directivesIn hd
    rw [ownerOf_snoc (hnumber ▸ Nat.le_of_lt (h x hx))]
  · refine List.filter_congr ?_
    intro d hd
    have number := Line.number_of_directive? (Option.mem_toList.mp hd)
    rw [number, ownerOf_snoc (Nat.le_refl _), ownerOf_next h]

theorem ownerOf_lt {lines : List Line} {m n : Nat} (h : ownerOf lines n = some m) : m < n := by
  have top := List.mem_of_mem_head? h
  exact lt_of_mem_openStack (fun x hx => (mem_linesBefore.mp hx).2) top

theorem owned_of_beyond {lines : List Line} {n : Nat} (h : ∀ x ∈ lines, x.number < n) :
    owned lines (some n) = [] := by
  refine List.filter_eq_nil_iff.mpr ?_
  intro d hd
  obtain ⟨x, hx, hnumber⟩ := exists_line_of_mem_directivesIn hd
  have below := h x hx
  simp only [decide_eq_true_eq]
  intro owner
  have := ownerOf_lt owner
  omega

/-- The loose directives are those that nothing owns. -/
theorem loose_ofLines {lines : List Line} (h : Ascending lines) :
    (ofLines lines).loose = owned lines none := by
  induction lines using List.reverseRecOn with
  | nil => rfl
  | append_singleton lines line ih =>
    obtain ⟨ascending, beyond⟩ := ascending_snoc.mp h
    have stack := stack_ofLines lines
    rw [ofLines_snoc, owned_snoc beyond, ← ih ascending]
    rcases step_cases (ofLines lines) line with ⟨tag, name, kind, step⟩ | ⟨kind, step⟩ |
        ⟨d, some, _, _, step⟩ | ⟨none, _, _, step⟩ <;> rw [step]
    · rw [Line.directive?, kind]
      exact (List.append_nil _).symm
    · rw [Line.directive?, kind]
      rcases close_cases (ofLines lines) with ⟨_, close⟩ | ⟨b, _, close, _⟩ |
          ⟨b, parent, rest, _, _, _, close, _⟩ <;> rw [close] <;> exact (List.append_nil _).symm
    · -- the directive is loose if the stack is empty, and that is when nothing owns it
      rw [some]
      rcases addDirective_cases (ofLines lines) d with ⟨empty, add⟩ | ⟨b, rest, _, _, top, add, _⟩
      · rw [add, ← stack, empty]
        rfl
      · rw [add, ← stack, top]
        exact (List.append_nil _).symm
    · rw [none]
      exact (List.append_nil _).symm

/-- One more directive goes to the block that owns its line. -/
theorem directives_of_addDirective {lines : List Line} {line : Line}
    (h : Ascending (lines ++ [line])) {d : Directive} (some : line.directive? = some d)
    (old : ∀ b ∈ (ofLines lines).blocks, b.directives = owned lines (Option.some b.line)) :
    ∀ b ∈ ((ofLines lines).addDirective d).blocks,
      b.directives = owned (lines ++ [line]) (Option.some b.line) := by
  obtain ⟨ascending, beyond⟩ := ascending_snoc.mp h
  have stack := stack_ofLines lines
  have one : ∀ owner, owned (lines ++ [line]) owner =
      owned lines owner ++ [d].filter fun _ => (openStack lines).head? = owner := by
    intro owner
    rw [owned_snoc beyond, some, Option.toList_some]
  rcases addDirective_cases (ofLines lines) d with ⟨empty, add⟩ |
      ⟨b, rest, before, after, top, _, split, new⟩
  · rw [add]
    intro z hz
    rw [one, ← stack, empty, old z hz]
    exact (List.append_nil _).symm
  · rw [new]
    rw [split] at old
    -- the directive is kept by the block on top of the stack and by no other
    refine forall_mem_of_change old ?_ ?_
    · intro z place held
      have different := line_ne_of_split ascending split place
      rw [one, ← stack, top, List.filter_cons_of_neg (by simpa using different.symm),
        List.filter_nil, List.append_nil]
      exact held
    · intro held
      rw [Block.withDirective, one, ← stack, top, held]
      simp

/-- A block has the directives that its opener owns. -/
theorem directives_ofLines {lines : List Line} (h : Ascending lines) :
    ∀ b ∈ (ofLines lines).blocks, b.directives = owned lines (some b.line) := by
  induction lines using List.reverseRecOn with
  | nil =>
    intro b hb
    cases hb
  | append_singleton lines line ih =>
    obtain ⟨ascending, beyond⟩ := ascending_snoc.mp h
    have old := ih ascending
    have unchanged : line.directive? = none → ∀ b ∈ (ofLines lines).blocks,
        b.directives = owned (lines ++ [line]) (some b.line) := by
      intro none b hb
      rw [owned_snoc beyond, none, Option.toList_none, List.filter_nil, List.append_nil]
      exact old b hb
    rw [ofLines_snoc]
    rcases step_cases (ofLines lines) line with ⟨tag, name, kind, step⟩ | ⟨kind, step⟩ |
        ⟨d, some, _, _, step⟩ | ⟨none, _, _, step⟩ <;> rw [step]
    · -- the new block has no directives, and owns none of those read
      have none : line.directive? = none := by rw [Line.directive?, kind]
      intro b hb
      rw [blocks_opened] at hb
      rcases List.mem_append.mp hb with hb | hb
      · exact unchanged none b hb
      · rw [List.mem_singleton.mp hb, owned_snoc beyond, none, Option.toList_none, List.filter_nil,
          List.append_nil]
        exact (owned_of_beyond beyond).symm
    · -- a closer moves blocks and no directives
      have none : line.directive? = none := by rw [Line.directive?, kind]
      rcases close_cases (ofLines lines) with ⟨_, close⟩ | ⟨b, _, _, same⟩ |
          ⟨b, parent, rest, before, after, _, _, split, new⟩
      · rw [close]
        exact unchanged none
      · rw [same]
        exact unchanged none
      · rw [new]
        rw [split] at unchanged
        exact forall_mem_of_change (unchanged none) (fun _ _ held => held) fun held => held
    · -- the directive goes to the top of the stack, which owns its line
      exact directives_of_addDirective h some old
    · rw [none] at unchanged
      exact unchanged rfl

/-! ## Which blocks have ended where -/

/-- An opener with a given owner whose block has ended. -/
def Ended (lines : List Line) (owner : Option Nat) (o : Nat × String × Option String) : Prop :=
  o ∈ openings lines ∧ ownerOf lines o.1 = owner ∧ o.1 ∉ openStack lines

theorem lt_of_mem_openings {lines : List Line} {n : Nat} (h : ∀ x ∈ lines, x.number < n)
    {o : Nat × String × Option String} (ho : o ∈ openings lines) : o.1 < n := by
  obtain ⟨x, hx, hnumber⟩ := exists_line_of_mem_openings ho
  exact hnumber ▸ h x hx

/-- One more line ends the blocks that it takes off the stack. -/
theorem ended_snoc {lines : List Line} {line : Line} (h : ∀ x ∈ lines, x.number < line.number)
    {owner : Option Nat} {o : Nat × String × Option String} :
    Ended (lines ++ [line]) owner o ↔
      o ∈ openings lines ∧ ownerOf lines o.1 = owner ∧ o.1 ∉ openStep (openStack lines) line := by
  rw [Ended, openings_snoc, openStack_snoc]
  constructor
  · rintro ⟨ho, howner, hended⟩
    rcases List.mem_append.mp ho with ho | ho
    · rw [ownerOf_snoc (Nat.le_of_lt (lt_of_mem_openings h ho))] at howner
      exact ⟨ho, howner, hended⟩
    · -- an opener is on the stack after its own line
      have opening := Option.mem_toList.mp ho
      refine absurd ?_ hended
      rw [Line.number_of_opening? opening, openStep, Line.kind_of_opening? opening]
      exact List.mem_cons_self
  · rintro ⟨ho, howner, hended⟩
    refine ⟨List.mem_append_left _ ho, ?_, hended⟩
    rw [ownerOf_snoc (Nat.le_of_lt (lt_of_mem_openings h ho))]
    exact howner

theorem ended_snoc_of_same {lines : List Line} {line : Line}
    (h : ∀ x ∈ lines, x.number < line.number)
    (same : openStep (openStack lines) line = openStack lines) {owner : Option Nat}
    {o : Nat × String × Option String} :
    Ended (lines ++ [line]) owner o ↔ Ended lines owner o := by
  rw [ended_snoc h, same, Ended]

theorem ended_snoc_of_opener {lines : List Line} {line : Line}
    (h : ∀ x ∈ lines, x.number < line.number)
    (step : openStep (openStack lines) line = line.number :: openStack lines)
    {owner : Option Nat} {o : Nat × String × Option String} :
    Ended (lines ++ [line]) owner o ↔ Ended lines owner o := by
  rw [ended_snoc h, step, Ended]
  refine and_congr_right ?_
  intro ho
  have different : o.1 ≠ line.number := Nat.ne_of_lt (lt_of_mem_openings h ho)
  simp [different]

/-- The block on top of the stack ends at a closer, and what is below the top owns it. -/
theorem ended_snoc_of_closer {lines : List Line} {line : Line} (h : Ascending (lines ++ [line]))
    (kind : line.kind = .closer) {b : Block} {rest : List Block}
    (stack : (ofLines lines).stack = b :: rest)
    {owner : Option Nat} {o : Nat × String × Option String} :
    Ended (lines ++ [line]) owner o ↔
      Ended lines owner o ∨ (o = b.opening ∧ rest.head?.map Block.line = owner) := by
  obtain ⟨ascending, beyond⟩ := ascending_snoc.mp h
  have numbers : openStack lines = b.line :: rest.map Block.line := by
    rw [← stack_ofLines, stack, List.map_cons]
  have sorted := pairwise_openStack ascending
  rw [numbers] at sorted
  have top : b.line ∉ rest.map Block.line := fun hmem =>
    Nat.lt_irrefl _ ((List.pairwise_cons.mp sorted).1 _ hmem)
  have hopening := opening_mem_of_mem_blocks (top_mem_blocks stack)
  have step : openStep (openStack lines) line = rest.map Block.line := by
    rw [openStep, kind, numbers]
    rfl
  have ownerTop : ownerOf lines b.line = rest.head?.map Block.line := by
    have split : openStack lines = [] ++ b.line :: rest.map Block.line := numbers
    rw [ownerOf_of_openStack ascending split, List.head?_map]
  rw [ended_snoc beyond, step, Ended, numbers]
  constructor
  · rintro ⟨ho, howner, hended⟩
    by_cases same : o.1 = b.line
    · refine Or.inr ⟨?_, ?_⟩
      · exact eq_of_mem_openings ascending ho hopening same
      · rw [← ownerTop, ← same]
        exact howner
    · refine Or.inl ⟨ho, howner, ?_⟩
      simp only [List.mem_cons, not_or]
      exact ⟨same, hended⟩
  · rintro (⟨ho, howner, hended⟩ | ⟨rfl, howner⟩)
    · exact ⟨ho, howner, fun hmem => hended (List.mem_cons_of_mem _ hmem)⟩
    · exact ⟨hopening, ownerTop.trans howner, top⟩

theorem not_ended_of_beyond {lines : List Line} {n : Nat} (h : ∀ x ∈ lines, x.number < n)
    {o : Nat × String × Option String} : ¬Ended lines (some n) o := by
  rintro ⟨ho, howner, _⟩
  have above := lt_of_mem_openings h ho
  have below := ownerOf_lt howner
  omega

/-- The top blocks that have ended are those that nothing owns. -/
theorem closed_ofLines {lines : List Line} (h : Ascending lines)
    (o : Nat × String × Option String) :
    o ∈ (ofLines lines).closed.map Block.opening ↔ Ended lines none o := by
  induction lines using List.reverseRecOn with
  | nil => simp [Ended, openings, start]
  | append_singleton lines line ih =>
    obtain ⟨ascending, beyond⟩ := ascending_snoc.mp h
    rw [ofLines_snoc]
    rcases step_cases (ofLines lines) line with ⟨tag, name, kind, step⟩ | ⟨kind, step⟩ |
        ⟨d, _, _, same, step⟩ | ⟨_, _, same, step⟩ <;> rw [step]
    · -- an opener ends nothing
      have pushed : openStep (openStack lines) line = line.number :: openStack lines := by
        rw [openStep, kind]
      rw [ended_snoc_of_opener beyond pushed]
      exact ih ascending
    · -- a closer ends the top block, which is loose if it was the only one
      rcases close_cases (ofLines lines) with ⟨empty, close⟩ | ⟨b, stack, close, _⟩ |
          ⟨b, parent, rest, _, _, stack, close, _⟩
      · have same : openStep (openStack lines) line = openStack lines := by
          rw [openStep, kind, ← stack_ofLines, empty]
          rfl
        rw [close, ended_snoc_of_same beyond same]
        exact ih ascending
      · rw [close, ended_snoc_of_closer h kind stack, ← ih ascending]
        simp
      · rw [close, ended_snoc_of_closer h kind stack, ← ih ascending]
        simp
    · -- a directive ends nothing
      rw [ended_snoc_of_same beyond (same _), ← ih ascending]
      rcases addDirective_cases (ofLines lines) d with ⟨_, add⟩ | ⟨b, rest, _, _, _, add, _⟩ <;>
        rw [add]
    · rw [ended_snoc_of_same beyond (same _)]
      exact ih ascending

/-- A closer ends the top block, and the one below it owns that. -/
theorem children_of_close {lines : List Line} {line : Line} (h : Ascending (lines ++ [line]))
    (kind : line.kind = .closer)
    (old : ∀ b ∈ (ofLines lines).blocks, ∀ o,
      o ∈ b.children.map Block.opening ↔ Ended lines (some b.line) o) :
    ∀ b ∈ (ofLines lines).close.blocks, ∀ o,
      o ∈ b.children.map Block.opening ↔ Ended (lines ++ [line]) (some b.line) o := by
  obtain ⟨ascending, beyond⟩ := ascending_snoc.mp h
  rcases close_cases (ofLines lines) with ⟨empty, close⟩ | ⟨b, stack, _, same⟩ |
      ⟨b, parent, rest, before, after, stack, _, split, new⟩
  · have same : openStep (openStack lines) line = openStack lines := by
      rw [openStep, kind, ← stack_ofLines, empty]
      rfl
    intro z hz o
    rw [close] at hz
    rw [ended_snoc_of_same beyond same]
    exact old z hz o
  · -- nothing is below the top block, so nothing owns it
    intro z hz o
    rw [same] at hz
    rw [ended_snoc_of_closer h kind stack, ← old z hz]
    simp
  · rw [new]
    rw [split] at old
    -- the ended block goes to the block around it and to no other
    refine forall_mem_of_change old ?_ ?_
    · intro z place held o
      have different := line_ne_of_split ascending split place
      rw [ended_snoc_of_closer h kind stack, ← held o]
      simp [different.symm]
    · intro held o
      have line : (parent.withChild b).line = parent.line := rfl
      rw [line, ended_snoc_of_closer h kind stack, ← held o]
      simp [Block.withChild]

/-- A block has the ended blocks that its opener owns. -/
theorem children_ofLines {lines : List Line} (h : Ascending lines) :
    ∀ b ∈ (ofLines lines).blocks, ∀ o,
      o ∈ b.children.map Block.opening ↔ Ended lines (some b.line) o := by
  induction lines using List.reverseRecOn with
  | nil =>
    intro b hb
    cases hb
  | append_singleton lines line ih =>
    obtain ⟨ascending, beyond⟩ := ascending_snoc.mp h
    have old := ih ascending
    rw [ofLines_snoc]
    rcases step_cases (ofLines lines) line with ⟨tag, name, kind, step⟩ | ⟨kind, step⟩ |
        ⟨d, _, _, same, step⟩ | ⟨_, _, same, step⟩ <;> rw [step]
    · -- the new block owns nothing yet, and others are as they were
      have pushed : openStep (openStack lines) line = line.number :: openStack lines := by
        rw [openStep, kind]
      intro z hz o
      rw [ended_snoc_of_opener beyond pushed]
      rw [blocks_opened] at hz
      rcases List.mem_append.mp hz with hz | hz
      · exact old z hz o
      · rw [List.mem_singleton.mp hz]
        refine iff_of_false ?_ (not_ended_of_beyond beyond)
        simp [Block.opened]
    · exact children_of_close h kind old
    · -- a directive ends nothing
      have unchanged : ∀ z ∈ (ofLines lines).blocks, ∀ o,
          o ∈ z.children.map Block.opening ↔ Ended (lines ++ [line]) (some z.line) o := by
        intro z hz o
        rw [ended_snoc_of_same beyond (same _)]
        exact old z hz o
      rcases addDirective_cases (ofLines lines) d with ⟨_, add⟩ |
          ⟨b, rest, before, after, _, _, split, new⟩
      · rw [add]
        exact unchanged
      · rw [new]
        rw [split] at unchanged
        exact forall_mem_of_change unchanged (fun _ _ held => held) fun held => held
    · intro z hz o
      rw [ended_snoc_of_same beyond (same _)]
      exact old z hz o

/-- A block has the tag of the block that owns its opener, if there is one. -/
theorem parentTag_ofLines {lines : List Line} (h : Ascending lines) :
    ∀ b ∈ (ofLines lines).blocks,
      (ownerOf lines b.line = none ∧ b.parentTag = none) ∨
      ∃ o ∈ (ofLines lines).blocks, ownerOf lines b.line = some o.line ∧
        b.parentTag = some o.tag := by
  -- what a block holds does not matter, so the induction is on the bare blocks
  suffices bare : ∀ b ∈ (ofLines lines).blocks.map Block.bare,
      (ownerOf lines b.line = none ∧ b.parentTag = none) ∨
      ∃ o ∈ (ofLines lines).blocks.map Block.bare, ownerOf lines b.line = some o.line ∧
        b.parentTag = some o.tag by
    intro b hb
    rcases bare b.bare (List.mem_map_of_mem hb) with loose | ⟨o, ho, owner, tag⟩
    · exact Or.inl loose
    · obtain ⟨p, hp, rfl⟩ := List.mem_map.mp ho
      exact Or.inr ⟨p, hp, owner, tag⟩
  induction lines using List.reverseRecOn with
  | nil =>
    intro b hb
    cases hb
  | append_singleton lines line ih =>
    obtain ⟨ascending, beyond⟩ := ascending_snoc.mp h
    intro b hb
    rw [ofLines_snoc, map_bare_step] at hb ⊢
    rcases List.mem_append.mp hb with hb | hb
    · have before : b.line < line.number := by
        obtain ⟨p, hp, rfl⟩ := List.mem_map.mp hb
        exact lt_of_mem_openings beyond (opening_mem_of_mem_blocks hp)
      rw [ownerOf_snoc (Nat.le_of_lt before)]
      rcases ih ascending b hb with loose | ⟨o, ho, owner, tag⟩
      · exact Or.inl loose
      · exact Or.inr ⟨o, List.mem_append_left _ ho, owner, tag⟩
    · obtain ⟨o, ho, rfl⟩ := List.mem_map.mp hb
      have number := Line.number_of_opening? (Option.mem_toList.mp ho)
      show (ownerOf _ o.1 = none ∧ (ofLines lines).stack.head?.map Block.tag = none) ∨ _
      rw [number, ownerOf_snoc (Nat.le_refl _), ownerOf_next beyond, ← stack_ofLines]
      cases stack : (ofLines lines).stack with
      | nil => exact Or.inl ⟨rfl, rfl⟩
      | cons top rest =>
        have htop := top_mem_blocks stack
        refine Or.inr ⟨top.bare, List.mem_append_left _ (List.mem_map_of_mem htop), ?_, rfl⟩
        show ownerOf _ o.1 = _
        rw [number, ownerOf_snoc (Nat.le_refl _), ownerOf_next beyond, ← stack_ofLines, stack]
        rfl

/-! ## The end of the text -/

/-- Closers with the numbers that follow `n`. -/
def closersFrom (n : Nat) : Nat → List Line
  | 0 => []
  | k + 1 => { number := n + 1, raw := [], kind := .closer } :: closersFrom (n + 1) k

/-- To end all blocks is to read a closer for each of them. -/
theorem closeAll_eq_foldl (n k : Nat) (s : Nesting) :
    closeAll k s = (closersFrom n k).foldl step s := by
  induction k generalizing n s with
  | zero => rfl
  | succ k ih =>
    rw [closeAll, closersFrom, List.foldl_cons]
    exact ih (n + 1) s.close

/-- The lines with a closer behind them for every block that is still open. -/
def withClosers (lines : List Line) (n : Nat) : List Line :=
  lines ++ closersFrom n (ofLines lines).stack.length

theorem finish_eq_ofLines (lines : List Line) (n : Nat) :
    (ofLines lines).finish = ofLines (withClosers lines n) := by
  rw [finish, closeAll_eq_foldl n, withClosers]
  simp [ofLines]

theorem lt_number_closersFrom {n k : Nat} {line : Line} (h : line ∈ closersFrom n k) :
    n < line.number := by
  induction k generalizing n with
  | zero => cases h
  | succ k ih =>
    rcases List.mem_cons.mp h with rfl | h
    · exact Nat.lt_succ_self n
    · exact Nat.lt_of_succ_lt (ih h)

theorem ascending_closersFrom (n k : Nat) : Ascending (closersFrom n k) := by
  induction k generalizing n with
  | zero => exact List.Pairwise.nil
  | succ k ih =>
    refine List.pairwise_cons.mpr ⟨?_, ih (n + 1)⟩
    intro line hline
    exact lt_number_closersFrom hline

theorem filterMap_closersFrom {α : Type} {f : Line → Option α}
    (h : ∀ line : Line, line.kind = .closer → f line = none) (n k : Nat) :
    (closersFrom n k).filterMap f = [] := by
  induction k generalizing n with
  | zero => rfl
  | succ k ih => rw [closersFrom, List.filterMap_cons, h _ rfl, ih]

section WithClosers

variable {lines : List Line} {n : Nat}

theorem ascending_withClosers (h : Ascending lines) (last : ∀ x ∈ lines, x.number ≤ n) :
    Ascending (withClosers lines n) := by
  refine List.pairwise_append.mpr ⟨h, ascending_closersFrom n _, ?_⟩
  intro x hx y hy
  exact Nat.lt_of_le_of_lt (last x hx) (lt_number_closersFrom hy)

theorem openings_withClosers : openings (withClosers lines n) = openings lines := by
  rw [withClosers, openings, List.filterMap_append, filterMap_closersFrom, List.append_nil,
    openings]
  intro line kind
  rw [Line.opening?, kind]

theorem directivesIn_withClosers : directivesIn (withClosers lines n) = directivesIn lines := by
  rw [withClosers, directivesIn, List.filterMap_append, filterMap_closersFrom, List.append_nil,
    directivesIn]
  intro line kind
  rw [Line.directive?, kind]

/-- The closers behind a text own nothing in it and take nothing from its owners. -/
theorem ownerOf_withClosers {m : Nat} (h : m ≤ n) :
    ownerOf (withClosers lines n) m = ownerOf lines m := by
  refine ownerOf_append ?_
  intro x hx
  exact Nat.le_of_lt (Nat.lt_of_le_of_lt h (lt_number_closersFrom hx))

/-- Nothing is open behind the closers. -/
theorem openStack_withClosers : openStack (withClosers lines n) = [] := by
  rw [← stack_ofLines, ← finish_eq_ofLines, stack_finish, List.map_nil]

end WithClosers

end Nesting

end LiveLint.Buildconf
