import LiveLint.Proofs.Buildconf.Nesting

/-!
# Who owns a line of a document

A parsed document says for every directive and every block which block it stands in. This file
gives that answer without a stack: the owner of line `n` is the innermost opener that is open at
`n`, where open means that no stretch since the opener has more closers than openers. The main
statement is `nested_parse`; stray closers and blocks that nothing closes are covered, since the
definition of open speaks of them like of any other line.

The lemmas before it say the same in terms of `ownerOf`, which is how later proofs about the tree
of a document use it.
-/

namespace LiveLint.Buildconf

/-! ## The lines of a text -/

namespace Line

theorem map_number_ofText (cs : List Char) :
    (ofText cs).map number = List.range' 1 (ofText cs).length := by
  have second : (ofText cs).map number = ((Text.splitLines cs).zipIdx 1).map Prod.snd := by
    simp [ofText, Function.comp_def]
  rw [second, List.zipIdx_map_snd, length_ofText]

theorem ascending_ofText (cs : List Char) : Ascending (ofText cs) := by
  have sorted : ((ofText cs).map number).Pairwise (· < ·) := by
    rw [map_number_ofText]
    exact List.pairwise_lt_range'
  exact List.pairwise_map.mp sorted

section Members

variable {cs : List Char} {line : Line}

theorem number_of_mem_ofText (h : line ∈ ofText cs) :
    0 < line.number ∧ line.number ≤ (ofText cs).length := by
  have hmem : line.number ∈ List.range' 1 (ofText cs).length := by
    rw [← map_number_ofText]
    exact List.mem_map_of_mem h
  have := List.mem_range'_1.mp hmem
  omega

theorem kind_of_mem_ofText (h : line ∈ ofText cs) : line.kind = .ofLine line.raw := by
  obtain ⟨_, _, rfl⟩ := List.mem_map.mp h
  rfl

theorem raw_of_mem_ofText (h : line ∈ ofText cs) : line.raw ∈ Text.splitLines cs := by
  rw [← raw_ofText]
  exact List.mem_map_of_mem h

end Members

end Line

/-! ## Walking over a tree -/

namespace Block

mutual

/-- The walk over a block inside a tree is part of the walk over the tree. -/
theorem subtree_sublist_subtree : ∀ (a : Block) {b : Block}, b ∈ a.subtree →
    b.subtree.Sublist a.subtree
  | ⟨tag, name, line, parentTag, directives, children⟩, b, hb => by
    rw [subtree] at hb ⊢
    rcases List.mem_cons.mp hb with rfl | hb
    · rw [subtree]
    · exact (subtree_sublist_subtrees children hb).cons _

/-- The walk over a block inside a forest is part of the walk over the forest. -/
theorem subtree_sublist_subtrees : ∀ (as : List Block) {b : Block}, b ∈ subtrees as →
    b.subtree.Sublist (subtrees as)
  | [], b, hb => by
    rw [subtrees] at hb
    cases hb
  | a :: as, b, hb => by
    rw [subtrees] at hb ⊢
    rcases List.mem_append.mp hb with hb | hb
    · exact (subtree_sublist_subtree a hb).trans (List.sublist_append_left _ _)
    · exact (subtree_sublist_subtrees as hb).trans (List.sublist_append_right _ _)

end

/-- The children of a block are met in their order. -/
theorem children_sublist_subtrees {bs : List Block} {b : Block} (h : b ∈ subtrees bs) :
    b.children.Sublist (subtrees bs) := by
  have own : b.children.Sublist b.subtree := by
    rw [subtree_eq]
    exact (sublist_subtrees b.children).cons b
  exact own.trans (subtree_sublist_subtrees bs h)

/-- A block stands in a forest, at any depth. -/
inductive StandsIn : List Block → Block → Prop
  | outermost {bs : List Block} {b : Block} : b ∈ bs → StandsIn bs b
  | deeper {bs : List Block} {a b : Block} : a ∈ bs → StandsIn a.children b → StandsIn bs b

mutual

theorem eq_or_standsIn_of_mem_subtree : ∀ (a : Block) {b : Block}, b ∈ a.subtree →
    b = a ∨ StandsIn a.children b
  | ⟨tag, name, line, parentTag, directives, children⟩, b, hb => by
    rw [subtree] at hb
    exact (List.mem_cons.mp hb).imp_right (standsIn_of_mem_subtrees children)

theorem standsIn_of_mem_subtrees : ∀ (bs : List Block) {b : Block}, b ∈ subtrees bs →
    StandsIn bs b
  | [], b, hb => by
    rw [subtrees] at hb
    cases hb
  | a :: as, b, hb => by
    rw [subtrees] at hb
    rcases List.mem_append.mp hb with hb | hb
    · rcases eq_or_standsIn_of_mem_subtree a hb with rfl | below
      · exact .outermost List.mem_cons_self
      · exact .deeper List.mem_cons_self below
    · cases standsIn_of_mem_subtrees as hb with
      | outermost there => exact .outermost (List.mem_cons_of_mem a there)
      | deeper there below => exact .deeper (List.mem_cons_of_mem a there) below

end

/-- **The walk over a forest meets what stands in it.** -/
theorem mem_subtrees_iff {bs : List Block} {b : Block} : b ∈ subtrees bs ↔ StandsIn bs b := by
  refine ⟨standsIn_of_mem_subtrees bs, fun h => ?_⟩
  induction h with
  | outermost there => exact (sublist_subtrees _).subset there
  | @deeper bs a b there _ met =>
    have here : a ∈ subtrees bs := (sublist_subtrees bs).subset there
    refine (subtree_sublist_subtrees bs here).subset ?_
    rw [subtree_eq]
    exact List.mem_cons_of_mem a met

end Block

/-! ## The tree of a document -/

namespace Document

variable (cs : List Char)

/-- The state in which a document is taken down: all lines read, and a closer behind them for every
block still open. -/
def finalLines : List Line :=
  Nesting.withClosers (Line.ofText cs) (Line.ofText cs).length

theorem ascending_finalLines : Ascending (finalLines cs) :=
  Nesting.ascending_withClosers (Line.ascending_ofText cs) fun _ hx =>
    (Line.number_of_mem_ofText hx).2

theorem loose_eq_ofLines : (parse cs).loose = (Nesting.ofLines (finalLines cs)).loose := by
  rw [finalLines, ← Nesting.finish_eq_ofLines, parse]

theorem blocks_eq_ofLines : (parse cs).blocks = (Nesting.ofLines (finalLines cs)).closed := by
  rw [finalLines, ← Nesting.finish_eq_ofLines, parse]

/-- With nothing left open, the blocks in the order of their openers are the walk over the tree. -/
theorem blocksInOrder_eq_ofLines :
    (parse cs).blocksInOrder = (Nesting.ofLines (finalLines cs)).blocks := by
  have stack : (Nesting.ofLines (finalLines cs)).stack = [] := by
    rw [finalLines, ← Nesting.finish_eq_ofLines]
    exact Nesting.stack_finish _
  rw [blocksInOrder, blocks_eq_ofLines, Nesting.blocks, stack]
  exact (List.append_nil _).symm

/-- There is one block for every opener, and they come in the same order. -/
theorem openings_parse :
    (parse cs).blocksInOrder.map Block.opening = openings (Line.ofText cs) := by
  rw [blocksInOrder_eq_ofLines, Nesting.openings_ofLines]
  exact Nesting.openings_withClosers

theorem perm_directives_parse :
    ((parse cs).loose ++ (parse cs).blocksInOrder.flatMap Block.directives).Perm
      (directivesIn (Line.ofText cs)) := by
  rw [loose_eq_ofLines, blocksInOrder_eq_ofLines]
  have perm := Nesting.perm_directives_ofLines (finalLines cs)
  rwa [finalLines, Nesting.directivesIn_withClosers] at perm

theorem pairwise_line_blocksInOrder :
    (parse cs).blocksInOrder.Pairwise (·.line < ·.line) := by
  rw [blocksInOrder_eq_ofLines]
  exact Nesting.pairwise_line_blocks (ascending_finalLines cs)

/-- Closers behind the text do not change who owns a line of it. -/
theorem ownerOf_finalLines {n : Nat} (h : ∃ line ∈ Line.ofText cs, line.number = n) :
    ownerOf (finalLines cs) n = ownerOf (Line.ofText cs) n := by
  obtain ⟨line, hline, rfl⟩ := h
  exact Nesting.ownerOf_withClosers (Line.number_of_mem_ofText hline).2

theorem owned_finalLines (owner : Option Nat) :
    Nesting.owned (finalLines cs) owner = Nesting.owned (Line.ofText cs) owner := by
  rw [Nesting.owned, Nesting.owned, finalLines, Nesting.directivesIn_withClosers]
  refine List.filter_congr ?_
  intro d hd
  rw [← ownerOf_finalLines cs (exists_line_of_mem_directivesIn hd), finalLines]

theorem loose_parse : (parse cs).loose = Nesting.owned (Line.ofText cs) none := by
  rw [loose_eq_ofLines, Nesting.loose_ofLines (ascending_finalLines cs), owned_finalLines]

variable {cs}

theorem exists_line_of_mem_blocksInOrder {b : Block} (hb : b ∈ (parse cs).blocksInOrder) :
    ∃ line ∈ Line.ofText cs, line.number = b.line := by
  have hopening : b.opening ∈ openings (Line.ofText cs) := by
    rw [← openings_parse]
    exact List.mem_map_of_mem hb
  exact exists_line_of_mem_openings hopening

theorem directives_parse {b : Block} (hb : b ∈ (parse cs).blocksInOrder) :
    b.directives = Nesting.owned (Line.ofText cs) (some b.line) := by
  rw [blocksInOrder_eq_ofLines] at hb
  rw [Nesting.directives_ofLines (ascending_finalLines cs) b hb, owned_finalLines]

/-- With nothing left open, an opener has ended as soon as it is there. -/
theorem ended_finalLines {owner : Option Nat} {o : Nat × String × Option String} :
    Nesting.Ended (finalLines cs) owner o ↔
      o ∈ openings (Line.ofText cs) ∧ ownerOf (Line.ofText cs) o.1 = owner := by
  rw [Nesting.Ended]
  have none : openStack (finalLines cs) = [] := Nesting.openStack_withClosers
  rw [none, finalLines, Nesting.openings_withClosers]
  constructor
  · rintro ⟨ho, howner, _⟩
    refine ⟨ho, ?_⟩
    rw [← ownerOf_finalLines cs (exists_line_of_mem_openings ho)]
    exact howner
  · rintro ⟨ho, howner⟩
    refine ⟨ho, ?_, List.not_mem_nil⟩
    rw [← howner, ← ownerOf_finalLines cs (exists_line_of_mem_openings ho), finalLines]

/-- Blocks of a document with the same opener are the same. -/
theorem eq_of_line_eq {b c : Block} (hb : b ∈ (parse cs).blocksInOrder)
    (hc : c ∈ (parse cs).blocksInOrder) (same : b.line = c.line) : b = c :=
  eq_of_growing (pairwise_line_blocksInOrder cs) hb hc same

/-- A list of blocks of a document that has the ended openers of one owner is the list of all
blocks with that owner. -/
theorem mem_iff_of_ended {bs : List Block} {owner : Option Nat}
    (sub : bs.Sublist (parse cs).blocksInOrder)
    (ended : ∀ o, o ∈ bs.map Block.opening ↔ Nesting.Ended (finalLines cs) owner o) {c : Block} :
    c ∈ bs ↔ c ∈ (parse cs).blocksInOrder ∧ ownerOf (Line.ofText cs) c.line = owner := by
  constructor
  · intro hc
    have owned := ended_finalLines.mp ((ended c.opening).mp (List.mem_map_of_mem hc))
    exact ⟨sub.subset hc, owned.2⟩
  · rintro ⟨hc, howner⟩
    have hopening : c.opening ∈ openings (Line.ofText cs) := by
      rw [← openings_parse]
      exact List.mem_map_of_mem hc
    have owned := (ended c.opening).mpr (ended_finalLines.mpr ⟨hopening, howner⟩)
    obtain ⟨d, hd, same⟩ := List.mem_map.mp owned
    have line : d.line = c.line := congrArg Prod.fst same
    rwa [← eq_of_line_eq (sub.subset hd) hc line]

theorem mem_children_parse {b : Block} (hb : b ∈ (parse cs).blocksInOrder) {c : Block} :
    c ∈ b.children ↔
      c ∈ (parse cs).blocksInOrder ∧ ownerOf (Line.ofText cs) c.line = some b.line := by
  refine mem_iff_of_ended (Block.children_sublist_subtrees hb) ?_
  rw [blocksInOrder_eq_ofLines] at hb
  exact Nesting.children_ofLines (ascending_finalLines cs) b hb

theorem mem_blocks_parse {c : Block} :
    c ∈ (parse cs).blocks ↔
      c ∈ (parse cs).blocksInOrder ∧ ownerOf (Line.ofText cs) c.line = none := by
  refine mem_iff_of_ended (Block.sublist_subtrees _) ?_
  rw [blocks_eq_ofLines]
  exact Nesting.closed_ofLines (ascending_finalLines cs)

theorem parentTag_parse {b : Block} (hb : b ∈ (parse cs).blocksInOrder) :
    (ownerOf (Line.ofText cs) b.line = none ∧ b.parentTag = none) ∨
    ∃ o ∈ (parse cs).blocksInOrder, ownerOf (Line.ofText cs) b.line = some o.line ∧
      b.parentTag = some o.tag := by
  have same := ownerOf_finalLines cs (exists_line_of_mem_blocksInOrder hb)
  rw [blocksInOrder_eq_ofLines] at hb ⊢
  rw [← same]
  exact Nesting.parentTag_ofLines (ascending_finalLines cs) b hb

/-! ## The main statement -/

/-- A document says what a text says, and every directive and every block stands in it right inside
the innermost block that is open at its line of the text, or outside all blocks if none is. -/
structure Nested (doc : Document) (cs : List Char) : Prop where
  /-- The lines are those of the text. -/
  lines : doc.lines = Line.ofText cs
  /-- The blocks are those of the tree, at any depth. -/
  blocks : ∀ b, b ∈ doc.blocksInOrder ↔ Block.StandsIn doc.blocks b
  /-- There is one block for every opener. -/
  opened : doc.blocksInOrder.map Block.opening = openings (Line.ofText cs)
  /-- A block has the directives for which its opener is the innermost open one. -/
  directives : ∀ b ∈ doc.blocksInOrder, ∀ d, d ∈ b.directives ↔
    d ∈ directivesIn (Line.ofText cs) ∧ InnermostAt (Line.ofText cs) b.line d.line
  /-- A directive is loose if no opener is open at its line. -/
  loose : ∀ d, d ∈ doc.loose ↔
    d ∈ directivesIn (Line.ofText cs) ∧ ∀ m, ¬OpenAt (Line.ofText cs) m d.line
  /-- A block has the blocks for which its opener is the innermost open one. -/
  children : ∀ b ∈ doc.blocksInOrder, ∀ c, c ∈ b.children ↔
    c ∈ doc.blocksInOrder ∧ InnermostAt (Line.ofText cs) b.line c.line
  /-- A block is outside any other if no opener is open at its line. -/
  outermost : ∀ c, c ∈ doc.blocks ↔
    c ∈ doc.blocksInOrder ∧ ∀ m, ¬OpenAt (Line.ofText cs) m c.line
  /-- A block knows the tag of the block it stands in. -/
  parentTag : ∀ b ∈ doc.blocksInOrder, ∀ o ∈ doc.blocksInOrder,
    InnermostAt (Line.ofText cs) o.line b.line → b.parentTag = some o.tag
  /-- A block outside any other knows none. -/
  noParentTag : ∀ b ∈ doc.blocksInOrder,
    (∀ m, ¬OpenAt (Line.ofText cs) m b.line) → b.parentTag = none
  /-- What a block has is in the order of the lines, and nothing is there twice. -/
  ascending : ∀ b ∈ doc.blocksInOrder,
    b.directives.Pairwise (·.line < ·.line) ∧ b.children.Pairwise (·.line < ·.line)

theorem mem_owned_iff {owner : Option Nat} {d : Directive} :
    d ∈ Nesting.owned (Line.ofText cs) owner ↔
      d ∈ directivesIn (Line.ofText cs) ∧ ownerOf (Line.ofText cs) d.line = owner := by
  simp [Nesting.owned]

/-- **Ownership is by innermost open block**, in every text: with closers that close nothing, and
with blocks that nothing closes. -/
theorem nested_parse (cs : List Char) : (parse cs).Nested cs := by
  have sorted := Line.ascending_ofText cs
  -- each part is known of `ownerOf`; what is open is read off by the two equivalences
  refine ⟨lines_parse cs, fun _ => Block.mem_subtrees_iff, openings_parse cs, ?_, ?_, ?_, ?_, ?_,
    ?_, ?_⟩
  · intro b hb d
    rw [directives_parse hb, mem_owned_iff, ownerOf_eq_some_iff sorted]
  · intro d
    rw [loose_parse, mem_owned_iff, ownerOf_eq_none_iff sorted]
  · intro b hb c
    rw [mem_children_parse hb, ownerOf_eq_some_iff sorted]
  · intro c
    rw [mem_blocks_parse, ownerOf_eq_none_iff sorted]
  · intro b hb o ho innermost
    have owner := (ownerOf_eq_some_iff sorted).mpr innermost
    rcases parentTag_parse hb with ⟨none, _⟩ | ⟨p, hp, some, tag⟩
    · rw [none] at owner
      cases owner
    · have line : p.line = o.line := Option.some.inj (some.symm.trans owner)
      rw [tag, eq_of_line_eq hp ho line]
  · intro b hb loose
    have owner := (ownerOf_eq_none_iff sorted).mpr loose
    rcases parentTag_parse hb with ⟨_, tag⟩ | ⟨p, _, some, _⟩
    · exact tag
    · rw [some] at owner
      cases owner
  · intro b hb
    constructor
    · rw [directives_parse hb]
      exact (pairwise_directivesIn sorted).filter _
    · exact (pairwise_line_blocksInOrder cs).sublist (Block.children_sublist_subtrees hb)

/-- The first closer ends nothing, and nothing ends the block of line 2. -/
example : (parse "..\n[a]\n[b]\n.x\n..\n.y".toList).blocksInOrder.map
    (fun b => (b.line, b.parentTag, b.directives.map Directive.line)) =
    [(2, none, [6]), (3, some "a", [4])] := by
  decide +kernel

end Document

end LiveLint.Buildconf
