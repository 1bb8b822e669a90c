import LiveLint.Proofs.Buildconf.Moved
import LiveLint.Proofs.Buildconf.Ownership

/-!
# Where findings about a build configuration stand

Findings are about lines of the text, and hardly ever about a line of layout: all but two checks
take their lines from headers, blocks and directives. `line_of_mem_findings` says which line a
finding can be about.

That a check passes the lines of a document on to its findings is what `documentFindings_moved` is
about, so nothing is proved again for each check. The lines of a document correspond to themselves
as long as something holds of them, `Stays P`, and a finding that is moved along `Stays P` stands
on a line of which `P` holds.
-/

namespace LiveLint.Buildconf

/-- Whether a line is a header, starts a block or is a directive. -/
def Line.isStructural (line : Line) : Bool :=
  match line.kind with
  | .header _ | .opener .. | .directive .. => true
  | .blank | .comment | .closer | .text => false

theorem Line.isMeaningful_of_isStructural {line : Line} (h : line.isStructural = true) :
    line.isMeaningful = true := by
  unfold isStructural at h
  unfold isMeaningful
  cases kind : line.kind <;> simp [kind] at h ⊢

theorem isStructural_of_isHeader {line : Line} (h : isHeader line = true) :
    line.isStructural = true := by
  unfold isHeader at h
  unfold Line.isStructural
  split at h
  · next kind => rw [kind]
  · cases h

/-! ## Lines that correspond to themselves -/

/-- The same line, of which `P` holds. -/
def Stays (P : Nat → Prop) (n n' : Nat) : Prop :=
  n = n' ∧ P n

variable {P : Nat → Prop}

theorem paired_stays : Paired (Stays P) := by
  rintro m _ n _ ⟨rfl, _⟩ ⟨rfl, _⟩
  rfl

theorem alike_self_of_directive {d : Directive} (h : P d.line) : d.Alike (Stays P) d :=
  ⟨d.name, d.rest, d.args, rfl, h⟩

namespace Block

/-- `P` holds of the lines of a block and of its own directives. -/
def Stands (P : Nat → Prop) (b : Block) : Prop :=
  P b.line ∧ ∀ d ∈ b.directives, P d.line

mutual

theorem alike_self : ∀ b : Block, (∀ c ∈ b.subtree, c.Stands P) → b.Alike (Stays P) b
  | ⟨tag, name, line, parentTag, directives, children⟩, h => by
    rw [subtree] at h
    obtain ⟨own, inside⟩ := List.forall_mem_cons.mp h
    have same : List.Forall₂ (Directive.Alike (Stays P)) directives directives :=
      List.forall₂_same.mpr fun d hd => alike_self_of_directive (own.2 d hd)
    exact ⟨tag, name, parentTag, ⟨rfl, own.1⟩, same, alike_selves children inside⟩

theorem alike_selves : ∀ bs : List Block, (∀ c ∈ subtrees bs, c.Stands P) →
    List.Forall₂ (Block.Alike (Stays P)) bs bs
  | [], _ => .nil
  | b :: bs, h => by
    rw [subtrees] at h
    obtain ⟨first, rest⟩ := List.forall_mem_append.mp h
    exact .cons (alike_self b first) (alike_selves bs rest)

end

end Block

/-- `P` holds of every line that a finding is about. -/
def Stand (P : Nat → Prop) (found : List Finding) : Prop :=
  ∀ f ∈ found, ∀ n ∈ f.line, P n

theorem stand_append {found more : List Finding} :
    Stand P (found ++ more) ↔ Stand P found ∧ Stand P more :=
  List.forall_mem_append

/-- Findings that are moved along `Stays P` stand where `P` holds. -/
theorem stand_of_moved {found : List Finding} (h : Moved (Stays P) found found) :
    Stand P found := by
  intro f hf n hn
  have moved := (List.forall₂_same.mp h f hf).line
  rw [Option.mem_def.mp hn] at moved
  cases moved with
  | some stays => exact stays.2

/-! ## A document without its layout -/

namespace Document

/-- The document with its structural lines only. -/
def skeleton (doc : Document) : Document :=
  { doc with lines := doc.lines.filter Line.isStructural }

/-- Whether a number is that of a structural line. -/
def HasStructure (cs : List Char) (n : Nat) : Prop :=
  ∃ line ∈ Line.ofText cs, line.number = n ∧ line.isStructural = true

section Skeleton

variable {cs : List Char}

theorem hasStructure_of_mem_openings {o : Nat × String × Option String}
    (h : o ∈ openings (Line.ofText cs)) : HasStructure cs o.1 := by
  obtain ⟨line, hline, opens⟩ := List.mem_filterMap.mp h
  refine ⟨line, hline, (Line.number_of_opening? opens).symm, ?_⟩
  rw [Line.isStructural, Line.kind_of_opening? opens]

theorem hasStructure_of_mem_directivesIn {d : Directive}
    (h : d ∈ directivesIn (Line.ofText cs)) : HasStructure cs d.line := by
  obtain ⟨line, hline, directive⟩ := List.mem_filterMap.mp h
  refine ⟨line, hline, ?_⟩
  unfold Line.directive? at directive
  unfold Line.isStructural
  cases kind : line.kind <;> simp [kind] at directive
  exact ⟨congrArg Directive.line directive, rfl⟩

/-- Blocks and what they hold come from structural lines. -/
theorem stands_of_mem_blocksInOrder {b : Block} (hb : b ∈ (parse cs).blocksInOrder) :
    b.Stands (HasStructure cs) := by
  constructor
  · have opening : b.opening ∈ openings (Line.ofText cs) := by
      rw [← openings_parse]
      exact List.mem_map_of_mem hb
    exact hasStructure_of_mem_openings opening
  · intro d hd
    refine hasStructure_of_mem_directivesIn ((perm_directives_parse cs).mem_iff.mp ?_)
    exact List.mem_append_right _ (List.mem_flatMap.mpr ⟨b, hb, hd⟩)

/-- The structural lines of a document correspond to themselves. -/
theorem alike_skeleton (cs : List Char) :
    (parse cs).skeleton.Alike (Stays (HasStructure cs)) (parse cs).skeleton := by
  refine ⟨List.forall₂_same.mpr ?_, List.forall₂_same.mpr ?_, List.forall₂_same.mpr ?_⟩
  · intro line hline
    have kept : line ∈ (Line.ofText cs).filter Line.isStructural := (List.mem_filter.mp hline).1
    obtain ⟨there, structural⟩ := List.mem_filter.mp kept
    exact ⟨rfl, rfl, rfl, line, there, rfl, structural⟩
  · intro b hb
    apply Block.alike_self
    intro c hc
    have inside : c ∈ (parse cs).blocksInOrder :=
      (Block.subtree_sublist_subtrees _ hb).subset hc
    exact stands_of_mem_blocksInOrder inside
  · intro d hd
    have inside : d ∈ (parse cs).directivesInOrder := hd
    rw [directivesInOrder_parse] at inside
    exact alike_self_of_directive (hasStructure_of_mem_directivesIn inside)

end Skeleton

end Document

/-! ## Where findings stand -/

/-- What is found in blocks and directives. -/
def blockFindings (doc : Document) : List Finding :=
  workspaceFindings doc ++ presenceFindings doc ++ bakeFindings doc ++ outputFindings doc ++
  toolFindings doc ++ runFindings doc ++ referenceFindings doc ++ sourceFindings doc ++
  renamingFindings doc

theorem documentFindings_eq_append (doc : Document) :
    documentFindings doc = headerFindings doc ++ blockFindings doc ++ layoutFindings doc := by
  simp [documentFindings, blockFindings]

/-- What is found in blocks and directives is found without the layout as well. -/
theorem blockFindings_skeleton (doc : Document) :
    blockFindings doc.skeleton = blockFindings doc := by
  -- the first header is the only line that is asked for
  have first : (doc.lines.filter Line.isStructural).find? isHeader = doc.lines.find? isHeader := by
    rw [List.find?_filter]
    congr 1
    funext line
    cases header : isHeader line with
    | false => simp
    | true => simp [isStructural_of_isHeader header]
  have exports : exportFindings doc.skeleton = exportFindings doc := by
    show reportIf _ (.nothingExported
      (((doc.lines.filter Line.isStructural).find? isHeader).map Line.number)) = _
    rw [first]
    rfl
  rw [blockFindings, referenceFindings, exports]
  rfl

section Findings

variable (cs : List Char)

open Document (HasStructure parse alike_skeleton)

/-- What is found in blocks and directives stands on structural lines. -/
theorem stand_blockFindings : Stand (HasStructure cs) (blockFindings (parse cs)) := by
  have same := alike_skeleton cs
  rw [← blockFindings_skeleton]
  unfold blockFindings
  simp only [stand_append]
  refine ⟨⟨⟨⟨⟨⟨⟨⟨?_, ?_⟩, ?_⟩, ?_⟩, ?_⟩, ?_⟩, ?_⟩, ?_⟩, ?_⟩
  · exact stand_of_moved (workspaceFindings_moved same)
  · exact stand_of_moved (presenceFindings_moved same)
  · exact stand_of_moved (bakeFindings_moved same)
  · exact stand_of_moved (outputFindings_moved same)
  · exact stand_of_moved (toolFindings_moved same)
  · exact stand_of_moved (runFindings_moved same)
  · exact stand_of_moved (referenceFindings_moved same)
  · exact stand_of_moved (sourceFindings_moved paired_stays same)
  · exact stand_of_moved (renamingFindings_moved same)

/-- What a rule can be about: a line with a tab, a meaningful line, or a structural line. -/
def Rule.Allows (rule : Rule) (line : Line) : Prop :=
  rule ≠ .tab → line.isMeaningful = true ∧
    (rule ≠ .misplacedHeader → line.isStructural = true)

theorem Rule.allows_of_isStructural {line : Line} (h : line.isStructural = true) (rule : Rule) :
    rule.Allows line :=
  fun _ => ⟨Line.isMeaningful_of_isStructural h, fun _ => h⟩

theorem line_of_mem_headerFindings {f : Finding} (hf : f ∈ headerFindings (parse cs)) {n : Nat}
    (hn : n ∈ f.line) : ∃ line ∈ Line.ofText cs, line.number = n ∧ f.rule.Allows line := by
  rcases List.mem_append.mp hf with first | count
  · unfold firstLineFindings at first
    split at first
    · cases List.mem_singleton.mp first
      cases hn
    · next line head =>
      obtain ⟨there, meaningful⟩ := List.mem_filter.mp (List.mem_of_mem_head? head)
      split at first
      · cases first
      · rcases List.mem_pair.mp first with rfl | rfl
        · cases hn
          exact ⟨line, there, rfl, fun _ => ⟨meaningful, fun other => absurd rfl other⟩⟩
        · cases hn
  · rcases List.mem_append.mp count with none | more
    · cases (mem_reportIf.mp none).2
      cases hn
    · obtain ⟨line, hline, rfl⟩ := List.mem_map.mp more
      obtain ⟨there, valid⟩ := List.mem_filter.mp (List.mem_of_mem_tail hline)
      have structural : line.isStructural = true := by
        rw [Line.isStructural, eq_of_beq valid]
      cases hn
      exact ⟨line, there, rfl, Rule.allows_of_isStructural structural _⟩

theorem line_of_mem_layoutFindings {f : Finding} (hf : f ∈ layoutFindings (parse cs)) {n : Nat}
    (hn : n ∈ f.line) : ∃ line ∈ Line.ofText cs, line.number = n ∧ f.rule.Allows line := by
  rcases List.mem_append.mp hf with lines | balance
  · rcases List.mem_append.mp lines with tags | tab
    · obtain ⟨line, there, unknown⟩ := List.mem_filterMap.mp tags
      unfold unknownTag? at unknown
      split at unknown
      · next kind =>
        have structural : line.isStructural = true := by
          rw [Line.isStructural, kind]
        split at unknown
        · cases unknown
        · cases unknown
          cases hn
          exact ⟨line, there, rfl, Rule.allows_of_isStructural structural _⟩
      · cases unknown
    · obtain ⟨line, first, rfl⟩ := Option.map_eq_some_iff.mp (Option.mem_toList.mp tab)
      cases hn
      exact ⟨line, List.mem_of_find?_eq_some first, rfl, fun other => absurd rfl other⟩
  · cases (mem_reportIf.mp balance).2
    cases hn

/-- **A finding is about a line of the text**, and unless it is about a tab, that line is more than
layout; unless it is about the header's place, that line is a header, an opener or a directive. -/
theorem line_of_mem_findings {f : Finding} (hf : f ∈ findings cs) {n : Nat} (hn : n ∈ f.line) :
    ∃ line ∈ Line.ofText cs, line.number = n ∧ f.rule.Allows line := by
  rw [findings, documentFindings_eq_append] at hf
  rcases List.mem_append.mp hf with front | layout
  · rcases List.mem_append.mp front with header | blocks
    · exact line_of_mem_headerFindings cs header hn
    · obtain ⟨line, there, number, structural⟩ := stand_blockFindings cs f blocks n hn
      exact ⟨line, there, number, Rule.allows_of_isStructural structural f.rule⟩
  · exact line_of_mem_layoutFindings cs layout hn

end Findings

end LiveLint.Buildconf
