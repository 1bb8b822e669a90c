import LiveLint.Proofs.Buildconf.CrossReference
import LiveLint.Proofs.Buildconf.Inserted
import LiveLint.Proofs.Buildconf.LineGrammar
import LiveLint.Proofs.Buildconf.Pruned
import LiveLint.Proofs.Buildconf.Tidy

/-!
# Exporting a bake

To refer to a bake right below the opener of an export answers two complaints: that nothing is
exported, and that nothing refers to this bake. Whatever the text around it is, nothing else changes
but the lines that findings are told on (`analyze_exported`).

The reference is put in by two steps. An empty line in its place moves the lines below it
(`analyze_insertBelow_layout`); then the empty line becomes the reference, and no number changes.
In the second step the two documents differ in one directive of one export (`Refers`), and a check
sees the difference only if it asks for references or looks into exports.
-/

namespace LiveLint

namespace Buildconf

/-- The line that refers to a bake. -/
def refLine (bake : String) : List Char :=
  [' ', ' ', '.', 'r', 'e', 'f', ' '] ++ bake.toList

/-- A diagnostic that a reference to a bake answers: that nothing is exported, or that nothing
refers to this bake. -/
def IsAnswered (bake : String) (d : Diagnostic) : Prop :=
  d.code = some "B071" ∨ d.code = some "B070" ∧ d.message = (Finding.unusedBake bake 0).message

instance (bake : String) : DecidablePred (IsAnswered bake) := fun d =>
  inferInstanceAs (Decidable (d.code = some "B071" ∨
    d.code = some "B070" ∧ d.message = (Finding.unusedBake bake 0).message))

/-! ## The line of a reference -/

/-- It is the row of the directive, one block deep. -/
theorem refLine_eq (bake : String) : refLine bake = (⟨1, .directive "ref" bake⟩ : Row).text := by
  simp [refLine, Row.text, Row.indent, LineKind.written]

section RefLine

variable {bake : String} (ok : isIdentifier bake.toList = true)
include ok

theorem writable_ref : (LineKind.directive "ref" bake).Writable := by
  refine ⟨by decide, (isIdentifier_iff.mp ok).1, trimmed_of_isIdentifier ok, ?_⟩
  exact not_mem_of_isIdentifier ok (by decide)

theorem ofLine_refLine : LineKind.ofLine (refLine bake) = .directive "ref" bake := by
  rw [refLine_eq]
  exact Row.ofLine_text (writable_ref ok)

theorem startsWithBracket_refLine (n : Nat) :
    startsWithBracket { number := n, raw := refLine bake } = false := by
  rw [refLine_eq]
  exact startsWithBracket_row (writable_ref ok) n

theorem not_mem_refLine {c : Char} (other : isIdentChar c = false)
    (own : c ∉ [' ', ' ', '.', 'r', 'e', 'f', ' ']) : c ∉ refLine bake := by
  rw [refLine, List.mem_append, not_or]
  exact ⟨own, not_mem_of_isIdentifier ok other⟩

/-- The reference has one argument, the name of the bake. -/
theorem ofRest_of_isIdentifier : Argument.ofRest bake = [⟨bake, false⟩] := by
  have writable : (⟨bake, false⟩ : Argument).Writable := (Argument.plain_of_isIdentifier ok false).1
  have read := Argument.readAll_written_append writable (by simp : ∀ c ∈ [].head?, _)
  rw [List.append_nil, Argument.readAll_nil] at read
  exact read

end RefLine

/-- The name of a block that is read is an identifier. -/
theorem isIdentifier_of_mem_names {cs : List Char} {tag name : String}
    (h : name ∈ (Document.parse cs).names tag) : isIdentifier name.toList = true := by
  obtain ⟨b, hb, -, called⟩ := h
  -- the grammar of openers lets no other name through
  have opening : b.opening ∈ openings (Line.ofText cs) := by
    rw [← Document.openings_parse]
    exact List.mem_map_of_mem hb
  obtain ⟨line, hline, opens⟩ := List.mem_filterMap.mp opening
  have kind : LineKind.ofTrimmed line.trimmed = .opener b.tag (some name) := by
    have own : line.kind = LineKind.ofTrimmed line.trimmed := Line.kind_of_mem_ofText hline
    rw [← own, ← called]
    exact Line.kind_of_opening? opens
  rcases LineKind.ofTrimmed_eq_iff.mp kind with form | ⟨text, -⟩
  · exact form.isIdentifier
  · cases text

/-- The message about an unused bake names it. -/
theorem message_unusedBake_eq_iff {name name' : String} {n n' : Nat} :
    (Finding.unusedBake name n).message = (Finding.unusedBake name' n').message ↔ name = name' := by
  have shape : ∀ name n, (Finding.unusedBake name n).message =
      "buildconf: bake \"" ++ name ++ "\" is not referenced (export/needs)." := fun _ _ => rfl
  rw [shape, shape, String.append_left_inj, String.append_right_inj]

/-! ## Documents that differ in a reference -/

/-- The reference to a bake on line `n`. -/
def reference (bake : String) (n : Nat) : Directive :=
  ⟨"ref", bake, n, [⟨bake, false⟩]⟩

/-- All directives but those on line `n` in an export. -/
def keepsOff (n : Nat) (tag : String) (d : Directive) : Bool :=
  !(tag == "export" && d.line == n)

/-- The lines of two documents that differ in one: a line of layout in the one, a reference to a
bake in the other. -/
structure ReferLines (bake : String) (lines lines' : List Line) (front back : List Line)
    (gap ref : Line) : Prop where
  eq : lines = front ++ gap :: back
  eq' : lines' = front ++ ref :: back
  /-- It is not the first of the lines that count. -/
  below : ∃ line ∈ front, line.isMeaningful = true
  layout : gap.isMeaningful = false
  refers : ref.kind = .directive "ref" bake
  untabbed : ∀ line ∈ [gap, ref], hasTab line = false
  unbracketed : ∀ line ∈ [gap, ref], startsWithBracket line = false

/-- The second document has one more reference, to a bake of the first, right inside an export;
`n` is its line. -/
structure Refers (bake : String) (n : Nat) (doc doc' : Document) : Prop where
  lines : ∃ front back gap ref, ReferLines bake doc.lines doc'.lines front back gap ref
  blocks : doc.blocksInOrder = doc'.blocksInOrder.map (Block.pruned (keepsOff n))
  directives : ∃ before behind, doc.directivesInOrder = before ++ behind ∧
    doc'.directivesInOrder = before ++ reference bake n :: behind
  /-- What is referred to is there. -/
  bake : bake ∈ doc.names "bake"
  /-- Something is exported now. -/
  exported : hasExport doc' = true

/-! ## Lines -/

namespace ReferLines

variable {bake : String} {lines lines' front back : List Line} {gap ref : Line}
variable (h : ReferLines bake lines lines' front back gap ref)
include h

/-- What holds of neither line is not affected. -/
theorem filter_eq {p : Line → Bool} (hp : p gap = false) (hp' : p ref = false) :
    lines.filter p = lines'.filter p := by
  rw [h.eq, h.eq', filter_append_cons_of_neg hp, filter_append_cons_of_neg hp']

theorem find?_eq {p : Line → Bool} (hp : p gap = false) (hp' : p ref = false) :
    lines.find? p = lines'.find? p := by
  rw [← List.head?_filter, h.filter_eq hp hp', List.head?_filter]

theorem countP_eq {p : Line → Bool} (hp : p gap = false) (hp' : p ref = false) :
    lines.countP p = lines'.countP p := by
  rw [List.countP_eq_length_filter, h.filter_eq hp hp', List.countP_eq_length_filter]

/-- A line of layout is of none of the kinds that count. -/
theorem kind_ne (kind : LineKind) (counts : kind ≠ .blank ∧ kind ≠ .comment) :
    gap.kind ≠ kind := by
  intro same
  have meaningful := h.layout
  rw [Line.isMeaningful, same] at meaningful
  simp [counts] at meaningful

theorem unknownTags_eq : lines.filterMap unknownTag? = lines'.filterMap unknownTag? := by
  have none : unknownTag? gap = none := by
    have layout := h.layout
    unfold Line.isMeaningful at layout
    unfold unknownTag?
    cases kind : gap.kind <;> simp [kind] at layout ⊢
  have none' : unknownTag? ref = Option.none := by
    rw [unknownTag?, h.refers]
  rw [h.eq, h.eq', List.filterMap_append, List.filterMap_append, List.filterMap_cons_none none,
    List.filterMap_cons_none none']

theorem head?_meaningful_eq :
    (lines.filter Line.isMeaningful).head? = (lines'.filter Line.isMeaningful).head? := by
  obtain ⟨line, hline, meaningful⟩ := h.below
  have some : front.filter Line.isMeaningful ≠ [] :=
    List.ne_nil_of_mem (List.mem_filter.mpr ⟨hline, meaningful⟩)
  rw [h.eq, h.eq', List.filter_append, List.filter_append, List.head?_append_of_ne_nil _ some,
    List.head?_append_of_ne_nil _ some]

end ReferLines

namespace Refers

variable {bake : String} {n : Nat} {doc doc' : Document} (h : Refers bake n doc doc')
include h

theorem validHeaders_eq : validHeaders doc = validHeaders doc' := by
  obtain ⟨front, back, gap, ref, lines⟩ := h.lines
  have other := lines.kind_ne (.header true) (by decide)
  exact lines.filter_eq (by simpa using other) (by simp [lines.refers])

theorem headerFindings_eq : headerFindings doc = headerFindings doc' := by
  obtain ⟨front, back, gap, ref, lines⟩ := h.lines
  have first : doc.meaningfulLines.head? = doc'.meaningfulLines.head? := lines.head?_meaningful_eq
  rw [headerFindings, headerFindings, firstLineFindings, firstLineFindings, first,
    headerCountFindings, headerCountFindings, h.validHeaders_eq]

theorem layoutFindings_eq : layoutFindings doc = layoutFindings doc' := by
  obtain ⟨front, back, gap, ref, lines⟩ := h.lines
  have tab : doc.lines.find? hasTab = doc'.lines.find? hasTab :=
    lines.find?_eq (lines.untabbed _ (by simp)) (lines.untabbed _ (by simp))
  have brackets : doc.lines.countP startsWithBracket = doc'.lines.countP startsWithBracket :=
    lines.countP_eq (lines.unbracketed _ (by simp)) (lines.unbracketed _ (by simp))
  have closers : doc.lines.countP (·.kind == .closer) = doc'.lines.countP (·.kind == .closer) := by
    have other := lines.kind_ne .closer (by decide)
    exact lines.countP_eq (by simpa using other) (by simp [lines.refers])
  rw [layoutFindings, layoutFindings, lines.unknownTags_eq, tab, isBalanced, isBalanced, brackets,
    closers]

/-! ## Blocks and directives -/

theorem blocksOf_eq (tag : String) :
    doc.blocksOf tag = (doc'.blocksOf tag).map (Block.pruned (keepsOff n)) := by
  rw [Document.blocksOf, h.blocks, List.filter_map, Document.blocksOf]
  refine congrArg _ (List.filter_congr ?_)
  intro b _
  rw [Function.comp_apply, Block.tag_pruned]

theorem named_eq (tag : String) : doc.named tag = doc'.named tag := by
  rw [Document.named, h.blocksOf_eq, List.filterMap_map, Document.named]
  refine List.filterMap_congr ?_
  intro b _
  rw [Function.comp_apply, Block.pruned_eq]

theorem directivesOf_eq (name : String) (other : name ≠ "ref") :
    doc.directivesOf name = doc'.directivesOf name := by
  obtain ⟨before, behind, eq, eq'⟩ := h.directives
  rw [Document.directivesOf, Document.directivesOf, eq, eq', filter_append_cons_of_neg]
  exact beq_eq_false_iff_ne.mpr other.symm

/-- What is found in the blocks of a tag, by what they are but for the blocks inside. -/
theorem flatMap_blocksOf {tag : String} (other : tag ≠ "export") {f : Block → List Finding}
    (shallow : ∀ b : Block, f { b with children := b.children.map (Block.pruned (keepsOff n)) } =
      f b) : (doc.blocksOf tag).flatMap f = (doc'.blocksOf tag).flatMap f := by
  rw [h.blocksOf_eq, List.flatMap_map]
  refine List.flatMap_congr ?_
  intro b hb
  have tagged : b.tag = tag := (Document.mem_blocksOf.mp hb).2
  rw [Block.pruned_of_kept, shallow]
  intro d
  simp [keepsOff, tagged, other]

/-! ## The checks that do not see the difference -/

theorem workspaceFindings_eq : workspaceFindings doc = workspaceFindings doc' := by
  have count : workspaceCountFindings (doc.blocksOf "workspace") =
      workspaceCountFindings (doc'.blocksOf "workspace") := by
    -- only the line of the second workspace is told
    rw [h.blocksOf_eq]
    rcases doc'.blocksOf "workspace" with _ | ⟨first, _ | ⟨second, rest⟩⟩
    · rfl
    · rfl
    · simp [workspaceCountFindings, Block.pruned_eq]
  rw [workspaceFindings, count, declaredProfiles, h.named_eq,
    h.flatMap_blocksOf (by decide) fun _ => rfl]
  rfl

theorem absences_eq : absences doc = absences doc' := by
  rw [absences, h.named_eq, h.named_eq, h.named_eq, h.directivesOf_eq _ (by decide), absences]

theorem repeatedNames_eq : repeatedNames doc = repeatedNames doc' := by
  rw [repeatedNames, h.named_eq, h.named_eq, repeatedNames]

theorem idleTools_eq : idleTools doc = idleTools doc' := by
  rw [idleTools, h.named_eq, h.named_eq, idleTools]

theorem unknownTools_eq : unknownTools doc = unknownTools doc' := by
  rw [unknownTools, h.named_eq, h.named_eq, unknownTools]

theorem bakeFindings_eq : bakeFindings doc = bakeFindings doc' := by
  refine h.flatMap_blocksOf (by decide) ?_
  intro bake
  -- a bake is asked for the blocks inside it, but for nothing more than their tags
  have runs : (bake.children.map (Block.pruned (keepsOff n))).any (·.tag == "run") =
      bake.children.any (·.tag == "run") := by
    rw [List.any_map]
    simp only [Function.comp_def, Block.tag_pruned]
  have each : namedBakeFindings { bake with
      children := bake.children.map (Block.pruned (keepsOff n)) } = namedBakeFindings bake := by
    funext name
    simp only [namedBakeFindings, runs]
    rfl
  rw [each]

theorem outputFindings_eq : outputFindings doc = outputFindings doc' := by
  rw [outputFindings, outputPaths, h.directivesOf_eq _ (by decide)]
  rfl

theorem toolFindings_eq : toolFindings doc = toolFindings doc' := by
  rw [toolFindings, h.flatMap_blocksOf (by decide) fun _ => rfl, h.directivesOf_eq _ (by decide)]
  rfl

theorem runFindings_eq : runFindings doc = runFindings doc' :=
  h.flatMap_blocksOf (by decide) fun _ => rfl

theorem sourceFindings_eq : sourceFindings doc = sourceFindings doc' := by
  rw [sourceFindings, h.directivesOf_eq _ (by decide)]
  rfl

/-! ## The checks that do -/

theorem mem_allDirectives_iff {d : Directive} :
    d ∈ doc'.allDirectives ↔ d = reference bake n ∨ d ∈ doc.allDirectives := by
  obtain ⟨before, behind, eq, eq'⟩ := h.directives
  have mem : ∀ {doc : Document}, d ∈ doc.allDirectives ↔ d ∈ doc.directivesInOrder :=
    List.mem_mergeSort.symm
  rw [mem, mem, eq, eq', List.mem_append, List.mem_append, List.mem_cons]
  tauto

/-- What is mentioned is what was, and the bake. -/
theorem mem_targets_iff {name : String} :
    name ∈ doc'.targets ↔ name = bake ∨ name ∈ doc.targets := by
  constructor
  · rintro ⟨d, hd, called, a, ha, text⟩
    rcases h.mem_allDirectives_iff.mp hd with rfl | hd
    · rw [List.mem_singleton.mp ha] at text
      exact .inl text.symm
    · exact .inr ⟨d, hd, called, a, ha, text⟩
  · rintro (rfl | ⟨d, hd, called, mentions⟩)
    · exact ⟨reference name n, h.mem_allDirectives_iff.mpr (.inl rfl), .inl rfl, _,
        List.mem_singleton_self _, rfl⟩
    · exact ⟨d, h.mem_allDirectives_iff.mpr (.inr hd), called, mentions⟩

/-- Of the bakes that nothing refers to, this one goes. -/
theorem unusedBakes_eq : unusedBakes doc' =
    (unusedBakes doc).filter fun f => f.message ≠ (Finding.unusedBake bake 0).message := by
  have found : ∀ doc : Document, unusedBakes doc =
      ((doc.named "bake").filter fun use => use.1 ∉ doc.targets).map
        fun use => .unusedBake use.1 use.2 := fun doc =>
    Link.flatMap_uses (l := .unusedBake) fun _ => Document.contains_mentioned
  rw [found, found, ← h.named_eq, List.filter_map, List.filter_filter]
  refine congrArg _ (List.filter_congr ?_)
  intro use _
  simp [h.mem_targets_iff, message_unusedBake_eq_iff]

theorem exportFindings_eq : exportFindings doc' = [] := by
  rw [exportFindings, h.exported]
  rfl

theorem unknownRefs_eq :
    unknownTargets ((doc'.named "bake").map (·.1)) .unknownRef (doc'.directivesOf "ref") =
      unknownTargets ((doc.named "bake").map (·.1)) .unknownRef (doc.directivesOf "ref") := by
  obtain ⟨before, behind, eq, eq'⟩ := h.directives
  have known : ((doc.named "bake").map (·.1)).contains bake = true := by
    rw [Document.contains_named]
    exact decide_eq_true h.bake
  have silent : ((reference bake n).args.flatMap fun target =>
      reportIf (!((doc.named "bake").map (·.1)).contains target.text)
        (.unknownRef target.text (reference bake n).line)) = [] := by
    simp only [reference, List.flatMap_singleton, known]
    rfl
  rw [← h.named_eq, Document.directivesOf, Document.directivesOf, eq, eq', unknownTargets,
    unknownTargets, List.filter_append, List.filter_append, List.filter_cons_of_pos rfl,
    List.flatMap_append, List.flatMap_append, List.flatMap_cons, silent, List.nil_append]

/-- All checks but two find the same. -/
theorem findings_eq {c : Check} (bakes : c ≠ .unusedBakes) (exports : c ≠ .exports) :
    c.findings doc' = c.findings doc := by
  have same := h.directivesOf_eq
  cases c with
  | header => exact h.headerFindings_eq.symm
  | workspace => exact h.workspaceFindings_eq.symm
  | absences => exact h.absences_eq.symm
  | repeatedNames => exact h.repeatedNames_eq.symm
  | idleTools => exact h.idleTools_eq.symm
  | unknownTools => exact h.unknownTools_eq.symm
  | bakes => exact h.bakeFindings_eq.symm
  | outputs => exact h.outputFindings_eq.symm
  | tools => exact h.toolFindings_eq.symm
  | runs => exact h.runFindings_eq.symm
  | unusedBakes => exact absurd rfl bakes
  | exports => exact absurd rfl exports
  | refs => exact h.unknownRefs_eq
  | needs => rw [Check.findings, ← h.named_eq, ← same "needs" (by decide), Check.findings]
  | sources => exact h.sourceFindings_eq.symm
  | inputs =>
    rw [Check.findings, ← same "takes" (by decide), ← same "make" (by decide), Check.findings]
  | results =>
    rw [Check.findings, ← same "emits" (by decide), ← same "output" (by decide), Check.findings]
  | emission =>
    rw [Check.findings, ← same "emits" (by decide), ← same "output" (by decide), Check.findings]
  | layout => exact h.layoutFindings_eq.symm

/-- **What is found with the reference** is what was found, less what the reference answers. -/
theorem documentFindings_eq : documentFindings doc' =
    (documentFindings doc).filter fun f => ¬IsAnswered bake f.diagnostic := by
  have answered : ∀ f : Finding, IsAnswered bake f.diagnostic ↔ f.rule = .nothingExported ∨
      f.rule = .unusedBake ∧ f.message = (Finding.unusedBake bake 0).message := by
    intro f
    have code : ∀ rule : Rule, some f.rule.code = some rule.code ↔ f.rule = rule := fun rule =>
      Option.some_inj.trans ⟨Rule.code_injective, congrArg Rule.code⟩
    exact or_congr (code .nothingExported) (and_congr_left' (code .unusedBake))
  rw [documentFindings_eq_flatMap, documentFindings_eq_flatMap, List.filter_flatMap]
  refine List.flatMap_congr ?_
  intro c _
  -- each check has rules of its own, and those answered belong to two of them
  have own : ∀ f ∈ c.findings doc, f.rule.check = c := speaks_check doc c
  by_cases exports : c = .exports
  · obtain rfl := exports
    have all : ∀ f ∈ exportFindings doc, IsAnswered bake f.diagnostic := by
      intro f hf
      rw [(mem_reportIf.mp hf).2]
      exact .inl rfl
    have none : (exportFindings doc).filter (fun f => ¬IsAnswered bake f.diagnostic) = [] :=
      List.filter_eq_nil_iff.mpr fun f hf => by simpa using all f hf
    exact h.exportFindings_eq.trans none.symm
  by_cases bakes : c = .unusedBakes
  · obtain rfl := bakes
    refine h.unusedBakes_eq.trans (List.filter_congr fun f hf => ?_)
    have rule : f.rule = .unusedBake := by
      obtain ⟨use, -, reports⟩ := List.mem_flatMap.mp hf
      rw [(mem_reportIf.mp reports).2]
      rfl
    simp [answered, rule]
  rw [h.findings_eq bakes exports, eq_comm, List.filter_eq_self]
  intro f hf
  have other : ¬IsAnswered bake f.diagnostic := by
    rw [answered]
    rintro (rule | ⟨rule, -⟩)
    · exact exports ((own f hf).symm.trans (congrArg Rule.check rule))
    · exact bakes ((own f hf).symm.trans (congrArg Rule.check rule))
  exact decide_eq_true other

end Refers

/-! ## The text with a reference -/

section Put

variable {cs cs' : List Char} {front back : List Line} {gap ref opener : Line}
variable {called : Option String} {bake : String}

/-- Where a line stands, the lines before and behind have other numbers. -/
theorem numbers_around (put : Line.ofText cs = front ++ ref :: back) :
    (∀ line ∈ front, line.number < ref.number) ∧ ∀ line ∈ back, ref.number < line.number := by
  have sorted := Line.ascending_ofText cs
  rw [Ascending, put, List.pairwise_append, List.pairwise_cons] at sorted
  obtain ⟨-, ⟨behind, -⟩, before⟩ := sorted
  exact ⟨fun line hline => before line hline ref List.mem_cons_self, behind⟩

theorem keepsAll_off {lines : List Line} {n : Nat} (h : ∀ line ∈ lines, line.number ≠ n) :
    Nesting.KeepsAll (keepsOff n) lines := by
  intro line hline d directive tag
  have other : d.line ≠ n := by
    rw [Line.number_of_directive? directive]
    exact h line hline
  simp [keepsOff, other]

theorem directive?_ref (ident : isIdentifier bake.toList = true)
    (refers : ref.kind = .directive "ref" bake) :
    ref.directive? = some (reference bake ref.number) := by
  rw [Line.directive?, refers, reference, ← ofRest_of_isIdentifier ident]

/-- An opener is the innermost open one right behind it. -/
theorem openStack_behind (above : List Line) (opens : opener.kind = .opener "export" called) :
    openStack (above ++ [opener]) = opener.number :: openStack above := by
  rw [openStack_snoc, openStep, opens]

/-- The trees are the same but for the reference. -/
theorem blocksInOrder_put (above : List Line) (hfront : front = above ++ [opener])
    (opens : opener.kind = .opener "export" called) (ident : isIdentifier bake.toList = true)
    (layout : gap.isMeaningful = false) (refers : ref.kind = .directive "ref" bake)
    (put : Line.ofText cs = front ++ gap :: back) (put' : Line.ofText cs' = front ++ ref :: back) :
    (Document.parse cs).blocksInOrder =
      (Document.parse cs').blocksInOrder.map (Block.pruned (keepsOff ref.number)) := by
  obtain ⟨before, behind⟩ := numbers_around put'
  obtain ⟨b, rest, top, tagged⟩ : ∃ b rest, (Nesting.ofLines front).stack = b :: rest ∧
      b.tag = "export" := by
    rw [hfront, Nesting.ofLines_snoc, Nesting.step, opens]
    exact ⟨_, _, rfl, rfl⟩
  -- so the reference goes into an export, and leaving it out there is not reading it
  have left : keepsOff ref.number b.tag (reference bake ref.number) = false := by
    simp [keepsOff, reference, tagged]
  have read : Nesting.ofLines (front ++ gap :: back) = Nesting.ofLines (front ++ back) := by
    rw [← Nesting.ofLines_filter, filter_append_cons_of_neg layout, Nesting.ofLines_filter]
  have pruned := Nesting.finish_pruned_of_left_out
    (keepsAll_off fun line hline => Nat.ne_of_lt (before line hline)) top
    (directive?_ref ident refers) left
    (keepsAll_off fun line hline => Nat.ne_of_gt (behind line hline))
  show Block.subtrees (Nesting.ofLines (Line.ofText cs)).finish.closed =
    (Block.subtrees (Nesting.ofLines (Line.ofText cs')).finish.closed).map _
  rw [put, put', read, pruned, ← Block.subtrees_pruned, Block.prunedAll_eq_map]
  rfl

/-- The directives are the same but for the reference. -/
theorem directivesInOrder_put (ident : isIdentifier bake.toList = true)
    (layout : gap.isMeaningful = false) (refers : ref.kind = .directive "ref" bake)
    (put : Line.ofText cs = front ++ gap :: back) (put' : Line.ofText cs' = front ++ ref :: back) :
    (Document.parse cs).directivesInOrder = directivesIn front ++ directivesIn back ∧
    (Document.parse cs').directivesInOrder =
      directivesIn front ++ reference bake ref.number :: directivesIn back := by
  rw [Document.directivesInOrder_parse, Document.directivesInOrder_parse, put, put']
  constructor
  · rw [← directivesIn_filter, filter_append_cons_of_neg layout, directivesIn_filter, directivesIn,
      List.filterMap_append]
    rfl
  · rw [directivesIn, List.filterMap_append,
      List.filterMap_cons_some (directive?_ref ident refers)]
    rfl

/-- The reference stands right inside the export. -/
theorem hasExport_put (above : List Line) (hfront : front = above ++ [opener])
    (opens : opener.kind = .opener "export" called) (ident : isIdentifier bake.toList = true)
    (refers : ref.kind = .directive "ref" bake) (put : Line.ofText cs = front ++ ref :: back) :
    hasExport (Document.parse cs) = true := by
  obtain ⟨before, behind⟩ := numbers_around put
  -- the opener is the innermost open one where the reference stands
  have owner : ownerOf (Line.ofText cs) ref.number = some opener.number := by
    rw [put, ownerOf_append, ownerOf_next before, hfront, openStack_behind above opens]
    · rfl
    · exact List.forall_mem_cons.mpr ⟨Nat.le_refl _, fun line h => Nat.le_of_lt (behind line h)⟩
  have there : opener ∈ Line.ofText cs := by
    rw [put, hfront]
    simp
  have opening : (opener.number, "export", called) ∈
      (Document.parse cs).blocksInOrder.map Block.opening := by
    rw [Document.openings_parse]
    exact List.mem_filterMap.mpr ⟨opener, there, by rw [Line.opening?, opens]⟩
  obtain ⟨b, hb, same⟩ := List.mem_map.mp opening
  obtain ⟨line, tag, -⟩ : b.line = opener.number ∧ b.tag = "export" ∧ b.name = called := by
    simpa [Block.opening] using same
  have own : reference bake ref.number ∈ b.directives := by
    rw [Document.directives_parse hb, line, Document.mem_owned_iff]
    refine ⟨?_, owner⟩
    refine List.mem_filterMap.mpr ⟨ref, ?_, directive?_ref ident refers⟩
    rw [put]
    simp
  refine List.any_eq_true.mpr ⟨b, Document.mem_blocksOf.mpr ⟨hb, tag⟩, ?_⟩
  exact List.any_eq_true.mpr ⟨_, List.mem_filter.mpr ⟨own, rfl⟩, rfl⟩

/-- The texts are read as documents that differ in the reference. -/
theorem refers_put (above : List Line) (hfront : front = above ++ [opener])
    (opens : opener.kind = .opener "export" called)
    (known : bake ∈ (Document.parse cs).names "bake")
    (layout : gap.isMeaningful = false) (refers : ref.kind = .directive "ref" bake)
    (untabbed : ∀ line ∈ [gap, ref], hasTab line = false)
    (unbracketed : ∀ line ∈ [gap, ref], startsWithBracket line = false)
    (put : Line.ofText cs = front ++ gap :: back) (put' : Line.ofText cs' = front ++ ref :: back) :
    Refers bake ref.number (Document.parse cs) (Document.parse cs') := by
  have ident := isIdentifier_of_mem_names known
  obtain ⟨directives, directives'⟩ := directivesInOrder_put ident layout refers put put'
  have below : ∃ line ∈ front, line.isMeaningful = true := by
    refine ⟨opener, by simp [hfront], ?_⟩
    rw [Line.isMeaningful, opens]
    rfl
  exact ⟨⟨_, _, _, _, put, put', below, layout, refers, untabbed, unbracketed⟩,
    blocksInOrder_put above hfront opens ident layout refers put put',
    ⟨_, _, directives, directives'⟩, known, hasExport_put above hfront opens ident refers put'⟩

end Put

theorem number_le_length {t : String} {line : Line} (there : line ∈ Line.ofText t.toList) :
    line.number ≤ (Text.splitLines t.toList).length := by
  rw [← Line.length_ofText]
  exact (Line.number_of_mem_ofText there).2

/-- The lines down to a line of the text end with it. -/
theorem exists_linesTo_eq {t : String} {line : Line} (there : line ∈ Line.ofText t.toList) :
    ∃ above, linesTo t line.number = above ++ [line] := by
  obtain ⟨⟨raw, number⟩, place, rfl⟩ := List.mem_map.mp there
  obtain ⟨low, high, same⟩ := List.mem_zipIdx place
  obtain ⟨i, rfl⟩ : ∃ i, number = i + 1 := ⟨number - 1, by omega⟩
  have inside : i < (Text.splitLines t.toList).length := by omega
  have taken : (Text.splitLines t.toList).take (i + 1) =
      (Text.splitLines t.toList).take i ++ [raw] := by
    rw [List.take_succ_eq_append_getElem inside, same]
    rfl
  refine ⟨linesFrom 1 ((Text.splitLines t.toList).take i), ?_⟩
  show linesFrom 1 ((Text.splitLines t.toList).take (i + 1)) = _
  rw [taken, linesFrom_append, List.length_take_of_le (Nat.le_of_lt inside), Nat.add_comm 1 i]
  rfl

theorem names_alike {r : Nat → Nat → Prop} {doc doc' : Document} (h : doc.Alike r doc')
    {tag name : String} (found : name ∈ doc.names tag) : name ∈ doc'.names tag := by
  have same := map_fst_of_placed (h.named tag)
  have there : ((doc.named tag).map (·.1)).contains name = true := by
    rw [Document.contains_named]
    exact decide_eq_true found
  rw [same, Document.contains_named] at there
  exact of_decide_eq_true there

section Main

variable {t : String} {opener : Line} {called : Option String} {bake : String}
variable (there : opener ∈ Line.ofText t.toList) (opens : opener.kind = .opener "export" called)
variable (known : bake ∈ (Document.parse t.toList).names "bake")
include there opens known

/-- The texts with an empty line and with the reference in its place differ in the reference. -/
theorem refers_insertBelow : Refers bake (opener.number + 1)
    (Document.parse (insertBelow t opener.number []).toList)
    (Document.parse (insertBelow t opener.number (refLine bake)).toList) := by
  have inside := number_le_length there
  have ident := isIdentifier_of_mem_names known
  have put := ofText_insertBelow (List.not_mem_nil (a := '\n')) inside
  have put' := ofText_insertBelow (not_mem_refLine ident (by decide) (by decide)) inside
  obtain ⟨above, front⟩ := exists_linesTo_eq there
  have known' := names_alike (alike_insertBelow_layout inside List.not_mem_nil rfl) known
  refine refers_put above front opens known' rfl (ofLine_refLine ident) ?_ ?_ put put'
  · have untabbed : '\t' ∉ refLine bake := not_mem_refLine ident (by decide) (by decide)
    simp [hasTab, untabbed]
  · have unbracketed := startsWithBracket_refLine ident (opener.number + 1)
    exact List.forall_mem_cons.mpr ⟨rfl, List.forall_mem_singleton.mpr unbracketed⟩

/-- **A bake that is referred to right below the opener of an export** is no longer unused, and
something is exported: of the other findings none is lost and none is new, and those below the
opener move down by one line. -/
theorem analyze_exported : analyze (insertBelow t opener.number (refLine bake)) =
    ((analyze t).filter fun d => ¬IsAnswered bake d).map (Diagnostic.lowered opener.number) := by
  have inside := number_le_length there
  have fixed : analyze (insertBelow t opener.number (refLine bake)) =
      (analyze (insertBelow t opener.number [])).filter fun d => ¬IsAnswered bake d := by
    rw [analyze, findings, (refers_insertBelow there opens known).documentFindings_eq, analyze,
      findings, List.filter_map]
    rfl
  rw [fixed, analyze_insertBelow_layout inside List.not_mem_nil rfl List.not_mem_nil,
    List.filter_map]
  rfl

end Main

/-- An export that is not closed, in a bake: both complaints are there, and the reference answers
them. -/
theorem analyze_exported_within :
    ((analyze "[bake a]\n[export]").filter fun d => IsAnswered "a" d).map Diagnostic.line =
      [some 1, none] ∧
    analyze (insertBelow "[bake a]\n[export]" 2 (refLine "a")) =
      ((analyze "[bake a]\n[export]").filter fun d => ¬IsAnswered "a" d).map
        (Diagnostic.lowered 2) := by
  have there : { number := 2, raw := "[export]".toList } ∈
      Line.ofText "[bake a]\n[export]".toList := by decide +kernel
  have opens : ({ number := 2, raw := "[export]".toList } : Line).kind =
      .opener "export" none := by decide +kernel
  have known : "a" ∈ (Document.parse "[bake a]\n[export]".toList).names "bake" := by
    have found : ((Document.parse "[bake a]\n[export]".toList).named "bake" |>.map
      (·.1)).contains "a" = true := by decide +kernel
    rw [Document.contains_named] at found
    exact of_decide_eq_true found
  have fixed := analyze_exported there opens known
  exact ⟨by decide +kernel, fixed⟩

end Buildconf

end LiveLint
