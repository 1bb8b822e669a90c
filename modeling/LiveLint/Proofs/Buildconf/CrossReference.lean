import LiveLint.Proofs.Buildconf.Catalogue
import LiveLint.Proofs.Buildconf.Faithful
import Mathlib.Data.Set.Basic

/-!
# References between the parts of a document

A document refers by name in seven ways: tools to their runs and runs to their tools, bakes to what
mentions them, mentions to bakes, renamed inputs to sources and renamed outputs to outputs. Each way
is a `Link`: a list of uses with their lines, and a set of names that resolve a use. The sets are
described by what stands anywhere in the tree; the checks collect them by flat queries.

The main statement is `crossChecked_parse`: what is reported for a link is one diagnostic for every
use that is not resolved, at the line of the use, and nothing else. That the reports are silent is
then an equation between sets.
-/

namespace LiveLint.Buildconf

/-! ## What is declared and what is used -/

/-- The names that the openers of a tag give, with their lines. -/
def namesIn (lines : List Line) (tag : String) : List (String × Nat) :=
  (openings lines).filterMap fun (number, tag', name) =>
    if tag' = tag then name.map (·, number) else none

namespace Document

section Sets

variable (doc : Document)

/-- The names of the blocks of a tag, at any depth. -/
def names (tag : String) : Set String :=
  {name | ∃ b ∈ doc.blocksInOrder, b.tag = tag ∧ b.name = some name}

/-- The first arguments of the directives of a name, wherever they stand. -/
def ids (directive : String) : Set String :=
  {id | ∃ d ∈ doc.allDirectives, d.name = directive ∧ d.arg? 0 = some id}

/-- What the arguments of all `.ref` and `.needs` directives say. -/
def targets : Set String :=
  {target | ∃ d ∈ doc.allDirectives, (d.name = "ref" ∨ d.name = "needs") ∧
    ∃ a ∈ d.args, a.text = target}

instance (tag : String) : DecidablePred (· ∈ doc.names tag) := fun name =>
  inferInstanceAs (Decidable (∃ b ∈ doc.blocksInOrder, b.tag = tag ∧ b.name = some name))

instance (directive : String) : DecidablePred (· ∈ doc.ids directive) := fun id =>
  inferInstanceAs (Decidable
    (∃ d ∈ doc.allDirectives, d.name = directive ∧ d.arg? 0 = some id))

instance : DecidablePred (· ∈ doc.targets) := fun target =>
  inferInstanceAs (Decidable (∃ d ∈ doc.allDirectives, (d.name = "ref" ∨ d.name = "needs") ∧
    ∃ a ∈ d.args, a.text = target))

/-- The arguments of the directives of a name, with their lines. -/
def arguments (directive : String) : List (String × Nat) :=
  (doc.directivesOf directive).flatMap fun d => d.args.map fun a => (a.text, d.line)

/-- What the directives of a name rename by `x as y`, with the lines. -/
def renamed (directive : String) : List (String × Nat) :=
  (renamesAmong (doc.directivesOf directive)).filterMap fun d => (d.arg? 0).map (·, d.line)

end Sets

section Members

variable {doc : Document} {tag directive name : String} {line : Nat}

theorem mem_blocksOf {b : Block} :
    b ∈ doc.blocksOf tag ↔ b ∈ doc.blocksInOrder ∧ b.tag = tag := by
  simp [blocksOf]

theorem mem_directivesOf {d : Directive} :
    d ∈ doc.directivesOf directive ↔ d ∈ doc.allDirectives ∧ d.name = directive := by
  simp [directivesOf, directivesInOrder, allDirectives]

theorem mem_named :
    (name, line) ∈ doc.named tag ↔
      ∃ b ∈ doc.blocksInOrder, b.tag = tag ∧ b.name = some name ∧ b.line = line := by
  simp [named, mem_blocksOf, and_assoc]

theorem mem_arguments :
    (name, line) ∈ doc.arguments directive ↔
      ∃ d ∈ doc.allDirectives, d.name = directive ∧ d.line = line ∧
        ∃ a ∈ d.args, a.text = name := by
  constructor
  · intro h
    obtain ⟨d, hd, hname⟩ := List.mem_flatMap.mp h
    obtain ⟨a, ha, same⟩ := List.mem_map.mp hname
    cases same
    have found := mem_directivesOf.mp hd
    exact ⟨d, found.1, found.2, rfl, a, ha, rfl⟩
  · rintro ⟨d, hd, rfl, rfl, a, ha, rfl⟩
    exact List.mem_flatMap.mpr ⟨d, mem_directivesOf.mpr ⟨hd, rfl⟩, List.mem_map_of_mem ha⟩

theorem mem_renamed :
    (name, line) ∈ doc.renamed directive ↔
      ∃ d ∈ doc.allDirectives, d.name = directive ∧ d.hasKeyword 1 "as" = true ∧
        d.arg? 0 = some name ∧ d.line = line := by
  simp [renamed, renamesAmong, mem_directivesOf, and_assoc]

theorem mem_names_iff : name ∈ doc.names tag ↔ ∃ line, (name, line) ∈ doc.named tag := by
  simp only [mem_named]
  constructor
  · rintro ⟨b, hb, tagged, called⟩
    exact ⟨b.line, b, hb, tagged, called, rfl⟩
  · rintro ⟨_, b, hb, tagged, called, _⟩
    exact ⟨b, hb, tagged, called⟩

theorem mem_targets_iff :
    name ∈ doc.targets ↔
      (∃ line, (name, line) ∈ doc.arguments "ref") ∨
      ∃ line, (name, line) ∈ doc.arguments "needs" := by
  simp only [mem_arguments]
  constructor
  · rintro ⟨d, hd, called | called, mentions⟩
    · exact Or.inl ⟨d.line, d, hd, called, rfl, mentions⟩
    · exact Or.inr ⟨d.line, d, hd, called, rfl, mentions⟩
  · rintro (⟨_, d, hd, called, _, mentions⟩ | ⟨_, d, hd, called, _, mentions⟩)
    · exact ⟨d, hd, Or.inl called, mentions⟩
    · exact ⟨d, hd, Or.inr called, mentions⟩

theorem names_subset_iff {s : Set String} :
    doc.names tag ⊆ s ↔ ∀ name line, (name, line) ∈ doc.named tag → name ∈ s := by
  constructor
  · intro h name line used
    exact h (mem_names_iff.mpr ⟨line, used⟩)
  · intro h name found
    obtain ⟨line, used⟩ := mem_names_iff.mp found
    exact h name line used

theorem targets_subset_iff {s : Set String} :
    doc.targets ⊆ s ↔ (∀ name line, (name, line) ∈ doc.arguments "ref" → name ∈ s) ∧
      ∀ name line, (name, line) ∈ doc.arguments "needs" → name ∈ s := by
  constructor
  · intro h
    constructor
    · intro name line used
      exact h (mem_targets_iff.mpr (Or.inl ⟨line, used⟩))
    · intro name line used
      exact h (mem_targets_iff.mpr (Or.inr ⟨line, used⟩))
  · rintro ⟨refs, needs⟩ name found
    rcases mem_targets_iff.mp found with ⟨line, used⟩ | ⟨line, used⟩
    · exact refs name line used
    · exact needs name line used

/-! ## The sets that the checks collect -/

theorem contains_named :
    ((doc.named tag).map (·.1)).contains name = decide (name ∈ doc.names tag) := by
  rw [List.contains_eq_mem, decide_eq_decide, mem_names_iff]
  simp

theorem contains_firstArguments :
    (firstArguments (doc.directivesOf directive)).contains name =
      decide (name ∈ doc.ids directive) := by
  rw [List.contains_eq_mem, decide_eq_decide]
  simp [firstArguments, mem_directivesOf, ids, and_assoc]

theorem contains_mentioned :
    (mentioned (doc.directivesOf "ref" ++ doc.directivesOf "needs")).contains name =
      decide (name ∈ doc.targets) := by
  rw [List.contains_eq_mem, decide_eq_decide]
  constructor
  · intro h
    obtain ⟨d, hd, mentions⟩ := List.mem_flatMap.mp h
    rcases List.mem_append.mp hd with hd | hd
    · exact ⟨d, (mem_directivesOf.mp hd).1, Or.inl (mem_directivesOf.mp hd).2,
        List.mem_map.mp mentions⟩
    · exact ⟨d, (mem_directivesOf.mp hd).1, Or.inr (mem_directivesOf.mp hd).2,
        List.mem_map.mp mentions⟩
  · rintro ⟨d, hd, called, mentions⟩
    refine List.mem_flatMap.mpr ⟨d, ?_, List.mem_map.mpr mentions⟩
    rcases called with called | called
    · exact List.mem_append_left _ (mem_directivesOf.mpr ⟨hd, called⟩)
    · exact List.mem_append_right _ (mem_directivesOf.mpr ⟨hd, called⟩)

end Members

/-! ## Lines of blocks and directives -/

section Placed

variable {cs : List Char}

theorem pos_of_line {n : Nat} (h : ∃ line ∈ Line.ofText cs, line.number = n) : 0 < n := by
  obtain ⟨line, hline, rfl⟩ := h
  exact (Line.number_of_mem_ofText hline).1

theorem line_pos_of_mem_blocksInOrder {b : Block} (hb : b ∈ (parse cs).blocksInOrder) :
    0 < b.line :=
  pos_of_line (exists_line_of_mem_blocksInOrder hb)

theorem line_pos_of_mem_allDirectives {d : Directive} (hd : d ∈ (parse cs).allDirectives) :
    0 < d.line :=
  pos_of_line (exists_line_of_mem_directivesIn ((perm_directives_parse cs).subset hd))

end Placed

end Document

theorem named_parse (cs : List Char) (tag : String) :
    (Document.parse cs).named tag = namesIn (Line.ofText cs) tag := by
  rw [namesIn, ← Document.openings_parse, List.filterMap_map, Document.named, Document.blocksOf,
    List.filterMap_filter]
  refine List.filterMap_congr ?_
  intro b _
  by_cases tagged : b.tag = tag <;> simp [Block.opening, tagged]

/-! ## Links -/

/-- A way of referring by name. -/
inductive Link
  | idleTool
  | unknownTool
  | unusedBake
  | unknownRef
  | unknownNeed
  | unknownInput
  | unknownOutput
deriving DecidableEq, Repr

namespace Link

/-- The rule that speaks of uses that are not resolved. -/
def rule : Link → Rule
  | idleTool => .idleTool
  | unknownTool => .unknownTool
  | unusedBake => .unusedBake
  | unknownRef => .unknownRef
  | unknownNeed => .unknownNeed
  | unknownInput => .unknownInput
  | unknownOutput => .unknownOutput

/-- What is found where a use is not resolved. -/
def finding : Link → String → Nat → Finding
  | idleTool => .idleTool
  | unknownTool => .unknownTool
  | unusedBake => .unusedBake
  | unknownRef => .unknownRef
  | unknownNeed => .unknownNeed
  | unknownInput => .unknownInput
  | unknownOutput => .unknownOutput

/-- The uses, with their lines. -/
def uses (doc : Document) : Link → List (String × Nat)
  | idleTool => doc.named "tool"
  | unknownTool => doc.named "run"
  | unusedBake => doc.named "bake"
  | unknownRef => doc.arguments "ref"
  | unknownNeed => doc.arguments "needs"
  | unknownInput => doc.renamed "takes"
  | unknownOutput => doc.renamed "emits"

/-- The names that resolve a use. -/
def known (doc : Document) : Link → Set String
  | idleTool => doc.names "run"
  | unknownTool => doc.names "tool"
  | unusedBake => doc.targets
  | unknownRef => doc.names "bake"
  | unknownNeed => doc.names "bake"
  | unknownInput => doc.ids "make"
  | unknownOutput => doc.ids "output"

instance (doc : Document) (l : Link) : DecidablePred (· ∈ l.known doc) := by
  cases l <;> unfold known <;> infer_instance

/-- The diagnostic of a use that is not resolved, at its line. -/
def diagnostic (l : Link) (use : String × Nat) : Diagnostic where
  severity := l.rule.severity
  code := some l.rule.code
  message := (l.finding use.1 use.2).message
  line := some use.2

theorem rule_finding (l : Link) (name : String) (line : Nat) :
    (l.finding name line).rule = l.rule := by
  cases l <;> rfl

theorem diagnostic_finding (l : Link) {use : String × Nat} (h : 0 < use.2) :
    (l.finding use.1 use.2).diagnostic = l.diagnostic use := by
  have line : (l.finding use.1 use.2).line = some use.2 := by cases l <;> rfl
  rw [Finding.diagnostic, rule_finding, line]
  simp [diagnostic, Diagnostic.ofRule, Diagnostic.atLine?, Option.filter, h]

end Link

/-! ## What the checks find -/

section Found

variable {α β γ : Type} {rule : Rule} {f : Finding}

theorem flatMap_reportIf (xs : List α) (p : α → Bool) (g : α → Finding) :
    (xs.flatMap fun x => reportIf (p x) (g x)) = (xs.filter p).map g := by
  induction xs with
  | nil => rfl
  | cons x xs ih =>
    rw [List.flatMap_cons, ih]
    by_cases h : p x = true <;> simp [reportIf, h]

theorem flatMap_filterMap (xs : List α) (f : α → Option β) (g : β → List γ) :
    (xs.filterMap f).flatMap g = xs.flatMap fun x => ((f x).map g).getD [] := by
  induction xs with
  | nil => rfl
  | cons x xs ih =>
    rw [List.flatMap_cons, ← ih, List.filterMap_cons]
    cases f x <;> rfl

theorem ofRule_map (xs : List α) {g : α → Finding} (h : ∀ x, (g x).rule = rule) :
    ofRule rule (xs.map g) = xs.map g := by
  rw [ofRule, List.filter_eq_self]
  intro f hf
  obtain ⟨x, _, rfl⟩ := List.mem_map.mp hf
  exact beq_iff_eq.mpr (h x)

theorem ofRule_map_of_ne (xs : List α) {g : α → Finding} (h : ∀ x, (g x).rule ≠ rule) :
    ofRule rule (xs.map g) = [] := by
  rw [ofRule, List.filter_eq_nil_iff]
  intro f hf same
  obtain ⟨x, _, rfl⟩ := List.mem_map.mp hf
  exact h x (eq_of_beq same)

theorem ofRule_reportIf (b : Bool) (h : f.rule = rule) :
    ofRule rule (reportIf b f) = reportIf b f := by
  cases b <;> simp [ofRule, reportIf, h]

theorem ofRule_reportIf_of_ne (b : Bool) (h : f.rule ≠ rule) : ofRule rule (reportIf b f) = [] := by
  cases b <;> simp [ofRule, reportIf, h]

/-- The findings of one rule about the argument at one place. -/
theorem ofRule_argument (argument other : Option String) {check check' : String → List Finding}
    (own : ∀ a, ofRule rule (check a) = check a) (silent : ∀ a, ofRule rule (check' a) = []) :
    ofRule rule (argumentFindings argument check ++ argumentFindings other check') =
      argumentFindings argument check := by
  rw [ofRule_append]
  cases argument <;> cases other <;>
    simp [argumentFindings, own, silent, show ofRule rule [] = [] from rfl]

end Found

namespace Link

/-- The uses of a link that are not resolved, in order. -/
def broken (doc : Document) (l : Link) : List (String × Nat) :=
  (l.uses doc).filter fun use => use.1 ∉ l.known doc

section Broken

variable {doc : Document} {l : Link} {test : String → Bool}

/-- What a walk over the uses finds, when it tests the names by a list of its own. -/
theorem flatMap_uses (h : ∀ name, test name = decide (name ∈ l.known doc)) :
    ((l.uses doc).flatMap fun use => reportIf (!test use.1) (l.finding use.1 use.2)) =
      (l.broken doc).map fun use => l.finding use.1 use.2 := by
  rw [flatMap_reportIf, broken]
  congr 1
  refine List.filter_congr ?_
  intro use _
  rw [h, decide_not]

/-- The same for the arguments of directives. -/
theorem unknownTargets_eq {directive : String} (used : l.uses doc = doc.arguments directive)
    (known : l.known doc = doc.names "bake") :
    unknownTargets ((doc.named "bake").map (·.1)) l.finding (doc.directivesOf directive) =
      (l.broken doc).map fun use => l.finding use.1 use.2 := by
  have test : ∀ name, ((doc.named "bake").map (·.1)).contains name =
      decide (name ∈ l.known doc) := by
    intro name
    rw [Document.contains_named, decide_eq_decide, known]
  rw [← flatMap_uses test, used, Document.arguments, List.flatMap_assoc]
  simp only [List.flatMap_map]
  rfl

/-- The same for the first arguments of renaming directives. -/
theorem ofRule_renames {directive : String} {check : Directive → List Finding}
    (used : l.uses doc = doc.renamed directive)
    (h : ∀ name, test name = decide (name ∈ l.known doc))
    (own : ∀ d, ofRule l.rule (check d) = argumentFindings (d.arg? 0) fun name =>
      reportIf (!test name) (l.finding name d.line)) :
    ofRule l.rule ((renamesAmong (doc.directivesOf directive)).flatMap check) =
      (l.broken doc).map fun use => l.finding use.1 use.2 := by
  rw [← flatMap_uses h, used, Document.renamed, flatMap_filterMap, ofRule, List.filter_flatMap]
  congr 1
  funext d
  rw [← ofRule, own, Option.map_map]
  rfl

end Broken

/-- **What is found for a link** is one finding for every use that is not resolved, in order. -/
theorem ofRule_findings (doc : Document) (l : Link) :
    ofRule l.rule (l.rule.check.findings doc) =
      (l.broken doc).map fun use => l.finding use.1 use.2 := by
  have own : ofRule l.rule ((l.broken doc).map fun use => l.finding use.1 use.2) =
      (l.broken doc).map fun use => l.finding use.1 use.2 :=
    ofRule_map _ fun use => rule_finding l use.1 use.2
  cases l with
  | idleTool =>
    have found : idleTools doc = _ :=
      flatMap_uses (l := .idleTool) fun _ => Document.contains_named
    exact (congrArg _ found).trans own
  | unknownTool =>
    have found : unknownTools doc = _ :=
      flatMap_uses (l := .unknownTool) fun _ => Document.contains_named
    exact (congrArg _ found).trans own
  | unusedBake =>
    have found : unusedBakes doc = _ :=
      flatMap_uses (l := .unusedBake) fun _ => Document.contains_mentioned
    exact (congrArg _ found).trans own
  | unknownRef => exact (congrArg _ (unknownTargets_eq (l := .unknownRef) rfl rfl)).trans own
  | unknownNeed => exact (congrArg _ (unknownTargets_eq (l := .unknownNeed) rfl rfl)).trans own
  | unknownInput =>
    refine ofRule_renames (l := .unknownInput) rfl (fun _ => Document.contains_firstArguments) ?_
    intro d
    exact ofRule_argument _ _ (fun _ => ofRule_reportIf _ rfl)
      fun _ => ofRule_reportIf_of_ne _ (by simp [Finding.rule, rule])
  | unknownOutput =>
    refine ofRule_renames (l := .unknownOutput) rfl (fun _ => Document.contains_firstArguments) ?_
    intro d
    exact ofRule_argument _ _ (fun _ => ofRule_reportIf _ rfl)
      fun _ => ofRule_reportIf_of_ne _ (by simp [Finding.rule, rule])

/-- A use stands on a line of the text. -/
theorem pos_of_mem_uses {cs : List Char} {l : Link} {use : String × Nat}
    (h : use ∈ l.uses (Document.parse cs)) : 0 < use.2 := by
  have ofBlock : ∀ tag, use ∈ (Document.parse cs).named tag → 0 < use.2 := by
    intro tag h
    obtain ⟨b, hb, _, _, line⟩ := Document.mem_named.mp h
    rw [← line]
    exact Document.line_pos_of_mem_blocksInOrder hb
  have ofArgument : ∀ directive, use ∈ (Document.parse cs).arguments directive → 0 < use.2 := by
    intro directive h
    obtain ⟨d, hd, _, line, _⟩ := Document.mem_arguments.mp h
    rw [← line]
    exact Document.line_pos_of_mem_allDirectives hd
  have ofRenaming : ∀ directive, use ∈ (Document.parse cs).renamed directive → 0 < use.2 := by
    intro directive h
    obtain ⟨d, hd, _, _, _, line⟩ := Document.mem_renamed.mp h
    rw [← line]
    exact Document.line_pos_of_mem_allDirectives hd
  cases l with
  | idleTool => exact ofBlock _ h
  | unknownTool => exact ofBlock _ h
  | unusedBake => exact ofBlock _ h
  | unknownRef => exact ofArgument _ h
  | unknownNeed => exact ofArgument _ h
  | unknownInput => exact ofRenaming _ h
  | unknownOutput => exact ofRenaming _ h

theorem broken_eq_nil_iff {doc : Document} {l : Link} :
    l.broken doc = [] ↔ ∀ name line, (name, line) ∈ l.uses doc → name ∈ l.known doc := by
  simp [broken, List.filter_eq_nil_iff]

end Link

/-! ## What is reported -/

/-- The diagnostics of a code. -/
def reported (source code : String) : List Diagnostic :=
  (analyze source).filter (·.code == some code)

theorem reported_code (source : String) (rule : Rule) :
    reported source rule.code =
      (ofRule rule (findings source.toList)).map Finding.diagnostic := by
  rw [reported, analyze, List.filter_map, ofRule]
  refine congrArg (List.map Finding.diagnostic) (List.filter_congr ?_)
  intro f _
  have same : some f.rule.code = some rule.code ↔ f.rule = rule :=
    Option.some_inj.trans ⟨Rule.code_injective, congrArg Rule.code⟩
  rw [Function.comp_apply, Finding.diagnostic_code, Bool.eq_iff_iff, beq_iff_eq, beq_iff_eq, same]

/-- What is reported under a rule is what its check finds under it. -/
theorem reported_check (source : String) (rule : Rule) :
    reported source rule.code =
      (ofRule rule (rule.check.findings (Document.parse source.toList))).map
        Finding.diagnostic := by
  rw [reported_code, findings, ofRule_documentFindings]

/-- One diagnostic is reported for every use that is not resolved. -/
theorem reported_link (source : String) (l : Link) :
    reported source l.rule.code =
      (l.broken (Document.parse source.toList)).map l.diagnostic := by
  rw [reported_check, Link.ofRule_findings, List.map_map]
  refine List.map_congr_left ?_
  intro use huse
  exact l.diagnostic_finding (Link.pos_of_mem_uses (List.mem_of_mem_filter huse))

theorem reported_eq_nil_iff (source : String) (l : Link) :
    reported source l.rule.code = [] ↔ ∀ name line,
      (name, line) ∈ l.uses (Document.parse source.toList) →
        name ∈ l.known (Document.parse source.toList) := by
  rw [reported_link, List.map_eq_nil_iff, Link.broken_eq_nil_iff]

/-- The references in a text are checked exactly. -/
structure CrossChecked (source : String) (doc : Document) : Prop where
  /-- The blocks are those of the tree, at any depth. -/
  blocks : ∀ b, b ∈ doc.blocksInOrder ↔ Block.StandsIn doc.blocks b
  /-- Their names are those that the openers of the text give. -/
  named : ∀ tag, doc.named tag = namesIn (Line.ofText source.toList) tag
  /-- The directives are those of the text, -/
  directives : doc.allDirectives.Perm (directivesIn (Line.ofText source.toList))
  /-- and a query by name gives them in the order of their lines. -/
  queried : ∀ name,
    doc.directivesOf name = (directivesIn (Line.ofText source.toList)).filter (·.name == name)
  /-- Tools and runs have the same names. -/
  tools : reported source "B026" = [] ∧ reported source "B027" = [] ↔
    doc.names "tool" = doc.names "run"
  /-- Bakes are what is mentioned. -/
  bakes : reported source "B070" = [] ∧ reported source "B072" = [] ∧
    reported source "B073" = [] ↔ doc.names "bake" = doc.targets
  /-- What is renamed on its way in is a source. -/
  inputs : reported source "B083" = [] ↔ ∀ d ∈ doc.allDirectives, d.name = "takes" →
    d.hasKeyword 1 "as" = true → ∃ id ∈ doc.ids "make", d.arg? 0 = some id
  /-- What is renamed on its way out is an output. -/
  outputs : reported source "B085" = [] ↔ ∀ d ∈ doc.allDirectives, d.name = "emits" →
    d.hasKeyword 1 "as" = true → ∃ id ∈ doc.ids "output", d.arg? 0 = some id
  /-- There is one report for every use that is not resolved, at its line, and no other. -/
  unresolved : ∀ l : Link, reported source l.rule.code =
    ((l.uses doc).filter fun use => use.1 ∉ l.known doc).map l.diagnostic

/-- A directive with a second argument has a first one. -/
theorem exists_arg?_of_hasKeyword {d : Directive} {keyword : String}
    (h : d.hasKeyword 1 keyword = true) : ∃ first, d.arg? 0 = some first := by
  rw [Directive.hasKeyword, Option.any_eq_true] at h
  obtain ⟨second, found, _⟩ := h
  obtain ⟨longer, _⟩ := List.getElem?_eq_some_iff.mp found
  refine ⟨d.args[0].text, ?_⟩
  rw [Directive.arg?, List.getElem?_eq_getElem (by omega), Option.map_some]

/-- Every renamed thing is known, said of the directives. -/
theorem forall_renamed_iff {doc : Document} {directive : String} {known : Set String} :
    (∀ name line, (name, line) ∈ doc.renamed directive → name ∈ known) ↔
      ∀ d ∈ doc.allDirectives, d.name = directive → d.hasKeyword 1 "as" = true →
        ∃ id ∈ known, d.arg? 0 = some id := by
  constructor
  · intro h d hd called keyword
    obtain ⟨first, found⟩ := exists_arg?_of_hasKeyword keyword
    exact ⟨first, h first d.line (Document.mem_renamed.mpr ⟨d, hd, called, keyword, found, rfl⟩),
      found⟩
  · intro h name line hname
    obtain ⟨d, hd, called, keyword, found, _⟩ := Document.mem_renamed.mp hname
    obtain ⟨id, hid, same⟩ := h d hd called keyword
    rwa [Option.some.inj (found.symm.trans same)]

/-- **References are checked exactly**, in every text. -/
theorem crossChecked_parse (source : String) :
    CrossChecked source (Document.parse source.toList) := by
  have silent := reported_eq_nil_iff source
  have broken := reported_link source
  have named := named_parse source.toList
  have directives := Document.perm_directives_parse source.toList
  have queried := (Document.faithful_parse source.toList).named
  rw [Document.lines_parse] at queried
  -- from here on nothing depends on how the document was read
  generalize Document.parse source.toList = doc at silent broken named directives queried
  refine ⟨fun _ => Block.mem_subtrees_iff, named, directives, queried, ?_, ?_, ?_, ?_, broken⟩
  · calc reported source "B026" = [] ∧ reported source "B027" = []
        ↔ (∀ name line, (name, line) ∈ doc.named "tool" → name ∈ doc.names "run") ∧
          ∀ name line, (name, line) ∈ doc.named "run" → name ∈ doc.names "tool" :=
          and_congr (silent .idleTool) (silent .unknownTool)
      _ ↔ doc.names "tool" ⊆ doc.names "run" ∧ doc.names "run" ⊆ doc.names "tool" := by
          rw [Document.names_subset_iff, Document.names_subset_iff]
      _ ↔ doc.names "tool" = doc.names "run" := Set.Subset.antisymm_iff.symm
  · calc reported source "B070" = [] ∧ reported source "B072" = [] ∧ reported source "B073" = []
        ↔ (∀ name line, (name, line) ∈ doc.named "bake" → name ∈ doc.targets) ∧
          (∀ name line, (name, line) ∈ doc.arguments "ref" → name ∈ doc.names "bake") ∧
          ∀ name line, (name, line) ∈ doc.arguments "needs" → name ∈ doc.names "bake" :=
          and_congr (silent .unusedBake) (and_congr (silent .unknownRef) (silent .unknownNeed))
      _ ↔ doc.names "bake" ⊆ doc.targets ∧ doc.targets ⊆ doc.names "bake" := by
          rw [Document.names_subset_iff, Document.targets_subset_iff]
      _ ↔ doc.names "bake" = doc.targets := Set.Subset.antisymm_iff.symm
  · exact (silent .unknownInput).trans forall_renamed_iff
  · exact (silent .unknownOutput).trans forall_renamed_iff

/-- A name that is mentioned twice and is no bake's is reported twice. -/
example : (reported "[bake b]\n..\n.ref b c c" "B072").map Diagnostic.line = [some 3, some 3] := by
  decide +kernel

end LiveLint.Buildconf
