import LiveLint.Buildconf.Check
import LiveLint.Proofs.Phrases

/-!
# What the messages about a build configuration tell of their severity

A rule has a severity, and the words of its messages are chosen so that the severity can be told
from them again. But most messages show a name, a path or a command of the document, and these are
not chosen: a block that is called `prefer` puts the word of a recommendation into a warning.

`Rule.words` are the words of a rule's messages, and `Finding.shown` are the texts between them.
The words tell the severity of every rule, and no phrase is cut where a text stands (`tells_words`).
So a message is graded like its rule as long as no text that it shows has a phrase that wins over
the words (`grade_message_iff`), and `grade_analyze_iff` says it of every diagnostic of every
document.
-/

namespace LiveLint.Buildconf

open Wording (hasAnyOf anyOccurs buildconfErrorPhrases buildconfSuggestionPhrases)

/-! ## Messages by rule -/

/-- The words of a rule's messages, in order; the texts of the document stand between them. -/
def Rule.words : Rule → List String
  | misplacedHeader => ["buildconf: !muf 4 must be the first meaningful line."]
  | noHeader => ["buildconf: missing !muf 4 header."]
  | noValidHeader => ["buildconf: invalid header line (expected !muf 4)."]
  | repeatedHeader => ["buildconf: duplicate !muf 4 header."]
  | noWorkspace => ["buildconf: missing [workspace] block."]
  | secondWorkspace => ["buildconf: multiple [workspace] blocks."]
  | unsetKey => ["buildconf: workspace is missing .set ", "."]
  | unusualRoot => ["buildconf: .set root \".\" is recommended."]
  | unusualTargetDir => ["buildconf: .set target_dir \"target\" is recommended."]
  | absoluteTargetDir => ["buildconf: target_dir must be a relative path."]
  | unknownProfile => ["buildconf: profile \"", "\" is not declared by any [profile] block."]
  | noTool => ["buildconf: missing [tool <name>] block."]
  | noBake => ["buildconf: missing [bake <name>] block."]
  | noRun => ["buildconf: missing [run <tool>] block."]
  | noCommand => ["buildconf: missing .exec in tool."]
  | repeatedTool => ["buildconf: duplicate tool \"", "\"."]
  | repeatedBake => ["buildconf: duplicate bake \"", "\"."]
  | idleTool => ["buildconf: tool \"", "\" is never used by a [run] block."]
  | unknownTool => ["buildconf: run uses undeclared tool \"", "\"."]
  | bakeLacksSource => ["buildconf: bake \"", "\" has no .make."]
  | bakeLacksRun => ["buildconf: bake \"", "\" has no [run <tool>] block."]
  | bakeLacksOutput => ["buildconf: bake \"", "\" has no .output."]
  | manyOutputs =>
    ["buildconf: bake \"", "\" declares several .output (one per bake is recommended)."]
  | oddBakeDirective => ["buildconf: bake \"", "\" contains unknown directive .", "."]
  | oddBakeName => ["buildconf: bake \"", "\" should use snake_case."]
  | repeatedSource => ["buildconf: bake \"", "\" declares .make \"", "\" more than once."]
  | strayOutput => ["buildconf: output \"", "\" must live under target/out/."]
  | outputLacksExtension => ["buildconf: output \"", "\" has no file extension."]
  | blankInOutput => ["buildconf: output \"", "\" contains whitespace."]
  | repeatedOutput => ["buildconf: duplicate output \"", "\"."]
  | toolLacksCommand => ["buildconf: tool \"", "\" has no .exec."]
  | misnamedTool => ["buildconf: tool \"", "\" should be named after its binary \"", "\"."]
  | oddToolDirective => ["buildconf: tool \"", "\" contains unknown directive .", "."]
  | emptyCommand => ["buildconf: empty .exec."]
  | spacedCommand => ["buildconf: .exec \"", "\" contains spaces (prefer a single binary)."]
  | relativeCommand => ["buildconf: .exec \"", "\" is relative (prefer a binary on PATH)."]
  | runLacksFiles => ["buildconf: run \"", "\" has neither .takes nor .emits."]
  | runLacksResult => ["buildconf: run \"", "\" has .takes without .emits."]
  | runLacksFlags => ["buildconf: run \"", "\" has no .set (flags)."]
  | oddRunDirective => ["buildconf: run \"", "\" contains unknown directive .", "."]
  | looseRun => ["buildconf: run \"", "\" must be nested inside a [bake] block."]
  | unusedBake => ["buildconf: bake \"", "\" is not referenced (export/needs)."]
  | nothingExported => ["buildconf: no exported recipe ([export] block)."]
  | unknownRef => ["buildconf: .ref \"", "\" does not match any bake."]
  | unknownNeed => ["buildconf: .needs \"", "\" does not match any bake."]
  | unknownSourceKind => ["buildconf: unknown .make kind \"", "\"."]
  | emptySource => ["buildconf: .make with empty pattern."]
  | bareSource => ["buildconf: .make patterns should be quoted."]
  | unknownInput => ["buildconf: .takes \"", "\" does not match any .make."]
  | oddInputFlag => ["buildconf: .takes flag \"", "\" should start with \"-\" or be @args."]
  | unknownOutput => ["buildconf: .emits \"", "\" does not match any .output."]
  | oddOutputFlag => ["buildconf: .emits flag \"", "\" should start with \"-\"."]
  | outputsNotEmitted => ["buildconf: outputs declared without any .emits."]
  | tab => ["buildconf: tab characters are not allowed (use spaces)."]
  | unknownTag => ["buildconf: unknown block [", "]."]
  | unbalanced => ["buildconf: unbalanced blocks (missing ..)."]

namespace Finding

/-- The texts of the document that the message shows. -/
def shown : Finding → List String
  | unsetKey key _ => [key]
  | unknownProfile profile _ => [profile]
  | repeatedTool name _ | repeatedBake name _ | idleTool name _ | unknownTool name _ => [name]
  | bakeLacksSource bake _ | bakeLacksRun bake _ | bakeLacksOutput bake _ | manyOutputs bake _
  | oddBakeName bake _ | unusedBake bake _ => [bake]
  | oddBakeDirective bake directive _ => [bake, directive]
  | repeatedSource bake id _ => [bake, id]
  | strayOutput path _ | outputLacksExtension path _ | blankInOutput path _
  | repeatedOutput path _ => [path]
  | toolLacksCommand tool _ | runLacksFiles tool _ | runLacksResult tool _ | runLacksFlags tool _
  | looseRun tool _ => [tool]
  | misnamedTool tool binary _ => [tool, binary]
  | oddToolDirective tool directive _ | oddRunDirective tool directive _ => [tool, directive]
  | spacedCommand command _ | relativeCommand command _ => [command]
  | unknownRef target _ | unknownNeed target _ => [target]
  | unknownSourceKind kind _ => [kind]
  | unknownInput id _ => [id]
  | oddInputFlag flag _ | oddOutputFlag flag _ => [flag]
  | unknownOutput output _ => [output]
  | unknownTag tag _ => [tag]
  | _ => []

theorem length_shown (f : Finding) : f.shown.length + 1 = f.rule.words.length := by
  cases f <;> rfl

/-- A message is its rule's words with the texts of the document between them. -/
theorem message_eq_fill (f : Finding) : f.message = Wording.fill f.rule.words f.shown := by
  cases f with
  | oddBakeDirective | repeatedSource | misnamedTool | oddToolDirective | oddRunDirective =>
    exact (Wording.fill_two_texts ..).symm
  | _ => rfl

/-- The texts that the message shows, each with the mark that ends it there. -/
def marked (f : Finding) : List (List Char) :=
  Wording.marked (Wording.spell f.rule.words) (Wording.spell f.shown)

end Finding

/-! ## What the words tell -/

/-- Words that open with the tag of build configurations, that keep all phrases apart from the
texts, and that tell the severity. -/
structure Tells (severity : Severity) (words : List (List Char)) : Prop where
  opening : words.head?.any (Wording.isAbout .buildconf) = true
  errorApart : Wording.areApart (Wording.spell buildconfErrorPhrases) words = true
  suggestionApart : Wording.areApart (Wording.spell buildconfSuggestionPhrases) words = true
  error : words.any (anyOccurs (Wording.spell buildconfErrorPhrases)) = (severity == .error)
  suggestion : severity ≠ .error →
    words.any (anyOccurs (Wording.spell buildconfSuggestionPhrases)) = (severity == .suggestion)

/-- The same as a computation, for any phrases of errors and of recommendations. -/
def tells (errors suggestions : List (List Char)) (severity : Severity)
    (words : List (List Char)) : Bool :=
  words.head?.any (Wording.isAbout .buildconf) &&
  Wording.areApart errors words && Wording.areApart suggestions words &&
  (words.any (anyOccurs errors) == (severity == .error)) &&
  (severity == .error || words.any (anyOccurs suggestions) == (severity == .suggestion))

theorem tells_iff {severity : Severity} {words : List (List Char)} :
    tells (Wording.spell buildconfErrorPhrases) (Wording.spell buildconfSuggestionPhrases)
      severity words = true ↔ Tells severity words := by
  simp only [tells, Bool.and_eq_true, Bool.or_eq_true, beq_iff_eq]
  constructor
  · rintro ⟨⟨⟨⟨opening, errorApart⟩, suggestionApart⟩, error⟩, suggestion⟩
    exact ⟨opening, errorApart, suggestionApart, error, fun other => suggestion.resolve_left other⟩
  · rintro ⟨opening, errorApart, suggestionApart, error, suggestion⟩
    exact ⟨⟨⟨⟨opening, errorApart⟩, suggestionApart⟩, error⟩, or_iff_not_imp_left.mpr suggestion⟩

/-- **The words of every rule tell its severity.** -/
theorem tells_words (r : Rule) : Tells r.severity (Wording.spell r.words) := by
  have all : (Rule.all.map fun r => (r.severity, Wording.spell r.words)).all
      (fun (severity, words) => tells (Wording.spell buildconfErrorPhrases)
        (Wording.spell buildconfSuggestionPhrases) severity words) = true := by
    -- the letters are written out first, which is quicker than to compute them from the strings
    simp only [Rule.all, Rule.severity, Rule.words, Wording.spell, List.map_cons, List.map_nil,
      buildconfErrorPhrases, buildconfSuggestionPhrases]
    repeat rw [String.toList_ofList]
    decide +kernel
  have one := List.all_eq_true.mp all _ (List.mem_map_of_mem (Rule.mem_all r))
  exact tells_iff.mp one

/-! ## How messages are graded -/

/-- The phrases that win over the words of a message of the severity. -/
def phrasesAbove : Severity → List String
  | .error => []
  | .suggestion => buildconfErrorPhrases
  | .warning => buildconfErrorPhrases ++ buildconfSuggestionPhrases

section Grade

variable (f : Finding)

theorem isAbout_message : Wording.isAbout .buildconf f.message.toList = true := by
  rw [Finding.message_eq_fill]
  exact Wording.isAbout_fill (tells_words f.rule).opening f.shown

/-- The grade of a message, by the phrases of both lists. -/
theorem grade_message :
    Wording.grade f.message =
      if hasAnyOf buildconfErrorPhrases f.message.toList then .error
      else if hasAnyOf buildconfSuggestionPhrases f.message.toList then .suggestion
      else .warning := by
  have about := isAbout_message f
  -- no message opens with the tags of both kinds
  have other : Wording.isAbout .c f.message.toList = false := by
    rw [Wording.isAbout, List.isPrefixOf_iff_prefix] at about
    obtain ⟨rest, whole⟩ := about
    rw [Wording.isAbout, ← whole]
    rfl
  rw [Wording.grade, other, about, if_neg Bool.false_ne_true, if_pos rfl]

/-- A message has a phrase by the words of its rule or by a text that it shows. -/
theorem hasAnyOf_message {phrases : List String}
    (apart : Wording.areApart (Wording.spell phrases) (Wording.spell f.rule.words) = true) :
    hasAnyOf phrases f.message.toList =
      ((Wording.spell f.rule.words).any (hasAnyOf phrases) || f.marked.any (hasAnyOf phrases)) := by
  rw [Finding.message_eq_fill, Wording.hasAnyOf_eq]
  exact Wording.anyOccurs_fill f.length_shown apart

theorem any_marked_eq_false_iff (phrases : List String) :
    f.marked.any (hasAnyOf phrases) = false ↔ ∀ text ∈ f.marked, hasAnyOf phrases text = false := by
  simp

theorem any_marked_append (phrases more : List String) :
    f.marked.any (hasAnyOf (phrases ++ more)) =
      (f.marked.any (hasAnyOf phrases) || f.marked.any (hasAnyOf more)) := by
  rw [Bool.eq_iff_iff]
  simp only [hasAnyOf, List.any_append, List.any_eq_true, Bool.or_eq_true]
  grind

/-- **A message is graded like its rule** as long as no text that it shows has a phrase that wins
over the words. -/
theorem grade_message_iff :
    Wording.grade f.message = f.rule.severity ↔
      ∀ text ∈ f.marked, hasAnyOf (phrasesAbove f.rule.severity) text = false := by
  obtain ⟨-, errorApart, suggestionApart, error, suggestion⟩ := tells_words f.rule
  rw [← Wording.hasAnyOf_eq] at error suggestion
  rw [grade_message, hasAnyOf_message f errorApart, hasAnyOf_message f suggestionApart, error,
    ← any_marked_eq_false_iff]
  cases severity : f.rule.severity with
  | error => simp [phrasesAbove, hasAnyOf]
  | suggestion =>
    rw [severity] at suggestion
    rw [suggestion (by decide), phrasesAbove]
    cases f.marked.any (hasAnyOf buildconfErrorPhrases) <;> simp
  | warning =>
    rw [severity] at suggestion
    rw [suggestion (by decide), phrasesAbove, any_marked_append]
    cases f.marked.any (hasAnyOf buildconfErrorPhrases) <;>
      cases f.marked.any (hasAnyOf buildconfSuggestionPhrases) <;> decide

end Grade

/-! ## How diagnostics are graded -/

/-- **Of every build configuration**, each diagnostic has the severity that its message tells as
long as no name, path, command or argument in it has a phrase of a higher grade: of an error in a
suggestion, of an error or a recommendation in a warning. -/
theorem grade_analyze_iff {source : String} {d : Diagnostic} (h : d ∈ analyze source) :
    ∃ f ∈ findings source.toList, f.diagnostic = d ∧
      (Wording.grade d.message = d.severity ↔
        ∀ text ∈ f.marked, hasAnyOf (phrasesAbove d.severity) text = false) := by
  obtain ⟨f, found, rfl⟩ := List.mem_map.mp h
  exact ⟨f, found, rfl, grade_message_iff f⟩

/-- A block of no known tag, whose tag has no phrase in it. -/
theorem grade_analyze_pipeline :
    (Finding.unknownTag "pipeline" 1).diagnostic ∈ analyze "[pipeline]" ∧
    ∃ f ∈ findings "[pipeline]".toList,
      f.diagnostic = (Finding.unknownTag "pipeline" 1).diagnostic ∧
      (Wording.grade "buildconf: unknown block [pipeline]." = .warning ↔
        ∀ text ∈ f.marked, hasAnyOf (phrasesAbove .warning) text = false) := by
  have found : (Finding.unknownTag "pipeline" 1).diagnostic ∈ analyze "[pipeline]" :=
    List.mem_map_of_mem (by decide +kernel)
  exact ⟨found, grade_analyze_iff found⟩

/-- The words do not tell the severity of every diagnostic: a warning about a block of no known tag
that is called `prefer` reads like a suggestion. -/
theorem exists_misgraded :
    ∃ source : String, ∃ d ∈ analyze source, Wording.grade d.message ≠ d.severity := by
  have found : Finding.unknownTag "prefer" 1 ∈ findings "[prefer]".toList := by decide +kernel
  refine ⟨"[prefer]", _, List.mem_map_of_mem found, ?_⟩
  intro graded
  have shown : hasAnyOf (phrasesAbove .warning) "prefer]".toList = false :=
    (grade_message_iff (.unknownTag "prefer" 1)).mp graded _ (by decide +kernel)
  have phrase : hasAnyOf (phrasesAbove .warning) "prefer]".toList = true := by decide +kernel
  rw [phrase] at shown
  cases shown

end LiveLint.Buildconf
