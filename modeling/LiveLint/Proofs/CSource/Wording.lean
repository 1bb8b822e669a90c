import LiveLint.Proofs.CSource.Words
import LiveLint.Proofs.Phrases

/-!
# What the messages about a C source tell of their severity

A rule has a severity, and the words of its messages are chosen so that the severity can be told
from them again. Three messages show more than words: the name of a variable, or the number of a
line. Neither can have a phrase of an error, nor complete one that the words begin: every phrase has
a space in it, which no name and no number has, and no phrase goes on behind the quotation mark or
the full stop that ends them.

`Rule.words` and `Finding.shown` take a message apart, `grade_message` grades it, and
`grade_analyze` says of every diagnostic of every source that its words tell its severity.
-/

namespace LiveLint.CSource

open Wording (hasAnyOf anyOccurs cErrorPhrases)

/-! ## Messages by rule -/

/-- The words of a rule's messages, in order; what the messages show stands between them. -/
def Rule.words : Rule → List String
  | noMain => ["C: missing main function."]
  | oddMainType => ["C: main should return int."]
  | emptySource => ["C: empty file."]
  | unbalanced => ["C: unbalanced braces."]
  | noStdio => ["C: add #include <stdio.h>."]
  | noStdioForPuts => ["C: add #include <stdio.h> for puts()."]
  | noStdlib => ["C: add #include <stdlib.h>."]
  | noStringHeader => ["C: add #include <string.h>."]
  | unusedVariable => ["C: unused variable \"", "\"."]
  | tab => ["C: tab character on line ", "."]
  | noSemicolon => ["C: missing semicolon on line ", "."]
  | unendedOutput => ["C: end printf output with \\n."]
  | neverFreed => ["C: malloc without free (memory leak)."]
  | noReturnZero => ["C: add \"return 0;\" at the end of main."]
  | unsafeGets => ["C: gets() is unsafe, use fgets()."]
  | unguardedScanf => ["C: check the return value of scanf()."]
  | unsafeStrcpy => ["C: strcpy() -> prefer strncpy() or memcpy()."]
  | unflushedOutput => ["C: add fflush(stdout) if output must appear immediately."]
  | unboundedString => ["C: check buffer for %s (size + terminator)."]

namespace Finding

/-- What the message shows besides its words. -/
def shown : Finding → List String
  | unusedVariable name _ => [name]
  | tab line | noSemicolon line => [toString line]
  | _ => []

theorem length_shown (f : Finding) : f.shown.length + 1 = f.rule.words.length := by
  cases f <;> rfl

/-- A message is its rule's words with what it shows between them. -/
theorem message_eq_fill (f : Finding) : f.message = Wording.fill f.rule.words f.shown := by
  cases f <;> rfl

/-- What the message shows, with the mark that ends it there. -/
def marked (f : Finding) : List (List Char) :=
  Wording.marked (Wording.spell f.rule.words) (Wording.spell f.shown)

end Finding

/-! ## What the words tell -/

/-- Words that open with the tag of C sources, that keep phrases of errors apart from what stands
between them, and that tell the severity. -/
structure Tells (phrases : List (List Char)) (severity : Severity) (words : List (List Char)) :
    Prop where
  opening : words.head?.any (Wording.isAbout .c) = true
  apart : Wording.areApart phrases words = true
  error : words.any (anyOccurs phrases) = (severity == .error)

/-- The same as a computation. -/
def tells (phrases : List (List Char)) (severity : Severity) (words : List (List Char)) : Bool :=
  words.head?.any (Wording.isAbout .c) && Wording.areApart phrases words &&
    words.any (anyOccurs phrases) == (severity == .error)

theorem tells_iff {phrases words : List (List Char)} {severity : Severity} :
    tells phrases severity words = true ↔ Tells phrases severity words := by
  rw [tells, Bool.and_eq_true, Bool.and_eq_true, beq_iff_eq]
  exact ⟨fun ⟨⟨opening, apart⟩, error⟩ => ⟨opening, apart, error⟩,
    fun ⟨opening, apart, error⟩ => ⟨⟨opening, apart⟩, error⟩⟩

/-- **The words of every rule tell its severity.** -/
theorem tells_words (r : Rule) :
    Tells (Wording.spell cErrorPhrases) r.severity (Wording.spell r.words) := by
  have all : ∀ r ∈ Rule.all,
      tells (Wording.spell cErrorPhrases) r.severity (Wording.spell r.words) = true := by
    -- the letters are written out first, which is quicker than to compute them from the strings
    simp only [Rule.all, Rule.severity, Rule.words, Wording.spell, List.map_cons, List.map_nil,
      cErrorPhrases, List.forall_mem_cons]
    repeat rw [String.toList_ofList]
    decide +kernel
  exact tells_iff.mp (all r (Rule.mem_all r))

/-! ## How messages are graded -/

/-- Every phrase of an error has a space in it. -/
theorem space_mem_of_mem_cErrorPhrases : ∀ phrase ∈ cErrorPhrases, ' ' ∈ phrase.toList := by
  decide +kernel

section Grade

variable {f : Finding}

/-- What a message shows ends at a quotation mark or a full stop. -/
theorem exists_mark {text : List Char} (h : text ∈ f.marked) :
    ∃ shown ∈ f.shown, ∃ mark, mark ≠ ' ' ∧ text = shown.toList ++ [mark] := by
  have quote : "\".".toList = ['"', '.'] := String.toList_ofList
  have stop : ".".toList = ['.'] := String.toList_ofList
  cases f with
  | unusedVariable name line =>
    have only : text ∈ [name.toList ++ Wording.markOf "\".".toList] := h
    rw [quote, List.mem_singleton] at only
    exact ⟨name, List.mem_cons_self, '"', by decide, only⟩
  | tab line | noSemicolon line =>
    have only : text ∈ [(toString line).toList ++ Wording.markOf ".".toList] := h
    rw [stop, List.mem_singleton] at only
    exact ⟨toString line, List.mem_cons_self, '.', by decide, only⟩
  | _ => cases h

/-- What a message shows has no phrase of an error if it has no space. -/
theorem any_marked_eq_false (solid : ∀ text ∈ f.shown, ' ' ∉ text.toList) :
    f.marked.any (hasAnyOf cErrorPhrases) = false := by
  rw [List.any_eq_false]
  intro text h
  obtain ⟨shown, there, mark, other, rfl⟩ := exists_mark h
  rw [Bool.not_eq_true]
  refine Wording.hasAnyOf_eq_false_of_not_mem space_mem_of_mem_cErrorPhrases ?_
  rw [List.mem_append, List.mem_singleton, not_or]
  exact ⟨solid shown there, other.symm⟩

/-- **A message is graded like its rule** if nothing that it shows has a space in it. -/
theorem grade_message (solid : ∀ text ∈ f.shown, ' ' ∉ text.toList) :
    Wording.grade f.message = f.rule.severity := by
  obtain ⟨opening, apart, error⟩ := tells_words f.rule
  have about : Wording.isAbout .c f.message.toList = true := by
    rw [Finding.message_eq_fill]
    exact Wording.isAbout_fill opening f.shown
  have errors : hasAnyOf cErrorPhrases f.message.toList = (f.rule.severity == .error) := by
    have shown := any_marked_eq_false solid
    rw [Finding.marked, Wording.hasAnyOf_eq] at shown
    rw [Finding.message_eq_fill, Wording.hasAnyOf_eq,
      Wording.anyOccurs_fill f.length_shown apart, error, shown, Bool.or_false]
  rw [Wording.grade, about, if_pos rfl, errors]
  cases f <;> rfl

end Grade

/-! ## What the messages of a source show -/

section Shown

variable {cs : List Char} {f : Finding}

/-- Variables are found by no other check. -/
theorem mem_variableFindings {name : String} {line : Nat}
    (h : Finding.unusedVariable name line ∈ findings cs) :
    Finding.unusedVariable name line ∈ variableFindings cs := by
  have elsewhere : ∀ n l, Finding.unusedVariable name line ∉ lineFindings n l := by
    intro n l found
    simp only [lineFindings] at found
    split at found
    · simp [mem_reportIf] at found
    · cases found
  simpa [findings, shapeFindings, includeFindings, layoutFindings, callFindings, mem_reportIf,
    elsewhere] using h

/-- The name of a variable is a word of any script. -/
theorem isWord_of_mem_findings {name : String} {line : Nat}
    (h : Finding.unusedVariable name line ∈ findings cs) :
    ∀ c ∈ name.toList, Text.isWord c = true := by
  have found := mem_variableFindings h
  rw [variableFindings_eq] at found
  obtain ⟨⟨_, _⟩, kept, same⟩ := List.mem_map.mp found
  cases same
  obtain ⟨p, -, declares⟩ := List.mem_filterMap.mp (List.mem_filter.mp kept).1
  obtain ⟨-, same⟩ := Option.ite_none_right_eq_some.mp declares
  cases same
  rw [String.toList_ofList]
  exact fun c hc => List.mem_takeWhile_imp hc

theorem space_not_mem_toString (n : Nat) : ' ' ∉ (toString n).toList := by
  intro space
  rw [Nat.toString_eq_repr, Nat.toList_repr] at space
  cases Nat.isDigit_of_mem_toDigits (by decide) (by decide) space

/-- Nothing that the findings in a source show has a space in it. -/
theorem space_not_mem_of_mem_findings (h : f ∈ findings cs) :
    ∀ text ∈ f.shown, ' ' ∉ text.toList := by
  cases f with
  | unusedVariable name line =>
    refine List.forall_mem_singleton.mpr fun space => ?_
    cases isWord_of_mem_findings h ' ' space
  | tab line | noSemicolon line =>
    exact List.forall_mem_singleton.mpr (space_not_mem_toString line)
  | _ => exact fun _ none => absurd none List.not_mem_nil

end Shown

/-- **Of every C source**, each diagnostic has the severity that its message tells, whatever names
and line numbers are in it. -/
theorem grade_analyze {source : String} {d : Diagnostic} (h : d ∈ analyze source) :
    Wording.grade d.message = d.severity := by
  obtain ⟨f, found, rfl⟩ := List.mem_map.mp h
  exact grade_message (space_not_mem_of_mem_findings found)

/-- A variable with letters of two scripts, whose name is almost a phrase of an error. -/
theorem grade_analyze_emptyFile :
    (Finding.unusedVariable "empty_fileé" 1).diagnostic ∈ analyze "int empty_fileé;" ∧
      Wording.grade "C: unused variable \"empty_fileé\"." = .warning := by
  have found : (Finding.unusedVariable "empty_fileé" 1).diagnostic ∈ analyze "int empty_fileé;" :=
    List.mem_map_of_mem (by decide +kernel)
  exact ⟨found, grade_analyze found⟩

end LiveLint.CSource
