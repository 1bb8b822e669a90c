import LiveLint.Proofs.CSource.OnTop

/-!
# Including a header

An include line on top of a source answers the complaints that its header is missing. Its words
count along with those of the source, so a variable that is named like one of them is no longer the
only word of its spelling. Whatever the source is, if only something is in it, nothing else changes
but the lines that findings are told on (`analyze_included`).
-/

namespace LiveLint

/-- The same diagnostic one line further down, or about no line. A message that tells the number of
its line tells that of the next one. -/
structure Diagnostic.MovedDown (d d' : Diagnostic) : Prop where
  severity : d'.severity = d.severity
  code : d'.code = d.code
  line : d'.line = d.line.map (· + 1)
  message : d.code ≠ some "C010" → d.code ≠ some "C011" → d'.message = d.message
  tab : d.code = some "C010" → ∃ n, d.line = some n ∧
    d.message = "C: tab character on line " ++ toString n ++ "." ∧
    d'.message = "C: tab character on line " ++ toString (n + 1) ++ "."
  semicolon : d.code = some "C011" → ∃ n, d.line = some n ∧
    d.message = "C: missing semicolon on line " ++ toString n ++ "." ∧
    d'.message = "C: missing semicolon on line " ++ toString (n + 1) ++ "."

namespace CSource

/-- A header that the checks ask for. -/
inductive Header
  | stdio
  | stdlib
  | string
deriving DecidableEq, Repr

namespace Header

/-- Its name. -/
def name : Header → String
  | stdio => "stdio"
  | stdlib => "stdlib"
  | string => "string"

/-- The file that an include line names. -/
def file : Header → String
  | stdio => "stdio.h"
  | stdlib => "stdlib.h"
  | string => "string.h"

/-- The line that includes it. -/
def includeLine (h : Header) : String :=
  "#include <" ++ h.file ++ ">"

/-- The words of that line. -/
def words (h : Header) : List String :=
  ["include", h.name, "h"]

/-- The codes of the complaints that it is missing. -/
def codes : Header → List String
  | stdio => ["C005", "C006"]
  | stdlib => ["C007"]
  | string => ["C008"]

end Header

/-- A diagnostic that the include line answers: that the header is missing, or that a variable is
unused that is named like a word of the line. -/
def IsAnswered (h : Header) (d : Diagnostic) : Prop :=
  (∃ code ∈ h.codes, d.code = some code) ∨
    d.code = some "C009" ∧ ∃ name ∈ h.words, d.message = (Finding.unusedVariable name 0).message

instance (h : Header) : DecidablePred (IsAnswered h) := fun d =>
  inferInstanceAs (Decidable ((∃ code ∈ h.codes, d.code = some code) ∨
    d.code = some "C009" ∧ ∃ name ∈ h.words, d.message = (Finding.unusedVariable name 0).message))

/-! ## The include line -/

section IncludeLine

variable (h : Header)

/-- Apart from the header, no check finds anything on the line. -/
theorem isQuiet_includeLine : IsQuiet h.includeLine.toList := by
  refine ⟨?_, ?_, ?_, ?_, ?_, ?_⟩ <;> cases h <;> decide +kernel

theorem map_word_includeLine :
    (wordPlaces h.includeLine.toList).map Place.word = h.words.map String.toList := by
  cases h <;> decide +kernel

/-- Of the headers that the checks ask for it includes this one and no other, whatever follows. -/
theorem any_startsAtPlace_includeLine (g : Header) (more : List Char) :
    ((places h.includeLine.toList).map (Place.extended ('\n' :: more))).any
      (Phrase.includes g.file).startsAtPlace = (g == h) := by
  cases h <;> cases g <;> rfl

end IncludeLine

section Findings

variable {h : Header} {cs : List Char} {f : Finding}

theorem includesHeader_onTop (g : Header) :
    includesHeader (onTop h.includeLine.toList cs) g.file =
      (g == h || includesHeader cs g.file) := by
  have firm : (Phrase.includes g.file).isFirm = true := by
    cases g <;> decide
  have found : ∀ cs, includesHeader cs g.file =
      (places cs).any (Phrase.includes g.file).startsAtPlace := by
    intro cs
    rw [includesHeader, Phrase.standsIn_eq firm, Bool.eq_iff_iff, List.find?_isSome,
      List.any_eq_true]
  rw [found, found, places_onTop (isQuiet_includeLine h).uncut, List.any_append,
    any_startsAtPlace_includeLine, List.any_map]
  rfl

/-! ## What the line answers -/

theorem filter_reportIf (p : Finding → Bool) (condition : Bool) (f : Finding) :
    (reportIf condition f).filter p = reportIf (condition && p f) f := by
  cases condition with
  | false => rfl
  | true => cases kept : p f <;> simp [reportIf, kept]

/-- The complaints about its header go. -/
theorem includeFindings_onTop : includeFindings (onTop h.includeLine.toList cs) =
    ((includeFindings cs).filter fun f => ¬IsAnswered h f.diagnostic).map Finding.down := by
  have stands : ∀ p ∈ scanned, p.standsIn (onTop h.includeLine.toList cs) = p.standsIn cs :=
    standsIn_scanned (isQuiet_includeLine h)
  unfold scanned at stands
  have stdio : includesHeader (onTop h.includeLine.toList cs) "stdio.h" =
      (.stdio == h || includesHeader cs "stdio.h") := includesHeader_onTop .stdio
  have stdlib : includesHeader (onTop h.includeLine.toList cs) "stdlib.h" =
      (.stdlib == h || includesHeader cs "stdlib.h") := includesHeader_onTop .stdlib
  have string : includesHeader (onTop h.includeLine.toList cs) "string.h" =
      (.string == h || includesHeader cs "string.h") := includesHeader_onTop .string
  have answered : decide (¬IsAnswered h Finding.noStdio.diagnostic) = !(.stdio == h) ∧
      decide (¬IsAnswered h Finding.noStdioForPuts.diagnostic) = !(.stdio == h) ∧
      decide (¬IsAnswered h Finding.noStdlib.diagnostic) = !(.stdlib == h) ∧
      decide (¬IsAnswered h Finding.noStringHeader.diagnostic) = !(.string == h) := by
    cases h <;> decide +kernel
  -- not included now: not included before, and no other header than this one
  have apart : ∀ called own before : Bool,
      (called && !(own || before)) = (called && !before && !own) := by decide
  unfold includeFindings calls
  rw [stdio, stdlib, string]
  simp only [stands, List.mem_cons, true_or, or_true, List.filter_append, filter_reportIf,
    List.map_append, map_down_reportIf, answered, apart]
  rfl

theorem namesWordOf_includeLine {name : String} {n : Nat} :
    (Finding.unusedVariable name n).namesWordOf h.includeLine.toList = true ↔ name ∈ h.words := by
  calc (Finding.unusedVariable name n).namesWordOf h.includeLine.toList = true
      ↔ name.toList ∈ (wordPlaces h.includeLine.toList).map Place.word := by
        simp [Finding.namesWordOf]
    _ ↔ name ∈ h.words := by
        rw [map_word_includeLine, List.mem_map_of_injective fun _ _ => String.toList_inj.mp]

theorem isAnswered_unusedVariable {name : String} {n : Nat} :
    IsAnswered h (Finding.unusedVariable name n).diagnostic ↔ name ∈ h.words := by
  have other : "C009" ∉ h.codes := by
    cases h <;> decide
  have message : ∀ name', (Finding.unusedVariable name n).message =
      (Finding.unusedVariable name' 0).message ↔ name = name' := by
    intro name'
    show "C: unused variable \"" ++ name ++ "\"." = "C: unused variable \"" ++ name' ++ "\"." ↔ _
    rw [String.append_left_inj, String.append_right_inj]
  constructor
  · rintro (⟨code, mem, same⟩ | ⟨-, name', mem, same⟩)
    · obtain rfl : "C009" = code := Option.some.inj same
      exact absurd mem other
    · rwa [(message name').mp same]
  · intro mem
    exact .inr ⟨rfl, name, mem, (message name).mpr rfl⟩

/-- Variables that are named like its words go. -/
theorem variableFindings_included : variableFindings (onTop h.includeLine.toList cs) =
    ((variableFindings cs).filter fun f => ¬IsAnswered h f.diagnostic).map Finding.down := by
  rw [variableFindings_onTop (isQuiet_includeLine h)]
  refine congrArg (List.map _) (List.filter_congr ?_)
  intro f hf
  obtain ⟨d, -, rfl⟩ := List.mem_map.mp hf
  rw [Bool.eq_iff_iff, Bool.not_eq_true', decide_eq_true_eq, isAnswered_unusedVariable,
    ← namesWordOf_includeLine, Bool.not_eq_true]

/-! ## What it does not answer -/

/-- The rules of what an include line may answer. -/
def answerable : List Rule :=
  [.noStdio, .noStdioForPuts, .noStdlib, .noStringHeader, .unusedVariable]

theorem not_isAnswered (other : f.rule ∉ answerable) : ¬IsAnswered h f.diagnostic := by
  have codes : ∀ rule ∈ Rule.all, rule ∉ answerable → rule.code ∉ h.codes ∧ rule.code ≠ "C009" := by
    cases h <;> decide +kernel
  obtain ⟨missing, unused⟩ := codes f.rule (Rule.mem_all _) other
  rintro (⟨code', mem, same⟩ | ⟨same, -⟩)
  · obtain rfl : f.rule.code = code' := Option.some.inj same
    exact missing mem
  · exact unused (Option.some.inj same)

theorem filter_not_isAnswered {fs : List Finding} (other : ∀ f ∈ fs, f.rule ∉ answerable) :
    (fs.filter fun f => ¬IsAnswered h f.diagnostic) = fs :=
  List.filter_eq_self.mpr fun f hf => decide_eq_true (not_isAnswered (other f hf))

theorem not_answerable_of_mem_shape (hf : f ∈ shapeFindings cs) : f.rule ∉ answerable := by
  simp only [shapeFindings, List.mem_append, mem_reportIf] at hf
  rcases hf with ((⟨-, rfl⟩ | ⟨-, rfl⟩) | ⟨-, rfl⟩) | ⟨-, rfl⟩ <;> decide

theorem not_answerable_of_mem_layout (hf : f ∈ layoutFindings cs) : f.rule ∉ answerable := by
  obtain ⟨⟨raw, n⟩, -, found⟩ := List.mem_flatMap.mp hf
  simp only [lineFindings] at found
  split at found
  · simp only [List.mem_append, mem_reportIf] at found
    rcases found with ⟨-, rfl⟩ | ⟨-, rfl⟩
    · exact (by decide : Rule.tab ∉ answerable)
    · exact (by decide : Rule.noSemicolon ∉ answerable)
  · cases found

theorem not_answerable_of_mem_calls (hf : f ∈ callFindings cs) : f.rule ∉ answerable := by
  have others : ∀ rule ∈ [Rule.unendedOutput, .neverFreed, .noReturnZero, .unsafeGets,
      .unguardedScanf, .unsafeStrcpy, .unflushedOutput, .unboundedString],
      rule ∉ answerable := by decide
  refine others _ ?_
  simp only [callFindings, List.mem_append, mem_reportIf] at hf
  rcases hf with ((((((⟨-, rfl⟩ | ⟨-, rfl⟩) | ⟨-, rfl⟩) | ⟨-, rfl⟩) | ⟨-, rfl⟩) | ⟨-, rfl⟩) |
    ⟨-, rfl⟩) | ⟨-, rfl⟩ <;> simp [Finding.rule]

/-! ## The main statement -/

/-- What is found with the line is what was found, less what it answers. -/
theorem findings_included (solid : Text.isAllBlank cs = false) :
    findings (onTop h.includeLine.toList cs) =
      ((findings cs).filter fun f => ¬IsAnswered h f.diagnostic).map Finding.down := by
  have quiet := isQuiet_includeLine h
  rw [findings, shapeFindings_onTop quiet solid, includeFindings_onTop, variableFindings_included,
    layoutFindings_onTop quiet, callFindings_onTop quiet, findings]
  simp only [List.filter_append, List.map_append]
  rw [filter_not_isAnswered fun _ => not_answerable_of_mem_shape,
    filter_not_isAnswered fun _ => not_answerable_of_mem_layout,
    filter_not_isAnswered fun _ => not_answerable_of_mem_calls]

theorem pos_of_mem_findings {n : Nat} (hf : f ∈ findings cs) (hn : n ∈ f.line) : 0 < n := by
  obtain ⟨line, ⟨positive, -⟩, -⟩ := shows_of_mem_findings hf hn
  exact positive

theorem line_down (f : Finding) : f.down.line = f.line.map (· + 1) := by
  cases f <;> rfl

theorem rule_down (f : Finding) : f.down.rule = f.rule := by
  cases f <;> rfl

theorem line_diagnostic (positive : ∀ n ∈ f.line, 0 < n) : f.diagnostic.line = f.line := by
  show f.line.filter (0 < ·) = f.line
  cases line : f.line with
  | none => rfl
  | some n => exact Option.filter_some_pos (decide_eq_true (positive n line))

theorem movedDown_diagnostic (positive : ∀ n ∈ f.line, 0 < n) :
    f.diagnostic.MovedDown f.down.diagnostic := by
  have positive' : ∀ n ∈ f.down.line, 0 < n := by
    rw [line_down]
    intro n hn
    obtain ⟨m, -, rfl⟩ := Option.map_eq_some_iff.mp hn
    exact Nat.succ_pos m
  have rule : ∀ {r : Rule}, f.diagnostic.code = some r.code → f.rule = r :=
    fun code => Rule.code_injective (Option.some.inj code)
  have line := line_diagnostic positive
  refine ⟨?_, ?_, ?_, ?_, ?_, ?_⟩
  · rw [Finding.diagnostic_severity, rule_down, Finding.diagnostic_severity]
  · rw [Finding.diagnostic_code, rule_down, Finding.diagnostic_code]
  · rw [line_diagnostic positive', line_down, line]
  · intro tab semicolon
    cases f with
    | tab n => exact absurd rfl tab
    | noSemicolon n => exact absurd rfl semicolon
    | _ => rfl
  · intro code
    have own : f.rule = .tab := rule code
    cases f with
    | tab n => exact ⟨n, line, rfl, rfl⟩
    | _ => cases own
  · intro code
    have own : f.rule = .noSemicolon := rule code
    cases f with
    | noSemicolon n => exact ⟨n, line, rfl, rfl⟩
    | _ => cases own

end Findings

/-- **A header that is included on top of a source** is no longer missing, and a variable named like
a word of the include line is no longer unused: of the other diagnostics none is lost and none is
new, and each moves down by one line. -/
theorem analyze_included {t : String} (solid : Text.isAllBlank t.toList = false) (h : Header) :
    List.Forall₂ Diagnostic.MovedDown ((analyze t).filter fun d => ¬IsAnswered h d)
      (analyze (h.includeLine ++ "\n" ++ t)) := by
  have text : (h.includeLine ++ "\n" ++ t).toList = onTop h.includeLine.toList t.toList := by
    rw [String.toList_append, String.toList_append, List.append_assoc, onTop]
    rfl
  rw [analyze, analyze, text, findings_included solid, List.filter_map, List.map_map,
    List.forall₂_map_left_iff, List.forall₂_map_right_iff]
  refine List.forall₂_same.mpr ?_
  intro f hf
  have found := (List.mem_filter.mp hf).1
  exact movedDown_diagnostic fun n hn => pos_of_mem_findings found hn

/-- A source that calls `printf` without its header, with a variable `h` and no semicolon. -/
def unheaded : String := "int main() \x7b\nint h = 1\nprintf(\"a\\n\");\n\x7d"

theorem analyze_included_unheaded :
    List.Forall₂ Diagnostic.MovedDown ((analyze unheaded).filter fun d => ¬IsAnswered .stdio d)
      (analyze (Header.stdio.includeLine ++ "\n" ++ unheaded)) ∧
    (analyze unheaded).map Diagnostic.display =
      ["warning: C: add #include <stdio.h>.", "2:warning: C: unused variable \"h\".",
        "2:warning: C: missing semicolon on line 2.",
        "warning: C: add \"return 0;\" at the end of main."] ∧
    (analyze (Header.stdio.includeLine ++ "\n" ++ unheaded)).map Diagnostic.display =
      ["3:warning: C: missing semicolon on line 3.",
        "warning: C: add \"return 0;\" at the end of main."] := by
  have solid : Text.isAllBlank unheaded.toList = false := by decide +kernel
  exact ⟨analyze_included solid .stdio, by decide +kernel, by decide +kernel⟩

end CSource

end LiveLint
