import LiveLint.Proofs.CSource.Shifted
import LiveLint.Proofs.Lines

/-!
# Blanks around lines are not read

What a C source says is in its lines that are not blank, each trimmed (`content`). Two texts without
tabs that say the same have the same diagnostics, in the same order, and a diagnostic about the
`i`-th such line of the one is about the `i`-th of the other; only the message about a missing
semicolon tells the number of its line, so it tells the other number. This is `analyze_reflowed`.

A text is cut once into its lines that are not blank and the blanks around them (`LaidOut`). Two
texts that say the same are cut into the same lines, so they are reflowed (`reflowed_of_laidOut`)
and their places correspond; the checks ask for nothing but these places and lines.
-/

namespace LiveLint

/-- The same diagnostic on corresponding lines, or about no line on both sides. A message that tells
the number of a line tells that of its own. -/
structure Diagnostic.Shifted (r : Nat → Nat → Prop) (d d' : Diagnostic) : Prop where
  severity : d.severity = d'.severity
  code : d.code = d'.code
  line : Option.Rel r d.line d'.line
  message : d.code ≠ some "C011" → d.message = d'.message
  numbered : d.code = some "C011" → ∃ n n', d.line = some n ∧ d'.line = some n' ∧
    d.message = "C: missing semicolon on line " ++ toString n ++ "." ∧
    d'.message = "C: missing semicolon on line " ++ toString n' ++ "."

namespace CSource

/-! ## What a text says -/

/-- The lines that are not blank, of lines numbered from `n`. -/
def solidFrom (n : Nat) (lines : List (List Char)) : List (List Char × Nat) :=
  (lines.zipIdx n).filter fun x => !Text.isAllBlank x.1

/-- The lines of a text that are not blank, with their numbers. -/
def solidLines (t : String) : List (List Char × Nat) :=
  solidFrom 1 (Text.splitLines t.toList)

/-- What these lines say, each trimmed. -/
def content (t : String) : List (List Char) :=
  (solidLines t).map fun x => Text.trim x.1

/-- Line `n` of the one text is as far down among its lines that are not blank as line `n'` of the
other. -/
def SameRow (t t' : String) (n n' : Nat) : Prop :=
  ∃ i : Nat, ((solidLines t).map Prod.snd)[i]? = some n ∧
    ((solidLines t').map Prod.snd)[i]? = some n'

theorem solidFrom_cons_blank {line : List Char} (blank : Text.isAllBlank line = true) (n : Nat)
    (lines : List (List Char)) : solidFrom n (line :: lines) = solidFrom (n + 1) lines := by
  rw [solidFrom, List.zipIdx_cons, List.filter_cons_of_neg (by simp [blank]), solidFrom]

theorem solidFrom_cons {line : List Char} (solid : Text.isAllBlank line = false) (n : Nat)
    (lines : List (List Char)) :
    solidFrom n (line :: lines) = (line, n) :: solidFrom (n + 1) lines := by
  rw [solidFrom, List.zipIdx_cons, List.filter_cons_of_pos (by simp [solid]), solidFrom]

/-! ## Texts that say the same are reflowed -/

/-- A text on line `n` has these lines, with their numbers, behind its line breaks, and blanks
between them. -/
inductive LaidOut : Nat → List Char → List (List Char × Nat) → Prop
  | ends {n : Nat} {gap : List Char} (blank : Text.isAllBlank gap = true) : LaidOut n gap []
  | line {n m : Nat} {gap line rest : List Char} {more : List (List Char × Nat)}
      (blank : Text.isAllBlank gap = true) (feed : '\n' ∈ gap) (inside : '\n' ∉ Text.trim line)
      (number : n + gap.count '\n' = m) (later : LaidOut m rest more) :
      LaidOut n (gap ++ (Text.trim line ++ rest)) ((line, m) :: more)

theorem LaidOut.behind_gap {n m : Nat} {gap cs : List Char} {lines : List (List Char × Nat)}
    (blank : Text.isAllBlank gap = true) (number : n + gap.count '\n' = m)
    (h : LaidOut m cs lines) : LaidOut n (gap ++ cs) lines := by
  cases h with
  | ends rest => exact .ends (Text.isAllBlank_append.mpr ⟨blank, rest⟩)
  | line blank' feed inside number' later =>
    rw [← List.append_assoc]
    refine .line (Text.isAllBlank_append.mpr ⟨blank, blank'⟩) (List.mem_append_right gap feed)
      inside ?_ later
    rw [List.count_append, ← Nat.add_assoc, number, number']

/-- Lines behind line breaks are laid out, whatever blanks the line before has at its end. -/
theorem laidOut_behind {lines : List (List Char)} (cut : ∀ line ∈ lines, '\n' ∉ line) {n : Nat}
    {gap : List Char} (blank : Text.isAllBlank gap = true) (inside : '\n' ∉ gap) :
    LaidOut n (gap ++ Text.behind lines) (solidFrom (n + 1) lines) := by
  induction lines generalizing n gap with
  | nil =>
    rw [Text.behind, List.flatMap_nil, List.append_nil]
    exact .ends blank
  | cons line lines ih =>
    have uncut : '\n' ∉ line := cut line List.mem_cons_self
    have later := @ih fun other hother => cut other (List.mem_cons_of_mem line hother)
    rw [Text.behind_cons]
    cases solid : Text.isAllBlank line with
    | true =>
      have one : (gap ++ ['\n']).count '\n' = 1 := by
        rw [List.count_append, List.count_eq_zero.mpr inside]
        rfl
      have front : Text.isAllBlank (gap ++ ['\n']) = true :=
        Text.isAllBlank_append.mpr ⟨blank, by decide⟩
      have laid := LaidOut.behind_gap front (congrArg (n + ·) one) (later solid uncut)
      rw [solidFrom_cons_blank solid]
      simpa using laid
    | false =>
      obtain ⟨front, back, blankFront, blankBack, whole⟩ := Text.exists_gaps_trim line
      rw [whole, List.mem_append, List.mem_append, not_or, not_or] at uncut
      have one : (gap ++ '\n' :: front).count '\n' = 1 := by
        rw [List.count_append, List.count_cons_self, List.count_eq_zero.mpr inside,
          List.count_eq_zero.mpr uncut.1]
      have between : Text.isAllBlank (gap ++ '\n' :: front) = true :=
        Text.isAllBlank_append.mpr ⟨blank, blankFront⟩
      have feed : '\n' ∈ gap ++ '\n' :: front :=
        List.mem_append_right gap List.mem_cons_self
      have laid := LaidOut.line between feed uncut.2.1 (congrArg (n + ·) one)
        (later blankBack uncut.2.2)
      rw [solidFrom_cons solid]
      nth_rewrite 1 [whole]
      simpa using laid

/-- Every text is laid out behind a line break. -/
theorem laidOut_solidLines (t : String) : LaidOut 0 ('\n' :: t.toList) (solidLines t) := by
  have cut : ∀ line ∈ Text.splitLines t.toList, '\n' ∉ line := fun line hline feed =>
    (Text.mem_of_mem_splitLines hline _ feed).2 rfl
  rw [← Text.behind_splitLines, ← List.nil_append (Text.behind _)]
  exact laidOut_behind cut rfl List.not_mem_nil

section Reflow

variable {r : Nat → Nat → Prop} {n n' : Nat} {cs cs' : List Char}

/-- Lines that say the same and correspond. -/
def SaysSame (r : Nat → Nat → Prop) (x x' : List Char × Nat) : Prop :=
  Text.trim x.1 = Text.trim x'.1 ∧ r x.2 x'.2

/-- The same words on one line, with reflowed texts behind them. -/
theorem reflowed_append {core : List Char} (inside : '\n' ∉ core) (line : r n n')
    (h : Reflowed r n cs n' cs') : Reflowed r n (core ++ cs) n' (core ++ cs') := by
  induction core with
  | nil => exact h
  | cons c core ih =>
    rw [List.mem_cons, not_or] at inside
    exact .char (Ne.symm inside.1) (fun _ => line) (ih inside.2)

/-- **Lines that say the same make reflowed texts.** -/
theorem reflowed_of_laidOut {lines lines' : List (List Char × Nat)} (h : LaidOut n cs lines)
    (h' : LaidOut n' cs' lines') (same : List.Forall₂ (SaysSame r) lines lines') :
    Reflowed r n cs n' cs' := by
  induction h generalizing n' cs' lines' with
  | ends blank =>
    cases same
    cases h' with
    | ends blank' => exact .ends blank blank'
  | line blank feed inside number later ih =>
    cases same with
    | cons first others =>
      cases h' with
      | line blank' feed' inside' number' later' =>
        obtain ⟨words, row⟩ := first
        dsimp only at words
        refine .gap blank blank' feed feed' ?_
        rw [number, number', ← words]
        exact reflowed_append inside row (ih later' others)

end Reflow

variable {t t' : String}

/-- With the same content, lines in the same row say the same. -/
theorem solidLines_sayingSame (same : content t = content t') :
    List.Forall₂ (SaysSame (SameRow t t')) (solidLines t) (solidLines t') := by
  have length : (solidLines t).length = (solidLines t').length := by
    have := congrArg List.length same
    rwa [content, content, List.length_map, List.length_map] at this
  refine List.forall₂_iff_get.mpr ⟨length, ?_⟩
  intro i hi hi'
  refine ⟨?_, i, ?_, ?_⟩
  · have words := congrArg (·[i]?) same
    simpa [content, hi, hi'] using words
  · simp [hi]
  · simp [hi']

/-- The places of texts that say the same correspond. -/
theorem places_alike (same : content t = content t') :
    List.Forall₂ (Place.Alike (SameRow t t')) (places t.toList) (places t'.toList) := by
  have reflowed := reflowed_of_laidOut (laidOut_solidLines t) (laidOut_solidLines t')
    (solidLines_sayingSame same)
  have start : ∀ cs, placesFrom false 0 ('\n' :: cs) = places cs := fun cs =>
    placesFrom_cons_blank (by decide)
  rw [← start, ← start]
  exact placesFrom_reflowed reflowed false

/-- A row is a line of its text, and lines are numbered from 1. -/
theorem pos_of_sameRow {n n' : Nat} (h : SameRow t t' n n') : 0 < n ∧ 0 < n' := by
  have positive : ∀ {t : String} {i n : Nat},
      ((solidLines t).map Prod.snd)[i]? = some n → 0 < n := by
    intro t i n h
    obtain ⟨⟨line, _⟩, hline, rfl⟩ := List.mem_map.mp (List.mem_of_getElem? h)
    exact (List.mem_zipIdx (List.mem_filter.mp hline).1).1
  obtain ⟨i, row, row'⟩ := h
  exact ⟨positive row, positive row'⟩

/-! ## Line by line -/

/-- Whether a trimmed line holds code without the semicolon it needs. -/
def lacksSemicolon (trimmed : List Char) : Bool :=
  isCodeLine trimmed && (!isFinished trimmed || hasRunOnStatement trimmed)

theorem lineFindings_of_untabbed {line : List Char} (untabbed : '\t' ∉ line) (n : Nat) :
    lineFindings n line = reportIf (lacksSemicolon (Text.trim line)) (.noSemicolon n) := by
  have none : line.contains '\t' = false := by simpa using untabbed
  unfold lineFindings lacksSemicolon
  dsimp only
  rw [none]
  cases isCodeLine (Text.trim line) <;> rfl

/-- Without tabs, the lines that are not blank have all findings there are. -/
theorem layoutFindings_eq (untabbed : '\t' ∉ t.toList) :
    layoutFindings t.toList = (solidLines t).flatMap fun x =>
      reportIf (lacksSemicolon (Text.trim x.1)) (.noSemicolon x.2) := by
  have blank : ∀ x : List Char × Nat, (!Text.isAllBlank x.1) = false →
      reportIf (lacksSemicolon (Text.trim x.1)) (.noSemicolon x.2) = [] := by
    intro x blank
    rw [Bool.not_eq_false'] at blank
    rw [Text.isAllBlank_iff_trim.mp blank]
    rfl
  rw [solidLines, solidFrom, flatMap_filter blank]
  refine List.flatMap_congr ?_
  intro x hx
  have line : x.1 ∈ Text.splitLines t.toList := List.fst_mem_of_mem_zipIdx hx
  exact lineFindings_of_untabbed (fun tab => untabbed (Text.mem_of_mem_splitLines line _ tab).1) x.2

/-- A semicolon is missing on the same rows. -/
theorem layoutFindings_shifted (untabbed : '\t' ∉ t.toList) (untabbed' : '\t' ∉ t'.toList)
    (same : content t = content t') :
    List.Forall₂ (Finding.Shifted (SameRow t t')) (layoutFindings t.toList)
      (layoutFindings t'.toList) := by
  rw [layoutFindings_eq untabbed, layoutFindings_eq untabbed']
  refine List.rel_flatMap (solidLines_sayingSame same) ?_
  rintro x x' ⟨words, row⟩
  dsimp only
  rw [words]
  exact reportIf_shifted _ ⟨rfl, .some row, fun other => absurd rfl other⟩

/-! ## Changes of layout -/

/-- The lines of a text after a change of the blanks around them. -/
inductive Respaced : List (List Char) → List (List Char) → Prop
  | done : Respaced [] []
  /-- A line gets other blanks at its ends, as with another indent or a carriage return. -/
  | keep {gap gap' rest rest' : List Char} (core : List Char) {lines lines' : List (List Char)}
      (blank : Text.isAllBlank (gap ++ rest) = true)
      (blank' : Text.isAllBlank (gap' ++ rest') = true) (h : Respaced lines lines') :
      Respaced ((gap ++ core ++ rest) :: lines) ((gap' ++ core ++ rest') :: lines')
  /-- A blank line is put in. -/
  | insert {line : List Char} {lines lines' : List (List Char)}
      (blank : Text.isAllBlank line = true) (h : Respaced lines lines') :
      Respaced lines (line :: lines')
  /-- A blank line is taken out. -/
  | delete {line : List Char} {lines lines' : List (List Char)}
      (blank : Text.isAllBlank line = true) (h : Respaced lines lines') :
      Respaced (line :: lines) lines'

theorem content_eq (t : String) :
    content t = ((Text.splitLines t.toList).map Text.trim).filter fun words => !words.isEmpty := by
  have solid : ((fun words : List Char => !words.isEmpty) ∘ Text.trim) ∘ Prod.fst =
      fun x : List Char × Nat => !Text.isAllBlank x.1 := by
    funext x
    show (!(Text.trim x.1).isEmpty) = !Text.isAllBlank x.1
    congr 1
    rw [Bool.eq_iff_iff, List.isEmpty_iff, Text.isAllBlank_iff_trim]
  have lines : (Text.splitLines t.toList) = ((Text.splitLines t.toList).zipIdx 1).map Prod.fst :=
    (List.zipIdx_map_fst 1 _).symm
  rw [lines, List.filter_map, List.filter_map, solid, List.map_map]
  rfl

/-- A change of the blanks around lines keeps what they say. -/
theorem filter_trim_of_respaced {lines lines' : List (List Char)} (h : Respaced lines lines') :
    (lines.map Text.trim).filter (fun words => !words.isEmpty) =
      (lines'.map Text.trim).filter fun words => !words.isEmpty := by
  induction h with
  | done => rfl
  | @keep gap gap' rest rest' core lines lines' blank blank' _ ih =>
    rw [List.map_cons, List.map_cons, Text.trim_of_gaps blank, Text.trim_of_gaps blank',
      List.filter_cons, List.filter_cons, ih]
  | insert blank _ ih =>
    rw [List.map_cons, Text.isAllBlank_iff_trim.mp blank, ih]
    rfl
  | delete blank _ ih =>
    rw [List.map_cons, Text.isAllBlank_iff_trim.mp blank, ← ih]
    rfl

/-! ## The main statement -/

theorem exists_noSemicolon {f : Finding} (h : f.rule = .noSemicolon) : ∃ n, f = .noSemicolon n := by
  cases f with
  | noSemicolon n => exact ⟨n, rfl⟩
  | _ => cases h

theorem diagnostic_shifted {r : Nat → Nat → Prop} (positive : ∀ n n', r n n' → 0 < n ∧ 0 < n')
    {f f' : Finding} (h : f.Shifted r f') : f.diagnostic.Shifted r f'.diagnostic := by
  have semicolon : f.diagnostic.code = some "C011" ↔ f.rule = .noSemicolon := by
    rw [Finding.diagnostic_code, Option.some.injEq]
    exact ⟨fun code => Rule.code_injective code, fun rule => by rw [rule]; rfl⟩
  refine ⟨?_, ?_, filter_pos_of_rel positive h.line, ?_, ?_⟩
  · rw [Finding.diagnostic_severity, h.rule, Finding.diagnostic_severity]
  · rw [Finding.diagnostic_code, h.rule, Finding.diagnostic_code]
  · intro other
    exact h.message (mt semicolon.mpr other)
  · intro code
    have rule := semicolon.mp code
    obtain ⟨n, rfl⟩ := exists_noSemicolon rule
    obtain ⟨n', rfl⟩ := exists_noSemicolon (h.rule.symm.trans rule)
    have row : r n n' := by simpa [Finding.line] using h.line
    have kept : ∀ n, 0 < n → (Finding.noSemicolon n).diagnostic.line = some n := by
      intro n pos
      show (some n).filter (0 < ·) = some n
      simp [pos]
    exact ⟨n, n', kept n (positive n n' row).1, kept n' (positive n n' row).2, rfl, rfl⟩

/-- **Blanks around lines are not read.** With the same content come the same diagnostics, each on
the line in the same row; and a change of the blanks around lines keeps the content. -/
theorem analyze_reflowed {t t' : String} (untabbed : '\t' ∉ t.toList)
    (untabbed' : '\t' ∉ t'.toList) :
    (content t = content t' →
      List.Forall₂ (Diagnostic.Shifted (SameRow t t')) (analyze t) (analyze t')) ∧
    (Respaced (Text.splitLines t.toList) (Text.splitLines t'.toList) → content t = content t') := by
  constructor
  · intro same
    have alike := places_alike same
    have found : List.Forall₂ (Finding.Shifted (SameRow t t')) (findings t.toList)
        (findings t'.toList) := by
      unfold findings
      refine List.rel_append ?_ (callFindings_shifted alike)
      refine List.rel_append ?_ (layoutFindings_shifted untabbed untabbed' same)
      refine List.rel_append ?_ (variableFindings_shifted alike)
      exact List.rel_append (shapeFindings_shifted alike) (includeFindings_shifted alike)
    refine List.rel_map ?_ found
    intro f f' shifted
    exact diagnostic_shifted (fun _ _ => pos_of_sameRow) shifted
  · intro respaced
    rw [content_eq, content_eq]
    exact filter_trim_of_respaced respaced

/-- A source with no more blanks than it needs. -/
def packed : String := "#include <stdio.h>\nint main() \x7b\nint x = 1\nprintf(\"hi\");\n\x7d\n"

/-- The same with blank lines, indents and carriage returns. -/
def spaced : String :=
  "\r\n#include <stdio.h>\r\n\r\nint main() \x7b\r\n  int x = 1\r\n  printf(\"hi\");\r\n\x7d\r\n"

theorem respaced_spaced :
    Respaced (Text.splitLines packed.toList) (Text.splitLines spaced.toList) := by
  have last : Respaced [[]] [[]] := @Respaced.keep [] [] [] [] [] _ _ rfl rfl .done
  have close := @Respaced.keep [] [] [] ['\r'] ['}'] _ _ (by decide) (by decide) last
  have call := @Respaced.keep [] "  ".toList [] ['\r'] "printf(\"hi\");".toList _ _
    (by decide) (by decide) close
  have declaration := @Respaced.keep [] "  ".toList [] ['\r'] "int x = 1".toList _ _
    (by decide) (by decide) call
  have main := @Respaced.keep [] [] [] ['\r'] "int main() \x7b".toList _ _
    (by decide) (by decide) declaration
  have gap := @Respaced.insert ['\r'] _ _ (by decide) main
  have header := @Respaced.keep [] [] [] ['\r'] "#include <stdio.h>".toList _ _
    (by decide) (by decide) gap
  have whole := @Respaced.insert ['\r'] _ _ (by decide) header
  convert whole using 1
  · decide +kernel
  · decide +kernel

theorem analyze_reflowed_spaced :
    '\t' ∉ packed.toList ∧ '\t' ∉ spaced.toList ∧ content packed = content spaced ∧
    List.Forall₂ (Diagnostic.Shifted (SameRow packed spaced)) (analyze packed) (analyze spaced) ∧
    (analyze packed).map Diagnostic.display =
      ["3:warning: C: unused variable \"x\".", "3:warning: C: missing semicolon on line 3.",
        "4:warning: C: end printf output with \\n.",
        "warning: C: add \"return 0;\" at the end of main."] ∧
    (analyze spaced).map Diagnostic.display =
      ["5:warning: C: unused variable \"x\".", "5:warning: C: missing semicolon on line 5.",
        "6:warning: C: end printf output with \\n.",
        "warning: C: add \"return 0;\" at the end of main."] := by
  have untabbed : '\t' ∉ packed.toList := by decide +kernel
  have untabbed' : '\t' ∉ spaced.toList := by decide +kernel
  have same := (analyze_reflowed untabbed untabbed').2 respaced_spaced
  have shifted := (analyze_reflowed untabbed untabbed').1 same
  exact ⟨untabbed, untabbed', same, shifted, by decide +kernel, by decide +kernel⟩

end CSource

end LiveLint
