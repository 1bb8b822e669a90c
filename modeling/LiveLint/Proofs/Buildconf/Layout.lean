import LiveLint.Proofs.Buildconf.Moved

/-!
# Layout and comments are not read

What a build configuration says is in its words: its lines without comments and empty lines, each
trimmed. Texts without tabs that have the same words have the same diagnostics, in the same order,
and a diagnostic about the `i`-th line of the one with words is about the `i`-th of the other. This
is `analyze_carried`. Tabs are left out since a tab is itself a finding.

Indenting, carriage returns, comments and empty lines are the changes that keep the words
(`Relaid`).
-/

namespace LiveLint

/-- The same diagnostic on corresponding lines, or about no line on both sides. -/
structure Diagnostic.Carried (r : Nat → Nat → Prop) (d d' : Diagnostic) : Prop where
  severity : d.severity = d'.severity
  code : d.code = d'.code
  message : d.message = d'.message
  line : Option.Rel r d.line d'.line

namespace Buildconf

/-! ## Words -/

/-- The lines of a text that are neither empty nor comments. -/
def meaningful (t : String) : List Line :=
  (Line.ofText t.toList).filter Line.isMeaningful

/-- What these lines say, each trimmed. -/
def words (t : String) : List (List Char) :=
  (meaningful t).map Line.trimmed

/-- Line `n` is as far down in the one list as line `n'` in the other. -/
def SamePlace (lines lines' : List Line) (n n' : Nat) : Prop :=
  ∃ i : Nat, (lines.map Line.number)[i]? = some n ∧ (lines'.map Line.number)[i]? = some n'

/-- Whether a trimmed line is neither empty nor a comment. -/
def saysMore (t : List Char) : Bool :=
  !t.isEmpty && !List.isPrefixOf [';', ';'] t

theorem words_eq (t : String) :
    words t = ((Text.splitLines t.toList).map Text.trim).filter saysMore := by
  have trimmed : (Line.ofText t.toList).map Line.trimmed =
      (Text.splitLines t.toList).map Text.trim := by
    rw [← Line.raw_ofText, List.map_map]
    rfl
  rw [words, meaningful, ← trimmed, List.filter_map]
  congr 1
  refine List.filter_congr ?_
  intro line hline
  rw [Bool.eq_iff_iff, isMeaningful_iff (Line.kind_of_mem_ofText hline)]
  simp [saysMore, ← List.isPrefixOf_iff_prefix]

/-! ## Changes of layout -/

/-- A line of layout: trimmed, it is empty or starts with two semicolons. -/
def IsLayout (raw : List Char) : Prop :=
  Text.trim raw = [] ∨ [';', ';'] <+: Text.trim raw

/-- The lines of a text after a change of its layout. -/
inductive Relaid : List (List Char) → List (List Char) → Prop
  | done : Relaid [] []
  /-- A line gets other blanks at its ends, as with another indent or a carriage return. -/
  | keep {gap gap' rest rest' : List Char} (core : List Char) {lines lines' : List (List Char)}
      (blank : Text.isAllBlank (gap ++ rest) = true)
      (blank' : Text.isAllBlank (gap' ++ rest') = true) (h : Relaid lines lines') :
      Relaid ((gap ++ core ++ rest) :: lines) ((gap' ++ core ++ rest') :: lines')
  /-- A comment or an empty line is put in. -/
  | insert {raw : List Char} {lines lines' : List (List Char)} (layout : IsLayout raw)
      (h : Relaid lines lines') : Relaid lines (raw :: lines')
  /-- A comment or an empty line is taken out. -/
  | delete {raw : List Char} {lines lines' : List (List Char)} (layout : IsLayout raw)
      (h : Relaid lines lines') : Relaid (raw :: lines) lines'

theorem saysMore_of_layout {raw : List Char} (h : IsLayout raw) :
    saysMore (Text.trim raw) = false := by
  rcases h with empty | comment
  · rw [empty]
    rfl
  · rw [saysMore, List.isPrefixOf_iff_prefix.mpr comment, Bool.not_true, Bool.and_false]

/-- A change of layout keeps the words. -/
theorem filter_saysMore_of_relaid {lines lines' : List (List Char)} (h : Relaid lines lines') :
    (lines.map Text.trim).filter saysMore = (lines'.map Text.trim).filter saysMore := by
  induction h with
  | done => rfl
  | @keep gap gap' rest rest' core lines lines' blank blank' _ ih =>
    rw [List.map_cons, List.map_cons, Text.trim_of_gaps blank, Text.trim_of_gaps blank',
      List.filter_cons, List.filter_cons, ih]
  | insert layout _ ih => rw [List.map_cons, List.filter_cons, saysMore_of_layout layout, ih]; rfl
  | delete layout _ ih => rw [List.map_cons, List.filter_cons, saysMore_of_layout layout, ih]; rfl

/-! ## Corresponding lines -/

/-- A line number is at one place only. -/
theorem place_unique {lines : List Line} (h : Ascending lines) {i j n : Nat}
    (hi : (lines.map Line.number)[i]? = some n) (hj : (lines.map Line.number)[j]? = some n) :
    i = j := by
  have inside := (List.getElem?_eq_some_iff.mp hi).1
  exact (List.getElem?_inj inside (nodup_map_of_growing h)).mp (hi.trans hj.symm)

theorem paired_samePlace {lines lines' : List Line} (h : Ascending lines) (h' : Ascending lines') :
    Paired (SamePlace lines lines') := by
  rintro m m' n n' ⟨i, hm, hm'⟩ ⟨j, hn, hn'⟩
  constructor
  · rintro rfl
    obtain rfl := place_unique h hm hn
    exact Option.some.inj (hm'.symm.trans hn')
  · rintro rfl
    obtain rfl := place_unique h' hm' hn'
    exact Option.some.inj (hm.symm.trans hn)

theorem pos_of_getElem? {t : String} {i n : Nat}
    (h : ((meaningful t).map Line.number)[i]? = some n) : 0 < n := by
  obtain ⟨line, hline, rfl⟩ := List.mem_map.mp (List.mem_of_getElem? h)
  exact (Line.number_of_mem_ofText (List.mem_filter.mp hline).1).1

/-- With the same words, lines at the same place are alike. -/
theorem meaningful_alike {t t' : String} (same : words t = words t') :
    List.Forall₂ (Line.Alike (SamePlace (meaningful t) (meaningful t')))
      (meaningful t) (meaningful t') := by
  have length : (meaningful t).length = (meaningful t').length := by
    have := congrArg List.length same
    rwa [words, words, List.length_map, List.length_map] at this
  refine List.forall₂_iff_get.mpr ⟨length, ?_⟩
  intro i hi hi'
  have trimmed : ((meaningful t).get ⟨i, hi⟩).trimmed = ((meaningful t').get ⟨i, hi'⟩).trimmed := by
    have := congrArg (·[i]?) same
    simpa [words, hi, hi'] using this
  have kinds : ∀ {t line}, line ∈ meaningful t → line.kind = .ofLine line.raw := fun h =>
    Line.kind_of_mem_ofText (List.mem_filter.mp h).1
  refine ⟨trimmed, ?_, i, ?_, ?_⟩
  · rw [kinds (List.get_mem (meaningful t) ⟨i, hi⟩), kinds (List.get_mem (meaningful t') ⟨i, hi'⟩)]
    exact congrArg LineKind.ofTrimmed trimmed
  · simp [hi]
  · simp [hi']

theorem plain_parse {t : String} (untabbed : '\t' ∉ t.toList) :
    (Document.parse t.toList).Plain := by
  refine ⟨fun line hline => Line.kind_of_mem_ofText hline, ?_⟩
  intro line hline
  rw [hasTab, List.contains_eq_mem, decide_eq_false_iff_not]
  exact fun tab => untabbed (Text.mem_of_mem_splitLines (Line.raw_of_mem_ofText hline) _ tab).1

/-! ## The main statement -/

theorem carried_of_moved {r : Nat → Nat → Prop} (positive : ∀ n n', r n n' → 0 < n ∧ 0 < n')
    {f f' : Finding} (h : f.Moved r f') : f.diagnostic.Carried r f'.diagnostic := by
  refine ⟨?_, ?_, h.message, ?_⟩
  · rw [Finding.diagnostic_severity, h.rule, Finding.diagnostic_severity]
  · rw [Finding.diagnostic_code, h.rule, Finding.diagnostic_code]
  · show Option.Rel r (f.line.filter (0 < ·)) (f'.line.filter (0 < ·))
    exact filter_pos_of_rel positive h.line

/-- **Layout and comments are not read.** With the same words come the same diagnostics, each on
the corresponding line; and a change of layout keeps the words. -/
theorem analyze_carried {t t' : String} (untabbed : '\t' ∉ t.toList)
    (untabbed' : '\t' ∉ t'.toList) :
    (words t = words t' →
      List.Forall₂ (Diagnostic.Carried (SamePlace (meaningful t) (meaningful t')))
        (analyze t) (analyze t')) ∧
    (Relaid (Text.splitLines t.toList) (Text.splitLines t'.toList) → words t = words t') := by
  constructor
  · intro same
    have ascending : ∀ t, Ascending (meaningful t) := fun t =>
      (Line.ascending_ofText t.toList).filter _
    -- alike lines make alike documents, and these have the same findings
    have alike := Document.parse_alike (meaningful_alike same)
    have moved := documentFindings_moved (paired_samePlace (ascending t) (ascending t')) alike
      (plain_parse untabbed) (plain_parse untabbed')
    refine List.rel_map ?_ moved
    intro f f' hf
    refine carried_of_moved ?_ hf
    rintro n n' ⟨i, hn, hn'⟩
    exact ⟨pos_of_getElem? hn, pos_of_getElem? hn'⟩
  · intro relaid
    rw [words_eq, words_eq]
    exact filter_saysMore_of_relaid relaid

/-- A text with no more layout than it needs. -/
def terse : String := "!muf 4\n[tool cc]\n.exec gcc\n..\n"

/-- The same with a comment, an empty line, indents and carriage returns. -/
def airy : String := ";; tools\r\n!muf 4\r\n\r\n  [tool cc]\r\n    .exec gcc\r\n  ..\r\n"

theorem relaid_airy : Relaid (Text.splitLines terse.toList) (Text.splitLines airy.toList) := by
  have comment : IsLayout ";; tools\r".toList := Or.inr (by decide)
  have empty : IsLayout ['\r'] := Or.inl (by decide)
  have last : Relaid [[]] [[]] := @Relaid.keep [] [] [] [] [] _ _ rfl rfl .done
  have closer := @Relaid.keep [] "  ".toList [] ['\r'] "..".toList _ _ (by decide) (by decide) last
  have exec := @Relaid.keep [] "    ".toList [] ['\r'] ".exec gcc".toList _ _
    (by decide) (by decide) closer
  have tool := @Relaid.keep [] "  ".toList [] ['\r'] "[tool cc]".toList _ _
    (by decide) (by decide) exec
  have header := @Relaid.keep [] [] [] ['\r'] "!muf 4".toList _ _
    (by decide) (by decide) (tool.insert empty)
  exact header.insert comment

theorem analyze_carried_airy :
    '\t' ∉ terse.toList ∧ '\t' ∉ airy.toList ∧ words terse = words airy ∧
    List.Forall₂ (Diagnostic.Carried (SamePlace (meaningful terse) (meaningful airy)))
      (analyze terse) (analyze airy) ∧
    (analyze terse).map Diagnostic.line = [none, none, none, some 2, some 3, some 1] ∧
    (analyze airy).map Diagnostic.line = [none, none, none, some 4, some 5, some 2] := by
  have untabbed : '\t' ∉ terse.toList := by decide
  have untabbed' : '\t' ∉ airy.toList := by decide
  have same := (analyze_carried untabbed untabbed').2 relaid_airy
  have carried := (analyze_carried untabbed untabbed').1 same
  exact ⟨untabbed, untabbed', same, carried, by decide +kernel, by decide +kernel⟩

end Buildconf

end LiveLint
