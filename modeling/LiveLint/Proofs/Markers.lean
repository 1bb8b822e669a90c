import LiveLint.Analyzer
import LiveLint.Marker
import LiveLint.Proofs.Buildconf.Anchors
import LiveLint.Proofs.CSource.Anchors

/-!
# Anchors and markers

A diagnostic of a built-in analyzer that is about a line is about a line of the text it was found
in. So an editor that draws it has a line to draw it on: the marker of such a diagnostic never has
to be put on another line, and it reaches to the end of the line.

`WellAnchored` collects what is promised of the anchors of a text, for both kinds of sources, and
`wellAnchored` keeps the promise for every text.
-/

namespace LiveLint

open Text (IsLine LineTable dropReturn)

/-! ## Markers -/

namespace Marker

/-- What the marker of a diagnostic about a line has to be: on that line, from its first column to
behind its last, with what the diagnostic says. -/
structure Draws (cs : List Char) (d : Diagnostic) (m : Marker) : Prop where
  line : d.line = some m.line
  column : m.column = 1
  endColumn : ∃ line, IsLine cs m.line line ∧ m.endColumn = 1 + (dropReturn line).length
  color : m.color = d.severity.color
  message : m.message = d.message
  code : m.code = d.code

variable {source : String}

/-- A diagnostic about a line of the text is drawn on that line. -/
theorem draws_ofDiagnostic? {d : Diagnostic} {n : Nat} {line : List Char}
    (anchored : d.line = some n) (there : IsLine source.toList n line) :
    ∃ m, ofDiagnostic? (.ofText source) d = some m ∧ Draws source.toList d m := by
  have nearest : (LineTable.ofText source).nearestLine n = n :=
    LineTable.nearestLine_of_mem there.1 there.le_length
  have length : (LineTable.ofText source).lineLength n = (dropReturn line).length := by
    obtain ⟨n, rfl⟩ := Nat.exists_eq_add_of_le' there.1
    show (((Text.splitLines source.toList)[n]?.map dropReturn).map List.length).getD 0 = _
    rw [show (Text.splitLines source.toList)[n]? = some line from there.2]
    rfl
  refine ⟨_, Option.map_eq_some_iff.mpr ⟨n, anchored, rfl⟩, ?_⟩
  refine ⟨?_, rfl, ⟨line, ?_, ?_⟩, rfl, rfl, rfl⟩
  · rw [nearest, anchored]
  · rw [nearest]
    exact there
  · show (LineTable.ofText source).lineLength ((LineTable.ofText source).nearestLine n) + 1 = _
    rw [nearest, length]
    omega

/-- Diagnostics about lines of the text have one marker each, in their order. -/
theorem draws_ofDiagnostics {ds : List Diagnostic}
    (h : ∀ d ∈ ds, ∀ n ∈ d.line, ∃ line, IsLine source.toList n line) :
    List.Forall₂ (Draws source.toList) (ds.filter (·.line.isSome))
      (ofDiagnostics (.ofText source) ds) := by
  induction ds with
  | nil => exact .nil
  | cons d ds ih =>
    obtain ⟨first, rest⟩ := List.forall_mem_cons.mp h
    have later := ih rest
    rw [ofDiagnostics] at later ⊢
    cases anchor : d.line with
    | none =>
      have undrawn : ofDiagnostic? (.ofText source) d = none := ofDiagnostic?_eq_none_iff.mpr anchor
      rw [List.filter_cons_of_neg (by simp [anchor]), List.filterMap_cons_none undrawn]
      exact later
    | some n =>
      obtain ⟨line, there⟩ := first n anchor
      obtain ⟨m, drawn, draws⟩ := draws_ofDiagnostic? anchor there
      rw [List.filter_cons_of_pos (by simp [anchor]), List.filterMap_cons_some drawn]
      exact .cons draws later

end Marker

/-! ## Anchors of diagnostics -/

theorem Diagnostic.mem_of_mem_line_atLine? {d : Diagnostic} {line : Option Nat} {n : Nat}
    (h : n ∈ (d.atLine? line).line) : n ∈ line :=
  (Option.filter_eq_some_iff.mp h).1

/-- An anchored diagnostic of a build configuration is about a line of it, of a kind that its rule
allows. -/
theorem Buildconf.line_of_mem_analyze {source : String} {d : Diagnostic} (hd : d ∈ analyze source)
    {n : Nat} (hn : n ∈ d.line) :
    ∃ line ∈ Line.ofText source.toList, line.number = n ∧
      (d.code ≠ some "B090" → line.isMeaningful = true ∧
        (d.code ≠ some "B001" → line.isStructural = true)) := by
  obtain ⟨f, hf, rfl⟩ := List.mem_map.mp hd
  obtain ⟨line, there, number, allows⟩ :=
    line_of_mem_findings source.toList hf (Diagnostic.mem_of_mem_line_atLine? hn)
  refine ⟨line, there, number, ?_⟩
  intro untabbed
  have other : ∀ r : Rule, f.diagnostic.code ≠ some r.code → f.rule ≠ r := by
    rintro r coded rfl
    exact coded rfl
  obtain ⟨meaningful, structural⟩ := allows (other .tab untabbed)
  exact ⟨meaningful, fun placed => structural (other .misplacedHeader placed)⟩

theorem Buildconf.isLine_of_mem_ofText {cs : List Char} {line : Line} (h : line ∈ Line.ofText cs) :
    IsLine cs line.number line.raw := by
  obtain ⟨⟨raw, number⟩, there, rfl⟩ := List.mem_map.mp h
  exact Text.isLine_iff_mem_zipIdx.mpr there

/-- An anchored diagnostic of a C source is about a line of it that shows its word. -/
theorem CSource.shows_of_mem_analyze {source : String} {d : Diagnostic} (hd : d ∈ analyze source)
    {n : Nat} (hn : n ∈ d.line) :
    ∃ f ∈ findings source.toList, f.diagnostic = d ∧ Shows source.toList n f.word := by
  obtain ⟨f, hf, rfl⟩ := List.mem_map.mp hd
  exact ⟨f, hf, rfl, shows_of_mem_findings hf (Diagnostic.mem_of_mem_line_atLine? hn)⟩

/-! ## All anchors of a text -/

/-- What is promised of the anchors that the built-in analyzers give a text. -/
structure WellAnchored (source : String) : Prop where
  /-- Every anchor is the number of a line. -/
  inText : ∀ kind, ∀ d ∈ (Analyzer.builtIn kind).analyze source, ∀ n ∈ d.line,
    1 ≤ n ∧ n ≤ (Text.splitLines source.toList).length
  /-- In a build configuration it is a meaningful line unless a tab was found, and a header, an
  opener or a directive unless the header is not in its place. -/
  buildconf : ∀ d ∈ Buildconf.analyze source, ∀ n ∈ d.line,
    ∃ line ∈ Buildconf.Line.ofText source.toList, line.number = n ∧
      (d.code ≠ some "B090" → line.isMeaningful = true ∧
        (d.code ≠ some "B001" → line.isStructural = true))
  /-- In a C source it is a line that is not blank, with the variable on it that is not used, and
  with the call of `printf` on it that is not ended or not flushed. -/
  c : ∀ d ∈ CSource.analyze source, ∀ n ∈ d.line,
    ∃ line, (Text.splitLines source.toList)[n - 1]? = some line ∧ Text.isAllBlank line = false ∧
      (d.code = some "C009" → ∃ name : String,
        d.message = "C: unused variable \"" ++ name ++ "\"." ∧ name.toList <:+: line) ∧
      (d.code = some "C012" ∨ d.code = some "C018" → "printf".toList <:+: line)
  /-- There is one marker for every anchored diagnostic, in the same order, on its line and as long
  as that line. -/
  markers : ∀ kind, List.Forall₂ (Marker.Draws source.toList)
    (((Analyzer.builtIn kind).analyze source).filter (·.line.isSome))
    (Marker.ofDiagnostics (.ofText source) ((Analyzer.builtIn kind).analyze source))

/-- Every anchor is the number of a line. -/
theorem exists_isLine_of_mem_analyze {source : String} {kind : SourceKind} {d : Diagnostic}
    (hd : d ∈ (Analyzer.builtIn kind).analyze source) {n : Nat} (hn : n ∈ d.line) :
    ∃ line, IsLine source.toList n line := by
  cases kind with
  | c =>
    dsimp only [Analyzer.builtIn] at hd
    obtain ⟨_, _, _, line, there, _⟩ := CSource.shows_of_mem_analyze hd hn
    exact ⟨line, there⟩
  | buildconf =>
    dsimp only [Analyzer.builtIn] at hd
    obtain ⟨line, there, rfl, -⟩ := Buildconf.line_of_mem_analyze hd hn
    exact ⟨line.raw, Buildconf.isLine_of_mem_ofText there⟩

/-- What the line of a diagnostic of a C source shows, by its code. -/
theorem CSource.line_of_mem_analyze {source : String} {d : Diagnostic} (hd : d ∈ analyze source)
    {n : Nat} (hn : n ∈ d.line) :
    ∃ line, (Text.splitLines source.toList)[n - 1]? = some line ∧ Text.isAllBlank line = false ∧
      (d.code = some "C009" → ∃ name : String,
        d.message = "C: unused variable \"" ++ name ++ "\"." ∧ name.toList <:+: line) ∧
      (d.code = some "C012" ∨ d.code = some "C018" → "printf".toList <:+: line) := by
  obtain ⟨f, -, rfl, line, there, solid, word⟩ := shows_of_mem_analyze hd hn
  have ruled : ∀ r : Rule, f.diagnostic.code = some r.code → f.rule = r := by
    intro r coded
    exact Rule.code_injective (Option.some.inj coded)
  refine ⟨line, there.2, solid, ?_, ?_⟩
  · intro coded
    have rule := ruled .unusedVariable coded
    cases f <;> cases rule
    exact ⟨_, rfl, word⟩
  · rintro (coded | coded)
    · have rule := ruled .unendedOutput coded
      cases f <;> cases rule
      exact word
    · have rule := ruled .unflushedOutput coded
      cases f <;> cases rule
      exact word

/-- **Anchors are places**: of every text, each diagnostic about a line is about a line that is
there and that fits what is said of it, and its marker is drawn on that line. -/
theorem wellAnchored (source : String) : WellAnchored source where
  inText := by
    intro kind d hd n hn
    obtain ⟨line, there⟩ := exists_isLine_of_mem_analyze hd hn
    exact ⟨there.1, there.le_length⟩
  buildconf := fun _ hd _ hn => Buildconf.line_of_mem_analyze hd hn
  c := fun _ hd _ hn => CSource.line_of_mem_analyze hd hn
  markers := fun _ => Marker.draws_ofDiagnostics fun _ hd _ hn => exists_isLine_of_mem_analyze hd hn

end LiveLint
