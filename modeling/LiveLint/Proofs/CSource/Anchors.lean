import LiveLint.CSource.Check
import LiveLint.Proofs.CSource.Words
import LiveLint.Proofs.Lines

/-!
# Where findings about a C source stand

Some findings are about a line: of a declared name, of the first call of `printf`, or simply the
line that was looked at. The former are found at a position of the whole text, which is turned into
a line only afterwards; `line_of_mem_findings` says that this line is there, that it is not blank,
and that it has the word that the finding is about.

Every position that a check reports is one of the `places` of the text, so it is enough to know
what stands on the line of a place (`isLine_of_mem_places`).
-/

namespace LiveLint.CSource

open Text (IsLine restOfLine)

/-! ## Places -/

/-- A place stands behind as many line feeds as the number of its line says. -/
theorem mem_placesFrom {p : Place} {afterWord : Bool} {cs : List Char} (before : List Char)
    (h : p ∈ placesFrom afterWord (before.count '\n' + 1) cs) :
    ∃ front, before ++ cs = front ++ p.text ∧ p.line = front.count '\n' + 1 ∧
      ∃ c r, p.text = c :: r ∧ Text.isBlank c = false := by
  induction cs generalizing afterWord before with
  | nil => cases h
  | cons c r ih =>
    have later : p ∈ placesFrom (Text.isWord c) (before.count '\n' + 1 + [c].count '\n') r →
        ∃ front, before ++ c :: r = front ++ p.text ∧ p.line = front.count '\n' + 1 ∧
          ∃ d s, p.text = d :: s ∧ Text.isBlank d = false := by
      intro h
      rw [Nat.add_right_comm, ← List.count_append] at h
      obtain ⟨front, whole, rest⟩ := ih (before ++ [c]) h
      rw [List.append_assoc, List.singleton_append] at whole
      exact ⟨front, whole, rest⟩
    rw [placesFrom] at h
    split at h
    · exact later h
    · next solid =>
      rcases List.mem_cons.mp h with rfl | h
      · exact ⟨before, rfl, rfl, c, r, rfl, by simpa using solid⟩
      · exact later h

/-- What a line has to be for a finding about a word: there, not blank, and with the word on it. -/
def Shows (cs : List Char) (n : Nat) (word : List Char) : Prop :=
  ∃ line, IsLine cs n line ∧ Text.isAllBlank line = false ∧ word <:+: line

/-- The line of a position shows any word that the text from there on opens with. -/
theorem shows_of_isPrefix {front text word : List Char} {c : Char} {r : List Char}
    (shape : text = c :: r) (solid : Text.isBlank c = false) (opens : word <+: text)
    (inside : '\n' ∉ word) : Shows (front ++ text) (front.count '\n' + 1) word := by
  obtain ⟨start, there⟩ := Text.exists_isLine front text
  refine ⟨start ++ restOfLine text, there, ?_, ?_⟩
  · have first : c ∈ start ++ restOfLine text := by
      have unfed : '\n' ∉ [c] := by
        rw [List.mem_singleton]
        rintro rfl
        cases solid
      have opening : [c] <+: restOfLine text :=
        Text.isPrefix_restOfLine (shape ▸ List.prefix_append [c] r) unfed
      exact List.mem_append_right _ (opening.subset List.mem_cons_self)
    rw [Text.isAllBlank, List.all_eq_false]
    exact ⟨c, first, by simp [solid]⟩
  · exact (Text.isPrefix_restOfLine opens inside).isInfix.trans (List.suffix_append _ _).isInfix

/-- The line of a place shows any word that the text from there on opens with. -/
theorem shows_of_mem_places {cs word : List Char} {p : Place} (h : p ∈ places cs)
    (opens : word <+: p.text) (inside : '\n' ∉ word) : Shows cs p.line word := by
  obtain ⟨front, whole, line, c, r, shape, solid⟩ := mem_placesFrom [] h
  rw [List.nil_append] at whole
  rw [whole, line]
  exact shows_of_isPrefix shape solid opens inside

/-! ## Calls and names -/

/-- The line of the first call of a function shows its name. -/
theorem shows_of_firstCallLine {cs : List Char} {name : String} {n : Nat}
    (firm : (Phrase.call name).isFirm = true) (inside : '\n' ∉ name.toList)
    (h : firstCallLine cs name = some n) : Shows cs n name.toList := by
  rw [firstCallLine, Phrase.map_lineAt_find? firm] at h
  obtain ⟨p, found, rfl⟩ := Option.map_eq_some_iff.mp h
  apply shows_of_mem_places (List.mem_of_find?_eq_some found) _ inside
  have starts := List.find?_some found
  rw [Phrase.startsAtPlace, Bool.and_eq_true] at starts
  -- the first part of a call is the name of the function
  obtain ⟨rest, read⟩ := Option.isSome_iff_exists.mp starts.2
  obtain ⟨after, named, -⟩ := Option.bind_eq_some_iff.mp ((readParts_cons _ _ _).symm.trans read)
  exact ⟨after, (Text.after?_eq_some_iff.mp named).symm⟩

/-- The line of a declared name shows it. -/
theorem shows_of_declares? {cs : List Char} {p : Place} {name : String} {n : Nat}
    (h : p ∈ wordPlaces cs) (declares : p.declares? = some (name, n)) :
    Shows cs n name.toList := by
  obtain ⟨front, whole, line, -⟩ := mem_placesFrom [] (List.mem_filter.mp h).1
  rw [Place.declares?] at declares
  set behind := p.text.dropWhile Text.isWord with hbehind
  obtain ⟨identifier, same⟩ := Option.ite_none_right_eq_some.mp declares
  rw [Bool.and_eq_true] at identifier
  have starts := isWord?_of_startsIdentifier identifier.2
  cases same
  -- the name stands behind the type and the blanks after it
  have cut : cs = front ++ p.word ++ behind.takeWhile Text.isBlank ++ Text.trimStart behind := by
    rw [List.append_assoc, Text.trimStart, List.takeWhile_append_dropWhile, List.append_assoc,
      Place.word, hbehind, List.takeWhile_append_dropWhile]
    exact whole
  have counted : p.line + (behind.takeWhile Text.isBlank).count '\n' =
      (front ++ p.word ++ behind.takeWhile Text.isBlank).count '\n' + 1 := by
    have unfed : p.word.count '\n' = 0 :=
      count_feeds_of_word fun c hc => List.mem_takeWhile_imp hc
    rw [List.count_append, List.count_append, unfed, line]
    omega
  rw [counted, String.toList_ofList]
  conv => arg 1; rw [cut]
  cases shape : Text.trimStart behind with
  | nil =>
    rw [shape] at starts
    cases starts
  | cons c r =>
    rw [shape] at starts
    refine shows_of_isPrefix rfl (Text.isBlank_of_isWord starts) (List.takeWhile_prefix _) ?_
    intro feed
    cases List.mem_takeWhile_imp feed

/-! ## Findings -/

/-- The word that the line of a finding shows. -/
def Finding.word : Finding → List Char
  | unusedVariable name _ => name.toList
  | unendedOutput _ | unflushedOutput _ => "printf".toList
  | _ => []

section Findings

variable {cs : List Char} {f : Finding} {n : Nat}

theorem shows_of_mem_variableFindings (hf : f ∈ variableFindings cs) (hn : n ∈ f.line) :
    Shows cs n f.word := by
  rw [variableFindings_eq] at hf
  obtain ⟨⟨name, line⟩, kept, rfl⟩ := List.mem_map.mp hf
  cases hn
  obtain ⟨p, hp, declares⟩ := List.mem_filterMap.mp (List.mem_filter.mp kept).1
  exact shows_of_declares? hp declares

theorem shows_of_mem_layoutFindings (hf : f ∈ layoutFindings cs) (hn : n ∈ f.line) :
    Shows cs n f.word := by
  obtain ⟨⟨line, number⟩, there, found⟩ := List.mem_flatMap.mp hf
  simp only [lineFindings] at found
  split at found
  · next code =>
    have solid : Text.isAllBlank line = false := by
      rw [Bool.eq_false_iff]
      intro blank
      rw [Text.isAllBlank_iff_trim.mp blank] at code
      cases code
    have shows : ∀ word, word = [] → Shows cs number word := by
      rintro word rfl
      exact ⟨line, Text.isLine_iff_mem_zipIdx.mpr there, solid, List.nil_infix⟩
    rcases List.mem_append.mp found with tab | semicolon
    · cases (mem_reportIf.mp tab).2
      cases hn
      exact shows _ rfl
    · cases (mem_reportIf.mp semicolon).2
      cases hn
      exact shows _ rfl
  · cases found

theorem shows_of_mem_callFindings (hf : f ∈ callFindings cs) (hn : n ∈ f.line) :
    Shows cs n f.word := by
  have call : firstCallLine cs "printf" = some n → Shows cs n "printf".toList :=
    shows_of_firstCallLine (by decide +kernel) (by decide +kernel)
  simp only [callFindings, List.mem_append, mem_reportIf] at hf
  rcases hf with ((((((⟨_, rfl⟩ | ⟨_, rfl⟩) | ⟨_, rfl⟩) | ⟨_, rfl⟩) | ⟨_, rfl⟩) | ⟨_, rfl⟩) |
    ⟨_, rfl⟩) | ⟨_, rfl⟩
  · exact call hn
  · cases hn
  · cases hn
  · cases hn
  · cases hn
  · cases hn
  · exact call hn
  · cases hn

/-- **A finding is about a line of the text** that is not blank and that shows its word. -/
theorem shows_of_mem_findings (hf : f ∈ findings cs) (hn : n ∈ f.line) : Shows cs n f.word := by
  rcases List.mem_append.mp hf with front | calls
  · rcases List.mem_append.mp front with front | layout
    · rcases List.mem_append.mp front with front | declared
      · -- the shape of the file and its headers are about no line
        simp only [shapeFindings, includeFindings, List.mem_append, mem_reportIf] at front
        rcases front with (((⟨_, rfl⟩ | ⟨_, rfl⟩) | ⟨_, rfl⟩) | ⟨_, rfl⟩) |
          (((⟨_, rfl⟩ | ⟨_, rfl⟩) | ⟨_, rfl⟩) | ⟨_, rfl⟩) <;> cases hn
      · exact shows_of_mem_variableFindings declared hn
    · exact shows_of_mem_layoutFindings layout hn
  · exact shows_of_mem_callFindings calls hn

end Findings

end LiveLint.CSource
