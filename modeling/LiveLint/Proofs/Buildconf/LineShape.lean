import LiveLint.Proofs.Buildconf.LineGrammar

/-!
# What lines of a kind look like

The grammar fixes what a trimmed line of a kind is. `LineKind.Shape` keeps of it what shows from
outside, and `exists_shape` is what a line looks like behind its indentation. Comments and closers
are known by their shape alone.
-/

namespace LiveLint.Buildconf

/-! ## Trimmed lines -/

/-- A trimmed line of the kind. -/
inductive LineKind.Shape : LineKind → List Char → Prop
  | blank : Shape .blank []
  | comment (rest) : Shape .comment (';' :: ';' :: rest)
  | header {valid after} (asks : asksVersionFour after = valid) :
      Shape (.header valid) ('!' :: 'm' :: 'u' :: 'f' :: after)
  | opener {tag name inner} (rest) (nonempty : inner ≠ []) (none : ']' ∉ inner) :
      Shape (.opener tag name) ('[' :: (inner ++ ']' :: rest))
  | closer : Shape .closer ['.', '.']
  | directive {c name rest after} (first : isNameStart c = true)
      (behind : after = [] ∨ startsBlank after = true) :
      Shape (.directive (String.ofList (c :: name)) rest) ('.' :: c :: (name ++ after))
  | text (t) : Shape .text t

/-- What has a form has the shape of it. -/
theorem LineKind.Form.shape {kind : LineKind} {t : List Char} (h : kind.Form t) :
    kind.Shape t := by
  cases h with
  | blank => exact .blank
  | comment note => exact .comment note
  | header asks => exact .header (Bool.eq_iff_iff.mpr (asksVersionFour_iff.trans asks.symm))
  | closer => exact .closer
  | @opener tag middle _ rest tagged run between named =>
    have inside : ']' ∉ tag ++ middle := by
      intro mem
      rcases List.mem_append.mp mem with mem | mem
      · cases run.all ']' mem
      · exact between.inside mem
    rw [← List.append_assoc]
    exact .opener rest (List.append_ne_nil_of_left_ne_nil tagged middle) inside
  | @directive c name after first run behind =>
    refine .directive first ?_
    rw [← List.isEmpty_iff, ← Bool.or_eq_true]
    exact behind_iff.mpr behind

theorem shape_ofTrimmed (t : List Char) : (LineKind.ofTrimmed t).Shape t := by
  rcases LineKind.form_ofTrimmed t with text | form
  · rw [text]
    exact .text t
  · exact form.shape

/-! ## Lines without their indentation -/

section Line

variable {line : List Char}

/-- A line is indented, has the shape of its kind, and ends in blanks. -/
theorem exists_shape (line : List Char) :
    ∃ t gap, Text.isAllBlank gap = true ∧ Text.trimStart line = t ++ gap ∧
      (LineKind.ofLine line).Shape t := by
  obtain ⟨gap, blank, parts⟩ := Text.exists_gap_trim line
  exact ⟨Text.trim line, gap, blank, parts, shape_ofTrimmed _⟩

/-- A word without blanks opens what a line says if it opens the line without its indentation. -/
theorem isPrefix_trim {word : List Char} (solid : ∀ c ∈ word, Text.isBlank c = false)
    (h : word <+: Text.trimStart line) : word <+: Text.trim line := by
  obtain ⟨gap, blank, parts⟩ := Text.exists_gap_trim line
  rw [parts] at h
  rcases List.prefix_or_prefix_of_prefix h (List.prefix_append _ gap) with inside | ⟨more, rfl⟩
  · exact inside
  · -- what the word has beyond is blank, so there is nothing
    cases more with
    | nil => simp
    | cons c more =>
      obtain ⟨after, parts'⟩ := h
      rw [List.append_assoc] at parts'
      have mem : c ∈ gap := by
        rw [← List.append_cancel_left parts']
        simp
      have := List.all_eq_true.mp blank c mem
      rw [solid c (by simp)] at this
      cases this

/-- A comment is known by its two semicolons. -/
theorem ofLine_eq_comment_iff :
    LineKind.ofLine line = .comment ↔ ∃ rest, Text.trimStart line = ';' :: ';' :: rest := by
  constructor
  · intro kind
    obtain ⟨t, gap, -, parts, shape⟩ := exists_shape line
    rw [kind] at shape
    cases shape with
    | comment rest => exact ⟨rest ++ gap, parts⟩
  · rintro ⟨rest, text⟩
    have opens : [';', ';'] <+: Text.trimStart line := ⟨rest, text.symm⟩
    obtain ⟨rest', whole⟩ := isPrefix_trim (by decide) opens
    rw [LineKind.ofLine, ← whole]
    rfl

/-- A closer is known by its two points and nothing else. -/
theorem ofLine_eq_closer_iff :
    LineKind.ofLine line = .closer ↔
      ∃ gap, Text.trimStart line = '.' :: '.' :: gap ∧ Text.isAllBlank gap = true := by
  constructor
  · intro kind
    obtain ⟨t, gap, blank, parts, shape⟩ := exists_shape line
    rw [kind] at shape
    cases shape with
    | closer => exact ⟨gap, parts, blank⟩
  · rintro ⟨gap, text, blank⟩
    have dots : Text.trim line = ['.', '.'] := by
      rw [Text.trim, text]
      exact Text.trimEnd_append_of_blank (List.all_eq_true.mp blank) ['.', '.']
    rw [LineKind.ofLine, dots]
    rfl

theorem exists_of_opener {tag : String} {name : Option String}
    (kind : LineKind.ofLine line = .opener tag name) :
    ∃ inner rest, Text.trimStart line = '[' :: (inner ++ ']' :: rest) ∧ inner ≠ [] ∧
      ']' ∉ inner := by
  obtain ⟨t, gap, -, parts, shape⟩ := exists_shape line
  rw [kind] at shape
  cases shape with
  | @opener _ _ inner rest nonempty none =>
    refine ⟨inner, rest ++ gap, ?_, nonempty, none⟩
    rw [parts, List.cons_append, List.append_assoc, List.cons_append]

/-- A valid header has blanks between its mark and the version, and behind the version. -/
theorem exists_of_valid_header (kind : LineKind.ofLine line = .header true) :
    ∃ gap gap', Text.trimStart line = '!' :: 'm' :: 'u' :: 'f' :: (gap ++ '4' :: gap') ∧
      gap ≠ [] ∧ Text.isAllBlank gap = true ∧ Text.isAllBlank gap' = true := by
  obtain ⟨t, gap', blank', parts, shape⟩ := exists_shape line
  rw [kind] at shape
  cases shape with
  | @header _ after asks =>
    obtain ⟨gap, apart, blank, said⟩ := asksVersionFour_iff.mp asks
    refine ⟨gap, gap', ?_, apart, blank, blank'⟩
    rw [parts, said]
    simp

theorem exists_of_directive {name rest : String}
    (kind : LineKind.ofLine line = .directive name rest) :
    ∃ after, Text.trimStart line = '.' :: (name.toList ++ after) ∧ name.toList ≠ [] ∧
      ∀ c ∈ after.head?, Text.isBlank c = true := by
  obtain ⟨t, gap, blank, parts, shape⟩ := exists_shape line
  rw [kind] at shape
  cases shape with
  | @directive c name _ after first behind =>
    rw [String.toList_ofList]
    refine ⟨after ++ gap, ?_, by simp, ?_⟩
    · rw [parts]
      simp
    · intro d hd
      cases after with
      | nil => exact List.all_eq_true.mp blank d (List.mem_of_mem_head? hd)
      | cons a after =>
        cases hd
        exact behind.resolve_left (by simp)

end Line

end LiveLint.Buildconf
