import LiveLint.Proofs.Buildconf.LineText
import LiveLint.Proofs.Language.Rules
import LiveLint.Proofs.Language.Sweep

/-!
# What is found in a line of a build configuration

Five of the rules look behind the indentation of a line, so what they find is told by the line
without it. The two others look for a point before a name and for a number, wherever they stand.
`Finds` has one constructor for each rule; whatever is found is one of them
(`finds_of_mem_found`), and the lemmas after it say which of them are found for certain.
-/

namespace LiveLint

namespace Text

/-! ## Indentation -/

/-- How many blanks a line starts with. -/
def indent (line : List Char) : Nat :=
  (line.takeWhile isBlank).length

theorem exists_indent (line : List Char) :
    ∃ gap, isAllBlank gap = true ∧ line = gap ++ trimStart line ∧ indent line = gap.length :=
  ⟨line.takeWhile isBlank, List.all_takeWhile, List.takeWhile_append_dropWhile.symm, rfl⟩

section Gap

variable {gap r : List Char} {c : Char}

theorem trimStart_of_gap (blank : isAllBlank gap = true) (solid : isBlank c = false) :
    trimStart (gap ++ c :: r) = c :: r := by
  refine dropWhile_append_stop (List.all_eq_true.mp blank) ?_
  rintro d ⟨⟩
  exact solid

theorem indent_of_gap (blank : isAllBlank gap = true) (solid : isBlank c = false) :
    indent (gap ++ c :: r) = gap.length := by
  rw [indent, takeWhile_append_stop (List.all_eq_true.mp blank)]
  rintro d ⟨⟩
  exact solid

end Gap

end Text

namespace Language

open Pattern

/-! ## Behind the indentation -/

section Initial

variable {rule : HighlightRule} {line : List Char} {span : Nat × Nat}

/-- A rule that marks one span, and only from the start of a line on, finds that. -/
theorem mem_spans_iff_of_initial {P : Nat × Nat → Prop} (span : Nat × Nat)
    (plain : rule.isPlain = true)
    (initial : ∀ place s, rule.Marks place s → place.position = 0)
    (marks : ∀ s, rule.Marks (Place.start line) s ↔ P s) (only : ∀ s s', P s → P s' → s = s') :
    span ∈ rule.spans line ↔ P span := by
  rw [← marks]
  constructor
  · intro found
    obtain ⟨w, place, reads, here⟩ := exists_marks_of_mem_spans found
    rw [reads.eq_of_position (Place.reads_nil _) (initial place span here)] at here
    exact here
  · intro here
    refine mem_spans_of_marks plain (Place.reads_nil _) here ?_ ?_
    · exact fun s there => only s span ((marks s).mp there) ((marks span).mp here)
    · intro v b inside proper
      exact absurd (List.prefix_nil.mp inside) proper

/-- A word is read behind blanks where the line without its indentation starts with it. -/
theorem exists_reads_gap_iff (line : List Char) {c : Char} (w : List Char)
    (solid : Text.isBlank c = false) {P : Nat → List Char → Prop} :
    (∃ gap d, Text.isAllBlank gap = true ∧ (Place.start line).Reads (gap ++ c :: w) d ∧
        P gap.length d.rest) ↔
      ∃ rest, Text.trimStart line = c :: (w ++ rest) ∧ P (Text.indent line) rest := by
  constructor
  · rintro ⟨gap, d, blank, reads, holds⟩
    have text : line = gap ++ c :: (w ++ d.rest) := by
      rw [← List.cons_append, ← List.append_assoc]
      exact reads.rest
    rw [text, Text.trimStart_of_gap blank solid, Text.indent_of_gap blank solid]
    exact ⟨d.rest, rfl, holds⟩
  · rintro ⟨rest, text, holds⟩
    obtain ⟨gap, blank, parts, length⟩ := Text.exists_indent line
    rw [text, ← List.cons_append, ← List.append_assoc] at parts
    obtain ⟨d, reads, rest'⟩ := Place.exists_reads (a := Place.start line) parts
    rw [length, ← rest'] at holds
    exact ⟨gap, d, blank, reads, holds⟩

theorem mem_spans_headerMark_iff :
    span ∈ headerMark.spans line ↔
      ∃ rest, Text.trimStart line = '!' :: 'm' :: 'u' :: 'f' :: rest ∧
        Text.isBoundary (some 'f') rest.head? = true ∧
        span = (Text.indent line, Text.indent line + 4) := by
  apply mem_spans_iff_of_initial span
  · decide
  · exact fun _ _ h => (marks_headerMark_iff.mp h).1
  · intro s
    exact (marks_headerMark_iff.trans (and_iff_right rfl)).trans
      (exists_reads_gap_iff line _ (by decide)
        (P := fun n rest => Text.isBoundary (some 'f') rest.head? = true ∧ s = (n, n + 4)))
  · rintro _ _ ⟨_, -, -, rfl⟩ ⟨_, -, -, rfl⟩
    rfl

theorem takeWhile_bracket {inner : List Char} (none : ']' ∉ inner) (rest : List Char) :
    (inner ++ ']' :: rest).takeWhile (· != ']') = inner := by
  refine Text.takeWhile_append_stop (fun c hc => bne_iff_ne.mpr ?_) ?_
  · rintro rfl
    exact none hc
  · rintro c ⟨⟩
    rfl

/-- The first closing bracket is known from the text. -/
theorem eq_of_bracket {inner inner' rest rest' : List Char} (none : ']' ∉ inner)
    (none' : ']' ∉ inner') (same : inner ++ ']' :: rest = inner' ++ ']' :: rest') :
    inner = inner' := by
  rw [← takeWhile_bracket none rest, same, takeWhile_bracket none']

theorem mem_spans_blockTag_iff :
    span ∈ blockTag.spans line ↔
      ∃ inner rest, Text.trimStart line = '[' :: (inner ++ ']' :: rest) ∧ inner ≠ [] ∧
        ']' ∉ inner ∧ span = (Text.indent line, Text.indent line + (inner.length + 2)) := by
  have word : ∀ (inner : List Char) (s : Nat × Nat), _ := fun inner s =>
    exists_reads_gap_iff line (c := '[') (inner ++ [']']) (by decide)
      (P := fun n _ => s = (n, n + (inner.length + 2)))
  apply mem_spans_iff_of_initial span
  · decide
  · exact fun _ _ h => (marks_blockTag_iff.mp h).1
  · intro s
    rw [marks_blockTag_iff]
    constructor
    · rintro ⟨-, gap, inner, d, blank, nonempty, none, reads, span⟩
      obtain ⟨rest, text, span⟩ := (word inner s).mp ⟨gap, d, blank, reads, span⟩
      rw [List.append_assoc] at text
      exact ⟨inner, rest, text, nonempty, none, span⟩
    · rintro ⟨inner, rest, text, nonempty, none, span⟩
      have text : Text.trimStart line = '[' :: (inner ++ [']'] ++ rest) := by
        rw [text, List.append_assoc]
        rfl
      obtain ⟨gap, d, blank, reads, span⟩ := (word inner s).mpr ⟨rest, text, span⟩
      exact ⟨rfl, gap, inner, d, blank, nonempty, none, reads, span⟩
  · rintro _ _ ⟨inner, rest, text, -, none, rfl⟩ ⟨inner', rest', text', -, none', rfl⟩
    rw [eq_of_bracket none none' (List.cons.inj (text.symm.trans text')).2]

theorem mem_spans_commentLine_iff :
    span ∈ commentLine.spans line ↔
      ∃ rest, Text.trimStart line = ';' :: ';' :: rest ∧ '\n' ∉ rest ∧
        span = (0, line.length) := by
  apply mem_spans_iff_of_initial span
  · decide
  · exact fun _ _ h => (marks_commentLine_iff.mp h).1
  · intro s
    rw [marks_commentLine_iff]
    constructor
    · rintro ⟨-, gap, w, blank, none, text, span⟩
      have text : line = gap ++ ';' :: ';' :: w := text.trans (List.append_assoc ..)
      refine ⟨w, ?_, none, span⟩
      rw [text]
      exact Text.trimStart_of_gap blank (by decide)
    · rintro ⟨w, text, none, span⟩
      obtain ⟨gap, blank, parts, -⟩ := Text.exists_indent line
      rw [text] at parts
      have text : line = gap ++ [';', ';'] ++ w :=
        parts.trans (List.append_assoc gap [';', ';'] w).symm
      exact ⟨rfl, gap, w, blank, none, text, span⟩
  · rintro _ _ ⟨_, -, -, rfl⟩ ⟨_, -, -, rfl⟩
    rfl

theorem mem_spans_blockCloser_iff :
    span ∈ blockCloser.spans line ↔
      ∃ gap, Text.trimStart line = '.' :: '.' :: gap ∧ Text.isAllBlank gap = true ∧
        span = (Text.indent line, Text.indent line + 2) := by
  apply mem_spans_iff_of_initial span
  · decide
  · exact fun _ _ h => (marks_blockCloser_iff.mp h).1
  · intro s
    exact (marks_blockCloser_iff.trans (and_iff_right rfl)).trans
      (exists_reads_gap_iff line _ (by decide)
        (P := fun n rest => Text.isAllBlank rest = true ∧ s = (n, n + 2)))
  · rintro _ _ ⟨_, -, -, rfl⟩ ⟨_, -, -, rfl⟩
    rfl

end Initial

/-! ## Anywhere in the line -/

section Anywhere

variable {line before rest : List Char} {span : Nat × Nat}

/-- What a rule marks somewhere in a line starts behind what was read before. -/
theorem exists_split_of_mem_spans {rule : HighlightRule} (h : span ∈ rule.spans line) :
    ∃ before place, line = before ++ place.rest ∧ before.length = place.position ∧
      rule.Marks place span := by
  obtain ⟨w, place, reads, marks⟩ := exists_marks_of_mem_spans h
  have position : place.position = w.length := reads.position.trans (Nat.zero_add _)
  exact ⟨w, place, reads.rest, position.symm, marks⟩

/-- A rule without a group finds no two spans with one start. -/
theorem eq_of_mem_spans {rule : HighlightRule} (group : rule.group = none) {span' : Nat × Nat}
    (h : span ∈ rule.spans line) (h' : span' ∈ rule.spans line) (same : span.1 = span'.1) :
    span = span' := by
  obtain ⟨m, found, here⟩ := List.mem_filterMap.mp h
  obtain ⟨m', found', here'⟩ := List.mem_filterMap.mp h'
  rw [group] at here here'
  cases here
  cases here'
  rw [eq_of_mem_allMatches found found' same]

/-- Before the end of a text, one of its characters is next. -/
theorem exists_next {v : List Char} {b : Place} (reads : (Place.start line).Reads v b)
    (text : line = before ++ rest) (inside : v <+: before) (proper : v ≠ before) :
    ∃ c ∈ before, ∃ r, b.rest = c :: r := by
  obtain ⟨u, rfl⟩ := inside
  cases u with
  | nil => exact absurd (List.append_nil v).symm proper
  | cons c u =>
    refine ⟨c, by simp, u ++ rest, ?_⟩
    have parts : v ++ b.rest = v ++ (c :: u ++ rest) := by
      rw [← List.append_assoc, ← text]
      exact reads.rest.symm
    exact List.append_cancel_left parts

/-- The first point of a line is found with the whole name after it. -/
theorem mem_spans_directiveName {name : List Char} (text : line = before ++ '.' :: (name ++ rest))
    (first : '.' ∉ before) (nonempty : name ≠ []) (letters : ∀ c ∈ name, isNameLetter c = true)
    (stop : ∀ c ∈ rest.head?, isNameLetter c = false) :
    (before.length, before.length + (name.length + 1)) ∈ directiveName.spans line := by
  obtain ⟨place, reads, rest'⟩ := Place.exists_reads (a := Place.start line) text
  obtain ⟨b, further, rest''⟩ := Place.exists_reads (w := '.' :: name) rest'
  obtain ⟨m, here, final⟩ : ∃ m, directiveName.pattern.matchAt? place = some m ∧
      m.final.place = b := by
    rw [directiveName_pattern]
    refine exists_matchAt?_of_run (charClass_holds_iff.mpr rfl) nonempty ?_ further ?_
    · simpa only [nameLetter_holds] using letters
    · rw [rest'']
      simpa only [nameLetter_holds] using stop
  have plain : directiveName.isPlain = true := by decide
  have found : m ∈ directiveName.pattern.allMatches line := by
    refine mem_allMatches_of_first reads here fun v b inside proper reads => ?_
    obtain ⟨c, mem, r, next⟩ := exists_next reads text inside proper
    apply Option.eq_none_iff_forall_ne_some.mpr
    intro m' here'
    obtain ⟨-, way⟩ := way_of_matchAt? here'
    obtain ⟨s, marked⟩ := exists_marks_of_way plain way
    obtain ⟨_, _, -, -, reads', -⟩ := marks_directiveName_iff.mp ⟨_, way, marked⟩
    obtain ⟨rfl, -⟩ := List.cons.inj (next.symm.trans reads'.rest)
    exact first mem
  refine List.mem_filterMap.mpr ⟨m, found, ?_⟩
  have start : m.start = before.length := by
    rw [(way_of_matchAt? here).1, reads.position]
    exact Nat.zero_add _
  have stop : m.stop = before.length + (name.length + 1) := by
    rw [Match.stop, State.position, final, further.position, reads.position]
    exact congrArg (· + _) (Nat.zero_add _)
  show some (m.start, m.stop) = _
  rw [start, stop]

/-- A digit that is the first of a line and stands alone is found. -/
theorem mem_spans_wholeNumber {d : Char} (text : line = before ++ d :: rest)
    (digit : Text.isDigit d = true) (first : ∀ c ∈ before, Text.isDigit c = false)
    (left : Text.isBoundary before.getLast? (some d) = true)
    (right : Text.isBoundary (some d) rest.head? = true)
    (stop : ∀ c ∈ rest.head?, Text.isDigit c = false) :
    (before.length, before.length + 1) ∈ wholeNumber.spans line := by
  obtain ⟨place, reads, rest'⟩ := Place.exists_reads (a := Place.start line) text
  obtain ⟨b, further, rest''⟩ := Place.exists_reads (w := [d]) rest'
  have position : place.position = before.length := reads.position.trans (Nat.zero_add _)
  have before' : place.before = before.getLast? := by
    rw [reads.before]
    exact Option.or_none
  refine mem_spans_of_marks (by decide) reads ?_ ?_ ?_
  · refine marks_wholeNumber_iff.mpr ⟨[d], b, by simp, by simpa using digit, further, ?_, ?_, ?_⟩
    · rw [before']
      exact left
    · rw [rest'']
      exact right
    · rw [position]
      rfl
  · rintro s marks
    obtain ⟨number, e, nonempty, digits, run, -, -, rfl⟩ := marks_wholeNumber_iff.mp marks
    have parts : d :: rest = number ++ e.rest := rest'.symm.trans run.rest
    -- the run is over after the first digit
    obtain rfl : number = [d] := by
      match number, nonempty with
      | [c], _ => rw [(List.cons.inj parts).1]
      | c :: c' :: number, _ =>
        have next : rest.head? = some c' := by
          rw [(List.cons.inj parts).2]
          rfl
        have more := digits c' (by simp)
        rw [stop c' next] at more
        cases more
    rw [position]
    rfl
  · intro v b inside proper reads s marks
    obtain ⟨c, mem, r, next⟩ := exists_next reads text inside proper
    obtain ⟨number, e, nonempty, digits, run, -⟩ := marks_wholeNumber_iff.mp marks
    match number, nonempty with
    | c' :: number, _ =>
      obtain ⟨rfl, -⟩ := List.cons.inj (next.symm.trans run.rest)
      have earlier := digits c List.mem_cons_self
      rw [first c mem] at earlier
      cases earlier

end Anywhere

/-! ## What is found -/

/-- The rules of build configurations find this in the line. -/
inductive Finds (line : List Char) : Found → Prop
  | header {rest} (text : Text.trimStart line = '!' :: 'm' :: 'u' :: 'f' :: rest) :
      Finds line ⟨Text.indent line, 0, Text.indent line + 4, .keyword⟩
  | tag {inner rest} (text : Text.trimStart line = '[' :: (inner ++ ']' :: rest))
      (none : ']' ∉ inner) :
      Finds line ⟨Text.indent line, 1, Text.indent line + (inner.length + 2), .tag⟩
  | comment {rest} (text : Text.trimStart line = ';' :: ';' :: rest) :
      Finds line ⟨0, 2, line.length, .comment⟩
  | quoted {before rest stop} (text : line = before ++ '"' :: rest) :
      Finds line ⟨before.length, 3, stop, .string⟩
  | closer {gap} (text : Text.trimStart line = '.' :: '.' :: gap)
      (blank : Text.isAllBlank gap = true) :
      Finds line ⟨Text.indent line, 4, Text.indent line + 2, .delimiter⟩
  | name {before name rest} (text : line = before ++ '.' :: (name ++ rest)) (nonempty : name ≠ [])
      (letters : ∀ c ∈ name, isNameLetter c = true) :
      Finds line ⟨before.length, 5, before.length + (name.length + 1), .keyword⟩
  | number {before c number rest} (text : line = before ++ c :: (number ++ rest))
      (digits : ∀ d ∈ c :: number, Text.isDigit d = true) :
      Finds line ⟨before.length, 6, before.length + (number.length + 1), .number⟩

section Finds

variable {line : List Char}

/-- **Nothing else is found.** -/
theorem finds_of_mem_found {f : Found} (h : f ∈ Profile.buildconf.highlighter.found line) :
    Finds line f := by
  obtain ⟨rule, there, span, kind⟩ := Highlighter.mem_found_iff.mp h
  obtain ⟨start, index, stop, _⟩ := f
  cases kind
  match index, there with
  | 0, rfl =>
    obtain ⟨rest, text, -, same⟩ := mem_spans_headerMark_iff.mp span
    cases same
    exact .header text
  | 1, rfl =>
    obtain ⟨inner, rest, text, -, none, same⟩ := mem_spans_blockTag_iff.mp span
    cases same
    exact .tag text none
  | 2, rfl =>
    obtain ⟨rest, text, -, same⟩ := mem_spans_commentLine_iff.mp span
    cases same
    exact .comment text
  | 3, rfl =>
    obtain ⟨before, place, text, position, marks⟩ := exists_split_of_mem_spans span
    obtain ⟨⟨rest, quote⟩, same⟩ := rest_of_marks_quotedText marks
    rw [quote] at text
    cases position.trans same.symm
    exact .quoted text
  | 4, rfl =>
    obtain ⟨gap, text, blank, same⟩ := mem_spans_blockCloser_iff.mp span
    cases same
    exact .closer text blank
  | 5, rfl =>
    obtain ⟨before, place, text, position, marks⟩ := exists_split_of_mem_spans span
    obtain ⟨name, d, nonempty, letters, reads, same⟩ := marks_directiveName_iff.mp marks
    rw [reads.rest] at text
    rw [← position] at same
    cases same
    exact .name text nonempty letters
  | 6, rfl =>
    obtain ⟨before, place, text, position, marks⟩ := exists_split_of_mem_spans span
    obtain ⟨number, d, nonempty, digits, reads, -, -, same⟩ := marks_wholeNumber_iff.mp marks
    rw [reads.rest] at text
    rw [← position] at same
    cases same
    match number, nonempty with
    | c :: number, _ => exact .number text digits

/-- Whether what the rule with this number finds can start with the character. -/
def canOpen (rule : Nat) (c : Char) : Bool :=
  match rule with
  | 0 => c == '!'
  | 1 => c == '['
  | 2 => c == ';'
  | 3 => c == '"'
  | 4 | 5 => c == '.'
  | 6 => Text.isDigit c
  | _ => false

/-- Two characters of a line that are not blank, the second the first of them. -/
theorem start_cases {before rest t : List Char} {c d : Char} (text : line = before ++ c :: rest)
    (solid : Text.isBlank c = false) (trimmed : Text.trimStart line = d :: t) :
    (before.length = Text.indent line ∧ c = d) ∨
      (Text.indent line < before.length ∧ before.length < line.length) := by
  obtain ⟨gap, blank, parts, length⟩ := Text.exists_indent line
  have short : before.length < line.length := by
    rw [text, List.length_append, List.length_cons]
    omega
  rw [trimmed, text] at parts
  rw [length]
  rcases List.append_eq_append_iff.mp parts with ⟨more, rfl, tail⟩ | ⟨more, rfl, tail⟩
  · cases more with
    | nil => exact .inl ⟨by rw [List.append_nil], (List.cons.inj tail).1⟩
    | cons e more =>
      obtain ⟨rfl, -⟩ := List.cons.inj tail
      have := List.all_eq_true.mp blank c (by simp)
      rw [solid] at this
      cases this
  · cases more with
    | nil => exact .inl ⟨by rw [List.append_nil], (List.cons.inj tail).1.symm⟩
    | cons e more =>
      refine .inr ⟨?_, short⟩
      rw [List.length_append, List.length_cons]
      omega

/-- What is found starts behind the first character of a line that is not blank, unless it can start
with that. -/
theorem Finds.later_or_canOpen {f : Found} (h : Finds line f) {d : Char} {t : List Char}
    (trimmed : Text.trimStart line = d :: t) :
    (Text.indent line < f.start ∧ f.start < line.length) ∨ canOpen f.rule d = true := by
  cases h with
  | header text | tag text | comment text | closer text =>
    obtain ⟨rfl, -⟩ := List.cons.inj (trimmed.symm.trans text)
    exact .inr rfl
  | quoted text =>
    rcases start_cases text (by decide) trimmed with ⟨-, rfl⟩ | later
    · exact .inr rfl
    · exact .inl later
  | name text =>
    rcases start_cases text (by decide) trimmed with ⟨-, rfl⟩ | later
    · exact .inr rfl
    · exact .inl later
  | @number before c _ _ text digits =>
    have digit := digits c List.mem_cons_self
    rcases start_cases text (Text.isBlank_of_isDigit digit) trimmed with ⟨-, rfl⟩ | later
    · exact .inr digit
    · exact .inl later

end Finds

end Language

end LiveLint
