import LiveLint.Language.Profile
import LiveLint.Proofs.Pattern.Matches

/-!
# What colouring rules mark

A rule `Marks` a span from a place on if a way through its pattern does. What is found is marked
(`exists_marks_of_mem_spans`), and what is marked at the first place where anything is, and is the
only span there, is found (`mem_spans_of_marks`); this holds of the rules whose patterns repeat
nothing but classes. What the rules of build configurations mark is then said of the text alone:
three look for a group behind the indentation (`marks_behind_indent_iff`), and four mark all that
they read (`marks_whole_iff`).
-/

namespace LiveLint.Language

open Pattern

/-! ## Parts of patterns -/

/-- At least one blank. -/
def someBlanks : Pattern := .plus true (oneOf [.blank])

/-- At least one word character. -/
def someWord : Pattern := .plus true (oneOf [.word])

section Parts

variable {a b : Trail}

theorem charClass_holds_iff {c d : Char} : (charClass c).holds d = true ↔ d = c := by
  rw [charClass, CharClass.holds, List.any_cons, List.any_nil, Bool.or_false, Bool.bne_false]
  exact beq_iff_eq.trans eq_comm

theorem oneBut_holds_iff {cs : List Char} {d : Char} :
    (CharClass.mk true (cs.map .single)).holds d = true ↔ d ∉ cs := by
  have single : ∀ c, ClassItem.holds (.single c) d = true ↔ c = d := fun c => beq_iff_eq
  simp only [CharClass.holds, Bool.bne_true, Bool.not_eq_true', List.any_eq_false, List.mem_map,
    forall_exists_index, and_imp, forall_apply_eq_imp_iff₂, single]
  constructor
  · intro h mem
    exact h d mem rfl
  · rintro h c mem rfl
    exact h mem

/-- Letters read themselves. -/
theorem ways_chars_iff {s : String} : Ways (chars s) a b ↔ a.Reads s.toList b := by
  rw [chars]
  generalize s.toList = w
  induction w generalizing a with
  | nil =>
    constructor
    · rintro rfl
      exact Trail.reads_nil _
    · exact Trail.Reads.eq_of_nil
  | cons c w ih =>
    show (∃ m, Way (.one (charClass c)) a m ∧ Ways (w.map fun c => .one (charClass c)) m b) ↔ _
    constructor
    · rintro ⟨m, way, ways⟩
      obtain ⟨d, holds, reads⟩ := way_one_iff.mp way
      cases charClass_holds_iff.mp holds
      exact reads.trans (ih.mp ways)
    · intro reads
      obtain ⟨m, one, further⟩ := Trail.Reads.exists_between (w := [c]) reads
      exact ⟨m, way_one_iff.mpr ⟨c, charClass_holds_iff.mpr rfl, one⟩, ih.mpr further⟩

theorem way_word_iff {s : String} {w : List Char} (letters : s.toList = w) :
    Way (seqOf (chars s)) a b ↔ ∃ v, v = w ∧ a.Reads v b := by
  rw [way_seqOf_iff, ways_chars_iff, letters]
  constructor
  · intro reads
    exact ⟨w, rfl, reads⟩
  · rintro ⟨_, rfl, reads⟩
    exact reads

theorem blank_holds (c : Char) : CharClass.holds ⟨false, [.blank]⟩ c = Text.isBlank c := by
  simp only [CharClass.holds, List.any_cons, List.any_nil, ClassItem.holds, Bool.or_false,
    Bool.bne_false]

theorem way_blanks_iff :
    Way blanks a b ↔ ∃ gap, Text.isAllBlank gap = true ∧ a.Reads gap b := by
  rw [blanks, oneOf, way_star_one_iff]
  simp only [blank_holds, Text.isAllBlank, List.all_eq_true]

theorem way_someBlanks_iff :
    Way someBlanks a b ↔ ∃ gap, gap ≠ [] ∧ Text.isAllBlank gap = true ∧ a.Reads gap b := by
  rw [someBlanks, oneOf, way_plus_one_iff]
  simp only [blank_holds, Text.isAllBlank, List.all_eq_true]

theorem word_holds (c : Char) : CharClass.holds ⟨false, [.word]⟩ c = Text.isWord c := by
  simp only [CharClass.holds, List.any_cons, List.any_nil, ClassItem.holds, Bool.or_false,
    Bool.bne_false]

theorem way_someWord_iff : Way someWord a b ↔
    ∃ w, (w ≠ [] ∧ ∀ c ∈ w, Text.isWord c = true) ∧ a.Reads w b := by
  rw [someWord, oneOf, way_plus_one_iff]
  simp only [word_holds, and_assoc]

theorem way_charClass_iff {c : Char} : Way (.one (charClass c)) a b ↔ a.Reads [c] b := by
  rw [way_one_iff]
  simp only [charClass_holds_iff, exists_eq_left]

/-- Everything up to the next `c`. -/
theorem way_star_oneBut_iff {c : Char} :
    Way (.star true (oneBut [c])) a b ↔ ∃ w, c ∉ w ∧ a.Reads w b := by
  rw [oneBut, way_star_one_iff]
  simp only [oneBut_holds_iff, List.mem_singleton]
  refine exists_congr fun w => and_congr_left fun _ => ?_
  exact ⟨fun others mem => others c mem rfl, fun none d hd same => none (same ▸ hd)⟩

theorem way_restOfLine_iff : Way restOfLine a b ↔ ∃ w, '\n' ∉ w ∧ a.Reads w b :=
  way_star_oneBut_iff

end Parts

/-! ## What a rule marks -/

/-- Where a group stands on a way that started at a position. -/
def span? (start : Nat) (b : Trail) (group : Nat) : Option (Nat × Nat) :=
  Match.span? ⟨start, b.place, b.spans, []⟩ group

/-- On a way through the pattern of the rule, from a place on, the span is what the rule looks
for. -/
def HighlightRule.Marks (rule : HighlightRule) (place : Place) (span : Nat × Nat) : Prop :=
  ∃ b, Way rule.pattern ⟨place, []⟩ b ∧ span? place.position b (rule.group.getD 0) = some span

/-- Whether the ways through the pattern of a rule are all found, and always mark something. -/
def HighlightRule.isPlain (rule : HighlightRule) : Bool :=
  rule.pattern.repeatsOnlyClasses &&
    (rule.group.getD 0 == 0 || rule.pattern.closes (rule.group.getD 0))

section Marks

variable {rule : HighlightRule} {line : List Char} {span : Nat × Nat}

theorem exists_marks_of_way (plain : rule.isPlain = true) {place : Place} {b : Trail}
    (way : Way rule.pattern ⟨place, []⟩ b) :
    ∃ span, span? place.position b (rule.group.getD 0) = some span := by
  rw [HighlightRule.isPlain, Bool.and_eq_true, Bool.or_eq_true, beq_iff_eq] at plain
  rw [span?, Match.span?]
  split
  · exact ⟨_, rfl⟩
  · next numbered =>
    obtain ⟨s, there, same⟩ := way.exists_span (plain.2.resolve_left numbered)
    obtain ⟨s', found⟩ : ∃ s', b.spans.find? (·.group == rule.group.getD 0) = some s' :=
      Option.isSome_iff_exists.mp (List.find?_isSome.mpr ⟨s, there, beq_iff_eq.mpr same⟩)
    exact ⟨(s'.start, s'.stop), by rw [found]; rfl⟩

/-- What is found is marked somewhere in the line. -/
theorem exists_marks_of_mem_spans (h : span ∈ rule.spans line) :
    ∃ w place, (Place.start line).Reads w place ∧ rule.Marks place span := by
  obtain ⟨m, found, marked⟩ := List.mem_filterMap.mp h
  obtain ⟨w, place, reads, here⟩ := exists_place_of_mem_allMatches found
  obtain ⟨start, way⟩ := way_of_matchAt? here
  refine ⟨w, place, reads, m.final.trail, way, ?_⟩
  rw [← start]
  exact marked

/-- What alone is marked at the first place where anything is, is found. -/
theorem mem_spans_of_marks (plain : rule.isPlain = true) {w : List Char} {place : Place}
    (reads : (Place.start line).Reads w place) (marks : rule.Marks place span)
    (only : ∀ s, rule.Marks place s → s = span)
    (first : ∀ v b, v <+: w → v ≠ w → (Place.start line).Reads v b → ∀ s, ¬rule.Marks b s) :
    span ∈ rule.spans line := by
  have simple : rule.pattern.repeatsOnlyClasses = true := (Bool.and_eq_true_iff.mp plain).1
  obtain ⟨b, way, -⟩ := marks
  obtain ⟨m, here⟩ := exists_matchAt? simple way
  have found : m ∈ rule.pattern.allMatches line := by
    refine mem_allMatches_of_first reads here fun v b inside proper reads => ?_
    apply Option.eq_none_iff_forall_ne_some.mpr
    intro m' here'
    obtain ⟨-, way'⟩ := way_of_matchAt? here'
    obtain ⟨s, marked⟩ := exists_marks_of_way plain way'
    exact first v b inside proper reads s ⟨_, way', marked⟩
  obtain ⟨start, way⟩ := way_of_matchAt? here
  obtain ⟨s, marked⟩ := exists_marks_of_way plain way
  cases only s ⟨_, way, marked⟩
  refine List.mem_filterMap.mpr ⟨m, found, ?_⟩
  rw [← start] at marked
  exact marked

end Marks

/-! ## What the rules of build configurations mark -/

section Buildconf

variable {place : Place} {span : Nat × Nat}

/-- What a rule marks that looks for a word behind the indentation, and for something after it. -/
theorem marks_behind_indent_iff {rule : HighlightRule} {q : Pattern} {tail : List Pattern}
    {W : List Char → Prop} {F : Place → Prop}
    (pattern : rule.pattern = seqOf ([.start, blanks, .group 1 q] ++ tail))
    (group : rule.group = some 1)
    (word : ∀ {c d : Trail}, Way q c d ↔ ∃ w, W w ∧ c.Reads w d)
    (after : ∀ {d : Trail}, (∃ b, Ways tail d b) ↔ F d.place)
    (silent : ∀ {d b : Trail}, Ways tail d b → b.spans = d.spans) :
    rule.Marks place span ↔ place.position = 0 ∧
      ∃ gap w d, Text.isAllBlank gap = true ∧ W w ∧ place.Reads (gap ++ w) d ∧ F d ∧
        span = (gap.length, gap.length + w.length) := by
  have marked : ∀ {c d b : Trail},
      b.spans = ⟨1, c.place.position, d.place.position⟩ :: d.spans →
      span? place.position b (rule.group.getD 0) = some (c.place.position, d.place.position) := by
    intro c d b spans
    rw [group, span?, Match.span?, if_neg (by decide)]
    show ((b.spans.find? _).map _) = _
    rw [spans, List.find?_cons_of_pos (by rfl)]
    rfl
  constructor
  · rintro ⟨b, way, found⟩
    rw [pattern] at way
    obtain ⟨_, starts, c, indents, _, grouped, ways⟩ := way_seqOf_iff.mp way
    obtain ⟨first, rfl⟩ := way_start_iff.mp starts
    obtain ⟨gap, blank, reads⟩ := way_blanks_iff.mp indents
    obtain ⟨d, inner, rfl⟩ := way_group_iff.mp grouped
    obtain ⟨w, isWord, further⟩ := word.mp inner
    rw [marked (silent ways)] at found
    have follows : F d.place :=
      (after (d := ⟨d.place, ⟨1, c.place.position, d.place.position⟩ :: d.spans⟩)).mp ⟨b, ways⟩
    refine ⟨first, gap, w, d.place, blank, isWord, reads.place.trans further.place, follows, ?_⟩
    rw [← Option.some.inj found, further.place.position, reads.place.position, first]
    simp
  · rintro ⟨first, gap, w, d, blank, isWord, reads, follows, rfl⟩
    obtain ⟨c, toWord, reads⟩ := reads.exists_between
    obtain ⟨b, ways⟩ := (after (d := ⟨d, [⟨1, c.position, d.position⟩]⟩)).mpr follows
    have inner : Way q ⟨c, []⟩ ⟨d, []⟩ := word.mpr ⟨w, isWord, reads, rfl⟩
    have way : Way rule.pattern ⟨place, []⟩ b := by
      rw [pattern]
      exact way_seqOf_iff.mpr ⟨_, way_start_iff.mpr ⟨first, rfl⟩, ⟨c, []⟩,
        way_blanks_iff.mpr ⟨gap, blank, toWord, rfl⟩, _, way_group_iff.mpr ⟨_, inner, rfl⟩, ways⟩
    refine ⟨b, way, (marked (c := ⟨c, []⟩) (d := ⟨d, []⟩) (silent ways)).trans ?_⟩
    rw [reads.position, toWord.position, first]
    simp

theorem marks_headerMark_iff :
    headerMark.Marks place span ↔ place.position = 0 ∧
      ∃ gap d, Text.isAllBlank gap = true ∧ place.Reads (gap ++ ['!', 'm', 'u', 'f']) d ∧
        Text.isBoundary (some 'f') d.rest.head? = true ∧ span = (gap.length, gap.length + 4) := by
  have after : ∀ {d : Trail}, (∃ b, Ways [.boundary] d b) ↔
      Text.isBoundary d.place.before d.place.rest.head? = true := by
    intro d
    simp only [ways_singleton_iff, way_boundary_iff, exists_and_left, exists_eq, and_true]
  have silent : ∀ {d b : Trail}, Ways [.boundary] d b → b.spans = d.spans := by
    intro d b ways
    rw [(way_boundary_iff.mp (ways_singleton_iff.mp ways)).2]
  rw [marks_behind_indent_iff rfl rfl (way_word_iff (String.toList_ofList))
    (F := fun d => Text.isBoundary d.before d.rest.head? = true) after silent]
  apply and_congr_right
  intro
  constructor
  · rintro ⟨gap, _, d, blank, rfl, reads, bound, span⟩
    have before : d.before = some 'f' := by
      rw [reads.before, List.getLast?_append]
      rfl
    rw [before] at bound
    exact ⟨gap, d, blank, reads, bound, span⟩
  · rintro ⟨gap, d, blank, reads, bound, span⟩
    have before : d.before = some 'f' := by
      rw [reads.before, List.getLast?_append]
      rfl
    rw [← before] at bound
    exact ⟨gap, _, d, blank, rfl, reads, bound, span⟩

theorem marks_blockTag_iff :
    blockTag.Marks place span ↔ place.position = 0 ∧
      ∃ gap inner d, Text.isAllBlank gap = true ∧ inner ≠ [] ∧ ']' ∉ inner ∧
        place.Reads (gap ++ ('[' :: inner ++ [']'])) d ∧
        span = (gap.length, gap.length + (inner.length + 2)) := by
  have word : ∀ {c d : Trail},
      Way (seqOf (chars "[" ++ [.plus true (oneBut [']'])] ++ chars "]")) c d ↔
        ∃ w, (∃ inner, inner ≠ [] ∧ ']' ∉ inner ∧ w = '[' :: inner ++ [']']) ∧ c.Reads w d := by
    intro c d
    rw [way_seqOf_iff, ways_append_iff]
    simp only [ways_append_iff, ways_chars_iff, ways_singleton_iff, oneBut, way_plus_one_iff,
      oneBut_holds_iff]
    constructor
    · rintro ⟨n, ⟨m, open', inner, nonempty, all, within⟩, close⟩
      refine ⟨_, ⟨inner, nonempty, ?_, rfl⟩, (open'.trans within).trans close⟩
      exact fun mem => all _ mem List.mem_cons_self
    · rintro ⟨_, ⟨inner, nonempty, none, rfl⟩, reads⟩
      obtain ⟨n, reads, close⟩ := reads.exists_between
      obtain ⟨m, open', within⟩ := Trail.Reads.exists_between (w := ['[']) reads
      refine ⟨n, ⟨m, open', inner, nonempty, ?_, within⟩, close⟩
      intro c mem same
      exact none (List.mem_singleton.mp same ▸ mem)
  have after : ∀ {d : Trail}, (∃ b, Ways [] d b) ↔ True := by
    intro d
    exact iff_true_intro ⟨d, rfl⟩
  have silent : ∀ {d b : Trail}, Ways [] d b → b.spans = d.spans := by
    rintro d b rfl
    rfl
  rw [marks_behind_indent_iff rfl rfl word (F := fun _ => True) after silent]
  apply and_congr_right
  intro
  constructor
  · rintro ⟨gap, _, d, blank, ⟨inner, nonempty, none, rfl⟩, reads, -, span⟩
    refine ⟨gap, inner, d, blank, nonempty, none, reads, ?_⟩
    rw [span]
    simp
  · rintro ⟨gap, inner, d, blank, nonempty, none, reads, span⟩
    refine ⟨gap, _, d, blank, ⟨inner, nonempty, none, rfl⟩, reads, trivial, ?_⟩
    rw [span]
    simp

theorem marks_blockCloser_iff :
    blockCloser.Marks place span ↔ place.position = 0 ∧
      ∃ gap d, Text.isAllBlank gap = true ∧ place.Reads (gap ++ ['.', '.']) d ∧
        Text.isAllBlank d.rest = true ∧ span = (gap.length, gap.length + 2) := by
  have after : ∀ {d : Trail}, (∃ b, Ways [blanks, .stop] d b) ↔
      Text.isAllBlank d.place.rest = true := by
    intro d
    constructor
    · rintro ⟨b, c, indents, ways⟩
      obtain ⟨gap, blank, reads⟩ := way_blanks_iff.mp indents
      obtain ⟨last, -⟩ := way_stop_iff.mp (ways_singleton_iff.mp ways)
      rw [reads.place.rest, last, List.append_nil]
      exact blank
    · intro blank
      obtain ⟨b, reads, last⟩ := Trail.exists_reads (List.append_nil d.place.rest).symm
      exact ⟨b, b, way_blanks_iff.mpr ⟨_, blank, reads⟩,
        ways_singleton_iff.mpr (way_stop_iff.mpr ⟨last, rfl⟩)⟩
  have silent : ∀ {d b : Trail}, Ways [blanks, .stop] d b → b.spans = d.spans := by
    rintro d b ⟨c, indents, ways⟩
    obtain ⟨gap, -, reads⟩ := way_blanks_iff.mp indents
    obtain ⟨-, rfl⟩ := way_stop_iff.mp (ways_singleton_iff.mp ways)
    exact reads.spans
  rw [marks_behind_indent_iff rfl rfl (way_word_iff (String.toList_ofList))
    (F := fun d => Text.isAllBlank d.rest = true) after silent]
  apply and_congr_right
  intro
  constructor
  · rintro ⟨gap, _, d, blank, rfl, reads, follows, span⟩
    exact ⟨gap, d, blank, reads, follows, span⟩
  · rintro ⟨gap, d, blank, reads, follows, span⟩
    exact ⟨gap, _, d, blank, rfl, reads, follows, span⟩

/-- What a rule marks that looks for no group: all of what it reads. -/
theorem marks_whole_iff {rule : HighlightRule} (group : rule.group = none) :
    rule.Marks place span ↔ ∃ b w, Way rule.pattern ⟨place, []⟩ b ∧ place.Reads w b.place ∧
      span = (place.position, place.position + w.length) := by
  have whole : ∀ b : Trail, span? place.position b (rule.group.getD 0) =
      some (place.position, b.place.position) := by
    intro b
    rw [group]
    rfl
  constructor
  · rintro ⟨b, way, found⟩
    obtain ⟨w, reads⟩ := way.reads
    refine ⟨b, w, way, reads, ?_⟩
    rw [whole] at found
    rw [← Option.some.inj found, reads.position]
  · rintro ⟨b, w, way, reads, rfl⟩
    refine ⟨b, way, ?_⟩
    rw [whole, reads.position]

theorem marks_commentLine_iff :
    commentLine.Marks place span ↔ place.position = 0 ∧
      ∃ gap w, Text.isAllBlank gap = true ∧ '\n' ∉ w ∧ place.rest = gap ++ [';', ';'] ++ w ∧
        span = (0, place.rest.length) := by
  have letters : ";;".toList = [';', ';'] := String.toList_ofList
  have pattern : commentLine.pattern =
      seqOf ([.start, blanks] ++ chars ";;" ++ [restOfLine, .stop]) := rfl
  rw [marks_whole_iff rfl, pattern]
  constructor
  · rintro ⟨b, v, way, read, rfl⟩
    obtain ⟨n, head, ways⟩ := ways_append_iff.mp (way_seqOf_iff.mp way)
    obtain ⟨m, ⟨_, starts, head⟩, word⟩ := ways_append_iff.mp head
    obtain ⟨first, rfl⟩ := way_start_iff.mp starts
    obtain ⟨gap, blank, reads⟩ := way_blanks_iff.mp (ways_singleton_iff.mp head)
    have word := ways_chars_iff.mp word
    rw [letters] at word
    obtain ⟨l, more, stops⟩ := ways
    obtain ⟨w, none, further⟩ := way_restOfLine_iff.mp more
    obtain ⟨last, rfl⟩ := way_stop_iff.mp (ways_singleton_iff.mp stops)
    have text : place.rest = gap ++ [';', ';'] ++ w := by
      rw [((reads.trans word).trans further).place.rest, last, List.append_nil]
    refine ⟨first, gap, w, blank, none, text, ?_⟩
    have all : place.rest = v := by rw [read.rest, last, List.append_nil]
    rw [all, first, Nat.zero_add]
  · rintro ⟨first, gap, w, blank, none, text, rfl⟩
    obtain ⟨b, reads, last⟩ := Trail.exists_reads (a := ⟨place, []⟩)
      (text.trans (List.append_nil _).symm)
    obtain ⟨n, head, further⟩ := reads.exists_between
    obtain ⟨m, reads', word⟩ := head.exists_between
    refine ⟨b, _, ?_, reads.place, by rw [first, text, Nat.zero_add]⟩
    rw [← letters] at word
    have opening : Ways ([.start, blanks] ++ chars ";;") ⟨place, []⟩ n :=
      ways_append_iff.mpr ⟨m, ⟨_, way_start_iff.mpr ⟨first, rfl⟩,
        ways_singleton_iff.mpr (way_blanks_iff.mpr ⟨gap, blank, reads'⟩)⟩, ways_chars_iff.mpr word⟩
    exact way_seqOf_iff.mpr (ways_append_iff.mpr ⟨n, opening, b,
      way_restOfLine_iff.mpr ⟨w, none, further⟩,
      ways_singleton_iff.mpr (way_stop_iff.mpr ⟨last, rfl⟩)⟩)

/-- A quoted text starts with a quotation mark. -/
theorem rest_of_marks_quotedText (h : quotedText.Marks place span) :
    (∃ r, place.rest = '"' :: r) ∧ span.1 = place.position := by
  have letters : "\"".toList = ['"'] := String.toList_ofList
  have pattern : quotedText.pattern =
      seqOf (chars "\"" ++ [.star true (oneBut ['"'])] ++ chars "\"") := rfl
  obtain ⟨b, w, way, -, rfl⟩ := (marks_whole_iff rfl).mp h
  rw [pattern] at way
  obtain ⟨m, head, -⟩ := ways_append_iff.mp (way_seqOf_iff.mp way)
  obtain ⟨n, quote, -⟩ := ways_append_iff.mp head
  have quote := ways_chars_iff.mp quote
  rw [letters] at quote
  exact ⟨⟨n.place.rest, quote.place.rest⟩, rfl⟩

/-- A letter of the names that are coloured. -/
def isNameLetter (c : Char) : Bool :=
  ('a' ≤ c && c ≤ 'z') || c == '_'

theorem directiveName_pattern : directiveName.pattern =
    .seq (.one (charClass '.')) (.plus true (.one ⟨false, [.range 'a' 'z', .single '_']⟩)) := by
  have pattern : directiveName.pattern =
      seqOf (chars "." ++ [.plus true (oneOf [.range 'a' 'z', .single '_'])]) := rfl
  rw [pattern, chars, String.toList_ofList]
  rfl

theorem nameLetter_holds (c : Char) :
    CharClass.holds ⟨false, [.range 'a' 'z', .single '_']⟩ c = isNameLetter c := by
  simp only [CharClass.holds, List.any_cons, List.any_nil, ClassItem.holds, Bool.or_false,
    Bool.bne_false, isNameLetter, Bool.beq_comm]

theorem marks_directiveName_iff :
    directiveName.Marks place span ↔ ∃ name d, name ≠ [] ∧ (∀ c ∈ name, isNameLetter c = true) ∧
      place.Reads ('.' :: name) d ∧
      span = (place.position, place.position + (name.length + 1)) := by
  rw [marks_whole_iff rfl, directiveName_pattern]
  constructor
  · rintro ⟨b, w, way, read, rfl⟩
    cases way with
    | seq head tail =>
      obtain ⟨c, holds, point⟩ := way_one_iff.mp head
      cases charClass_holds_iff.mp holds
      obtain ⟨name, nonempty, all, reads⟩ := way_plus_one_iff.mp tail
      simp only [nameLetter_holds] at all
      have reads := point.place.trans reads.place
      refine ⟨name, b.place, nonempty, all, reads, ?_⟩
      rw [← read.position, reads.position]
      rfl
  · rintro ⟨name, d, nonempty, all, reads, rfl⟩
    obtain ⟨c, point, further⟩ := Place.Reads.exists_between (w := ['.']) reads
    have head : Way (.one (charClass '.')) ⟨place, []⟩ ⟨c, []⟩ :=
      way_one_iff.mpr ⟨'.', charClass_holds_iff.mpr rfl, point, rfl⟩
    have tail : Way (.plus true (.one ⟨false, [.range 'a' 'z', .single '_']⟩)) ⟨c, []⟩ ⟨d, []⟩ := by
      refine way_plus_one_iff.mpr ⟨name, nonempty, ?_, further, rfl⟩
      simpa only [nameLetter_holds] using all
    exact ⟨_, _, .seq head tail, reads, rfl⟩

theorem marks_wholeNumber_iff :
    wholeNumber.Marks place span ↔ ∃ number d, number ≠ [] ∧
      (∀ c ∈ number, Text.isDigit c = true) ∧ place.Reads number d ∧
      Text.isBoundary place.before number.head? = true ∧
      Text.isBoundary number.getLast? d.rest.head? = true ∧
      span = (place.position, place.position + number.length) := by
  have pattern : wholeNumber.pattern = seqOf [.boundary, digits, .boundary] := rfl
  have digit : ∀ c, CharClass.holds ⟨false, [.digit]⟩ c = Text.isDigit c := fun c => by
    simp only [CharClass.holds, List.any_cons, List.any_nil, ClassItem.holds, Bool.or_false,
      Bool.bne_false]
  -- the neighbours of a number are those of its first and its last digit
  have left : ∀ {number d}, number ≠ [] → place.Reads number d →
      place.rest.head? = number.head? := by
    intro number d nonempty reads
    cases number with
    | nil => exact absurd rfl nonempty
    | cons c number => rw [reads.rest, List.cons_append, List.head?_cons, List.head?_cons]
  have right : ∀ {number d}, number ≠ [] → place.Reads number d →
      d.before = number.getLast? := by
    intro number d nonempty reads
    rw [reads.before, List.getLast?_eq_some_getLast nonempty]
    rfl
  rw [marks_whole_iff rfl, pattern]
  constructor
  · rintro ⟨b, w, way, read, rfl⟩
    obtain ⟨_, start, c, run, ways⟩ := way_seqOf_iff.mp way
    obtain ⟨bound, rfl⟩ := way_boundary_iff.mp start
    obtain ⟨bound', rfl⟩ := way_boundary_iff.mp (ways_singleton_iff.mp ways)
    obtain ⟨number, nonempty, all, reads⟩ := way_plus_one_iff.mp run
    simp only [digit] at all
    rw [left nonempty reads.place] at bound
    rw [right nonempty reads.place] at bound'
    refine ⟨number, _, nonempty, all, reads.place, bound, bound', ?_⟩
    rw [← read.position, reads.place.position]
  · rintro ⟨number, d, nonempty, all, reads, bound, bound', rfl⟩
    rw [← left nonempty reads] at bound
    rw [← right nonempty reads] at bound'
    simp only [← digit] at all
    refine ⟨⟨d, []⟩, number, way_seqOf_iff.mpr ?_, reads, rfl⟩
    exact ⟨_, way_boundary_iff.mpr ⟨bound, rfl⟩, ⟨d, []⟩,
      way_plus_one_iff.mpr ⟨number, nonempty, all, reads, rfl⟩,
      ways_singleton_iff.mpr (way_boundary_iff.mpr ⟨bound', rfl⟩)⟩

end Buildconf

end LiveLint.Language
