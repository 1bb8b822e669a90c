import LiveLint.Proofs.Buildconf.Alike
import LiveLint.Proofs.Buildconf.LinePatterns

/-!
# Lines read with patterns

What the patterns of lines find is what the scans read (`ofPatterns_eq_ofLine`), and both are what
the grammar says. An opener is the same on all ways through its pattern. The argument of a
directive is not: it starts where the blanks end only because they are taken greedily
(`exists_argument_of_match`).
-/

namespace LiveLint

namespace Text

/-! ## Trimming -/

theorem trimEnd_append {firm rest : List Char} (solid : ∀ c ∈ firm.getLast?, isBlank c = false) :
    trimEnd (firm ++ rest) = firm ++ trimEnd rest := by
  have kept : firm.reverse.dropWhile isBlank = firm.reverse := by
    rw [← trimStart]
    refine trimStart_eq_self ?_
    rw [List.head?_reverse]
    exact solid
  rw [trimEnd, List.reverse_append, List.dropWhile_append, trimEnd]
  split
  · next none =>
    rw [List.isEmpty_iff.mp none, kept, List.reverse_reverse, List.reverse_nil, List.append_nil]
  · rw [List.reverse_append, List.reverse_reverse]

theorem trim_blanks_append {gap : List Char} (blank : isAllBlank gap = true) (cs : List Char) :
    trim (gap ++ cs) = trim cs := by
  rw [trim, trimStart_append_of_blank (List.all_eq_true.mp blank), trim]

theorem trim_trimEnd (cs : List Char) : trim (trimEnd cs) = trim cs := by
  obtain ⟨gap, blank, whole⟩ := exists_gap_trimEnd cs
  have none : isAllBlank ([] ++ gap) = true := blank
  have same := trim_of_gaps none (trimEnd cs)
  rw [List.nil_append, ← whole] at same
  exact same.symm

theorem head?_trimEnd {cs : List Char} {c : Char} (h : c ∈ (trimEnd cs).head?) : c ∈ cs.head? := by
  obtain ⟨gap, -, whole⟩ := exists_gap_trimEnd cs
  rw [whole, List.head?_append, Option.mem_def.mp h]
  rfl

end Text

namespace Buildconf

open Pattern LiveLint.Language

/-! ## What is found is read -/

/-- A pattern that is read as something, wherever it leads, and leads somewhere where there is
something to read. -/
theorem bind_find?_eq {cs : List Char} {p : Pattern} {f : Match → Option LineKind}
    {read : Option LineKind} (anchored : Anchored p)
    (sound : ∀ m, p.matchAt? (.start cs) = some m → f m = read)
    (complete : ∀ kind, read = some kind → ∃ b, Way p ⟨.start cs, []⟩ b) :
    (p.find? (.start cs)).bind f = read := by
  rw [anchored.find?_eq]
  cases found : p.matchAt? (.start cs) with
  | some m => exact sound m found
  | none =>
    cases there : read with
    | none => rfl
    | some kind =>
      obtain ⟨b, way⟩ := complete kind there
      obtain ⟨m, found'⟩ := exists_matchAt? anchored.simple way
      rw [found] at found'
      cases found'

theorem isSome_plainName (cs : List Char) :
    (plainName.find? (.start cs)).isSome = isIdentifier cs := by
  rw [Bool.eq_iff_iff, anchored_plainName.isSome_find?_iff, plainName_eq, isIdentifier_iff]
  constructor
  · rintro ⟨b, way⟩
    obtain ⟨_, starts, c, run, ways⟩ := way_seqOf_iff.mp way
    obtain ⟨-, rfl⟩ := way_start_iff.mp starts
    obtain ⟨w, ⟨some, all⟩, reads⟩ := (spells_identRun _ _).mp run
    obtain ⟨last, -⟩ := way_stop_iff.mp (ways_singleton_iff.mp ways)
    have whole : cs = w := by
      have := reads.place.rest
      rw [last, List.append_nil] at this
      exact this
    rw [whole]
    exact ⟨some, all⟩
  · intro ident
    obtain ⟨b, reads, last⟩ := Trail.exists_reads (a := ⟨.start cs, []⟩) (List.append_nil cs).symm
    exact ⟨b, way_seqOf_iff.mpr ⟨_, way_start_iff.mpr ⟨rfl, rfl⟩, b,
      (spells_identRun _ _).mpr ⟨cs, ident, reads⟩,
      ways_singleton_iff.mpr (way_stop_iff.mpr ⟨last, rfl⟩)⟩⟩

section Line

variable {raw : List Char}

/-! ### Valid headers -/

theorem exists_way_validHeader_iff :
    (∃ b, Way validHeader ⟨.start raw, []⟩ b) ↔
      ∃ gap version gap', Text.isAllBlank gap = true ∧ version ≠ [] ∧
        Text.isAllBlank version = true ∧ Text.isAllBlank gap' = true ∧
        raw = gap ++ (['!', 'm', 'u', 'f'] ++ (version ++ (['4'] ++ gap'))) := by
  have mark : "!muf".toList = ['!', 'm', 'u', 'f'] := String.toList_ofList
  have four : "4".toList = ['4'] := String.toList_ofList
  rw [validHeader_eq]
  constructor
  · rintro ⟨b, way⟩
    obtain ⟨k, ways, last⟩ := ways_append_iff.mp (way_seqOf_iff.mp way)
    obtain ⟨j, ways, digit⟩ := ways_append_iff.mp ways
    obtain ⟨i, ways, blanks'⟩ := ways_append_iff.mp ways
    obtain ⟨h, ways, letters⟩ := ways_append_iff.mp ways
    obtain ⟨_, starts, indents⟩ := ways
    obtain ⟨-, rfl⟩ := way_start_iff.mp starts
    obtain ⟨gap, blank, reads⟩ := way_blanks_iff.mp (ways_singleton_iff.mp indents)
    have letters := ways_chars_iff.mp letters
    obtain ⟨version, apart, blank', further⟩ :=
      way_someBlanks_iff.mp (ways_singleton_iff.mp blanks')
    have digit := ways_chars_iff.mp digit
    obtain ⟨l, behind, stops⟩ := last
    obtain ⟨gap', blank'', rest⟩ := way_blanks_iff.mp behind
    obtain ⟨last, rfl⟩ := way_stop_iff.mp (ways_singleton_iff.mp stops)
    rw [mark] at letters
    rw [four] at digit
    refine ⟨gap, version, gap', blank, apart, blank', blank'', ?_⟩
    have whole : raw = _ := reads.place.rest
    rw [whole, letters.place.rest, further.place.rest, digit.place.rest, rest.place.rest, last,
      List.append_nil]
  · rintro ⟨gap, version, gap', blank, apart, blank', blank'', text⟩
    obtain ⟨h, reads, rest⟩ := Trail.exists_reads (a := ⟨.start raw, []⟩) text
    obtain ⟨i, letters, rest⟩ := Trail.exists_reads rest
    obtain ⟨j, further, rest⟩ := Trail.exists_reads rest
    obtain ⟨k, digit, rest⟩ := Trail.exists_reads rest
    obtain ⟨b, behind, last⟩ := Trail.exists_reads (rest.trans (List.append_nil gap').symm)
    rw [← mark] at letters
    rw [← four] at digit
    refine ⟨b, way_seqOf_iff.mpr ?_⟩
    refine ways_append_iff.mpr ⟨k, ways_append_iff.mpr ⟨j, ways_append_iff.mpr ⟨i,
      ways_append_iff.mpr ⟨h, ?_, ways_chars_iff.mpr letters⟩, ?_⟩, ways_chars_iff.mpr digit⟩, ?_⟩
    · exact ⟨_, way_start_iff.mpr ⟨rfl, rfl⟩,
        ways_singleton_iff.mpr (way_blanks_iff.mpr ⟨gap, blank, reads⟩)⟩
    · exact ways_singleton_iff.mpr (way_someBlanks_iff.mpr ⟨version, apart, blank', further⟩)
    · exact ⟨b, way_blanks_iff.mpr ⟨gap', blank'', behind⟩,
        ways_singleton_iff.mpr (way_stop_iff.mpr ⟨last, rfl⟩)⟩

/-- **Valid headers are found alike.** -/
theorem isSome_validHeader {after : List Char}
    (trimmed : Text.trim raw = ['!', 'm', 'u', 'f'] ++ after) :
    (validHeader.find? (.start raw)).isSome = asksVersionFour after := by
  rw [Bool.eq_iff_iff, anchored_validHeader.isSome_find?_iff, exists_way_validHeader_iff,
    asksVersionFour_iff]
  constructor
  · rintro ⟨gap, version, gap', blank, apart, blank', blank'', text⟩
    have core : Text.Trimmed (['!'] ++ ('m' :: 'u' :: 'f' :: version) ++ ['4']) :=
      .join (Text.trimmed_singleton rfl) (Text.trimmed_singleton rfl) (by simp) (by simp)
    have whole : raw = gap ++ (['!'] ++ ('m' :: 'u' :: 'f' :: version) ++ ['4']) ++ gap' := by
      rw [text]
      simp
    rw [whole, Text.trim_of_gaps (Text.isAllBlank_append.mpr ⟨blank, blank''⟩), core.trim_eq]
      at trimmed
    have said : ['!', 'm', 'u', 'f'] ++ (version ++ ['4']) = ['!', 'm', 'u', 'f'] ++ after :=
      trimmed
    exact ⟨version, apart, blank', (List.append_cancel_left said).symm⟩
  · rintro ⟨version, apart, blank', rfl⟩
    obtain ⟨gap, gap', blank, blank'', whole⟩ := Text.exists_gaps_trim raw
    refine ⟨gap, version, gap', blank, apart, blank', blank'', ?_⟩
    rw [trimmed] at whole
    simpa [List.append_assoc] using whole

/-! ### Openers -/

/-- What the name of an opener is, if there is one. -/
theorem named_eq (cs : List Char) :
    ((some cs).filter fun n => (plainName.find? (.start n)).isSome).map String.ofList =
      name? cs := by
  rw [Option.filter_some, isSome_plainName, name?]
  split <;> rfl

/-- Blanks and more are what can stand between the tag of an opener and its bracket. -/
theorem isMiddle_append {gap inner : List Char} (apart : gap ≠ [])
    (blank : Text.isAllBlank gap = true) (more : inner ≠ []) (inside : ']' ∉ inner) :
    IsMiddle (gap ++ inner) := by
  constructor
  · intro mem
    rcases List.mem_append.mp mem with mem | mem
    · exact absurd (List.all_eq_true.mp blank _ mem) (by decide)
    · exact inside mem
  · right
    match gap, apart, inner, more with
    | [b], _, c :: inner, _ =>
      exact ⟨b, c, inner, rfl, List.all_eq_true.mp blank b (by simp)⟩
    | b :: c :: gap, _, inner, _ =>
      exact ⟨b, c, gap ++ inner, rfl, List.all_eq_true.mp blank b (by simp)⟩

theorem exists_of_isMiddle {middle : List Char} (between : IsMiddle middle) :
    middle = [] ∨ ∃ gap inner, gap ≠ [] ∧ Text.isAllBlank gap = true ∧ inner ≠ [] ∧
      ']' ∉ inner ∧ middle = gap ++ inner := by
  refine between.apart.imp_right ?_
  rintro ⟨b, c, more, rfl, blank⟩
  refine ⟨[b], c :: more, by simp, by simp [Text.isAllBlank, blank], by simp, ?_, rfl⟩
  exact fun mem => between.inside (List.mem_cons_of_mem b mem)

/-- The two ways over what stands between tag and bracket agree on the name. -/
theorem exists_middle {u : List Char} {i v : Trail}
    (before : (Place.start raw).Reads u i.place) (none : i.text? raw 2 = none)
    (way : Way (behindBlanks (.plus true (oneBut [']']))) i v) :
    ∃ middle, IsMiddle middle ∧ i.place.Reads middle v.place ∧
      v.text? raw 1 = i.text? raw 1 ∧
      (((v.text? raw 2).map Text.trim).filter fun n => (plainName.find? (.start n)).isSome).map
        String.ofList = name? (Text.trim middle) := by
  rcases exists_of_way_behindBlanks spells_inside before way with
    rfl | ⟨gap, inner, apart, blank, ⟨more, inside⟩, reads, tag, text⟩
  · refine ⟨[], ⟨List.not_mem_nil, .inl rfl⟩, Place.reads_nil _, rfl, ?_⟩
    rw [none]
    rfl
  · refine ⟨gap ++ inner, isMiddle_append apart blank more inside, reads, tag, ?_⟩
    rw [text, Option.map_some, named_eq, Text.trim_blanks_append blank]

theorem trim_opener {gap tag middle rest : List Char} (blank : Text.isAllBlank gap = true) :
    Text.trim (gap ++ '[' :: (tag ++ (middle ++ ']' :: rest))) =
      '[' :: (tag ++ (middle ++ ']' :: Text.trimEnd rest)) := by
  have whole : ∀ rest : List Char, '[' :: (tag ++ (middle ++ ']' :: rest)) =
      ('[' :: (tag ++ (middle ++ [']']))) ++ rest := by simp
  have firm : ∀ c ∈ ('[' :: (tag ++ (middle ++ [']']))).getLast?, Text.isBlank c = false := by
    rw [← List.append_assoc, ← List.cons_append, List.getLast?_concat]
    rintro c ⟨⟩
    rfl
  rw [Text.trim_blanks_append blank, Text.trim, Text.trimStart_of_not_blank rfl, whole,
    Text.trimEnd_append firm, ← whole]

theorem asOpener_of_matchAt? {m : Match} (h : openTag.matchAt? (.start raw) = some m) :
    asOpener raw m = opener? (Text.trim raw) := by
  obtain ⟨-, way⟩ := way_of_matchAt? h
  rw [openTag_eq, way_labelled_iff] at way
  obtain ⟨i, ways, v, arguments, closing⟩ := way
  obtain ⟨gap, tag, blank, ⟨tagged, ident⟩, reads, first, second⟩ :=
    exists_of_ways_label spells_identRun ways
  obtain ⟨middle, between, reads', tag', named⟩ := exists_middle reads second arguments
  obtain ⟨c, holds, bracket⟩ := way_one_iff.mp closing
  cases charClass_holds_iff.mp holds
  have texts : ∀ group, m.final.trail.text? raw group = v.text? raw group := by
    intro group
    rw [Trail.text?, bracket.spans, Trail.text?]
  have said : asOpener raw m = some (.opener (String.ofList tag) (name? (Text.trim middle))) := by
    rw [asOpener, Match.text?_eq (by decide), Match.text?_eq (by decide), texts, texts, tag', first,
      Option.map_some]
    exact congrArg (fun name => some (LineKind.opener _ name)) named
  have text : raw = gap ++ '[' :: (tag ++ (middle ++ ']' :: m.final.trail.place.rest)) := by
    have whole : raw = _ := ((reads.trans reads').trans bracket.place).rest
    simpa [List.append_assoc] using whole
  have form := LineKind.Form.opener (Text.trimEnd m.final.trail.place.rest) tagged
    ⟨ident, between.ends⟩ between (name?_eq_iff.mp rfl)
  rw [said, text, trim_opener blank, LineKind.opener?_of_form form]

theorem exists_way_openTag {kind : LineKind} (h : opener? (Text.trim raw) = some kind) :
    ∃ b, Way openTag ⟨.start raw, []⟩ b := by
  obtain ⟨gap, gap', blank, -, whole⟩ := Text.exists_gaps_trim raw
  have form := LineKind.form_of_opener? h
  generalize Text.trim raw = t at h form whole
  obtain ⟨tag, name, rfl⟩ : ∃ tag name, kind = .opener tag name := by
    rcases opener?_cases t with none | ⟨tag, name, some⟩
    · rw [none] at h
      cases h
    · exact ⟨tag, name, Option.some.inj (h.symm.trans some)⟩
  cases form with
  | @opener tag middle _ rest tagged run between named =>
    have text : raw = gap ++ '[' :: (tag ++ (middle ++ ']' :: (rest ++ gap'))) := by
      simpa [List.append_assoc] using whole
    obtain ⟨i, ways, after⟩ := exists_ways_label spells_identRun blank ⟨tagged, run.all⟩ text
    obtain ⟨v, arguments, after'⟩ : ∃ v,
        Way (behindBlanks (.plus true (oneBut [']']))) i v ∧
          v.place.rest = ']' :: (rest ++ gap') := by
      rcases exists_of_isMiddle between with
        rfl | ⟨apart, inner, some, blank', more, inside, rfl⟩
      · exact ⟨i, .optNone, after⟩
      · rw [List.append_assoc] at after
        exact exists_way_behindBlanks spells_inside some blank' ⟨more, inside⟩ after
    have bracket : v.place.rest = [']'] ++ (rest ++ gap') := after'
    obtain ⟨b, reads, -⟩ := Trail.exists_reads bracket
    rw [openTag_eq]
    exact ⟨b, way_labelled_iff.mpr ⟨i, ways, v, arguments,
      way_one_iff.mpr ⟨']', charClass_holds_iff.mpr rfl, reads⟩⟩⟩

/-- **Openers are read alike.** -/
theorem find?_openTag_eq (raw : List Char) :
    (openTag.find? (.start raw)).bind (asOpener raw) = opener? (Text.trim raw) :=
  bind_find?_eq anchored_openTag (fun _ => asOpener_of_matchAt?) fun _ => exists_way_openTag

/-! ### Directives -/

/-- Where the argument of a directive starts: behind all blanks, since they are taken greedily. -/
theorem exists_argument_of_match {m : Match} (one : '\n' ∉ raw)
    (h : directiveLine.matchAt? (.start raw) = some m) :
    m.final.trail.place.rest = [] ∧ ∃ i, Ways (label '.' directiveWord) ⟨.start raw, []⟩ i ∧
      (m.final.trail = i ∨ ∃ gap v, gap ≠ [] ∧ Text.isAllBlank gap = true ∧ i.Reads gap v ∧
        (∀ c ∈ v.place.rest.head?, Text.isBlank c = false) ∧
        Way (.group 2 restOfLine) v m.final.trail) := by
  have chained : directiveLine =
      .seq (.seq (chain (label '.' directiveWord)) (behindBlanks restOfLine)) .stop := by
    rw [directiveLine_eq]
    rfl
  have last : m.final.trail.place.rest = [] := by
    have way := (way_of_matchAt? h).2
    rw [chained] at way
    cases way with
    | seq head tail =>
      obtain ⟨last, same⟩ := way_stop_iff.mp tail
      rw [← same] at last
      exact last
  rw [chained] at h
  obtain ⟨i, head, preferred⟩ := (preferred_of_matchAt? h).exists_between
  have head := way_of_mem_ends head
  refine ⟨last, i.trail, way_chain_iff.mp head, ?_⟩
  rcases preferred.of_opt with none | ⟨u, same, preferred⟩
  · exact .inl none
  · right
    obtain ⟨_, toEnd⟩ := (way_of_mem_ends preferred.mem).reads
    obtain ⟨_, before⟩ := head.reads
    rw [← same] at before
    -- all that is left of the line can be read behind any blanks, so they are taken to their end
    have onward : ∀ v : Trail, (∃ w, u.trail.Reads w v) →
        ∃ b, Way (.group 2 restOfLine) v b ∧ b.place = m.final.place := by
      rintro v ⟨w, reads⟩
      obtain ⟨e, further, last'⟩ := Place.exists_reads (List.append_nil v.place.rest).symm
      have line : '\n' ∉ v.place.rest := by
        intro mem
        have text : raw = _ := (before.trans reads.place).rest
        exact one (text ▸ List.mem_append_right _ mem)
      obtain ⟨b, way, place⟩ := exists_way_group 2 spells_restOfLine line further
      rw [← place] at further last'
      exact ⟨b, way, (reads.place.trans further).eq_of_rest toEnd last' last⟩
    obtain ⟨gap, v, some, blank, reads, ends, way⟩ := preferred.exists_run rfl onward
    rw [same] at reads
    simp only [blank_holds] at blank ends
    exact ⟨gap, v, some, List.all_eq_true.mpr blank, reads, ends, way⟩

theorem trim_directive {gap name after : List Char} {c : Char}
    (blank : Text.isAllBlank gap = true) (first : isNameStart c = true)
    (ident : ∀ d ∈ name, isIdentChar d = true) :
    Text.trim (gap ++ '.' :: c :: (name ++ after)) = '.' :: c :: (name ++ Text.trimEnd after) := by
  have solid : ∀ d ∈ '.' :: c :: name, Text.isBlank d = false := by
    refine List.forall_mem_cons.mpr ⟨rfl, List.forall_mem_cons.mpr ⟨?_, ?_⟩⟩
    · exact isBlank_of_isIdentChar (isIdentChar_of_isNameStart first)
    · exact fun d hd => isBlank_of_isIdentChar (ident d hd)
  have firm : ∀ d ∈ ('.' :: c :: name).getLast?, Text.isBlank d = false :=
    fun d hd => solid d (List.mem_of_mem_getLast? hd)
  have whole : ∀ after : List Char,
      '.' :: c :: (name ++ after) = ('.' :: c :: name) ++ after := fun _ => rfl
  rw [Text.trim_blanks_append blank, Text.trim, Text.trimStart_of_not_blank rfl, whole,
    Text.trimEnd_append firm, ← whole]

/-- What stands behind the name of a directive is nothing, or starts with a blank. -/
theorem directive?_of_parts {gap name after : List Char} {c : Char}
    (blank : Text.isAllBlank gap = true) (first : isNameStart c = true)
    (ident : ∀ d ∈ name, isIdentChar d = true)
    (behind : ∀ d ∈ after.head?, Text.isBlank d = true) :
    directive? (Text.trim (gap ++ '.' :: c :: (name ++ after))) =
      some (.directive (String.ofList (c :: name)) (String.ofList (Text.trim after))) := by
  have behind' : ∀ d ∈ (Text.trimEnd after).head?, Text.isBlank d = true :=
    fun d hd => behind d (Text.head?_trimEnd hd)
  have ends : ∀ d ∈ (Text.trimEnd after).head?, isIdentChar d = false :=
    fun d hd => isIdentChar_of_isBlank (behind' d hd)
  have form := LineKind.Form.directive first ⟨ident, ends⟩ behind'
  rw [trim_directive blank first ident, LineKind.directive?_of_form form, Text.trim_trimEnd]

theorem asDirective_of_matchAt? {m : Match} (one : '\n' ∉ raw)
    (h : directiveLine.matchAt? (.start raw) = some m) :
    asDirective raw m = directive? (Text.trim raw) := by
  obtain ⟨last, i, ways, behind⟩ := exists_argument_of_match one h
  obtain ⟨gap, _, blank, ⟨c, name, rfl, first, ident⟩, reads, called, bare⟩ :=
    exists_of_ways_label spells_directiveWord ways
  rw [asDirective, Match.text?_eq (by decide), Match.text?_eq (by decide)]
  rcases behind with same | ⟨gap', v, apart, blank', reads', ends, way⟩
  · rw [same] at last
    have text : raw = gap ++ '.' :: c :: (name ++ []) := by
      have whole : raw = _ := reads.rest
      rw [last, List.append_nil] at whole
      rw [List.append_nil]
      exact whole
    rw [same, called, bare, text, directive?_of_parts blank first ident (by simp)]
    rfl
  · obtain ⟨w, -, reads'', said, others⟩ :=
      exists_text_of_way_group spells_restOfLine (reads.trans reads'.place) way
    have called' : m.final.trail.text? raw 1 = some (c :: name) := by
      rw [others 1 (by decide), Trail.text?, reads'.spans]
      exact called
    have rest : v.place.rest = w := by rw [reads''.rest, last, List.append_nil]
    have text : raw = gap ++ '.' :: c :: (name ++ (gap' ++ w)) := by
      have whole : raw = _ := (reads.trans reads'.place).rest
      rw [rest] at whole
      simpa [List.append_assoc] using whole
    have behind : ∀ d ∈ (gap' ++ w).head?, Text.isBlank d = true := by
      rw [List.head?_append_of_ne_nil _ apart]
      exact fun d hd => List.all_eq_true.mp blank' d (List.mem_of_mem_head? hd)
    rw [rest] at ends
    rw [called', said, Option.map_some, Option.map_some, Option.getD_some, text,
      directive?_of_parts blank first ident behind, Text.trim_blanks_append blank', Text.trim,
      Text.trimStart_eq_self ends]

/-- Blanks and all that follows can be read to the end of the line. -/
theorem exists_way_to_end {i : Trail} (behind : ∀ b ∈ i.place.rest.head?, Text.isBlank b = true)
    (line : '\n' ∉ i.place.rest) :
    ∃ v, Way (behindBlanks restOfLine) i v ∧ v.place.rest = [] := by
  cases rest : i.place.rest with
  | nil => exact ⟨i, .optNone, rest⟩
  | cons b w =>
    rw [rest] at behind line
    have opens : Text.isAllBlank [b] = true :=
      List.all_eq_true.mpr (List.forall_mem_singleton.mpr (behind b rfl))
    have parted : i.place.rest = [b] ++ (w ++ []) := by
      rw [rest, List.append_nil]
      rfl
    exact exists_way_behindBlanks spells_restOfLine (by simp) opens
      (fun mem => line (List.mem_cons_of_mem b mem)) parted

theorem exists_way_directiveLine {kind : LineKind} (one : '\n' ∉ raw)
    (h : directive? (Text.trim raw) = some kind) :
    ∃ b, Way directiveLine ⟨.start raw, []⟩ b := by
  obtain ⟨gap, gap', blank, blank', whole⟩ := Text.exists_gaps_trim raw
  have form := LineKind.form_of_directive? h
  generalize Text.trim raw = t at h form whole
  obtain ⟨name, rest, rfl⟩ : ∃ name rest, kind = .directive name rest := by
    rcases directive?_cases t with none | ⟨name, rest, some⟩
    · rw [none] at h
      cases h
    · exact ⟨name, rest, Option.some.inj (h.symm.trans some)⟩
  cases form with
  | @directive c name after first run behind =>
    have text : raw = gap ++ '.' :: ((c :: name) ++ (after ++ gap')) := by
      simpa [List.append_assoc] using whole
    have isWord : ∃ d r, c :: name = d :: r ∧ isNameStart d = true ∧
        ∀ e ∈ r, isIdentChar e = true := ⟨c, name, rfl, first, run.all⟩
    obtain ⟨i, ways, further⟩ := exists_ways_label spells_directiveWord blank isWord text
    have behind' : ∀ b ∈ (after ++ gap').head?, Text.isBlank b = true := by
      cases after with
      | nil => exact fun b hb => List.all_eq_true.mp blank' b (List.mem_of_mem_head? hb)
      | cons a after => exact behind
    have line : '\n' ∉ after ++ gap' := by
      intro mem
      rw [text] at one
      exact one (List.mem_append_right _ (List.mem_cons_of_mem _ (List.mem_append_right _ mem)))
    rw [← further] at behind' line
    obtain ⟨v, arguments, last⟩ := exists_way_to_end behind' line
    rw [directiveLine_eq]
    exact ⟨v, way_labelled_iff.mpr ⟨i, ways, v, arguments, way_stop_iff.mpr ⟨last, rfl⟩⟩⟩

/-- **Directives are read alike**, on a single line. -/
theorem find?_directiveLine_eq (one : '\n' ∉ raw) :
    (directiveLine.find? (.start raw)).bind (asDirective raw) = directive? (Text.trim raw) :=
  bind_find?_eq anchored_directiveLine (fun _ => asDirective_of_matchAt? one)
    fun _ => exists_way_directiveLine one

/-! ### Lines -/

/-- **A single line is read alike** by its patterns. -/
theorem LineKind.ofPatterns_eq_ofLine (one : '\n' ∉ raw) : ofPatterns raw = ofLine raw := by
  rw [ofPatterns, ofLine, ofTrimmed, find?_openTag_eq, find?_directiveLine_eq one]
  split_ifs with empty comment header
  · rfl
  · rfl
  · obtain ⟨after, trimmed⟩ := List.isPrefixOf_iff_prefix.mp header
    rw [isSome_validHeader trimmed.symm, ← trimmed]
    rfl
  · rfl
  · rfl

/-- **The grammar of lines is exact**: read with its scans or with its patterns, a single line is of
a kind just if the grammar says so of what stands between its blanks. -/
theorem LineKind.reading_iff_describes (one : '\n' ∉ raw) (kind : LineKind) :
    (ofLine raw = kind ↔ kind.Describes (Text.trim raw)) ∧
      (ofPatterns raw = kind ↔ kind.Describes (Text.trim raw)) := by
  have scanned : ofLine raw = kind ↔ kind.Describes (Text.trim raw) := ofTrimmed_eq_iff
  refine ⟨scanned, ?_⟩
  rw [ofPatterns_eq_ofLine one]
  exact scanned

end Line

/-- An indented opener with blanks around its name, and a note behind the bracket. -/
def spacedOpener : List Char :=
  [' ', '\t', '[', 'r', 'u', 'n', ' ', ' ', 'c', 'c', ' ', ']', ' ', 'x', '\r']

theorem LineKind.reading_iff_describes_spacedOpener :
    '\n' ∉ spacedOpener ∧ ofPatterns spacedOpener = .opener "run" (some "cc") ∧
      (LineKind.opener "run" (some "cc")).Describes (Text.trim spacedOpener) := by
  have one : '\n' ∉ spacedOpener := by decide
  have read : ofLine spacedOpener = .opener "run" (some "cc") := by rfl
  have described := (reading_iff_describes one (.opener "run" (some "cc"))).1.mp read
  exact ⟨one, (reading_iff_describes one _).2.mpr described, described⟩

end Buildconf

end LiveLint
