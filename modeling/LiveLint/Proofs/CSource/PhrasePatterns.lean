import LiveLint.Pattern.Reader
import LiveLint.Proofs.CSource.Places
import LiveLint.Proofs.Language.Rules
import LiveLint.Proofs.Lists
import Mathlib.Data.List.DropRight
import Mathlib.Data.List.TakeWhile

/-!
# Phrases as patterns

A phrase can be written as a pattern: its parts one after another, each by the pattern that covers
the same words. A pattern may give characters back that a part has taken, which reading a phrase
never does. That makes no difference if what follows a part cannot begin with what the part would
give back (`isSteady`), and then the pattern is found where the phrase is
(`Phrase.map_start_find?`). All phrases of the checks are steady, and `ofText_writtenPhrases` says
how their patterns are written.
-/

namespace LiveLint.CSource

open Pattern (Trail Way Ways way_boundary_iff ways_append_iff way_seqOf_iff charClass)
open LiveLint.Language

/-! ## The patterns of parts -/

/-- The pattern of a part, in pieces. -/
def Part.patterns : Part → List Pattern
  | text s => chars s
  | gap => [blanks]
  | space => [someBlanks]
  | word => [someWord]
  | quoted s =>
    [.one (charClass '"'), .star true (oneBut ['"'])] ++ chars s ++
      [.star true (oneBut ['"']), .one (charClass '"')]
  | through c => [.star true (oneBut [c]), .one (charClass c)]

/-- The words that a part can cover. -/
def Part.Covers : Part → List Char → Prop
  | text s, w => w = s.toList
  | gap, w => Text.isAllBlank w = true
  | space, w => w ≠ [] ∧ Text.isAllBlank w = true
  | word, w => w ≠ [] ∧ ∀ c ∈ w, Text.isWord c = true
  | quoted s, w => ∃ x y, w = '"' :: (x ++ s.toList ++ y ++ ['"']) ∧ '"' ∉ x ∧ '"' ∉ y
  | through c, w => ∃ x, w = x ++ [c] ∧ c ∉ x

section Covers

variable {a b : Trail}

theorem ways_cons_iff {p : Pattern} {ps : List Pattern} :
    Ways (p :: ps) a b ↔ ∃ m, Way p a m ∧ Ways ps m b :=
  Iff.rfl

/-- The pattern of a part reads the words that the part covers. -/
theorem Part.ways_patterns_iff (part : Part) :
    Ways part.patterns a b ↔ ∃ w, part.Covers w ∧ a.Reads w b := by
  cases part with
  | text s =>
    rw [patterns, ways_chars_iff]
    simp only [Covers, exists_eq_left]
  | gap => rw [patterns, Pattern.ways_singleton_iff, way_blanks_iff]; rfl
  | space =>
    rw [patterns, Pattern.ways_singleton_iff, way_someBlanks_iff]
    simp only [Covers, and_assoc]
  | word => rw [patterns, Pattern.ways_singleton_iff, way_someWord_iff]; rfl
  | quoted s =>
    simp only [patterns, ways_append_iff, ways_cons_iff, way_charClass_iff, way_star_oneBut_iff,
      ways_chars_iff]
    constructor
    · rintro ⟨_, ⟨_, ⟨_, opens, _, ⟨x, hx, before⟩, rfl⟩, inside⟩, _, ⟨y, hy, behind⟩, _, closes,
        rfl⟩
      refine ⟨_, ⟨x, y, rfl, hx, hy⟩, ?_⟩
      have whole := (((opens.trans before).trans inside).trans behind).trans closes
      simpa using whole
    · rintro ⟨_, ⟨x, y, rfl, hx, hy⟩, reads⟩
      have parted : a.Reads (((['"'] ++ x ++ s.toList) ++ y) ++ ['"']) b := by simpa using reads
      obtain ⟨m₄, parted, closes⟩ := parted.exists_between
      obtain ⟨m₃, parted, behind⟩ := parted.exists_between
      obtain ⟨m₂, parted, inside⟩ := parted.exists_between
      obtain ⟨m₁, opens, before⟩ := parted.exists_between
      exact ⟨m₃, ⟨m₂, ⟨m₁, opens, m₂, ⟨x, hx, before⟩, rfl⟩, inside⟩, m₄, ⟨y, hy, behind⟩, b,
        closes, rfl⟩
  | through c =>
    simp only [patterns, ways_cons_iff, way_charClass_iff, way_star_oneBut_iff]
    constructor
    · rintro ⟨_, ⟨x, hx, before⟩, _, last, rfl⟩
      exact ⟨_, ⟨x, rfl, hx⟩, before.trans last⟩
    · rintro ⟨_, ⟨x, rfl, hx⟩, reads⟩
      obtain ⟨m, before, last⟩ := reads.exists_between
      exact ⟨m, ⟨x, hx, before⟩, b, last, rfl⟩

end Covers

/-! ## What can be read -/

/-- A text falls into words that the parts cover, one after the other, and a rest. -/
def CoverAll : List Part → List Char → Prop
  | [], _ => True
  | part :: parts, cs => ∃ w r, cs = w ++ r ∧ part.Covers w ∧ CoverAll parts r

theorem exists_ways_iff {parts : List Part} {a : Trail} :
    (∃ b, Ways (parts.flatMap Part.patterns) a b) ↔ CoverAll parts a.place.rest := by
  induction parts generalizing a with
  | nil => exact ⟨fun _ => trivial, fun _ => ⟨a, rfl⟩⟩
  | cons part parts ih =>
    simp only [List.flatMap_cons, ways_append_iff, CoverAll, Part.ways_patterns_iff]
    constructor
    · rintro ⟨b, m, ⟨w, covers, reads⟩, later⟩
      exact ⟨w, m.place.rest, reads.place.rest, covers, ih.mp ⟨b, later⟩⟩
    · rintro ⟨w, r, text, covers, later⟩
      obtain ⟨m, reads, rest⟩ := Trail.exists_reads text
      obtain ⟨b, ways⟩ := ih.mpr (rest ▸ later)
      exact ⟨b, m, ⟨w, covers, reads⟩, ways⟩

/-- Whether a part that takes all it can leaves to the parts behind it what they need. -/
def Part.leaves : Part → List Part → Bool
  | text _, _ | through _, _ => true
  | gap, behind | space, behind => behind.head? != some .space
  | word, .gap :: .text s :: _ => s.toList.head?.any (!Text.isWord ·)
  | word, _ => false
  | quoted s, _ => '"' ∉ s.toList

/-- Whether all parts are firm and leave to the others what they need. -/
def isSteady : List Part → Bool
  | [] => true
  | part :: parts => part.isFirm && part.leaves parts && isSteady parts

section Steady

variable {part : Part} {parts : List Part} {cs r w : List Char} {c : Char}

/-- What stands before the next `c`, and behind it. -/
theorem upTo_of_tail? (h : (cs.dropWhile (· != c)).tail? = some r) :
    cs = cs.takeWhile (· != c) ++ c :: r ∧ c ∉ cs.takeWhile (· != c) := by
  constructor
  · have stop := List.head?_dropWhile_not (· != c) cs
    cases left : cs.dropWhile (· != c) with
    | nil =>
      rw [left] at h
      cases h
    | cons d rest =>
      rw [left] at h stop
      cases h
      obtain rfl : d = c := by simpa using stop
      rw [← left, List.takeWhile_append_dropWhile]
  · intro mem
    simpa using List.mem_takeWhile_imp mem

/-- A quoted text that is read contains what it has to. -/
theorem Part.exists_covers_quoted {s : String} (h : (quoted s).read cs = some r) :
    ∃ w, cs = w ++ r ∧ (quoted s).Covers w := by
  obtain _ | ⟨c, cs⟩ := cs
  · cases h
  · rw [read_quoted_cons] at h
    split at h
    · next quote =>
      obtain ⟨rest, closed, h⟩ := Option.bind_eq_some_iff.mp h
      obtain ⟨text, unquoted⟩ := upTo_of_tail? closed
      split at h
      · next inside =>
        cases h
        obtain ⟨x, y, parted⟩ := Text.occurs_iff.mp inside
        rw [← parted] at text unquoted
        obtain ⟨hx, -, hy⟩ : '"' ∉ x ∧ '"' ∉ s.toList ∧ '"' ∉ y := by simpa using unquoted
        exact ⟨_, by rw [text, quote]; simp, x, y, rfl, hx, hy⟩
      · cases h
    · cases h

/-- It is read up to the quote that closes it. -/
theorem Part.read_quoted_append {s : String} (covers : (quoted s).Covers w)
    (plain : '"' ∉ s.toList) (r : List Char) : (quoted s).read (w ++ r) = some r := by
  obtain ⟨x, y, rfl, hx, hy⟩ := covers
  have stop : ∀ d ∈ ('"' :: r).head?, (d != '"') = false := by simp
  have inner : ∀ d ∈ x ++ s.toList ++ y, (d != '"') = true := by
    intro d hd
    rw [bne_iff_ne]
    rintro rfl
    simp [hx, plain, hy] at hd
  have text : '"' :: (x ++ s.toList ++ y ++ ['"']) ++ r =
      '"' :: ((x ++ s.toList ++ y) ++ '"' :: r) := by simp
  have inside : Text.occurs s.toList (x ++ s.toList ++ y) = true :=
    Text.occurs_iff.mpr ⟨x, y, rfl⟩
  rw [text, read_quoted_cons, if_pos rfl, Text.dropWhile_append_stop inner stop,
    Text.takeWhile_append_stop inner stop, inside, List.tail?_cons, Option.bind_some, if_pos rfl]

/-- What a part reads, it covers. -/
theorem Part.exists_covers (h : part.read cs = some r) : ∃ w, cs = w ++ r ∧ part.Covers w := by
  cases part with
  | text s => exact ⟨s.toList, Text.after?_eq_some_iff.mp h, rfl⟩
  | gap =>
    cases h
    obtain ⟨gap, blank, text⟩ := Text.trimStart_append_blank cs
    exact ⟨gap, text, List.all_eq_true.mpr blank⟩
  | through c =>
    obtain ⟨text, none⟩ := upTo_of_tail? h
    exact ⟨cs.takeWhile (· != c) ++ [c], by simpa using text, _, rfl, none⟩
  | space =>
    obtain _ | ⟨c, cs⟩ := cs
    · cases h
    · rw [read] at h
      split at h
      · next first =>
        cases h
        obtain ⟨gap, blank, text⟩ := Text.trimStart_append_blank cs
        refine ⟨c :: gap, by rw [List.cons_append, ← text], List.cons_ne_nil _ _, ?_⟩
        exact List.all_eq_true.mpr (List.forall_mem_cons.mpr ⟨first, blank⟩)
      · cases h
  | word =>
    obtain _ | ⟨c, cs⟩ := cs
    · cases h
    · rw [read] at h
      split at h
      · next first =>
        cases h
        refine ⟨c :: cs.takeWhile Text.isWord, ?_, List.cons_ne_nil _ _, ?_⟩
        · rw [List.cons_append, List.takeWhile_append_dropWhile]
        · exact List.forall_mem_cons.mpr ⟨first, fun d hd => List.mem_takeWhile_imp hd⟩
      · cases h
  | quoted s => exact exists_covers_quoted h

theorem coverAll_of_readParts (h : (readParts parts cs).isSome = true) : CoverAll parts cs := by
  induction parts generalizing cs with
  | nil => trivial
  | cons part parts ih =>
    rw [readParts_cons] at h
    cases first : part.read cs with
    | none =>
      rw [first] at h
      cases h
    | some r =>
      rw [first] at h
      obtain ⟨w, text, covers⟩ := Part.exists_covers first
      exact ⟨w, r, text, covers, ih h⟩

/-- Blanks in front do not matter to what does not begin with a space. -/
theorem isSome_readParts_trimStart (steady : isSteady parts = true)
    (other : (parts.head? != some .space) = true) (h : (readParts parts cs).isSome = true) :
    (readParts parts (Text.trimStart cs)).isSome = true := by
  cases blank : Text.opensBlank cs with
  | false =>
    obtain _ | ⟨c, cs⟩ := cs
    · exact h
    · rwa [Text.trimStart_of_not_blank blank]
  | true =>
    cases parts with
    | nil => rfl
    | cons part parts =>
      rw [isSteady, Bool.and_eq_true, Bool.and_eq_true] at steady
      obtain ⟨⟨firm, -⟩, -⟩ := steady
      have unread : part.startsFirmly = true → False := by
        intro starts
        rw [readParts_cons, Part.read_of_opensBlank firm starts blank] at h
        cases h
      rw [readParts_cons] at h ⊢
      cases part with
      | text | word | quoted => exact (unread rfl).elim
      | space => cases other
      | gap =>
        have again : Text.trimStart (Text.trimStart cs) = Text.trimStart cs :=
          List.dropWhile_idempotent ..
        rwa [Part.read, again]
      | through c =>
        obtain ⟨gap, blanks, text⟩ := Text.trimStart_append_blank cs
        have solid : Text.isBlank c = false := by simpa [Part.isFirm] using firm
        have passed : ∀ d ∈ gap, (d != c) = true := fun d hd =>
          bne_iff_ne.mpr (Text.ne_of_isBlank (blanks d hd) solid)
        rw [text, Part.read, List.dropWhile_append_of_pos passed] at h
        exact h

/-- What can stand behind a word does not continue it. -/
theorem head?_of_leaves (leaves : Part.word.leaves parts = true)
    (h : (readParts parts cs).isSome = true) : ∀ c ∈ cs.head?, Text.isWord c = false := by
  intro c hc
  obtain ⟨r, rfl⟩ := List.head?_eq_some_iff.mp hc
  match parts, leaves with
  | .gap :: .text s :: parts, leaves =>
    rw [Part.leaves] at leaves
    rw [← Bool.not_eq_true]
    intro word
    rw [readParts_cons, Part.read, Text.trimStart_of_not_blank (Text.isBlank_of_isWord word),
      Option.bind_some, readParts_cons, Part.read] at h
    -- the text behind the gap would begin with the word character
    cases letters : s.toList with
    | nil =>
      rw [letters] at leaves
      cases leaves
    | cons d w =>
      rw [letters] at h leaves
      have other : Text.isWord d = false := by simpa using leaves
      have ne : d ≠ c := by
        rintro rfl
        rw [word] at other
        cases other
      rw [Text.after?, if_neg ne] at h
      cases h

/-- **Reading gives nothing back** and need not. -/
theorem readParts_of_coverAll (steady : isSteady parts = true) (h : CoverAll parts cs) :
    (readParts parts cs).isSome = true := by
  induction parts generalizing cs with
  | nil => rfl
  | cons part parts ih =>
    have steady' := steady
    rw [isSteady, Bool.and_eq_true, Bool.and_eq_true] at steady'
    obtain ⟨⟨firm, leaves⟩, steady'⟩ := steady'
    obtain ⟨w, r, rfl, covers, later⟩ := h
    have later := ih steady' later
    rw [readParts_cons]
    cases part with
    | text s =>
      obtain rfl := covers
      rw [Part.read, Text.after?_eq_some_iff.mpr rfl]
      exact later
    | gap =>
      rw [Part.read, Text.trimStart_append_of_blank (List.all_eq_true.mp covers)]
      exact isSome_readParts_trimStart steady' leaves later
    | space =>
      obtain ⟨some, blank⟩ := covers
      obtain ⟨c, w, rfl⟩ := List.exists_cons_of_ne_nil some
      obtain ⟨first, blank⟩ := List.forall_mem_cons.mp (List.all_eq_true.mp blank)
      rw [List.cons_append, Part.read, if_pos first, Text.trimStart_append_of_blank blank]
      exact isSome_readParts_trimStart steady' leaves later
    | word =>
      obtain ⟨some, all⟩ := covers
      obtain ⟨c, w, rfl⟩ := List.exists_cons_of_ne_nil some
      obtain ⟨first, all⟩ := List.forall_mem_cons.mp all
      rw [List.cons_append, Part.read, if_pos first,
        Text.dropWhile_append_stop all (head?_of_leaves leaves later)]
      exact later
    | quoted s =>
      rw [Part.read_quoted_append covers (of_decide_eq_true leaves)]
      exact later
    | through c =>
      obtain ⟨x, rfl, none⟩ := covers
      have passed : ∀ d ∈ x, (d != c) = true := fun d hd =>
        bne_iff_ne.mpr fun same => none (same ▸ hd)
      rw [List.append_assoc, List.singleton_append, Part.read,
        Text.dropWhile_append_stop passed (by simp), List.tail?_cons]
      exact later

theorem readParts_iff (steady : isSteady parts = true) :
    (readParts parts cs).isSome = true ↔ CoverAll parts cs :=
  ⟨coverAll_of_readParts, readParts_of_coverAll steady⟩

end Steady

/-! ## The patterns of phrases -/

/-- The pattern of a phrase. -/
def Phrase.pattern (p : Phrase) : Pattern :=
  .seqOf ((if p.atBoundary then [.boundary] else []) ++ p.parts.flatMap Part.patterns)

/-- Whether the phrase is steady and starts with a character that it names. -/
def Phrase.isSteady (p : Phrase) : Bool :=
  match p.parts with
  | .text s :: _ => !s.toList.isEmpty && CSource.isSteady p.parts
  | _ => false

section Pattern

variable {p : Phrase}

theorem exists_way_pattern_iff (steady : isSteady p.parts = true) {place : Pattern.Place} :
    (∃ b, Way p.pattern ⟨place, []⟩ b) ↔ p.startsAt place.before place.rest = true := by
  have parts : ∀ a : Trail, (∃ b, Ways (p.parts.flatMap Part.patterns) a b) ↔
      (readParts p.parts a.place.rest).isSome = true :=
    fun a => exists_ways_iff.trans (readParts_iff steady).symm
  simp only [Phrase.pattern, way_seqOf_iff, ways_append_iff, Phrase.startsAt, Bool.and_eq_true]
  cases bound : p.atBoundary with
  | false =>
    simp only [Bool.false_eq_true, if_false, Ways, exists_eq_left, Bool.not_false, Bool.true_or,
      true_and]
    exact parts _
  | true =>
    simp only [if_true, Ways, way_boundary_iff, exists_eq_right', Bool.not_true, Bool.false_or]
    constructor
    · rintro ⟨b, m, ⟨there, rfl⟩, ways⟩
      exact ⟨there, (parts _).mp ⟨b, ways⟩⟩
    · rintro ⟨there, read⟩
      obtain ⟨b, ways⟩ := (parts ⟨place, []⟩).mpr read
      exact ⟨b, _, ⟨there, rfl⟩, ways⟩

theorem repeatsOnlyClasses_pattern (p : Phrase) : p.pattern.repeatsOnlyClasses = true := by
  have letters : ∀ s : String, ∀ q ∈ chars s, q.repeatsOnlyClasses = true := by
    intro s q hq
    obtain ⟨c, -, rfl⟩ := List.mem_map.mp hq
    rfl
  refine Pattern.repeatsOnlyClasses_seqOf (List.forall_mem_append.mpr ⟨?_, fun q hq => ?_⟩)
  · split
    · exact List.forall_mem_singleton.mpr rfl
    · exact List.forall_mem_nil _
  · obtain ⟨part, -, hq⟩ := List.mem_flatMap.mp hq
    cases part with
    | text s => exact letters s q hq
    | quoted s =>
      simp only [Part.patterns, List.mem_append, List.mem_cons, List.not_mem_nil, or_false] at hq
      rcases hq with ((rfl | rfl) | hq) | rfl | rfl
      · rfl
      · rfl
      · exact letters s q hq
      · rfl
      · rfl
    | through c =>
      simp only [Part.patterns, List.mem_cons, List.not_mem_nil, or_false] at hq
      rcases hq with rfl | rfl <;> rfl
    | gap | space | word =>
      cases List.mem_singleton.mp hq
      rfl

theorem isSome_matchAt?_iff (steady : isSteady p.parts = true) {place : Pattern.Place} :
    (p.pattern.matchAt? place).isSome = true ↔ p.startsAt place.before place.rest = true := by
  rw [← exists_way_pattern_iff steady, Option.isSome_iff_exists]
  constructor
  · rintro ⟨m, here⟩
    exact ⟨_, (Pattern.way_of_matchAt? here).2⟩
  · rintro ⟨b, way⟩
    exact Pattern.exists_matchAt? (repeatsOnlyClasses_pattern p) way

theorem Phrase.isSteady_parts (steady : p.isSteady = true) : CSource.isSteady p.parts = true := by
  rw [Phrase.isSteady] at steady
  split at steady
  · exact (Bool.and_eq_true_iff.mp steady).2
  · cases steady

/-- At the end of a text there is no first character. -/
theorem Phrase.startsAt_nil (steady : p.isSteady = true) (prev : Option Char) :
    p.startsAt prev [] = false := by
  rw [Phrase.isSteady] at steady
  split at steady
  · next s parts same =>
    obtain ⟨c, w, letters⟩ : ∃ c w, s.toList = c :: w := by
      refine List.exists_cons_of_ne_nil fun none => ?_
      rw [none] at steady
      cases steady
    rw [Phrase.startsAt, same, readParts_cons, Part.read, letters]
    exact Bool.and_false _
  · cases steady

/-- **The pattern is found where the phrase is.** -/
theorem Phrase.map_start_find? (steady : p.isSteady = true) (cs : List Char) :
    (p.pattern.find? (.start cs)).map (·.start) = p.find? cs := by
  have parts := isSteady_parts steady
  suffices h : ∀ (prev : Option Char) (pos : Nat),
      (p.pattern.findFrom pos prev cs).map (·.start) = p.findFrom prev pos cs from h none 0
  induction cs with
  | nil =>
    intro prev pos
    have none : ¬(p.pattern.matchAt? ⟨pos, prev, []⟩).isSome = true := by
      rw [isSome_matchAt?_iff parts, startsAt_nil steady]
      exact Bool.false_ne_true
    rw [Pattern.findFrom, Phrase.findFrom, Option.not_isSome_iff_eq_none.mp none]
    rfl
  | cons c r ih =>
    intro prev pos
    rw [Pattern.findFrom, Phrase.findFrom]
    have here : (p.pattern.matchAt? ⟨pos, prev, c :: r⟩).isSome = true ↔
        p.startsAt prev (c :: r) = true := isSome_matchAt?_iff parts
    cases found : p.pattern.matchAt? ⟨pos, prev, c :: r⟩ with
    | some m =>
      rw [found] at here
      rw [if_pos (here.mp rfl)]
      exact congrArg some (Pattern.way_of_matchAt? found).1
    | none =>
      rw [found] at here
      rw [if_neg fun starts => Bool.false_ne_true (here.mpr starts)]
      exact ih (some c) (pos + 1)

theorem Phrase.isSome_find?_pattern (steady : p.isSteady = true) (cs : List Char) :
    (p.pattern.find? (.start cs)).isSome = p.standsIn cs := by
  rw [Phrase.standsIn, ← map_start_find? steady, Option.isSome_map]

end Pattern

/-! ## How they are written -/

/-- The phrases that the checks look for, with their patterns as they are written. -/
def writtenPhrases : List (String × Phrase) :=
  [("\\bmain\\s*\\(", .call "main"), ("\\bprintf\\s*\\(", .call "printf"),
   ("\\bscanf\\s*\\(", .call "scanf"), ("\\bmalloc\\s*\\(", .call "malloc"),
   ("\\bfree\\s*\\(", .call "free"), ("\\bstrlen\\s*\\(", .call "strlen"),
   ("\\bstrcpy\\s*\\(", .call "strcpy"), ("\\bputs\\s*\\(", .call "puts"),
   ("\\bgets\\s*\\(", .call "gets"),
   ("\\bint\\s+main\\s*\\(", .mainOf "int"),
   ("\\bint\\s+main\\s*\\(\\s*void\\s*\\)", .mainOfNothing),
   ("#include\\s*<stdio\\.h>", .includes "stdio.h"),
   ("#include\\s*<stdlib\\.h>", .includes "stdlib.h"),
   ("#include\\s*<string\\.h>", .includes "string.h"),
   ("\\bprintf\\s*\\(\\s*\"[^\"]*\\\\n[^\"]*\"", .printedLineBreak),
   ("\\breturn\\s+0\\s*;", .zeroReturn),
   ("if\\s*\\(\\s*scanf\\s*\\(", .guardedScanf),
   ("fflush\\s*\\(\\s*stdout\\s*\\)", .flushOfOutput),
   ("printf\\s*\\(\\s*\"[^\"]*%s[^\"]*\"\\s*,\\s*[^)]*\\)", .printedString),
   ("char\\s+\\w+\\s*\\[", .arrayOfChars)]

theorem ofText_writtenPhrases :
    ∀ e ∈ writtenPhrases, (Pattern.ofText e.1.toList).toOption = some e.2.pattern := by
  decide +kernel

theorem isSteady_writtenPhrases : ∀ e ∈ writtenPhrases, e.2.isSteady = true := by
  decide +kernel

/-- **A phrase of the checks is found where its written pattern is.** -/
theorem map_start_find?_writtenPhrases : ∀ e ∈ writtenPhrases, ∀ p,
    Pattern.ofText e.1.toList = .ok p →
      ∀ cs, (p.find? (.start cs)).map (·.start) = e.2.find? cs := by
  intro e he p read cs
  have same := ofText_writtenPhrases e he
  rw [read] at same
  cases same
  exact Phrase.map_start_find? (isSteady_writtenPhrases e he) cs

/-! ## The definition of `main` -/

/-- What stands behind the result type of `main`. -/
def behindType : List Part :=
  [.space, .text "main", .gap, .text "("]

/-- One result type of `main` or the other. -/
def resultType : Pattern :=
  .seq .boundary (.alt (.seqOf (chars "int")) (.seqOf (chars "void")))

/-- A definition of `main`. Group 1 is its result type. -/
def mainDefinition : Pattern :=
  .seqOf (.group 1 resultType :: behindType.flatMap Part.patterns)

theorem ofText_mainDefinition :
    Pattern.ofText "(\\bint|\\bvoid)\\s+main\\s*\\(".toList = .ok mainDefinition := by
  rw [String.toList_ofList]
  decide +kernel

theorem way_resultType_iff {a b : Trail} : Way resultType a b ↔
    Text.isBoundary a.place.before a.place.rest.head? = true ∧
      (a.Reads "int".toList b ∨ a.Reads "void".toList b) := by
  constructor
  · intro way
    cases way with
    | seq head tail =>
      obtain ⟨bound, rfl⟩ := way_boundary_iff.mp head
      refine ⟨bound, ?_⟩
      cases tail with
      | altLeft way => exact .inl (ways_chars_iff.mp (way_seqOf_iff.mp way))
      | altRight way => exact .inr (ways_chars_iff.mp (way_seqOf_iff.mp way))
  · rintro ⟨bound, reads | reads⟩
    · exact .seq (.boundary bound) (.altLeft (way_seqOf_iff.mpr (ways_chars_iff.mpr reads)))
    · exact .seq (.boundary bound) (.altRight (way_seqOf_iff.mpr (ways_chars_iff.mpr reads)))

/-- A way to define `main` goes over one of the result types. -/
theorem exists_way_mainDefinition_iff {place : Pattern.Place} :
    (∃ b, Way mainDefinition ⟨place, []⟩ b) ↔
      (∃ b, Way (Phrase.mainOf "int").pattern ⟨place, []⟩ b) ∨
        ∃ b, Way (Phrase.mainOf "void").pattern ⟨place, []⟩ b := by
  have named : ∀ type : String, (∃ b, Way (Phrase.mainOf type).pattern ⟨place, []⟩ b) ↔
      Text.isBoundary place.before place.rest.head? = true ∧ ∃ m : Trail,
        Trail.Reads ⟨place, []⟩ type.toList m ∧ CoverAll behindType m.place.rest := by
    intro type
    have shape : (Phrase.mainOf type).pattern =
        .seqOf ([.boundary] ++ (chars type ++ behindType.flatMap Part.patterns)) := rfl
    simp only [shape, way_seqOf_iff, ways_append_iff, Pattern.ways_singleton_iff, way_boundary_iff,
      ways_chars_iff, ← exists_ways_iff]
    constructor
    · rintro ⟨b, _, ⟨bound, rfl⟩, m, reads, ways⟩
      exact ⟨bound, m, reads, b, ways⟩
    · rintro ⟨bound, m, reads, b, ways⟩
      exact ⟨b, _, ⟨bound, rfl⟩, m, reads, ways⟩
  have both : (∃ b, Way mainDefinition ⟨place, []⟩ b) ↔
      Text.isBoundary place.before place.rest.head? = true ∧ ∃ m : Trail,
        (Trail.Reads ⟨place, []⟩ "int".toList m ∨ Trail.Reads ⟨place, []⟩ "void".toList m) ∧
          CoverAll behindType m.place.rest := by
    simp only [mainDefinition, way_seqOf_iff, ways_cons_iff, Pattern.way_group_iff,
      way_resultType_iff]
    -- what can be read behind the group does not depend on the group
    have behind : ∀ m : Trail, (∃ b, Ways (behindType.flatMap Part.patterns)
        ⟨m.place, ⟨1, place.position, m.place.position⟩ :: m.spans⟩ b) ↔
        CoverAll behindType m.place.rest := fun m => exists_ways_iff
    constructor
    · rintro ⟨b, _, ⟨m, ⟨bound, reads⟩, rfl⟩, ways⟩
      exact ⟨bound, m, reads, (behind m).mp ⟨b, ways⟩⟩
    · rintro ⟨bound, m, reads, later⟩
      obtain ⟨b, ways⟩ := (behind m).mpr later
      exact ⟨b, _, ⟨m, ⟨bound, reads⟩, rfl⟩, ways⟩
  rw [named, named, both, ← and_or_left, ← exists_or]
  simp only [or_and_right]

/-- **`main` is defined** just if the pattern of its definition is found, as it is written. -/
theorem isSome_find?_mainDefinition : ∀ p,
    Pattern.ofText "(\\bint|\\bvoid)\\s+main\\s*\\(".toList = .ok p →
      ∀ cs, (p.find? (.start cs)).isSome = definesMain cs := by
  intro p read cs
  cases ofText_mainDefinition.symm.trans read
  have simple : mainDefinition.repeatsOnlyClasses = true := by decide +kernel
  have steady : ∀ type ∈ ["int", "void"], (Phrase.mainOf type).isSteady = true := by decide +kernel
  rw [Bool.eq_iff_iff, Pattern.isSome_find?_iff simple, definesMain, Bool.or_eq_true,
    ← Phrase.isSome_find?_pattern (steady "int" (by simp)),
    ← Phrase.isSome_find?_pattern (steady "void" (by simp)),
    Pattern.isSome_find?_iff (repeatsOnlyClasses_pattern _),
    Pattern.isSome_find?_iff (repeatsOnlyClasses_pattern _)]
  simp only [exists_way_mainDefinition_iff, and_or_left, exists_or]

end LiveLint.CSource
