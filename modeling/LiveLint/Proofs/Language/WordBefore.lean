import LiveLint.Language.Profile
import LiveLint.Proofs.Bytes
import LiveLint.Proofs.Lines
import LiveLint.Proofs.Pattern.Anchored

/-!
# The word before the cursor

The word that a text ends in is its longest end of word characters (`EndsIn`), which is what
`wordBefore` reads, backwards from the end (`endsIn_wordBefore`). It can be found forwards as well,
with a pattern that is tried at one place after the other and reaches to the end of the text.
`exists_find?_wordPattern` says that the first place where it matches is the start of the word:
further in front there is a character in the way, and further behind nothing is tried any more.
-/

namespace LiveLint.Language

open Pattern

/-! ## Ends of texts -/

/-- A character that words are written with. -/
def InWord (c : Char) : Prop :=
  ('A' ≤ c ∧ c ≤ 'Z') ∨ ('a' ≤ c ∧ c ≤ 'z') ∨ ('0' ≤ c ∧ c ≤ '9') ∨ c ∈ ['_', '.', '/', '-']

theorem isWordPart_iff {c : Char} : isWordPart c = true ↔ InWord c := by
  simp only [isWordPart, Char.isAlphanum, Text.isAlpha_eq, Text.isUpper_eq, Text.isLower_eq,
    Char.isDigit, Bool.or_eq_true, Bool.and_eq_true, decide_eq_true_eq, beq_iff_eq, InWord,
    List.mem_cons, List.not_mem_nil, or_false, or_assoc]
  rfl

instance (c : Char) : Decidable (InWord c) :=
  decidable_of_iff _ isWordPart_iff

/-- The longest end of a text that is written with word characters. -/
structure EndsIn (cs word : List Char) : Prop where
  isSuffix : word <:+ cs
  all : ∀ c ∈ word, InWord c
  longest : ∀ other, other <:+ cs → (∀ c ∈ other, InWord c) → other.length ≤ word.length

section EndsIn

variable {cs front word : List Char}

theorem EndsIn.eq_of_endsIn {other : List Char} (h : EndsIn cs word) (h' : EndsIn cs other) :
    word = other := by
  have le := h'.longest word h.isSuffix h.all
  have ge := h.longest other h'.isSuffix h'.all
  exact (List.suffix_of_suffix_length_le h.isSuffix h'.isSuffix le).eq_of_length (by omega)

/-- A text ends in the word behind its last character that is none of a word. -/
theorem endsIn_append (all : ∀ c ∈ word, InWord c) (stop : ∀ c ∈ front.getLast?, ¬InWord c) :
    EndsIn (front ++ word) word where
  isSuffix := List.suffix_append front word
  all := all
  longest := by
    intro other ends others
    by_contra longer
    -- a longer end would reach the last character of what stands in front
    rw [Nat.not_le] at longer
    obtain ⟨more, rfl⟩ : word <:+ other :=
      List.suffix_of_suffix_length_le (List.suffix_append front word) ends (Nat.le_of_lt longer)
    obtain ⟨further, whole⟩ := ends
    rw [← List.append_assoc] at whole
    cases List.append_cancel_right whole
    rcases List.eq_nil_or_concat' more with rfl | ⟨start, last, rfl⟩
    · exact absurd longer (Nat.lt_irrefl _)
    · refine stop last ?_ (others last (by simp))
      rw [← List.append_assoc, List.getLast?_concat]
      rfl

/-- What stands in front of the word does not end in a word character. -/
theorem EndsIn.exists_front (h : EndsIn cs word) :
    ∃ front, cs = front ++ word ∧ ∀ c ∈ front.getLast?, ¬InWord c := by
  obtain ⟨front, rfl⟩ := h.isSuffix
  refine ⟨front, rfl, ?_⟩
  intro c last inWord
  obtain ⟨start, rfl⟩ := List.getLast?_eq_some_iff.mp last
  have longer := h.longest (c :: word) ⟨start, by simp⟩ (by simpa using ⟨inWord, h.all⟩)
  exact absurd longer (Nat.not_succ_le_self _)

/-- **Reading backwards** gives the word. -/
theorem endsIn_wordBefore (cs : List Char) : EndsIn cs (wordBefore cs) := by
  have run := Text.run_takeWhile isWordPart cs.reverse
  have parted : cs = (cs.reverse.dropWhile isWordPart).reverse ++ wordBefore cs := by
    rw [wordBefore, ← List.reverse_append, List.takeWhile_append_dropWhile, List.reverse_reverse]
  have word : EndsIn ((cs.reverse.dropWhile isWordPart).reverse ++ wordBefore cs)
      (wordBefore cs) := by
    refine endsIn_append ?_ ?_
    · intro c hc
      exact isWordPart_iff.mp (run.all c (List.mem_reverse.mp hc))
    · intro c hc inWord
      rw [List.getLast?_reverse] at hc
      exact Bool.false_ne_true ((run.ends c hc).symm.trans (isWordPart_iff.mpr inWord))
  rwa [← parted] at word

theorem wordBefore_eq_of_endsIn (h : EndsIn cs word) : wordBefore cs = word :=
  (endsIn_wordBefore cs).eq_of_endsIn h

end EndsIn

/-! ## Reading forwards -/

/-- The parts of the class of word characters. -/
def wordItems : List ClassItem :=
  [.range 'A' 'Z', .range 'a' 'z', .range '0' '9', .single '_', .single '.', .single '/',
   .single '-']

/-- Word characters up to the end of the text. -/
def wordPattern : Pattern := .seq (.plus true (oneOf wordItems)) .stop

/-- How it is written. -/
theorem ofText_wordPattern : Pattern.ofText "[A-Za-z0-9_./-]+$".toList = .ok wordPattern := by
  rw [String.toList_ofList]
  decide +kernel

theorem word_holds_iff {c : Char} : CharClass.holds ⟨false, wordItems⟩ c = true ↔ InWord c := by
  have single : ∀ d, (d == c) = true ↔ c = d := fun d => beq_iff_eq.trans eq_comm
  simp only [CharClass.holds, wordItems, List.any_cons, List.any_nil, ClassItem.holds,
    Bool.or_false, Bool.bne_false, Bool.or_eq_true, Bool.and_eq_true, decide_eq_true_eq, single,
    InWord, List.mem_cons, List.not_mem_nil, or_false]

section Forwards

variable {cs front word : List Char} {a b : Trail} {m : Match}

theorem way_wordPattern_iff :
    Way wordPattern a b ↔
      ∃ w, w ≠ [] ∧ (∀ c ∈ w, InWord c) ∧ a.Reads w b ∧ b.place.rest = [] := by
  constructor
  · intro way
    cases way with
    | seq head tail =>
      obtain ⟨w, some, all, reads⟩ := way_plus_one_iff.mp head
      obtain ⟨last, rfl⟩ := way_stop_iff.mp tail
      exact ⟨w, some, fun c hc => word_holds_iff.mp (all c hc), reads, last⟩
  · rintro ⟨w, some, all, reads, last⟩
    exact .seq
      (way_plus_one_iff.mpr ⟨w, some, fun c hc => word_holds_iff.mpr (all c hc), reads⟩)
      (way_stop_iff.mpr ⟨last, rfl⟩)

/-- Where the pattern matches, some end of the text is written with word characters, and no more
than the word is. -/
theorem EndsIn.of_matchAt? (h : EndsIn cs word) {v : List Char} {place : Place}
    (reads : (Place.start cs).Reads v place) (here : wordPattern.matchAt? place = some m) :
    ∃ w, w ≠ [] ∧ cs = v ++ w ∧ w.length ≤ word.length ∧ m.start = v.length ∧
      m.stop = cs.length := by
  obtain ⟨starts, way⟩ := way_of_matchAt? here
  obtain ⟨w, some, all, further, last⟩ := way_wordPattern_iff.mp way
  have whole : cs = v ++ w := by
    have text : cs = v ++ place.rest := reads.rest
    rw [text, further.place.rest, last, List.append_nil]
  refine ⟨w, some, whole, h.longest w ⟨v, whole.symm⟩ all, ?_, ?_⟩
  · rw [starts, reads.position]
    exact Nat.zero_add _
  · have stop : m.stop = place.position + w.length := further.place.position
    rw [stop, reads.position, whole, List.length_append]
    exact congrArg (· + w.length) (Nat.zero_add _)

theorem find?_wordPattern_of_endsIn_nil (h : EndsIn cs []) :
    wordPattern.find? (.start cs) = none := by
  cases found : wordPattern.find? (.start cs) with
  | none => rfl
  | some m =>
    obtain ⟨v, place, reads, here⟩ := exists_place_of_find? found
    obtain ⟨w, some, -, short, -⟩ := h.of_matchAt? reads here
    exact absurd (List.length_eq_zero_iff.mp (Nat.le_zero.mp short)) some

/-- **Reading forwards** finds the word, if there is one. -/
theorem exists_find?_wordPattern (h : EndsIn cs word) (text : cs = front ++ word)
    (written : word ≠ []) :
    ∃ m, wordPattern.find? (.start cs) = some m ∧ m.start = front.length ∧ m.stop = cs.length := by
  obtain ⟨place, reads, rest⟩ := Place.exists_reads (a := .start cs) text
  obtain ⟨last, further, done⟩ :=
    Trail.exists_reads (a := ⟨place, []⟩) (w := word) (r := []) (by rw [rest, List.append_nil])
  have way : Way wordPattern ⟨place, []⟩ last :=
    way_wordPattern_iff.mpr ⟨word, written, h.all, further, done⟩
  obtain ⟨m, here⟩ := exists_matchAt? (p := wordPattern) rfl way
  obtain ⟨-, -, -, -, starts, stops⟩ := h.of_matchAt? reads here
  refine ⟨m, find?_of_first reads here ?_, starts, stops⟩
  intro v earlier inside proper reads'
  cases there : wordPattern.matchAt? earlier with
  | none => rfl
  | some m' =>
    -- from further in front, more than the word would be read
    obtain ⟨w, -, whole, short, -⟩ := h.of_matchAt? reads' there
    have lengths := congrArg List.length (text.symm.trans whole)
    rw [List.length_append, List.length_append] at lengths
    have same : v.length = front.length := by
      have := inside.length_le
      omega
    exact absurd (inside.eq_of_length same) proper

end Forwards

end LiveLint.Language
