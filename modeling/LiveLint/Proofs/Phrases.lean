import LiveLint.Wording
import Mathlib.Data.List.Basic

/-!
# Phrases in messages that show texts

A message is put together from fixed words and from texts that it shows, names and paths that its
author never saw. What phrases it has can be told from the pieces, as long as none is cut: a phrase
must not begin at the end of some words and go on in the text behind them, and it must not go on
behind the mark that ends a text.

`fill` puts a message together, and `anyOccurs_fill` says that it has a phrase if some of its words
have it, or one of its texts with the mark behind it.
-/

namespace LiveLint.Wording

/-- Words, texts or phrases, letter by letter. -/
def spell (words : List String) : List (List Char) :=
  words.map String.toList

/-- Whether one of the phrases is in a text. -/
def anyOccurs (phrases : List (List Char)) (text : List Char) : Bool :=
  phrases.any (Text.occurs · text)

theorem anyOccurs_iff {phrases : List (List Char)} {text : List Char} :
    anyOccurs phrases text = true ↔ ∃ phrase ∈ phrases, phrase <:+: text := by
  simp [anyOccurs, Text.occurs_iff]

theorem hasAnyOf_eq (phrases : List String) :
    hasAnyOf phrases = anyOccurs (spell phrases) := by
  funext text
  rw [hasAnyOf, anyOccurs, spell, List.any_map]
  rfl

/-- A text is without phrases if it is without a character that they all have. -/
theorem hasAnyOf_eq_false_of_not_mem {phrases : List String} {text : List Char} {c : Char}
    (all : ∀ phrase ∈ phrases, c ∈ phrase.toList) (none : c ∉ text) :
    hasAnyOf phrases text = false := by
  rw [← Bool.not_eq_true, hasAnyOf_iff]
  rintro ⟨phrase, hphrase, inside⟩
  exact none (inside.subset (all phrase hphrase))

/-! ## Phrases at a cut -/

/-- Whether a phrase begins at the end of the words and is not over there. -/
def beginsIn (phrases : List (List Char)) (words : List Char) : Bool :=
  phrases.any fun phrase => (List.range phrase.length).any fun n =>
    0 < n && (phrase.take n).isSuffixOf words

/-- Whether two characters are neighbours in a phrase. -/
def areJoined (phrases : List (List Char)) (c d : Char) : Bool :=
  phrases.any (Text.occurs [c, d])

section Cut

variable {phrases : List (List Char)} {words rest : List Char}

theorem anyOccurs_append_left (h : anyOccurs phrases words = true) (rest : List Char) :
    anyOccurs phrases (words ++ rest) = true := by
  rw [anyOccurs_iff] at h ⊢
  obtain ⟨phrase, hphrase, inside⟩ := h
  exact ⟨phrase, hphrase, inside.trans (List.prefix_append _ rest).isInfix⟩

theorem anyOccurs_append_right (words : List Char) (h : anyOccurs phrases rest = true) :
    anyOccurs phrases (words ++ rest) = true := by
  rw [anyOccurs_iff] at h ⊢
  obtain ⟨phrase, hphrase, inside⟩ := h
  exact ⟨phrase, hphrase, inside.trans (List.suffix_append words _).isInfix⟩

/-- Where no phrase is cut, the pieces have the phrases that the whole has. -/
theorem anyOccurs_append_of_uncut
    (uncut : ∀ phrase ∈ phrases, ∀ head tail, phrase = head ++ tail → head ≠ [] →
      tail ≠ [] → head <:+ words → ¬tail <+: rest) :
    anyOccurs phrases (words ++ rest) = (anyOccurs phrases words || anyOccurs phrases rest) := by
  rw [Bool.eq_iff_iff, Bool.or_eq_true]
  constructor
  · intro whole
    obtain ⟨phrase, hphrase, inside⟩ := anyOccurs_iff.mp whole
    rw [anyOccurs_iff, anyOccurs_iff]
    rcases List.infix_append_iff.mp inside with left | right | ⟨head, tail, cut, left, right⟩
    · exact Or.inl ⟨phrase, hphrase, left⟩
    · exact Or.inr ⟨phrase, hphrase, right⟩
    · by_cases first : head = []
      · rw [first, List.nil_append] at cut
        exact Or.inr ⟨phrase, hphrase, cut ▸ right.isInfix⟩
      · by_cases last : tail = []
        · rw [last, List.append_nil] at cut
          exact Or.inl ⟨phrase, hphrase, cut ▸ left.isInfix⟩
        · exact absurd right (uncut phrase hphrase head tail cut first last left)
  · rintro (left | right)
    · exact anyOccurs_append_left left rest
    · exact anyOccurs_append_right words right

theorem anyOccurs_append_of_beginsIn (h : beginsIn phrases words = false) (rest : List Char) :
    anyOccurs phrases (words ++ rest) = (anyOccurs phrases words || anyOccurs phrases rest) := by
  apply anyOccurs_append_of_uncut
  intro phrase hphrase head tail cut first last left _
  have begun : beginsIn phrases words = true := by
    refine List.any_eq_true.mpr ⟨phrase, hphrase, List.any_eq_true.mpr ⟨head.length, ?_, ?_⟩⟩
    · have := List.length_pos_iff.mpr last
      rw [cut, List.mem_range, List.length_append]
      omega
    · rw [cut, List.take_left, Bool.and_eq_true, List.isSuffixOf_iff_suffix]
      exact ⟨decide_eq_true (List.length_pos_iff.mpr first), left⟩
  rw [h] at begun
  cases begun

theorem anyOccurs_append_of_areJoined {mark : Char}
    (h : ∀ c ∈ rest.head?, areJoined phrases mark c = false) :
    anyOccurs phrases (words ++ mark :: rest) =
      (anyOccurs phrases (words ++ [mark]) || anyOccurs phrases rest) := by
  rw [List.append_cons]
  apply anyOccurs_append_of_uncut
  intro phrase hphrase head tail cut first last left right
  -- the phrase has the mark and the first character behind it side by side
  obtain ⟨head, c, rfl⟩ : ∃ front c, head = front ++ [c] :=
    ⟨_, _, (List.dropLast_concat_getLast first).symm⟩
  obtain ⟨d, tail, rfl⟩ := List.exists_cons_of_ne_nil last
  obtain rfl : c = mark := by
    obtain ⟨front, whole⟩ := left
    have ends := congrArg List.getLast? whole
    rw [← List.append_assoc, List.getLast?_concat, List.getLast?_concat] at ends
    exact Option.some.inj ends
  have behind : d ∈ rest.head? := by
    obtain ⟨back, whole⟩ := right
    rw [← whole]
    rfl
  have joined : areJoined phrases c d = true := by
    refine List.any_eq_true.mpr ⟨phrase, hphrase, Text.occurs_iff.mpr ⟨head, tail, ?_⟩⟩
    rw [cut]
    simp
  rw [h d behind] at joined
  cases joined

end Cut

/-! ## Messages -/

/-- A message of fixed words with texts between them. -/
def fill : List String → List String → String
  | words :: more, text :: texts => words ++ text ++ fill more texts
  | words :: _, [] => words
  | [], _ => ""

/-- The character that ends a text in a message: the first of the words behind it. -/
def markOf (words : List Char) : List Char :=
  words.take 1

/-- The texts of a message, each with the mark that ends it. -/
def marked (words texts : List (List Char)) : List (List Char) :=
  List.zipWith (fun text behind => text ++ markOf behind) texts words.tail

/-- Whether words set a text off: no phrase goes on behind their mark. A mark alone does where
nothing follows it. -/
def setsOff (phrases : List (List Char)) (words : List Char) (isLast : Bool) : Bool :=
  match words with
  | mark :: c :: _ => !areJoined phrases mark c
  | [_] => isLast
  | [] => false

/-- Whether no phrase is cut where a text stands between the words. -/
def areApart (phrases : List (List Char)) : List (List Char) → Bool
  | words :: behind :: more =>
    !beginsIn phrases words && setsOff phrases behind more.isEmpty &&
      areApart phrases (behind :: more)
  | _ => true

section Fill

variable {phrases : List (List Char)} {words texts : List String} {behind : String}

theorem fill_two_texts (first second third text other : String) :
    fill [first, second, third] [text, other] = first ++ text ++ second ++ other ++ third := by
  rw [fill, fill, fill, String.append_assoc, String.append_assoc, String.append_assoc,
    String.append_assoc, String.append_assoc]

/-- A message opens with its first words. -/
theorem isPrefix_fill (first : String) (words texts : List String) :
    first.toList <+: (fill (first :: words) texts).toList := by
  cases texts with
  | nil => exact List.prefix_rfl
  | cons text texts =>
    rw [fill, String.toList_append, String.toList_append, List.append_assoc]
    exact List.prefix_append _ _

/-- A message is about the kind that its first words are about. -/
theorem isAbout_fill {kind : SourceKind} (opening : (spell words).head?.any (isAbout kind) = true)
    (texts : List String) : isAbout kind (fill words texts).toList = true := by
  cases words with
  | nil => cases opening
  | cons first words =>
    have tagged : isAbout kind first.toList = true := opening
    rw [isAbout, List.isPrefixOf_iff_prefix] at tagged ⊢
    exact tagged.trans (isPrefix_fill first words texts)

/-- Words that set a text off are not empty, and no phrase goes on behind their mark. -/
theorem exists_mark (length : texts.length = words.length)
    (off : setsOff phrases behind.toList words.isEmpty = true) :
    ∃ mark rest, markOf behind.toList = [mark] ∧
      (fill (behind :: words) texts).toList = mark :: rest ∧
      ∀ c ∈ rest.head?, areJoined phrases mark c = false := by
  obtain ⟨rest, whole⟩ := isPrefix_fill behind words texts
  rw [← whole]
  match letters : behind.toList, off with
  | [mark], off =>
    -- a mark alone is the end of the message
    obtain rfl := List.isEmpty_iff.mp off
    obtain rfl := List.length_eq_zero_iff.mp length
    obtain rfl : rest = [] := List.append_right_eq_self.mp whole
    exact ⟨mark, [], rfl, rfl, by simp⟩
  | mark :: c :: more, off =>
    refine ⟨mark, c :: more ++ rest, rfl, rfl, ?_⟩
    rintro d ⟨⟩
    exact (Bool.not_eq_true' _).mp off

/-- A text that is set off has its phrases, with its mark, and what stands behind has its own. -/
theorem anyOccurs_append_fill (length : texts.length = words.length)
    (off : setsOff phrases behind.toList words.isEmpty = true) (shown : List Char) :
    anyOccurs phrases (shown ++ (fill (behind :: words) texts).toList) =
      (anyOccurs phrases (shown ++ markOf behind.toList) ||
        anyOccurs phrases (fill (behind :: words) texts).toList) := by
  obtain ⟨mark, rest, hmark, whole, parted⟩ := exists_mark length off
  rw [hmark, whole, anyOccurs_append_of_areJoined parted]
  -- a phrase that is the mark alone is in the text with its mark as well
  have alone : anyOccurs phrases ([] ++ mark :: rest) =
      (anyOccurs phrases ([] ++ [mark]) || anyOccurs phrases rest) :=
    anyOccurs_append_of_areJoined parted
  rw [List.nil_append, List.nil_append] at alone
  rw [alone]
  cases both : anyOccurs phrases [mark] with
  | false => rw [Bool.false_or]
  | true => rw [anyOccurs_append_right shown both, Bool.true_or, Bool.true_or]

/-- **A message has a phrase** if some of its words have it, or one of its texts with the mark
behind it, where no phrase is cut. -/
theorem anyOccurs_fill (length : texts.length + 1 = words.length)
    (apart : areApart phrases (spell words) = true) :
    anyOccurs phrases (fill words texts).toList =
      ((spell words).any (anyOccurs phrases) ||
        (marked (spell words) (spell texts)).any (anyOccurs phrases)) := by
  induction texts generalizing words with
  | nil =>
    obtain ⟨first, rfl⟩ := List.length_eq_one_iff.mp length.symm
    simp [fill, marked, spell]
  | cons text texts ih =>
    obtain ⟨first, behind, more, rfl⟩ : ∃ first behind more, words = first :: behind :: more := by
      match words, length with
      | first :: behind :: more, _ => exact ⟨first, behind, more, rfl⟩
    have counted : texts.length = more.length := by
      simp only [List.length_cons] at length
      omega
    have unfolded : (!beginsIn phrases first.toList &&
        setsOff phrases behind.toList (spell more).isEmpty &&
        areApart phrases (spell (behind :: more))) = true := apart
    rw [Bool.and_eq_true, Bool.and_eq_true, Bool.not_eq_true', spell, List.isEmpty_map] at unfolded
    obtain ⟨⟨uncut, off⟩, apart⟩ := unfolded
    have rest := ih (by rw [List.length_cons, counted]) apart
    rw [fill, String.toList_append, String.toList_append, List.append_assoc,
      anyOccurs_append_of_beginsIn uncut, anyOccurs_append_fill counted off, rest]
    show _ =
      ((anyOccurs phrases first.toList || (spell (behind :: more)).any (anyOccurs phrases)) ||
      (anyOccurs phrases (text.toList ++ markOf behind.toList) ||
        (marked (spell (behind :: more)) (spell texts)).any (anyOccurs phrases)))
    ac_rfl

end Fill

end LiveLint.Wording
