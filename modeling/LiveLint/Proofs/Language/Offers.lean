import LiveLint.Proofs.Language.WordBefore
import LiveLint.Proofs.Lists
import Mathlib.Logic.ExistsUnique

/-!
# What is offered before the cursor

An offer is known from the text in front of the cursor alone: from the word that the text ends in
and, where there is none, from its last character. `Answers` says what the offer has to be, by the
word and not by the way it is found, and `answers_offerAfter` that it is so after every text, for
every vocabulary. Looking for the word with its pattern gives the same offer
(`offerByPattern_eq`).
-/

namespace LiveLint.Language

open Pattern

/-! ## Which candidates meet a word -/

/-- Whether a label goes on as the word does, with or without the brackets and hashes that it opens
with. -/
def Candidate.Meets (c : Candidate) (word : List Char) : Prop :=
  word <+: c.label.toList ∨
    ∃ opening rest, c.label.toList = opening ++ rest ∧ (∀ d ∈ opening, d ∈ ['[', '#']) ∧
      (∀ d ∈ rest.head?, d ∉ ['[', '#']) ∧ word <+: rest

theorem Candidate.isOpening_iff {d : Char} : isOpening d = true ↔ d ∈ ['[', '#'] := by
  rw [isOpening, Bool.or_eq_true, beq_iff_eq, beq_iff_eq, List.mem_pair]

theorem Candidate.fits_iff {c : Candidate} {word : List Char} :
    c.fits word = true ↔ c.Meets word := by
  rw [fits, Bool.or_eq_true, List.isPrefixOf_iff_prefix, List.isPrefixOf_iff_prefix, Meets]
  refine or_congr_right ⟨?_, ?_⟩
  · intro begins
    have run := Text.run_takeWhile isOpening c.label.toList
    refine ⟨_, _, List.takeWhile_append_dropWhile.symm, ?_, ?_, begins⟩
    · exact fun d hd => isOpening_iff.mp (run.all d hd)
    · intro d hd opens
      exact Bool.false_ne_true ((run.ends d hd).symm.trans (isOpening_iff.mpr opens))
  · rintro ⟨opening, rest, label, all, ends, begins⟩
    have run : Text.Run isOpening opening rest := by
      refine ⟨fun d hd => isOpening_iff.mpr (all d hd), fun d hd => ?_⟩
      rw [← Bool.not_eq_true, isOpening_iff]
      exact ends d hd
    rwa [label, run.dropWhile_eq]

instance (c : Candidate) (word : List Char) : Decidable (c.Meets word) :=
  decidable_of_iff _ Candidate.fits_iff

/-! ## Offers -/

namespace Vocabulary

/-- What is offered after a text whose word is looked for with a pattern. -/
def offerByPattern (v : Vocabulary) (before : String) (onRequest : Bool) : Option Offer :=
  let cs := before.toList
  match wordPattern.find? (.start cs) with
  | some m =>
    let word := slice cs m.start m.stop
    some ⟨Text.bytesBefore cs m.start, String.ofList word, v.candidates.filter (·.fits word)⟩
  | none =>
    if onRequest || opensAfter cs then some ⟨Text.byteLength cs, "", v.candidates⟩ else none

/-- What has to be offered after a text. -/
structure Answers (v : Vocabulary) (before : String) (onRequest : Bool) (offer? : Option Offer) :
    Prop where
  /-- The text ends in one word, which may have no characters. -/
  one : ∃! word, EndsIn before.toList word
  /-- Behind a word the candidates are offered that meet it, in their order. -/
  behind_word : ∀ word, EndsIn before.toList word → word ≠ [] →
    ∃ offer, offer? = some offer ∧ offer.word.toList = word ∧
      offer.start + offer.word.utf8ByteSize = before.utf8ByteSize ∧
      offer.items = v.candidates.filter (·.Meets word)
  /-- Behind no word all candidates are offered on request and behind a bracket. -/
  behind_none : EndsIn before.toList [] → onRequest = true ∨ before.toList.getLast? = some '[' →
    offer? = some ⟨before.utf8ByteSize, "", v.candidates⟩
  /-- Else nothing is offered. -/
  silent : EndsIn before.toList [] → ¬(onRequest = true ∨ before.toList.getLast? = some '[') →
    offer? = none
  /-- A point at the end is a word or its end. -/
  behind_point : before.toList.getLast? = some '.' → ∀ word, EndsIn before.toList word → word ≠ []

section Offers

variable {v : Vocabulary} {before : String} {onRequest : Bool} {word : List Char}

/-- A text that ends in no word does not end in a word character. -/
theorem not_inWord_of_endsIn_nil {cs : List Char} (h : EndsIn cs []) {c : Char}
    (last : cs.getLast? = some c) : ¬InWord c := by
  obtain ⟨front, rfl, stop⟩ := h.exists_front
  rw [List.append_nil] at last
  exact stop c last

theorem opensAfter_iff {cs : List Char} (h : EndsIn cs []) :
    opensAfter cs = true ↔ cs.getLast? = some '[' := by
  have point : cs.getLast? ≠ some '.' := by
    intro last
    exact not_inWord_of_endsIn_nil h last (by decide)
  rw [opensAfter]
  cases last : cs.getLast? with
  | none => simp
  | some c =>
    rw [last, Ne, Option.some.injEq] at point
    simp [point]

theorem offerAfter_of_word (h : EndsIn before.toList word) (written : word ≠ []) :
    v.offerAfter before onRequest =
      some ⟨Text.byteLength before.toList - Text.byteLength word, String.ofList word,
        v.candidates.filter (·.fits word)⟩ := by
  rw [offerAfter, wordBefore_eq_of_endsIn h, if_neg (by simpa using written)]

theorem offerAfter_of_none (h : EndsIn before.toList []) :
    v.offerAfter before onRequest =
      if onRequest = true ∨ before.toList.getLast? = some '[' then
        some ⟨before.utf8ByteSize, "", v.candidates⟩
      else none := by
  rw [offerAfter, wordBefore_eq_of_endsIn h, if_pos List.isEmpty_nil]
  simp only [Bool.or_eq_true, opensAfter_iff h, Text.byteLength_toList]

/-- **The pattern leads to the same offer.** -/
theorem offerByPattern_eq (v : Vocabulary) (before : String) (onRequest : Bool) :
    v.offerByPattern before onRequest = v.offerAfter before onRequest := by
  have h := endsIn_wordBefore before.toList
  generalize wordBefore before.toList = word at h
  by_cases written : word = []
  · subst written
    rw [offerByPattern, find?_wordPattern_of_endsIn_nil h, offerAfter, wordBefore_eq_of_endsIn h]
    rfl
  · obtain ⟨front, whole, -⟩ := h.exists_front
    obtain ⟨m, found, starts, stops⟩ := exists_find?_wordPattern h whole written
    have cut : slice before.toList m.start m.stop = word := by
      rw [slice, starts, stops, whole, List.drop_left, List.length_append, Nat.add_sub_cancel_left,
        List.take_length]
    have bytes : Text.bytesBefore before.toList m.start =
        Text.byteLength before.toList - Text.byteLength word := by
      rw [Text.bytesBefore, starts, whole, List.take_left, Text.byteLength_append,
        Nat.add_sub_cancel]
    rw [offerByPattern, found, offerAfter_of_word h written]
    simp only [cut, bytes]

/-- **What is offered is exact**, whichever way the word is found, and the pattern that finds it is
the one that is written. -/
theorem answers_offerAfter (v : Vocabulary) (before : String) (onRequest : Bool) :
    v.Answers before onRequest (v.offerAfter before onRequest) ∧
      Pattern.ofText "[A-Za-z0-9_./-]+$".toList = .ok wordPattern ∧
      v.offerByPattern before onRequest = v.offerAfter before onRequest := by
  refine ⟨⟨?_, ?_, ?_, ?_, ?_⟩, ofText_wordPattern, offerByPattern_eq v before onRequest⟩
  · exact ⟨_, endsIn_wordBefore _, fun other h => (wordBefore_eq_of_endsIn h).symm⟩
  · intro word h written
    refine ⟨_, offerAfter_of_word h written, String.toList_ofList, ?_, ?_⟩
    · obtain ⟨front, whole, -⟩ := h.exists_front
      rw [← Text.byteLength_toList, ← Text.byteLength_toList, String.toList_ofList, whole,
        Text.byteLength_append, Nat.add_sub_cancel]
    · refine List.filter_congr fun c _ => ?_
      rw [Bool.eq_iff_iff, Candidate.fits_iff, decide_eq_true_iff]
  · intro none opens
    rw [offerAfter_of_none none, if_pos opens]
  · intro none closed
    rw [offerAfter_of_none none, if_neg closed]
  · rintro point word h rfl
    exact not_inWord_of_endsIn_nil h point (by decide)

end Offers

/-- A directive inside a block, and a bracket with nothing behind it. -/
example : Profile.buildconf.vocabulary.offerAfter "[bake build]\n  .ma" false =
      some ⟨15, ".ma", [⟨".make"⟩]⟩ ∧
    Profile.buildconf.vocabulary.offerAfter "[" false =
      some ⟨1, "", Profile.buildconf.vocabulary.candidates⟩ := by
  decide +kernel

end Vocabulary

end LiveLint.Language
