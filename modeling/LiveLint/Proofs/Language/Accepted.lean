import LiveLint.Proofs.Language.Offers

/-!
# What accepting a candidate leaves

To accept a candidate is to put its label in place of all that stands from the start of the offer
on. That is the word and no more (`kept_of_offerAfter`), and no bracket or hash is part of a word.
So what was typed of a label is replaced but for the opener that the label begins with: behind
a bracket that was typed, a label that begins with a bracket leaves two of them. `Accepting` says
that this is the only way to double an opener, and `accepting` that it holds after every text and
for every vocabulary. `exists_offer_doubles` is the other side: whoever types an opener and goes on
with the label is offered what doubles it.
-/

namespace LiveLint.Language

/-! ## Accepting -/

namespace Offer

/-- What stands before the byte at which the offer starts. -/
def kept (o : Offer) (before : String) : List Char :=
  before.toList.take (Text.columnOfByte before.toList o.start)

/-- The text up to the cursor after a candidate was accepted. -/
def accept (o : Offer) (before : String) (c : Candidate) : List Char :=
  o.kept before ++ c.label.toList

/-- The bracket or hash that the label begins with stands in front of the label too. -/
def Doubles (o : Offer) (before : String) (c : Candidate) : Prop :=
  ∃ opener ∈ ['[', '#'], c.label.toList.head? = some opener ∧
    (o.kept before).getLast? = some opener

end Offer

/-- The bracket or hash that the label begins with was typed, right before the word. -/
def OpenerTyped (before : String) (c : Candidate) : Prop :=
  ∃ front, ∃ opener ∈ ['[', '#'], ∃ word, before.toList = front ++ opener :: word ∧
    EndsIn before.toList word ∧ c.label.toList.head? = some opener

theorem not_inWord_of_mem {opener : Char} (h : opener ∈ ['[', '#']) : ¬InWord opener := by
  rcases List.mem_pair.mp h with rfl | rfl <;> decide

namespace Vocabulary

section Accepting

variable {v : Vocabulary} {before : String} {onRequest : Bool} {o : Offer} {c : Candidate}
  {front word : List Char} {opener : Char}

/-- An offer starts where the word of the text starts, or at its end. -/
theorem exists_front_of_offerAfter (offered : v.offerAfter before onRequest = some o) :
    ∃ front, before.toList = front ++ o.word.toList ∧ EndsIn before.toList o.word.toList ∧
      o.start = Text.byteLength front := by
  have h := endsIn_wordBefore before.toList
  generalize wordBefore before.toList = word at h
  obtain ⟨front, whole, -⟩ := h.exists_front
  by_cases written : word = []
  · subst written
    rw [offerAfter_of_none h] at offered
    split at offered
    · cases offered
      refine ⟨front, whole, h, ?_⟩
      rw [← Text.byteLength_toList, whole, List.append_nil]
    · cases offered
  · rw [offerAfter_of_word h written] at offered
    cases offered
    rw [String.toList_ofList]
    refine ⟨front, whole, h, ?_⟩
    rw [whole, Text.byteLength_append, Nat.add_sub_cancel]

/-- **Only the word is replaced.** -/
theorem kept_of_offerAfter (offered : v.offerAfter before onRequest = some o)
    (text : before.toList = front ++ o.word.toList) : o.kept before = front := by
  obtain ⟨front', text', -, starts⟩ := exists_front_of_offerAfter offered
  obtain rfl : front' = front := List.append_cancel_right (text'.symm.trans text)
  have column : Text.columnOfByte before.toList o.start = front'.length := by
    have bytes : o.start = Text.bytesBefore before.toList front'.length := by
      rw [starts, Text.bytesBefore, text, List.take_left]
    rw [bytes]
    exact Text.columnOfByte_bytesBefore (text ▸ (List.prefix_append _ _).length_le)
  rw [Offer.kept, column, text, List.take_left]

theorem accept_of_offerAfter (offered : v.offerAfter before onRequest = some o)
    (text : before.toList = front ++ o.word.toList) (c : Candidate) :
    o.accept before c = front ++ c.label.toList := by
  rw [Offer.accept, kept_of_offerAfter offered text]

/-- The bytes before the offer stay, and those of the label follow. -/
theorem utf8_accept (offered : v.offerAfter before onRequest = some o) (c : Candidate) :
    Text.utf8 (o.accept before c) = (Text.bytes before).take o.start ++ Text.bytes c.label := by
  obtain ⟨front, text, -, starts⟩ := exists_front_of_offerAfter offered
  have before' : (Text.utf8 (front ++ o.word.toList)).take (Text.byteLength front) =
      Text.utf8 front := by
    rw [Text.utf8_append, ← Text.length_utf8, List.take_left]
  rw [accept_of_offerAfter offered text, Text.utf8_append, Text.bytes_eq_utf8, Text.bytes_eq_utf8,
    starts, text, before']

theorem doubles_iff (offered : v.offerAfter before onRequest = some o) (c : Candidate) :
    o.Doubles before c ↔ OpenerTyped before c := by
  obtain ⟨front, text, ends, -⟩ := exists_front_of_offerAfter offered
  rw [Offer.Doubles, kept_of_offerAfter offered text]
  constructor
  · rintro ⟨opener, opens, label, last⟩
    obtain ⟨start, rfl⟩ := List.getLast?_eq_some_iff.mp last
    rw [List.append_assoc] at text
    exact ⟨start, opener, opens, _, text, ends, label⟩
  · rintro ⟨start, opener, opens, word, text', ends', label⟩
    refine ⟨opener, opens, label, ?_⟩
    rw [← ends.eq_of_endsIn ends', ← List.singleton_append, ← List.append_assoc] at text'
    rw [List.append_cancel_right (text.symm.trans text'), List.getLast?_concat]

/-- What was typed of a label, in word characters, is offered to be completed. -/
theorem exists_offer_of_meets (there : c ∈ v.candidates) (text : before.toList = front ++ word)
    (ends : EndsIn before.toList word) (written : word ≠ []) (meets : c.Meets word)
    (onRequest : Bool) :
    ∃ o, v.offerAfter before onRequest = some o ∧ c ∈ o.items ∧
      o.accept before c = front ++ c.label.toList := by
  have offered : v.offerAfter before onRequest = _ := offerAfter_of_word ends written
  refine ⟨_, offered, ?_, accept_of_offerAfter offered ?_ c⟩
  · exact List.mem_filter.mpr ⟨there, Candidate.fits_iff.mpr meets⟩
  · rw [String.toList_ofList, text]

/-- **Whoever types the opener too** is offered what doubles it. -/
theorem exists_offer_doubles (there : c ∈ v.candidates) (opens : opener ∈ ['[', '#'])
    (label : c.label.toList.head? = some opener) (text : before.toList = front ++ opener :: word)
    (all : ∀ d ∈ word, InWord d) (written : word ≠ []) (meets : c.Meets word) (onRequest : Bool) :
    ∃ o, v.offerAfter before onRequest = some o ∧ c ∈ o.items ∧ o.Doubles before c ∧
      o.accept before c = front ++ opener :: c.label.toList := by
  have text' : before.toList = (front ++ [opener]) ++ word := by
    rw [text, List.append_assoc, List.singleton_append]
  have ends : EndsIn before.toList word := by
    rw [text']
    refine endsIn_append all fun d last => ?_
    rw [List.getLast?_concat] at last
    cases last
    exact not_inWord_of_mem opens
  obtain ⟨o, offered, item, accepted⟩ := exists_offer_of_meets there text' ends written meets
    onRequest
  refine ⟨o, offered, item, ?_, ?_⟩
  · exact (doubles_iff offered c).mpr ⟨front, opener, opens, word, text, ends, label⟩
  · rw [accepted, List.append_assoc, List.singleton_append]

/-- What accepting does after a text. -/
structure Accepting (v : Vocabulary) (before : String) (onRequest : Bool) : Prop where
  /-- The label of an accepted candidate stands in place of the bytes from the start of the offer
  on, and these are the word. -/
  replaces : ∀ o, v.offerAfter before onRequest = some o → ∀ c ∈ o.items,
    Text.utf8 (o.accept before c) = (Text.bytes before).take o.start ++ Text.bytes c.label ∧
      ∃ front, before.toList = front ++ o.word.toList ∧
        o.accept before c = front ++ c.label.toList
  /-- A bracket or hash is doubled just if it was typed before the word. -/
  doubles_iff : ∀ o, v.offerAfter before onRequest = some o → ∀ c ∈ o.items,
    (o.Doubles before c ↔ OpenerTyped before c)
  /-- A part of a label that is typed without its opener is completed to that label. -/
  completes : ∀ c ∈ v.candidates, ∀ front word, before.toList = front ++ word → word ≠ [] →
    EndsIn before.toList word → c.Meets word → ¬OpenerTyped before c →
    ∃ o, v.offerAfter before onRequest = some o ∧ c ∈ o.items ∧
      o.accept before c = front ++ c.label.toList ∧ ¬o.Doubles before c

/-- **An opener is doubled just if it was typed**, and else a label is completed as it is. -/
theorem accepting (v : Vocabulary) (before : String) (onRequest : Bool) :
    v.Accepting before onRequest where
  replaces := by
    intro o offered c _
    obtain ⟨front, text, -, -⟩ := exists_front_of_offerAfter offered
    exact ⟨utf8_accept offered c, front, text, accept_of_offerAfter offered text c⟩
  doubles_iff := fun o offered c _ => Vocabulary.doubles_iff offered c
  completes := by
    intro c there front word text written ends meets untyped
    obtain ⟨o, offered, item, accepted⟩ := exists_offer_of_meets there text ends written meets
      onRequest
    exact ⟨o, offered, item, accepted, mt (Vocabulary.doubles_iff offered c).mp untyped⟩

end Accepting

/-- Behind a bracket and the first letters of its name, a block tag is completed to one with two
brackets, and an include line behind a hash to one with two hashes. -/
theorem doubles_typed_openers :
    (∃ o, Profile.buildconf.vocabulary.offerAfter "[to" false = some o ∧
      ⟨"[tool cc]"⟩ ∈ o.items ∧ o.Doubles "[to" ⟨"[tool cc]"⟩ ∧
      o.accept "[to" ⟨"[tool cc]"⟩ = "[[tool cc]".toList) ∧
    ∃ o, Profile.c.vocabulary.offerAfter "#inc" false = some o ∧
      ⟨"#include <stdio.h>"⟩ ∈ o.items ∧ o.Doubles "#inc" ⟨"#include <stdio.h>"⟩ ∧
      o.accept "#inc" ⟨"#include <stdio.h>"⟩ = "##include <stdio.h>".toList := by
  constructor
  · have typed : "[to".toList = [] ++ '[' :: ['t', 'o'] := by decide +kernel
    exact exists_offer_doubles (by decide +kernel) (by decide) (by decide +kernel) typed
      (by decide) (by decide) (by decide +kernel) false
  · have typed : "#inc".toList = [] ++ '#' :: ['i', 'n', 'c'] := by decide +kernel
    exact exists_offer_doubles (by decide +kernel) (by decide) (by decide +kernel) typed
      (by decide) (by decide) (by decide +kernel) false

end Vocabulary

end LiveLint.Language
