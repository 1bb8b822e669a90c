import LiveLint.Buildconf.Argument
import LiveLint.Proofs.Lists
import LiveLint.Text.Blank

/-!
# Arguments as they are written

An argument stands between double quotes or it is a bare word. `Argument.written` writes one down,
and reading gives it back in front of anything that starts with a blank
(`readAll_written_append`), so a list of arguments with a space between any two of them is read as
that list (`readAll_phrase`). What can be written is what `Writable` says: there is no way to put a
quote between quotes, and a bare word has no blanks and does not begin like a quoted text.
-/

namespace LiveLint

namespace Text

/-- What is asked of every character of a text is tested by going through the text. -/
instance decidableForallMem (cs : List Char) (p : Char → Prop) [DecidablePred p] :
    Decidable (∀ c ∈ cs, p c) :=
  List.decidableBAll p cs

end Text

namespace Buildconf.Argument

/-- The argument has a written form. -/
def Writable (a : Argument) : Prop :=
  if a.quoted then '"' ∉ a.text.toList
  else a.text.toList ≠ [] ∧ (∀ c ∈ a.text.toList, isSolid c = true) ∧ a.text.toList.head? ≠ some '"'

instance (a : Argument) : Decidable a.Writable := by
  unfold Writable
  infer_instance

/-- The argument as it is written. -/
def written (a : Argument) : List Char :=
  if a.quoted then '"' :: (a.text.toList ++ ['"']) else a.text.toList

/-- A bare word. -/
def word (text : String) : Argument :=
  ⟨text, false⟩

/-- A text between quotes. -/
def literal (text : String) : Argument :=
  ⟨text, true⟩

/-- Arguments as they are written, with a space between any two. -/
def phrase (args : List Argument) : List Char :=
  [' '].intercalate (args.map written)

/-! ## One step of reading -/

section Step

variable {cs r : List Char} {c : Char}

theorem readAll_of_blank (h : Text.trimStart cs = []) : readAll cs = [] := by
  rw [readAll]
  split
  · rfl
  · next found => rw [h] at found; cases found

theorem readAll_of_quote (h : Text.trimStart cs = '"' :: r) :
    readAll cs =
      ⟨String.ofList (r.takeWhile isInside), true⟩ :: readAll (r.dropWhile isInside).tail := by
  rw [readAll]
  split
  · next found => rw [h] at found; cases found
  · next found =>
    rw [h] at found
    cases found
    exact if_pos rfl

theorem readAll_of_word (h : Text.trimStart cs = c :: r) (bare : c ≠ '"') :
    readAll cs =
      ⟨String.ofList (c :: r.takeWhile isSolid), false⟩ :: readAll (r.dropWhile isSolid) := by
  rw [readAll]
  split
  · next found => rw [h] at found; cases found
  · next found =>
    rw [h] at found
    cases found
    exact if_neg bare

theorem readAll_nil : readAll [] = [] :=
  readAll_of_blank rfl

/-- A blank in front makes no difference. -/
theorem readAll_cons_blank (h : Text.isBlank c = true) : readAll (c :: cs) = readAll cs := by
  have start : Text.trimStart (c :: cs) = Text.trimStart cs := List.dropWhile_cons_of_pos h
  cases rest : Text.trimStart cs with
  | nil => rw [readAll_of_blank (start.trans rest), readAll_of_blank rest]
  | cons d r =>
    by_cases quote : d = '"'
    · subst quote
      rw [readAll_of_quote (start.trans rest), readAll_of_quote rest]
    · rw [readAll_of_word (start.trans rest) quote, readAll_of_word rest quote]

end Step

/-! ## Reading what was written -/

/-- **An argument is read as it was written**, in front of a blank or at the end. -/
theorem readAll_written_append {a : Argument} (ok : a.Writable) {rest : List Char}
    (gap : ∀ c ∈ rest.head?, Text.isBlank c = true) :
    readAll (a.written ++ rest) = a :: readAll rest := by
  obtain ⟨text, quoted⟩ := a
  cases quoted with
  | true =>
    -- it ends at the first quote after the opening one, which is the closing one
    have inside : ∀ c ∈ text.toList, isInside c = true := by
      intro c hc
      refine bne_iff_ne.mpr ?_
      rintro rfl
      exact ok hc
    have stop : ∀ c ∈ ('"' :: rest).head?, isInside c = false := by
      intro c hc
      cases hc
      rfl
    have start : Text.trimStart ('"' :: (text.toList ++ ['"']) ++ rest) =
        '"' :: (text.toList ++ '"' :: rest) := by
      rw [List.cons_append, List.append_assoc]
      exact Text.trimStart_of_not_blank (by decide)
    rw [written, if_pos rfl, readAll_of_quote start, Text.takeWhile_append_stop inside stop,
      Text.dropWhile_append_stop inside stop, List.tail_cons, String.ofList_toList]
  | false =>
    -- it ends at the first blank, and there is none in the word
    obtain ⟨some, solid, bare⟩ := ok
    have stop : ∀ c ∈ rest.head?, isSolid c = false := by
      intro c hc
      rw [isSolid, gap c hc]
      rfl
    rw [written, if_neg Bool.false_ne_true]
    cases word : text.toList with
    | nil => exact absurd word some
    | cons c r =>
      simp only [word, List.head?_cons, ne_eq, Option.some.injEq] at bare solid
      have first := solid c List.mem_cons_self
      rw [isSolid, Bool.not_eq_true'] at first
      have later : ∀ d ∈ r, isSolid d = true := fun d hd => solid d (List.mem_cons_of_mem _ hd)
      rw [List.cons_append, readAll_of_word (Text.trimStart_of_not_blank first) bare,
        Text.takeWhile_append_stop later stop, Text.dropWhile_append_stop later stop, ← word,
        String.ofList_toList]

theorem phrase_singleton (a : Argument) : phrase [a] = a.written := by
  simp [phrase, List.intercalate]

theorem phrase_cons_cons (a b : Argument) (args : List Argument) :
    phrase (a :: b :: args) = a.written ++ ' ' :: phrase (b :: args) := by
  simp [phrase, List.intercalate]

/-- The first of several arguments is read as it was written, whatever the others are. -/
theorem readAll_phrase_cons {a b : Argument} (ok : a.Writable) (args : List Argument) :
    readAll (phrase (a :: b :: args)) = a :: readAll (phrase (b :: args)) := by
  have blank : Text.isBlank ' ' = true := by decide
  rw [phrase_cons_cons, readAll_written_append ok (by simp [blank]), readAll_cons_blank blank]

/-- **Arguments with a space between any two are read as they were written.** -/
theorem readAll_phrase {args : List Argument} (ok : ∀ a ∈ args, a.Writable) :
    readAll (phrase args) = args := by
  induction args with
  | nil => exact readAll_nil
  | cons a args ih =>
    have first := ok a List.mem_cons_self
    have later := ih fun b hb => ok b (List.mem_cons_of_mem _ hb)
    cases args with
    | nil =>
      have text : phrase [a] = a.written ++ [] := by rw [phrase_singleton, List.append_nil]
      rw [text, readAll_written_append first (by simp), readAll_nil]
    | cons b args => rw [readAll_phrase_cons first, later]

/-- What arguments are read as after they were written. -/
def reread (args : List Argument) : List Argument :=
  ofRest (String.ofList (phrase args))

theorem reread_eq {args : List Argument} (ok : ∀ a ∈ args, a.Writable) : reread args = args := by
  rw [reread, ofRest, String.toList_ofList, readAll_phrase ok]

theorem reread_cons {a b : Argument} (ok : a.Writable) (args : List Argument) :
    reread (a :: b :: args) = a :: reread (b :: args) := by
  rw [reread, ofRest, String.toList_ofList, readAll_phrase_cons ok, reread, ofRest,
    String.toList_ofList]

end Buildconf.Argument

end LiveLint
