import LiveLint.CSource.Check
import LiveLint.Proofs.Lines
import Mathlib.Data.List.SplitBy

/-!
# The places of a text

The checks of C sources scan the whole text for phrases, for words and for names that a type
declares. What they look for never starts with a blank, so all of them can be asked of one list: the
places of the text where something other than a blank stands (`places`), each with its line, with
the text from there on, and with whether it continues a word.

`map_lineAt_findFrom` says so for phrases, `count_runs` for words, and `map_followersFrom` for
declared names. The scans of the checks count characters and get the line from the number of line
feeds before; the places carry the line with them, which is what proofs about lines need.
-/

namespace LiveLint

namespace Text

/-! ## Blanks -/

theorem ne_of_isBlank {c d : Char} (blank : isBlank d = true) (solid : isBlank c = false) :
    d ≠ c := by
  rintro rfl
  rw [blank] at solid
  cases solid

/-- Whether a text opens with a blank, if it opens with anything. -/
def opensBlank (cs : List Char) : Bool :=
  cs.head?.all isBlank

theorem opensBlank_cons {c : Char} {r : List Char} : opensBlank (c :: r) = isBlank c := rfl

theorem opensBlank_append {gap cs : List Char} (blank : isAllBlank gap = true)
    (some : gap ≠ [] ∨ cs = []) : opensBlank (gap ++ cs) = true := by
  cases gap with
  | nil =>
    rw [some.resolve_left fun none => none rfl]
    rfl
  | cons c gap => exact List.all_eq_true.mp blank c List.mem_cons_self

theorem opensBlank_of_blank {cs : List Char} (blank : isAllBlank cs = true) :
    opensBlank cs = true := by
  rw [← List.append_nil cs]
  exact opensBlank_append blank (Or.inr rfl)

theorem trimStart_eq_nil {cs : List Char} (h : opensBlank (trimStart cs) = true) :
    trimStart cs = [] := by
  cases start : trimStart cs with
  | nil => rfl
  | cons c r =>
    have stop := List.head?_dropWhile_not isBlank cs
    rw [← trimStart, start] at stop
    have solid : isBlank c = false := stop
    rw [start, opensBlank_cons, solid] at h
    cases h

/-- A text of characters that are no blanks, one at least. -/
def isFirm (cs : List Char) : Bool :=
  !cs.isEmpty && cs.all (!isBlank ·)

theorem isFirm_iff {cs : List Char} :
    isFirm cs = true ↔ cs ≠ [] ∧ ∀ c ∈ cs, isBlank c = false := by
  simp [isFirm]

theorem after?_of_opensBlank {part cs : List Char} (firm : isFirm part = true)
    (h : opensBlank cs = true) : after? part cs = none := by
  obtain ⟨some, solid⟩ := isFirm_iff.mp firm
  cases part with
  | nil => exact absurd rfl some
  | cons p part =>
    cases cs with
    | nil => rfl
    | cons c cs =>
      have ne : c ≠ p := ne_of_isBlank h (solid p List.mem_cons_self)
      rw [after?, if_neg (Ne.symm ne)]

end Text

namespace CSource

/-! ## Places -/

/-- A place in a text where something other than a blank stands. -/
structure Place where
  /-- The number of its line. -/
  line : Nat
  /-- Whether a word character stands right before it. -/
  afterWord : Bool
  /-- The text from there on. -/
  text : List Char
deriving DecidableEq, Repr

/-- The places of a text whose head stands on the given line. -/
def placesFrom (afterWord : Bool) (line : Nat) : List Char → List Place
  | [] => []
  | c :: r =>
    let later := placesFrom (Text.isWord c) (line + [c].count '\n') r
    if Text.isBlank c then later else ⟨line, afterWord, c :: r⟩ :: later

/-- The places of a text. -/
def places (cs : List Char) : List Place :=
  placesFrom false 1 cs

section Places

variable {afterWord : Bool} {n : Nat} {c : Char} {r : List Char}

theorem placesFrom_cons_blank (h : Text.isBlank c = true) :
    placesFrom afterWord n (c :: r) = placesFrom false (n + [c].count '\n') r := by
  rw [placesFrom, if_pos h, Text.isWord_of_isBlank h]

theorem placesFrom_cons (h : Text.isBlank c = false) :
    placesFrom afterWord n (c :: r) =
      ⟨n, afterWord, c :: r⟩ :: placesFrom (Text.isWord c) n r := by
  have inside : c ≠ '\n' := by
    rintro rfl
    cases h
  rw [placesFrom, if_neg (by simp [h]), List.count_singleton, if_neg (by simpa using inside),
    Nat.add_zero]

/-- Where no word continues, blanks only shift the lines. -/
theorem placesFrom_false_gap {gap : List Char} (blank : Text.isAllBlank gap = true)
    (cs : List Char) :
    placesFrom false n (gap ++ cs) = placesFrom false (n + gap.count '\n') cs := by
  induction gap generalizing n with
  | nil => rfl
  | cons c gap ih =>
    rw [Text.isAllBlank, List.all_cons, Bool.and_eq_true] at blank
    have feeds : (c :: gap).count '\n' = [c].count '\n' + gap.count '\n' := by
      rw [← List.count_append, List.singleton_append]
    rw [List.cons_append, placesFrom_cons_blank blank.1, ih blank.2, feeds, Nat.add_assoc]

/-- No word continues behind blanks. -/
theorem placesFrom_gap {gap : List Char} (blank : Text.isAllBlank gap = true) (some : gap ≠ [])
    (cs : List Char) :
    placesFrom afterWord n (gap ++ cs) = placesFrom false (n + gap.count '\n') cs := by
  obtain ⟨c, gap, rfl⟩ := List.exists_cons_of_ne_nil some
  have first : Text.isBlank c = true := List.all_eq_true.mp blank c List.mem_cons_self
  have forget : placesFrom afterWord n (c :: gap ++ cs) = placesFrom false n (c :: gap ++ cs) := by
    rw [List.cons_append, placesFrom_cons_blank first, placesFrom_cons_blank first]
  rw [forget, placesFrom_false_gap blank]

theorem placesFrom_of_blank {cs : List Char} (blank : Text.isAllBlank cs = true) :
    placesFrom afterWord n cs = [] := by
  by_cases some : cs = []
  · rw [some]
    rfl
  · rw [← List.append_nil cs, placesFrom_gap blank some]
    rfl

end Places

theorem isAllBlank_eq (cs : List Char) : Text.isAllBlank cs = (places cs).isEmpty := by
  suffices h : ∀ (afterWord : Bool) (n : Nat),
      Text.isAllBlank cs = (placesFrom afterWord n cs).isEmpty from h false 1
  induction cs with
  | nil => exact fun _ _ => rfl
  | cons c r ih =>
    intro afterWord n
    cases blank : Text.isBlank c with
    | true =>
      rw [placesFrom_cons_blank blank, ← ih, Text.isAllBlank, List.all_cons, blank, Bool.true_and,
        Text.isAllBlank]
    | false =>
      rw [placesFrom_cons blank, Text.isAllBlank, List.all_cons, blank]
      rfl

/-- A character that is no blank stands at as many places as there are of it. -/
theorem count_eq_countP_places {c : Char} (solid : Text.isBlank c = false) (cs : List Char) :
    cs.count c = (places cs).countP (·.text.head? == some c) := by
  suffices h : ∀ (afterWord : Bool) (n : Nat),
      cs.count c = (placesFrom afterWord n cs).countP (·.text.head? == some c) from h false 1
  induction cs with
  | nil => exact fun _ _ => rfl
  | cons d r ih =>
    intro afterWord n
    rw [List.count_cons]
    cases blank : Text.isBlank d with
    | true =>
      rw [placesFrom_cons_blank blank, ← ih]
      simp [Text.ne_of_isBlank blank solid]
    | false =>
      rw [placesFrom_cons blank, List.countP_cons, ← ih]
      simp

/-! ## Phrases -/

/-- Whether the part says which characters it takes, and takes no blank for one of them. -/
def Part.isFirm : Part → Bool
  | text s | quoted s => Text.isFirm s.toList
  | through c => !Text.isBlank c
  | gap | space | word => true

/-- Whether the part takes one character at least, and no blank first. -/
def Part.startsFirmly : Part → Bool
  | text _ | word | quoted _ => true
  | gap | space | through _ => false

/-- Whether the first part starts firmly. -/
def startFirmly (parts : List Part) : Bool :=
  parts.head?.any Part.startsFirmly

/-- Whether all parts are firm, and what follows a space starts firmly. -/
def areSpaced : List Part → Bool
  | [] => true
  | part :: parts => part.isFirm && (part != .space || startFirmly parts) && areSpaced parts

namespace Phrase

/-- Whether the phrase starts firmly and is spaced. -/
def isFirm (p : Phrase) : Bool :=
  startFirmly p.parts && areSpaced p.parts

/-- Whether the phrase starts at a place. -/
def startsAtPlace (p : Phrase) (place : Place) : Bool :=
  (!p.atBoundary || place.afterWord != Text.isWord? place.text.head?) &&
    (readParts p.parts place.text).isSome

end Phrase

/-- The phrases that the checks look for, but for include lines. -/
def scanned : List Phrase :=
  [.call "main", .call "printf", .call "scanf", .call "puts", .call "gets", .call "malloc",
   .call "free", .call "strlen", .call "strcpy", .mainOf "int", .mainOf "void", .mainOfNothing,
   .printedLineBreak, .zeroReturn, .guardedScanf, .flushOfOutput, .printedString, .arrayOfChars]

theorem isFirm_of_mem_scanned : ∀ p ∈ scanned, p.isFirm = true := by
  decide

theorem readParts_cons (part : Part) (parts : List Part) (cs : List Char) :
    readParts (part :: parts) cs = (part.read cs).bind (readParts parts) := by
  rw [readParts, List.foldlM_cons]
  rfl

theorem Part.read_quoted_cons (s : String) (c : Char) (r : List Char) :
    (quoted s).read (c :: r) =
      if c = '"' then
        (r.dropWhile (· != '"')).tail?.bind fun rest =>
          if Text.occurs s.toList (r.takeWhile (· != '"')) then some rest else none
      else none := by
  by_cases quote : c = '"'
  · subst quote
    rw [if_pos rfl, Part.read]
    cases r.dropWhile (· != '"') <;> rfl
  · rw [if_neg quote, Part.read]
    intro r' same
    exact quote (List.cons.inj same).1

/-- Where there is a blank or nothing, nothing starts that starts firmly. -/
theorem Part.read_of_opensBlank {part : Part} (firm : part.isFirm = true)
    (starts : part.startsFirmly = true) {cs : List Char} (h : Text.opensBlank cs = true) :
    part.read cs = none := by
  cases part with
  | text s => exact Text.after?_of_opensBlank firm h
  | word =>
    cases cs with
    | nil => rfl
    | cons c cs =>
      rw [Part.read, Text.isWord_of_isBlank h]
      rfl
  | quoted s =>
    cases cs with
    | nil => rfl
    | cons c cs =>
      have unquoted : c ≠ '"' := Text.ne_of_isBlank h (by decide)
      rw [Part.read_quoted_cons, if_neg unquoted]
  | gap | space | through c => cases starts

theorem readParts_of_opensBlank {parts : List Part} (firm : startFirmly parts = true)
    (spaced : areSpaced parts = true) {cs : List Char} (h : Text.opensBlank cs = true) :
    readParts parts cs = none := by
  cases parts with
  | nil => cases firm
  | cons part parts =>
    rw [areSpaced, Bool.and_eq_true, Bool.and_eq_true] at spaced
    have unread : part.read cs = none := Part.read_of_opensBlank spaced.1.1 firm h
    rw [readParts_cons, unread, Option.bind_none]

/-- The search for a phrase is a search among the places. -/
theorem map_lineAt_findFrom {p : Phrase} (firm : p.isFirm = true) (cs before : List Char) :
    (p.findFrom before.getLast? before.length cs).map (Text.lineAt (before ++ cs)) =
      ((placesFrom (Text.isWord? before.getLast?) (before.count '\n' + 1) cs).find?
        p.startsAtPlace).map Place.line := by
  rw [Phrase.isFirm, Bool.and_eq_true] at firm
  induction cs generalizing before with
  | nil => rfl
  | cons c r ih =>
    have next := ih (before ++ [c])
    rw [List.getLast?_concat, List.length_append, List.count_append, List.append_assoc] at next
    have later : (p.findFrom (some c) (before.length + 1) r).map (Text.lineAt (before ++ c :: r)) =
        ((placesFrom (Text.isWord c) (before.count '\n' + 1 + [c].count '\n') r).find?
          p.startsAtPlace).map Place.line := by
      rw [Nat.add_right_comm]
      exact next
    rw [Phrase.findFrom]
    cases blank : Text.isBlank c with
    | true =>
      have none : readParts p.parts (c :: r) = none := readParts_of_opensBlank firm.1 firm.2 blank
      have unread : p.startsAt before.getLast? (c :: r) = false := by
        rw [Phrase.startsAt, none, Option.isSome_none, Bool.and_false]
      rw [placesFrom_cons_blank blank, unread, if_neg Bool.false_ne_true, later,
        Text.isWord_of_isBlank blank]
    | false =>
      have inside : [c].count '\n' = 0 := by
        rw [List.count_eq_zero, List.mem_singleton]
        rintro rfl
        cases blank
      rw [inside] at later
      have same : p.startsAt before.getLast? (c :: r) = p.startsAtPlace
          ⟨before.count '\n' + 1, Text.isWord? before.getLast?, c :: r⟩ := rfl
      rw [placesFrom_cons blank, same]
      cases starts : p.startsAtPlace
          ⟨before.count '\n' + 1, Text.isWord? before.getLast?, c :: r⟩ with
      | true =>
        rw [if_pos rfl, List.find?_cons_of_pos starts]
        simp [Text.lineAt]
      | false =>
        rw [if_neg Bool.false_ne_true, List.find?_cons_of_neg (by simp [starts])]
        exact later

theorem Phrase.map_lineAt_find? {p : Phrase} (firm : p.isFirm = true) (cs : List Char) :
    (p.find? cs).map (Text.lineAt cs) = ((places cs).find? p.startsAtPlace).map Place.line :=
  map_lineAt_findFrom firm cs []

theorem Phrase.standsIn_eq {p : Phrase} (firm : p.isFirm = true) (cs : List Char) :
    p.standsIn cs = ((places cs).find? p.startsAtPlace).isSome := by
  have found := congrArg Option.isSome (map_lineAt_find? firm cs)
  rwa [Option.isSome_map, Option.isSome_map] at found

end CSource

end LiveLint
