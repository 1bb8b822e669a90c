import LiveLint.Proofs.CSource.Anchors
import LiveLint.Proofs.CSource.Unused

/-!
# A line on top of a text

A line that is put on top of a text moves all places of the text down by one line and adds its own
(`places_onTop`). So a phrase that does not start on the new line is found where it was, one line
further down (`map_lineAt_onTop`); the words of the new line count along with the others, but the
names that the text declares stay declared (`declarations_onTop`).

No word and no phrase part without blanks reaches beyond the end of the new line. A phrase as a
whole may, by a gap, which is why it is looked at where it starts (`Phrase.isForeign`).
-/

namespace LiveLint.CSource

/-- The text below a line. -/
def onTop (line cs : List Char) : List Char :=
  line ++ '\n' :: cs

/-! ## Places -/

/-- The same place one line further down. -/
def Place.down (p : Place) : Place :=
  { p with line := p.line + 1 }

/-- The same place with more text behind. -/
def Place.extended (more : List Char) (p : Place) : Place :=
  { p with text := p.text ++ more }

theorem placesFrom_down (afterWord : Bool) (n : Nat) (cs : List Char) :
    placesFrom afterWord (n + 1) cs = (placesFrom afterWord n cs).map Place.down := by
  induction cs generalizing afterWord n with
  | nil => rfl
  | cons c r ih =>
    rw [placesFrom, placesFrom, Nat.add_right_comm, ih]
    split
    · rfl
    · rfl

section Places

variable {line cs : List Char} (uncut : '\n' ∉ line)
include uncut

theorem placesFrom_onTop (afterWord : Bool) (n : Nat) :
    placesFrom afterWord n (onTop line cs) =
      (placesFrom afterWord n line).map (Place.extended ('\n' :: cs)) ++
        placesFrom false (n + 1) cs := by
  induction line generalizing afterWord with
  | nil => exact placesFrom_cons_blank (by decide)
  | cons c line ih =>
    rw [List.mem_cons, not_or] at uncut
    have inside : [c].count '\n' = 0 := by
      rw [List.count_eq_zero, List.mem_singleton]
      exact uncut.1
    have later := ih uncut.2 (Text.isWord c)
    rw [onTop] at later
    rw [onTop, List.cons_append, placesFrom, placesFrom, inside, Nat.add_zero, later]
    split
    · rfl
    · rfl

/-- **The places of the line come first**, then those of the text, one line further down. -/
theorem places_onTop : places (onTop line cs) =
    (places line).map (Place.extended ('\n' :: cs)) ++ (places cs).map Place.down := by
  rw [places, placesFrom_onTop uncut, placesFrom_down false 1 cs, ← places, ← places]

end Places

/-! ## Phrases -/

/-- The phrase starts with a text that the line does not have. -/
def Phrase.isForeign (line : List Char) (p : Phrase) : Bool :=
  match p.parts with
  | .text s :: _ => !Text.occurs s.toList line
  | _ => false

/-- A text without line feeds that a line and what follows it open with is on the line. -/
theorem isPrefix_of_append_feed {part line rest : List Char} (uncut : '\n' ∉ part)
    (h : part <+: line ++ '\n' :: rest) : part <+: line := by
  obtain ⟨behind, whole⟩ := h
  -- either the line is the longer one, or what goes beyond it starts with the line feed
  rcases List.append_eq_append_iff.mp whole with ⟨more, same, -⟩ | ⟨more, rfl, same⟩
  · exact ⟨more, same.symm⟩
  · cases more with
    | nil => exact ⟨[], by rw [List.append_nil, List.append_nil]⟩
    | cons c more =>
      obtain ⟨rfl, -⟩ := List.cons.inj same
      exact absurd (List.mem_append_right line List.mem_cons_self) uncut

section Phrase

variable {line cs : List Char} {p : Phrase} (firm : p.isFirm = true)
  (foreign : p.isForeign line = true)
include firm foreign

/-- It does not start on the line, whatever follows the line. -/
theorem startsAtPlace_extended {place : Place} (h : place ∈ places line) :
    p.startsAtPlace (place.extended ('\n' :: cs)) = false := by
  obtain ⟨atBoundary, parts⟩ := p
  rw [Phrase.isForeign] at foreign
  split at foreign
  · next s parts shape =>
    obtain rfl : _ = Part.text s :: parts := shape
    rw [Phrase.isFirm, Bool.and_eq_true, areSpaced, Bool.and_eq_true, Bool.and_eq_true] at firm
    have solid := (Text.isFirm_iff.mp firm.2.1.1).2
    have uncut : '\n' ∉ s.toList := by
      intro feed
      cases solid '\n' feed
    have unread : Text.after? s.toList (place.text ++ '\n' :: cs) = none := by
      rw [Option.eq_none_iff_forall_ne_some]
      intro rest found
      have opens := isPrefix_of_append_feed uncut ⟨rest, (Text.after?_eq_some_iff.mp found).symm⟩
      obtain ⟨front, whole, -⟩ := mem_placesFrom [] h
      have there : s.toList <:+: line := opens.isInfix.trans ⟨front, [], by simpa using whole.symm⟩
      rw [Text.occurs_iff.mpr there] at foreign
      cases foreign
    have none : readParts (.text s :: parts) (place.text ++ '\n' :: cs) = none := by
      rw [readParts_cons, Part.read, unread, Option.bind_none]
    rw [Phrase.startsAtPlace, Place.extended, none, Option.isSome_none, Bool.and_false]
  · cases foreign

variable (uncut : '\n' ∉ line)
include uncut

/-- **It is found where it was**, one line further down. -/
theorem map_lineAt_onTop : (p.find? (onTop line cs)).map (Text.lineAt (onTop line cs)) =
    ((p.find? cs).map (Text.lineAt cs)).map (· + 1) := by
  have front : ((places line).map (Place.extended ('\n' :: cs))).find? p.startsAtPlace = none := by
    rw [List.find?_eq_none]
    intro place hplace
    obtain ⟨own, hown, rfl⟩ := List.mem_map.mp hplace
    rw [startsAtPlace_extended firm foreign hown]
    exact Bool.false_ne_true
  rw [Phrase.map_lineAt_find? firm, Phrase.map_lineAt_find? firm, places_onTop uncut,
    List.find?_append, front, Option.none_or, List.find?_map, Option.map_map, Option.map_map]
  rfl

theorem standsIn_onTop : p.standsIn (onTop line cs) = p.standsIn cs := by
  have found : (p.find? (onTop line cs)).map (Text.lineAt (onTop line cs)) =
      ((p.find? cs).map (Text.lineAt cs)).map (· + 1) := map_lineAt_onTop firm foreign uncut
  have same := congrArg Option.isSome found
  rwa [Option.isSome_map, Option.isSome_map, Option.isSome_map] at same

end Phrase

/-! ## Words -/

section Words

variable {line cs : List Char}

/-- A word of the line ends where the line does. -/
theorem word_extended (p : Place) : (p.extended ('\n' :: cs)).word = p.word := by
  have feed : Text.isWord '\n' = false := by decide
  rw [Place.word, Place.extended, List.takeWhile_append]
  split
  · next all =>
    have whole : p.text.takeWhile Text.isWord = p.text :=
      (List.takeWhile_prefix _).eq_of_length all
    rw [List.takeWhile_cons_of_neg (by simp [feed]), List.append_nil, Place.word, whole]
  · rfl

theorem startsWord_extended {p : Place} (h : p ∈ places line) (more : List Char) :
    (p.extended more).startsWord = p.startsWord := by
  obtain ⟨-, -, -, c, r, shape, -⟩ := mem_placesFrom [] h
  rw [Place.startsWord, Place.extended, Place.startsWord, shape]
  rfl

theorem wordPlaces_onTop (uncut : '\n' ∉ line) : wordPlaces (onTop line cs) =
    (wordPlaces line).map (Place.extended ('\n' :: cs)) ++ (wordPlaces cs).map Place.down := by
  have starts : ∀ p ∈ places line,
      (Place.startsWord ∘ Place.extended ('\n' :: cs)) p = p.startsWord :=
    fun p hp => startsWord_extended hp _
  have whole : ∀ cs, wordPlaces cs = (places cs).filter Place.startsWord := fun _ => rfl
  rw [whole, places_onTop uncut, List.filter_append, List.filter_map, List.filter_map,
    List.filter_congr starts, ← whole]
  rfl

/-- A word is there as often as on the line and in the text. -/
theorem countP_word_onTop (uncut : '\n' ∉ line) (word : List Char) :
    (wordPlaces (onTop line cs)).countP (·.word == word) =
      (wordPlaces line).countP (·.word == word) + (wordPlaces cs).countP (·.word == word) := by
  have same : ((·.word == word) ∘ Place.extended ('\n' :: cs)) = fun p => p.word == word := by
    funext p
    rw [Function.comp_apply, word_extended]
  rw [wordPlaces_onTop uncut, List.countP_append, List.countP_map, List.countP_map, same]
  rfl

/-! ## Declared names -/

/-- The names that a text declares, with their lines. -/
def declarations (cs : List Char) : List (String × Nat) :=
  (wordPlaces cs).filterMap Place.declares?

theorem declares?_down (p : Place) :
    p.down.declares? = p.declares?.map fun (name, n) => (name, n + 1) := by
  unfold Place.declares? Place.down Place.word
  dsimp only
  rw [Nat.add_right_comm]
  split
  · rfl
  · rfl

/-- The line declares nothing if none of its words is a type. -/
theorem declarations_onTop (uncut : '\n' ∉ line)
    (untyped : ∀ p ∈ wordPlaces line, String.ofList p.word ∉ primitiveTypes) :
    declarations (onTop line cs) = (declarations cs).map fun (name, n) => (name, n + 1) := by
  have front : ((wordPlaces line).map (Place.extended ('\n' :: cs))).filterMap Place.declares? =
      [] := by
    rw [List.filterMap_eq_nil_iff]
    intro place hplace
    obtain ⟨own, hown, rfl⟩ := List.mem_map.mp hplace
    have word : (own.extended ('\n' :: cs)).word = own.word := word_extended own
    simp [Place.declares?, word, untyped own hown]
  rw [declarations, wordPlaces_onTop uncut, List.filterMap_append, front, List.nil_append,
    List.filterMap_map, declarations, List.map_filterMap]
  refine List.filterMap_congr ?_
  intro p _
  exact declares?_down p

/-- A name that is declared is there. -/
theorem exists_word_of_declared {name : String} {n : Nat} (h : (name, n) ∈ declarations cs) :
    0 < (wordPlaces cs).countP (·.word == name.toList) := by
  have located : (followers cs).map (Declared.located cs) = declarations cs :=
    map_followersFrom cs []
  rw [← located] at h
  obtain ⟨d, hd, same⟩ := List.mem_map.mp h
  obtain rfl : d.name = name := congrArg Prod.fst same
  have word := isWord?_of_startsIdentifier (startsIdentifier_of_mem_followersFrom hd)
  obtain ⟨front, type, gap, run, back, runs, -, rfl⟩ := mem_followersFrom_iff.mp hd
  rw [← count_runs word, List.count_pos_iff, runs]
  simp

/-- A name that is declared is unused just if it was and is no word of the line. -/
theorem isUnusedAt_onTop (uncut : '\n' ∉ line) {name : String} {n : Nat}
    (h : (name, n) ∈ declarations cs) : isUnusedAt (wordPlaces (onTop line cs)) name =
      (isUnusedAt (wordPlaces cs) name && !(wordPlaces line).any (·.word == name.toList)) := by
  -- the text has the name once already, so once more on the line is too often
  have there := exists_word_of_declared h
  rw [isUnusedAt, countP_word_onTop uncut, isUnusedAt]
  cases onLine : (wordPlaces line).any (·.word == name.toList) with
  | true =>
    have again : 0 < (wordPlaces line).countP (·.word == name.toList) := by
      rw [List.countP_pos_iff]
      exact List.any_eq_true.mp onLine
    have twice : ¬((wordPlaces line).countP (·.word == name.toList) +
        (wordPlaces cs).countP (·.word == name.toList) ≤ 1) := by omega
    rw [decide_eq_false twice, Bool.and_false, Bool.not_true, Bool.and_false]
  | false =>
    have none : (wordPlaces line).countP (·.word == name.toList) = 0 := by
      rw [List.countP_eq_zero]
      exact List.any_eq_false.mp onLine
    rw [none, Nat.zero_add, Bool.not_false, Bool.and_true]

end Words

/-! ## Findings -/

/-- The same finding one line further down, or about no line. -/
def Finding.down : Finding → Finding
  | unusedVariable name n => unusedVariable name (n + 1)
  | tab n => tab (n + 1)
  | noSemicolon n => noSemicolon (n + 1)
  | unendedOutput n => unendedOutput (n.map (· + 1))
  | unflushedOutput n => unflushedOutput (n.map (· + 1))
  | f => f

theorem map_down_reportIf (condition : Bool) (f : Finding) :
    (reportIf condition f).map Finding.down = reportIf condition f.down := by
  cases condition <;> rfl

theorem lineFindings_down (n : Nat) (raw : List Char) :
    lineFindings (n + 1) raw = (lineFindings n raw).map Finding.down := by
  unfold lineFindings
  dsimp only
  split
  · rw [List.map_append, map_down_reportIf, map_down_reportIf]
    rfl
  · rfl

/-- On the line there is nothing that a check looks for. -/
structure IsQuiet (line : List Char) : Prop where
  uncut : '\n' ∉ line
  foreign : ∀ p ∈ scanned, p.isForeign line = true
  unbraced : ∀ c ∈ ['{', '}'], c ∉ line
  /-- Something is on the line. -/
  solid : Text.isAllBlank line = false
  untyped : ∀ p ∈ wordPlaces line, String.ofList p.word ∉ primitiveTypes
  /-- It is a comment or a directive. -/
  unread : isCodeLine (Text.trim line) = false

section Findings

variable {line cs : List Char} (quiet : IsQuiet line)
include quiet

theorem standsIn_scanned : ∀ p ∈ scanned, p.standsIn (onTop line cs) = p.standsIn cs :=
  fun p hp => standsIn_onTop (isFirm_of_mem_scanned p hp) (quiet.foreign p hp) quiet.uncut

theorem count_onTop {c : Char} (brace : c ∈ ['{', '}']) :
    (onTop line cs).count c = cs.count c := by
  have other : '\n' ≠ c := by
    rintro rfl
    cases brace with
    | tail _ brace => cases brace with
      | tail _ brace => cases brace
  rw [onTop, List.count_append, List.count_eq_zero.mpr (quiet.unbraced c brace), Nat.zero_add,
    List.count_cons_of_ne other]

/-- The shape of the file stays as it is, unless there was nothing in it. -/
theorem shapeFindings_onTop (solid : Text.isAllBlank cs = false) :
    shapeFindings (onTop line cs) = (shapeFindings cs).map Finding.down := by
  have stands : ∀ p ∈ scanned, p.standsIn (onTop line cs) = p.standsIn cs :=
    standsIn_scanned quiet
  unfold scanned at stands
  have solid' : Text.isAllBlank (onTop line cs) = false := by
    rw [onTop, Text.isAllBlank, List.all_append, ← Text.isAllBlank, quiet.solid, Bool.false_and]
  unfold shapeFindings definesMain calls
  rw [solid, solid', count_onTop quiet (by decide), count_onTop quiet (by decide)]
  simp only [stands, List.mem_cons, true_or, or_true, List.map_append, map_down_reportIf]
  rfl

theorem firstCallLine_onTop :
    firstCallLine (onTop line cs) "printf" = (firstCallLine cs "printf").map (· + 1) :=
  map_lineAt_onTop (by decide) (quiet.foreign _ (by decide)) quiet.uncut

/-- The calls are what they were. -/
theorem callFindings_onTop :
    callFindings (onTop line cs) = (callFindings cs).map Finding.down := by
  have stands : ∀ p ∈ scanned, p.standsIn (onTop line cs) = p.standsIn cs :=
    standsIn_scanned quiet
  unfold scanned at stands
  unfold callFindings definesMain calls
  rw [firstCallLine_onTop quiet]
  simp only [stands, List.mem_cons, true_or, or_true, List.map_append, map_down_reportIf]
  rfl

/-- The other lines are looked at one by one. -/
theorem layoutFindings_onTop :
    layoutFindings (onTop line cs) = (layoutFindings cs).map Finding.down := by
  have own : lineFindings 1 line = [] := by
    rw [lineFindings]
    simp [quiet.unread]
  have lines : (Text.splitLines (onTop line cs)).zipIdx 1 =
      (line, 1) :: ((Text.splitLines cs).zipIdx 1).map fun x => (x.1, x.2 + 1) := by
    rw [onTop, Text.splitLines_append quiet.uncut, List.zipIdx_cons, List.zipIdx_succ]
  rw [layoutFindings, lines, List.flatMap_cons]
  show lineFindings 1 line ++ _ = _
  rw [own, List.nil_append, List.flatMap_map, layoutFindings, List.map_flatMap]
  refine List.flatMap_congr ?_
  rintro ⟨raw, n⟩ -
  exact lineFindings_down n raw

/-- Whether a finding is about a variable that is named like a word of the line. -/
def Finding.namesWordOf (line : List Char) : Finding → Bool
  | unusedVariable name _ => (wordPlaces line).any (·.word == name.toList)
  | _ => false

/-- A variable is used now if it is named like a word of the line. -/
theorem variableFindings_onTop : variableFindings (onTop line cs) =
    ((variableFindings cs).filter fun f => !f.namesWordOf line).map Finding.down := by
  rw [variableFindings_eq, ← declarations, declarations_onTop quiet.uncut quiet.untyped,
    List.filter_map, List.map_map, variableFindings_eq, ← declarations, List.filter_map,
    List.filter_filter, List.map_map]
  refine congrArg (List.map _) (List.filter_congr ?_)
  rintro ⟨name, n⟩ there
  rw [Bool.and_comm]
  exact isUnusedAt_onTop quiet.uncut there

end Findings

end LiveLint.CSource
