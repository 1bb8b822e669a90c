import LiveLint.Proofs.CSource.Followers
import LiveLint.Proofs.CSource.Places
import LiveLint.Proofs.Lists
import Mathlib.Data.List.TakeWhile

/-!
# Words and declared names by place

The words of a text are its runs of word characters. Each word has the place where it starts, and
that is all that the check of variables asks about: how often a word is there (`count_runs`), and
which names follow the words for primitive types (`map_followersFrom`). Both go by the runs of the
text, one run after the other (`runs_induction`).
-/

namespace LiveLint

namespace Text

/-! ## Runs -/

section Runs

variable {xs ys : List Char}

theorem runs_append {word : Bool} (some : xs ≠ []) (same : ∀ c ∈ xs, isWord c = word)
    (other : ∀ c ∈ ys.head?, isWord c = !word) : runs (xs ++ ys) = xs :: runs ys := by
  have chain : xs.IsChain fun x y => sameRun x y = true := by
    refine List.Pairwise.isChain (List.pairwise_of_forall_mem_list ?_)
    intro c hc d hd
    simp [sameRun, same c hc, same d hd]
  rw [runs, List.splitBy_append, List.splitBy_of_isChain some chain, List.singleton_append, runs]
  intro c hc d hd
  rw [sameRun, same c (List.mem_of_mem_getLast? hc), other d hd]
  cases word <;> rfl

/-- The first run of a text and what is left of it. -/
theorem exists_run (c : Char) (r : List Char) :
    ∃ xs ys, c :: r = xs ++ ys ∧ xs ≠ [] ∧ (∀ d ∈ xs, isWord d = isWord c) ∧
      ∀ d ∈ ys.head?, isWord d = !isWord c := by
  let p : Char → Bool := fun d => isWord d == isWord c
  have first : p c = true := beq_self_eq_true _
  refine ⟨(c :: r).takeWhile p, (c :: r).dropWhile p, List.takeWhile_append_dropWhile.symm,
    ?_, ?_, ?_⟩
  · rw [List.takeWhile_cons_of_pos first]
    exact List.cons_ne_nil _ _
  · intro d hd
    have kept : p d = true := List.mem_takeWhile_imp hd
    exact eq_of_beq kept
  · intro d hd
    have stop := List.head?_dropWhile_not p (c :: r)
    rw [Option.mem_def.mp hd] at stop
    have other : p d = false := stop
    exact Bool.eq_not_of_ne (ne_of_beq_false other)

/-- What holds of a text if it holds of what follows its first run holds of all texts. -/
theorem runs_induction {P : List Char → Prop} (nil : P [])
    (word : ∀ xs ys, xs ≠ [] → (∀ c ∈ xs, isWord c = true) → (∀ c ∈ ys.head?, isWord c = false) →
      P ys → P (xs ++ ys))
    (other : ∀ xs ys, xs ≠ [] → (∀ c ∈ xs, isWord c = false) → (∀ c ∈ ys.head?, isWord c = true) →
      P ys → P (xs ++ ys)) (cs : List Char) : P cs := by
  induction size : cs.length using Nat.strongRecOn generalizing cs with
  | _ n ih =>
    cases cs with
    | nil => exact nil
    | cons c r =>
      obtain ⟨xs, ys, whole, some, same, stop⟩ := exists_run c r
      have rest : P ys := by
        refine ih ys.length ?_ ys rfl
        have := List.length_pos_iff.mpr some
        rw [← size, whole, List.length_append]
        omega
      rw [whole]
      cases kind : isWord c with
      | true =>
        rw [kind] at same stop
        exact word xs ys some same stop rest
      | false =>
        rw [kind] at same stop
        exact other xs ys some same stop rest

end Runs

end Text

namespace CSource

/-! ## Where words start -/

/-- Whether a word starts at the place. -/
def Place.startsWord (p : Place) : Bool :=
  !p.afterWord && Text.isWord? p.text.head?

/-- The word that the text at the place opens with. -/
def Place.word (p : Place) : List Char :=
  p.text.takeWhile Text.isWord

/-- The places where words start, of a text whose head stands on the given line. -/
def wordPlacesFrom (afterWord : Bool) (line : Nat) (cs : List Char) : List Place :=
  (placesFrom afterWord line cs).filter Place.startsWord

/-- The places where the words of a text start. -/
def wordPlaces (cs : List Char) : List Place :=
  wordPlacesFrom false 1 cs

section WordPlaces

variable {afterWord : Bool} {n : Nat} {c : Char} {r xs ys : List Char}

theorem wordPlacesFrom_cons_other (h : Text.isWord c = false) :
    wordPlacesFrom afterWord n (c :: r) = wordPlacesFrom false (n + [c].count '\n') r := by
  cases blank : Text.isBlank c with
  | true => rw [wordPlacesFrom, placesFrom_cons_blank blank, wordPlacesFrom]
  | false =>
    have inside : [c].count '\n' = 0 := by
      rw [List.count_eq_zero, List.mem_singleton]
      rintro rfl
      cases blank
    have none : Place.startsWord ⟨n, afterWord, c :: r⟩ = false := by
      simp [Place.startsWord, Text.isWord?, h]
    rw [wordPlacesFrom, placesFrom_cons blank, List.filter_cons, none, if_neg Bool.false_ne_true,
      inside, h]
    rfl

theorem wordPlacesFrom_cons_word (h : Text.isWord c = true) :
    wordPlacesFrom afterWord n (c :: r) =
      (if afterWord then [] else [⟨n, afterWord, c :: r⟩]) ++ wordPlacesFrom true n r := by
  have starts : Place.startsWord ⟨n, afterWord, c :: r⟩ = !afterWord := by
    simp [Place.startsWord, Text.isWord?, h]
  rw [wordPlacesFrom, placesFrom_cons (Text.isBlank_of_isWord h), List.filter_cons, starts, h]
  cases afterWord <;> rfl

/-- Behind a word stands none of its characters. -/
theorem wordPlacesFrom_true (stop : ∀ c ∈ ys.head?, Text.isWord c = false) :
    wordPlacesFrom true n ys = wordPlacesFrom false n ys := by
  cases ys with
  | nil => rfl
  | cons c ys =>
    rw [wordPlacesFrom_cons_other (stop c rfl), wordPlacesFrom_cons_other (stop c rfl)]

theorem wordPlacesFrom_word (some : xs ≠ []) (word : ∀ c ∈ xs, Text.isWord c = true)
    (stop : ∀ c ∈ ys.head?, Text.isWord c = false) :
    wordPlacesFrom false n (xs ++ ys) = ⟨n, false, xs ++ ys⟩ :: wordPlacesFrom false n ys := by
  have inside : ∀ xs : List Char, (∀ c ∈ xs, Text.isWord c = true) →
      wordPlacesFrom true n (xs ++ ys) = wordPlacesFrom false n ys := by
    intro xs word
    induction xs with
    | nil => exact wordPlacesFrom_true stop
    | cons c xs ih =>
      rw [List.cons_append, wordPlacesFrom_cons_word (word c List.mem_cons_self), if_pos rfl,
        List.nil_append, ih fun d hd => word d (List.mem_cons_of_mem c hd)]
  obtain ⟨c, xs, rfl⟩ := List.exists_cons_of_ne_nil some
  rw [List.cons_append, wordPlacesFrom_cons_word (word c List.mem_cons_self),
    if_neg Bool.false_ne_true, inside xs fun d hd => word d (List.mem_cons_of_mem c hd)]
  rfl

theorem wordPlacesFrom_other (other : ∀ c ∈ xs, Text.isWord c = false) :
    wordPlacesFrom false n (xs ++ ys) = wordPlacesFrom false (n + xs.count '\n') ys := by
  induction xs generalizing n with
  | nil => rfl
  | cons c xs ih =>
    have feeds : (c :: xs).count '\n' = [c].count '\n' + xs.count '\n' := by
      rw [← List.count_append, List.singleton_append]
    rw [List.cons_append, wordPlacesFrom_cons_other (other c List.mem_cons_self),
      ih fun d hd => other d (List.mem_cons_of_mem c hd), feeds, Nat.add_assoc]

end WordPlaces

theorem count_feeds_of_word {xs : List Char} (word : ∀ c ∈ xs, Text.isWord c = true) :
    xs.count '\n' = 0 := by
  rw [List.count_eq_zero]
  intro feed
  cases word '\n' feed

/-! ## How often a word is there -/

/-- A word is as often among the runs as there are places where it starts. -/
theorem count_runs {word : List Char} (kind : Text.isWord? word.head? = true) (cs : List Char) :
    (Text.runs cs).count word = (wordPlaces cs).countP (·.word == word) := by
  suffices h : ∀ n, (Text.runs cs).count word = (wordPlacesFrom false n cs).countP (·.word == word)
    from h 1
  induction cs using Text.runs_induction with
  | nil => exact fun _ => rfl
  | word xs ys some same stop ih =>
    intro n
    have here : Place.word ⟨n, false, xs ++ ys⟩ = xs := Text.takeWhile_append_stop same stop
    rw [Text.runs_append some same stop, wordPlacesFrom_word some same stop, List.count_cons,
      List.countP_cons, here, ih]
  | other xs ys some same stop ih =>
    intro n
    have ne : xs ≠ word := by
      rintro rfl
      obtain ⟨c, xs, rfl⟩ := List.exists_cons_of_ne_nil some
      have first : Text.isWord c = true := kind
      rw [same c List.mem_cons_self] at first
      cases first
    rw [Text.runs_append some same stop, wordPlacesFrom_other same, List.count_cons_of_ne ne, ih]

/-! ## Declared names -/

/-- The name that the word at a place declares, with its line: what follows a primitive type with
nothing but blanks between. -/
def Place.declares? (p : Place) : Option (String × Nat) :=
  let behind := p.text.dropWhile Text.isWord
  let name := Text.trimStart behind
  if String.ofList p.word ∈ primitiveTypes && behind.head?.any Text.isBlank &&
      startsIdentifier name then
    some (String.ofList (name.takeWhile Text.isWord),
      p.line + (behind.takeWhile Text.isBlank).count '\n')
  else none

theorem startsIdentifier_of_other {cs : List Char} (h : ∀ c ∈ cs.head?, Text.isWord c = false) :
    startsIdentifier cs = false := by
  cases cs with
  | nil => rfl
  | cons c r =>
    have other := h c rfl
    rw [← Bool.not_eq_true]
    intro starts
    rw [startsIdentifier, Bool.or_eq_true] at starts
    have ascii : c.toNat < 128 := by
      rcases starts with letter | low
      · simp only [Text.isAlpha_eq, Text.isUpper_eq, Text.isLower_eq, Char.le_def,
          UInt32.le_iff_toNat_le, Bool.or_eq_true, Bool.and_eq_true, decide_eq_true_eq] at letter
        rcases letter with upper | lower
        · exact Nat.lt_of_le_of_lt upper.2 (by decide)
        · exact Nat.lt_of_le_of_lt lower.2 (by decide)
      · rw [eq_of_beq low]
        decide
    have word : Text.isWord c = true := by
      rw [Text.isWord, if_pos ascii, Text.isAsciiWord, Char.isAlphanum]
      rcases starts with letter | low
      · rw [letter, Bool.true_or, Bool.true_or]
      · rw [low, Bool.or_true]
    rw [word] at other
    cases other

section Declares

variable {n : Nat} {xs gap ys : List Char}

/-- Where nothing but blanks follows the word, what follows them is declared. -/
theorem declares?_of_blank (word : ∀ c ∈ xs, Text.isWord c = true) (there : gap ≠ [])
    (blank : Text.isAllBlank gap = true) (stop : ∀ c ∈ ys.head?, Text.isWord c = true) :
    Place.declares? ⟨n, false, xs ++ (gap ++ ys)⟩ =
      if String.ofList xs ∈ primitiveTypes && startsIdentifier ys then
        some (String.ofList (ys.takeWhile Text.isWord), n + gap.count '\n')
      else none := by
  have all : ∀ c ∈ gap, Text.isBlank c = true := List.all_eq_true.mp blank
  have solid : ∀ c ∈ ys.head?, Text.isBlank c = false := fun c hc =>
    Text.isBlank_of_isWord (stop c hc)
  have first : ∀ c ∈ (gap ++ ys).head?, Text.isWord c = false := by
    intro c hc
    rw [List.head?_append_of_ne_nil _ there] at hc
    exact Text.isWord_of_isBlank (all c (List.mem_of_mem_head? hc))
  have opens : (gap ++ ys).head?.any Text.isBlank = true := by
    obtain ⟨c, gap, rfl⟩ := List.exists_cons_of_ne_nil there
    exact all c List.mem_cons_self
  unfold Place.declares? Place.word
  dsimp only
  rw [Text.takeWhile_append_stop word first, Text.dropWhile_append_stop word first, Text.trimStart,
    Text.dropWhile_append_stop all solid, Text.takeWhile_append_stop all solid, opens,
    Bool.and_true]

/-- Where something else than blanks follows the word, or nothing, it declares nothing. -/
theorem declares?_of_other (word : ∀ c ∈ xs, Text.isWord c = true)
    (other : ∀ c ∈ gap, Text.isWord c = false) (h : Text.isAllBlank gap = false ∨ ys = [])
    (bound : ∀ c ∈ (gap ++ ys).head?, Text.isWord c = false) :
    Place.declares? ⟨n, false, xs ++ (gap ++ ys)⟩ = none := by
  have none : startsIdentifier (Text.trimStart (gap ++ ys)) = false := by
    apply startsIdentifier_of_other
    intro c hc
    rw [Text.trimStart, List.dropWhile_append] at hc
    cases left : gap.dropWhile Text.isBlank with
    | nil =>
      -- all of it is blank, so it is the end of the text
      have blank : Text.isAllBlank gap = true := Text.isAllBlank_iff_trimStart.mpr left
      have last : ys = [] := h.resolve_left (by simp [blank])
      rw [left, last] at hc
      cases hc
    | cons d rest =>
      rw [left] at hc
      obtain rfl : d = c := Option.some.inj hc
      apply other
      apply (List.dropWhile_sublist Text.isBlank).subset
      rw [left]
      exact List.mem_cons_self
  unfold Place.declares? Place.word
  dsimp only
  rw [Text.dropWhile_append_stop word bound, none, Bool.and_false, if_neg Bool.false_ne_true]

end Declares

theorem not_mem_primitiveTypes {xs : List Char} (there : xs ≠ [])
    (other : ∀ c ∈ xs, Text.isWord c = false) : String.ofList xs ∉ primitiveTypes := by
  intro type
  have words : ∀ t ∈ primitiveTypes, ∀ c ∈ t.toList, Text.isWord c = true := by
    decide
  obtain ⟨c, rest, rfl⟩ := List.exists_cons_of_ne_nil there
  have word := words _ type c (by rw [String.toList_ofList]; exact List.mem_cons_self)
  rw [other c List.mem_cons_self] at word
  cases word

/-- No name follows what stands between words. -/
theorem followersFrom_other {pos : Nat} {xs : List Char} (there : xs ≠ [])
    (other : ∀ c ∈ xs, Text.isWord c = false) (runs : List (List Char)) :
    followersFrom pos (xs :: runs) = followersFrom (pos + xs.length) runs := by
  have none := not_mem_primitiveTypes there other
  rcases runs with _ | ⟨between, _ | ⟨name, rest⟩⟩
  · rfl
  · rfl
  · rw [followersFrom]
    simp [none]

/-- A declared name with the line that it stands on in a text. -/
def Declared.located (cs : List Char) (d : Declared) : String × Nat :=
  (d.name, Text.lineAt cs d.position)

theorem lineAt_behind_gap {before xs gap rest : List Char}
    (word : ∀ c ∈ xs, Text.isWord c = true) :
    Text.lineAt (before ++ (xs ++ (gap ++ rest))) (before.length + xs.length + gap.length) =
      before.count '\n' + 1 + gap.count '\n' := by
  have front : before ++ (xs ++ (gap ++ rest)) = before ++ xs ++ gap ++ rest := by simp
  rw [Text.lineAt, front, List.take_left' (by simp [Nat.add_assoc]), List.count_append,
    List.count_append, count_feeds_of_word word]
  omega

section WordAndName

variable {before xs gap name rest : List Char}

/-- A word that another word follows declares what its place says it does. -/
theorem followersFrom_word_name (word : ∀ c ∈ xs, Text.isWord c = true) (there : gap ≠ [])
    (other : ∀ c ∈ gap, Text.isWord c = false) (named : name ≠ [])
    (letters : ∀ c ∈ name, Text.isWord c = true) (bound : ∀ c ∈ rest.head?, Text.isWord c = false) :
    (followersFrom before.length (xs :: gap :: name :: Text.runs rest)).map
        (Declared.located (before ++ (xs ++ (gap ++ (name ++ rest))))) =
      (Place.declares? ⟨before.count '\n' + 1, false, xs ++ (gap ++ (name ++ rest))⟩).toList ++
        (followersFrom (before.length + xs.length) (gap :: name :: Text.runs rest)).map
          (Declared.located (before ++ (xs ++ (gap ++ (name ++ rest))))) := by
  rw [followersFrom]
  by_cases blank : Text.isAllBlank gap = true
  · have first : ∀ c ∈ (name ++ rest).head?, Text.isWord c = true := by
      intro c hc
      rw [List.head?_append_of_ne_nil _ named] at hc
      exact letters c (List.mem_of_mem_head? hc)
    have starts : startsIdentifier (name ++ rest) = startsIdentifier name := by
      obtain ⟨c, name, rfl⟩ := List.exists_cons_of_ne_nil named
      rfl
    rw [declares?_of_blank word there blank first, blank, Bool.and_true, starts,
      Text.takeWhile_append_stop letters bound]
    cases decide (String.ofList xs ∈ primitiveTypes) && startsIdentifier name with
    | true => simp [Declared.located, lineAt_behind_gap word]
    | false => simp
  · rw [Bool.not_eq_true] at blank
    have stop : ∀ c ∈ (gap ++ (name ++ rest)).head?, Text.isWord c = false := by
      intro c hc
      rw [List.head?_append_of_ne_nil _ there] at hc
      exact other c (List.mem_of_mem_head? hc)
    rw [declares?_of_other word other (Or.inl blank) stop, blank]
    simp

end WordAndName

/-- A word declares what its place says it does. -/
theorem followersFrom_word {before xs ys : List Char}
    (word : ∀ c ∈ xs, Text.isWord c = true) (stop : ∀ c ∈ ys.head?, Text.isWord c = false) :
    (followersFrom before.length (xs :: Text.runs ys)).map
        (Declared.located (before ++ (xs ++ ys))) =
      (Place.declares? ⟨before.count '\n' + 1, false, xs ++ ys⟩).toList ++
        (followersFrom (before.length + xs.length) (Text.runs ys)).map
          (Declared.located (before ++ (xs ++ ys))) := by
  cases ys with
  | nil =>
    have none : Place.declares? ⟨before.count '\n' + 1, false, xs ++ ([] ++ [])⟩ = none :=
      declares?_of_other word nofun (Or.inr rfl) nofun
    rw [show xs ++ [] = xs ++ ([] ++ []) from rfl, none]
    rfl
  | cons c r =>
    obtain ⟨gap, zs, whole, some, other, bound⟩ := Text.exists_run c r
    rw [whole] at stop ⊢
    rw [stop c (by rw [← whole]; rfl)] at other bound
    rw [Text.runs_append some other bound]
    cases zs with
    | nil =>
      rw [declares?_of_other word other (Or.inr rfl) stop]
      rfl
    | cons d r' =>
      obtain ⟨name, rest, whole', some', word', bound'⟩ := Text.exists_run d r'
      rw [bound d rfl] at word' bound'
      rw [whole', Text.runs_append some' word' bound']
      exact followersFrom_word_name word some other some' word' bound'

/-- The names that follow a type are those that the words declare, each on its line. -/
theorem map_followersFrom (cs before : List Char) :
    (followersFrom before.length (Text.runs cs)).map (Declared.located (before ++ cs)) =
      (wordPlacesFrom false (before.count '\n' + 1) cs).filterMap Place.declares? := by
  induction cs using Text.runs_induction generalizing before with
  | nil => rfl
  | word xs ys some same stop ih =>
    have later := ih (before ++ xs)
    rw [List.length_append, List.count_append, count_feeds_of_word same, Nat.add_zero,
      List.append_assoc] at later
    rw [Text.runs_append some same stop, followersFrom_word same stop, later,
      wordPlacesFrom_word some same stop, List.filterMap_cons]
    cases Place.declares? ⟨before.count '\n' + 1, false, xs ++ ys⟩ <;> rfl
  | other xs ys some same stop ih =>
    have later := ih (before ++ xs)
    rw [List.length_append, List.count_append, List.append_assoc, Nat.add_right_comm] at later
    rw [Text.runs_append some same stop, followersFrom_other some same, later,
      wordPlacesFrom_other same]

/-! ## The check of variables -/

/-- Whether a name is that of a variable, and none of the given places has it again. -/
def isUnusedAt (words : List Place) (name : String) : Bool :=
  (Declared.mk name 0).isVariable && words.countP (·.word == name.toList) ≤ 1

theorem startsIdentifier_of_mem_followersFrom {pos : Nat} {runs : List (List Char)} {d : Declared}
    (h : d ∈ followersFrom pos runs) : startsIdentifier d.name.toList = true := by
  fun_induction followersFrom pos runs with
  | case1 pos type between name rest later declares ih =>
    rcases List.mem_cons.mp h with rfl | h
    · rw [Bool.and_eq_true] at declares
      rw [String.toList_ofList]
      exact declares.2
    · exact ih h
  | case2 pos type between name rest later _ ih => exact ih h
  | case3 => cases h

theorem isWord?_of_startsIdentifier {cs : List Char} (h : startsIdentifier cs = true) :
    Text.isWord? cs.head? = true := by
  by_contra other
  rw [Bool.not_eq_true] at other
  have none : startsIdentifier cs = false := by
    apply startsIdentifier_of_other
    intro c hc
    rwa [Option.mem_def.mp hc] at other
  rw [none] at h
  cases h

/-- The check of variables looks at the places of words only. -/
theorem variableFindings_eq (cs : List Char) :
    variableFindings cs =
      (((wordPlaces cs).filterMap Place.declares?).filter
        (isUnusedAt (wordPlaces cs) ·.1)).map fun (name, line) => .unusedVariable name line := by
  have located : ((followers cs).map (Declared.located cs)) =
      (wordPlaces cs).filterMap Place.declares? := map_followersFrom cs []
  have unused : unusedVariables cs = (followers cs).filter fun d =>
      isUnusedAt (wordPlaces cs) (d.located cs).1 := by
    rw [unusedVariables_eq]
    refine List.filter_congr ?_
    intro d hd
    have word := isWord?_of_startsIdentifier (startsIdentifier_of_mem_followersFrom hd)
    rw [occurrences, count_runs word]
    rfl
  rw [variableFindings, unused, ← located, List.filter_map, List.map_map]
  rfl

end CSource

end LiveLint
