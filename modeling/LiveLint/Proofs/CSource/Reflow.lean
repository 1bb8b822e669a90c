import LiveLint.Proofs.CSource.Words

/-!
# Texts that differ in the blanks between their lines

`Reflowed r n cs n' cs'` reads: the two texts say the same, character for character, but where one
has a line break between blanks the other has one too, with any blanks around it and any number of
further breaks; and they may end in different blanks. The texts stand on the lines `n` and `n'`, and
wherever they say something, their lines correspond by `r`.

A phrase is read alike in both (`isSome_readParts_eq`): none of its parts can tell one line break
from several, since all a part does with blanks is to skip them or to pass over them. So the places
of two such texts correspond one to one (`placesFrom_reflowed`), and what starts at one place starts
at the other.
-/

namespace LiveLint.CSource

/-- The same text but for the blanks between lines, and on corresponding lines. -/
inductive Reflowed (r : Nat → Nat → Prop) : Nat → List Char → Nat → List Char → Prop
  /-- Nothing is left but blanks. -/
  | ends {n n' : Nat} {gap gap' : List Char} (blank : Text.isAllBlank gap = true)
      (blank' : Text.isAllBlank gap' = true) : Reflowed r n gap n' gap'
  /-- Inside a line, every character is the same. -/
  | char {n n' : Nat} {c : Char} {cs cs' : List Char} (inside : c ≠ '\n')
      (line : Text.isBlank c = false → r n n') (rest : Reflowed r n cs n' cs') :
      Reflowed r n (c :: cs) n' (c :: cs')
  /-- One line break, or several. -/
  | gap {n n' : Nat} {gap gap' cs cs' : List Char} (blank : Text.isAllBlank gap = true)
      (blank' : Text.isAllBlank gap' = true) (feed : '\n' ∈ gap) (feed' : '\n' ∈ gap')
      (rest : Reflowed r (n + gap.count '\n') cs (n' + gap'.count '\n') cs') :
      Reflowed r n (gap ++ cs) n' (gap' ++ cs')

namespace Reflowed

variable {r : Nat → Nat → Prop} {n n' : Nat} {cs cs' : List Char}

/-- Two such texts open with the same character, or with a blank each if with anything. -/
theorem cases_head (h : Reflowed r n cs n' cs') :
    (∃ c t t', cs = c :: t ∧ cs' = c :: t' ∧ Text.isBlank c = false ∧ r n n' ∧
      Reflowed r n t n' t') ∨
    (Text.opensBlank cs = true ∧ Text.opensBlank cs' = true) := by
  cases h with
  | ends blank blank' =>
    right
    exact ⟨Text.opensBlank_of_blank blank, Text.opensBlank_of_blank blank'⟩
  | @char _ _ c t t' inside line rest =>
    cases blank : Text.isBlank c with
    | true => exact Or.inr ⟨blank, blank⟩
    | false => exact Or.inl ⟨c, t, t', rfl, rfl, blank, line blank, rest⟩
  | gap blank blank' feed feed' rest =>
    right
    exact ⟨Text.opensBlank_append blank (Or.inl (List.ne_nil_of_mem feed)),
      Text.opensBlank_append blank' (Or.inl (List.ne_nil_of_mem feed'))⟩

/-- Behind a character that is no blank. -/
theorem tail {c d : Char} {t t' : List Char} (h : Reflowed r n (c :: t) n' (d :: t'))
    (solid : Text.isBlank c = false) : c = d ∧ r n n' ∧ Reflowed r n t n' t' := by
  rcases h.cases_head with ⟨e, u, u', same, same', _, line, rest⟩ | ⟨opens, _⟩
  · obtain ⟨rfl, rfl⟩ := List.cons.inj same
    obtain ⟨rfl, rfl⟩ := List.cons.inj same'
    exact ⟨rfl, line, rest⟩
  · rw [Text.opensBlank_cons, solid] at opens
    cases opens

theorem feeds_of_char {c : Char} (inside : c ≠ '\n') (cs : List Char) :
    (c :: cs).count '\n' = cs.count '\n' :=
  List.count_cons_of_ne inside

/-! ## What parts of phrases do -/

theorem trimStart (h : Reflowed r n cs n' cs') :
    Reflowed r (n + (cs.takeWhile Text.isBlank).count '\n') (Text.trimStart cs)
      (n' + (cs'.takeWhile Text.isBlank).count '\n') (Text.trimStart cs') := by
  induction h with
  | ends blank blank' =>
    rw [Text.isAllBlank_iff_trimStart.mp blank, Text.isAllBlank_iff_trimStart.mp blank']
    exact .ends rfl rfl
  | @char n n' c cs cs' inside line rest ih =>
    unfold Text.trimStart at ih ⊢
    cases blank : Text.isBlank c with
    | true =>
      rw [List.takeWhile_cons_of_pos blank, List.takeWhile_cons_of_pos blank,
        List.dropWhile_cons_of_pos blank, List.dropWhile_cons_of_pos blank, feeds_of_char inside,
        feeds_of_char inside]
      exact ih
    | false =>
      have solid : ¬Text.isBlank c = true := by simp [blank]
      rw [List.takeWhile_cons_of_neg solid, List.takeWhile_cons_of_neg solid,
        List.dropWhile_cons_of_neg solid, List.dropWhile_cons_of_neg solid]
      exact .char inside line rest
  | @gap n n' gap gap' cs cs' blank blank' feed feed' rest ih =>
    have all : ∀ c ∈ gap, Text.isBlank c = true := List.all_eq_true.mp blank
    have all' : ∀ c ∈ gap', Text.isBlank c = true := List.all_eq_true.mp blank'
    unfold Text.trimStart at ih ⊢
    rw [List.takeWhile_append_of_pos all, List.takeWhile_append_of_pos all',
      List.dropWhile_append_of_pos all, List.dropWhile_append_of_pos all', List.count_append,
      List.count_append, ← Nat.add_assoc, ← Nat.add_assoc]
    exact ih

/-- A stretch without blanks is on one line. -/
theorem takeWhile_eq_and_dropWhile {p : Char → Bool}
    (solid : ∀ c, p c = true → Text.isBlank c = false) (h : Reflowed r n cs n' cs') :
    cs.takeWhile p = cs'.takeWhile p ∧ Reflowed r n (cs.dropWhile p) n' (cs'.dropWhile p) := by
  have stops : ∀ {cs : List Char}, Text.opensBlank cs = true →
      cs.takeWhile p = [] ∧ cs.dropWhile p = cs := by
    intro cs opens
    cases cs with
    | nil => exact ⟨rfl, rfl⟩
    | cons c cs =>
      have other : ¬p c = true := by
        intro held
        rw [Text.opensBlank_cons, solid c held] at opens
        cases opens
      exact ⟨List.takeWhile_cons_of_neg other, List.dropWhile_cons_of_neg other⟩
  induction cs generalizing cs' with
  | nil =>
    rcases h.cases_head with ⟨c, t, t', same, _⟩ | ⟨_, opens'⟩
    · cases same
    · rw [(stops opens').1, (stops opens').2]
      exact ⟨rfl, h⟩
  | cons c cs ih =>
    rcases h.cases_head with ⟨d, t, t', same, rfl, _, line, rest⟩ | ⟨opens, opens'⟩
    · obtain ⟨rfl, rfl⟩ := List.cons.inj same
      by_cases held : p c = true
      · rw [List.takeWhile_cons_of_pos held, List.takeWhile_cons_of_pos held,
          List.dropWhile_cons_of_pos held, List.dropWhile_cons_of_pos held, (ih rest).1]
        exact ⟨rfl, (ih rest).2⟩
      · rw [List.takeWhile_cons_of_neg held, List.takeWhile_cons_of_neg held,
          List.dropWhile_cons_of_neg held, List.dropWhile_cons_of_neg held]
        exact ⟨rfl, h⟩
    · rw [(stops opens).1, (stops opens).2, (stops opens').1, (stops opens').2]
      exact ⟨rfl, h⟩

/-- A text without blanks is read on one line. -/
theorem after? {part : List Char} (firm : ∀ c ∈ part, Text.isBlank c = false)
    (h : Reflowed r n cs n' cs') :
    Option.Rel (Reflowed r n · n' ·) (Text.after? part cs) (Text.after? part cs') := by
  induction part generalizing cs cs' with
  | nil => exact .some h
  | cons p part ih =>
    rcases h.cases_head with ⟨c, t, t', rfl, rfl, _, line, rest⟩ | ⟨opens, opens'⟩
    · rw [Text.after?, Text.after?]
      by_cases same : p = c
      · rw [if_pos same, if_pos same]
        exact ih (fun d hd => firm d (List.mem_cons_of_mem p hd)) rest
      · rw [if_neg same, if_neg same]
        exact .none
    · have whole : Text.isFirm (p :: part) = true :=
        Text.isFirm_iff.mpr ⟨List.cons_ne_nil p part, firm⟩
      rw [Text.after?_of_opensBlank whole opens, Text.after?_of_opensBlank whole opens']
      exact .none

theorem isPrefixOf_eq {part : List Char} (firm : ∀ c ∈ part, Text.isBlank c = false)
    (h : Reflowed r n cs n' cs') : part.isPrefixOf cs = part.isPrefixOf cs' := by
  have read : ∀ cs, part.isPrefixOf cs = (Text.after? part cs).isSome := by
    intro cs
    rw [Bool.eq_iff_iff, List.isPrefixOf_iff_prefix, Option.isSome_iff_exists]
    constructor
    · rintro ⟨rest, rfl⟩
      exact ⟨rest, Text.after?_eq_some_iff.mpr rfl⟩
    · rintro ⟨rest, found⟩
      exact ⟨rest, (Text.after?_eq_some_iff.mp found).symm⟩
  rw [read, read]
  exact isSome_eq_of_optionRel (h.after? firm)

/-- A text without blanks does not occur across lines. -/
theorem occurs_eq {part : List Char} (firm : Text.isFirm part = true) (h : Reflowed r n cs n' cs') :
    Text.occurs part cs = Text.occurs part cs' := by
  obtain ⟨some, solid⟩ := Text.isFirm_iff.mp firm
  have skip : ∀ (gap : List Char), Text.isAllBlank gap = true → ∀ cs,
      Text.occurs part (gap ++ cs) = Text.occurs part cs := by
    intro gap blank cs
    induction gap with
    | nil => rfl
    | cons c gap ih =>
      rw [Text.isAllBlank, List.all_cons, Bool.and_eq_true] at blank
      have other : part.isPrefixOf (c :: (gap ++ cs)) = false := by
        obtain ⟨p, part, rfl⟩ := List.exists_cons_of_ne_nil some
        have ne : c ≠ p := Text.ne_of_isBlank blank.1 (solid p List.mem_cons_self)
        simp [List.isPrefixOf, Ne.symm ne]
      rw [List.cons_append, Text.occurs, other, Bool.false_or, ih blank.2]
  induction h with
  | @ends n n' gap gap' blank blank' =>
    have all := skip gap blank []
    have all' := skip gap' blank' []
    rw [List.append_nil] at all all'
    rw [all, all']
  | char inside line rest ih =>
    rw [Text.occurs, Text.occurs, ih, isPrefixOf_eq solid (.char inside line rest)]
  | gap blank blank' feed feed' rest ih => rw [skip _ blank, skip _ blank', ih]

section Upto

variable {c : Char}

theorem bne_of_mem_blank (solid : Text.isBlank c = false) {gap : List Char}
    (blank : Text.isAllBlank gap = true) : ∀ d ∈ gap, (d != c) = true := by
  intro d hd
  rw [bne_iff_ne]
  exact Text.ne_of_isBlank (List.all_eq_true.mp blank d hd) solid

theorem takeWhile_ne (solid : Text.isBlank c = false) (h : Reflowed r n cs n' cs') :
    Reflowed r n (cs.takeWhile (· != c)) n' (cs'.takeWhile (· != c)) := by
  induction h with
  | ends blank blank' =>
    rw [List.takeWhile_eq_self_iff.mpr (bne_of_mem_blank solid blank),
      List.takeWhile_eq_self_iff.mpr (bne_of_mem_blank solid blank')]
    exact .ends blank blank'
  | @char n n' d cs cs' inside line rest ih =>
    rw [List.takeWhile_cons, List.takeWhile_cons]
    split
    · exact .char inside line ih
    · exact .ends rfl rfl
  | gap blank blank' feed feed' rest ih =>
    rw [List.takeWhile_append_of_pos (bne_of_mem_blank solid blank),
      List.takeWhile_append_of_pos (bne_of_mem_blank solid blank')]
    exact .gap blank blank' feed feed' ih

/-- What is read from the next `c` on, wherever it stands. -/
theorem tail?_dropWhile_ne (solid : Text.isBlank c = false) (h : Reflowed r n cs n' cs') :
    Option.Rel (fun t t' => ∃ m m', Reflowed r m t m' t') (cs.dropWhile (· != c)).tail?
      (cs'.dropWhile (· != c)).tail? := by
  induction h with
  | ends blank blank' =>
    rw [List.dropWhile_eq_nil_iff.mpr (bne_of_mem_blank solid blank),
      List.dropWhile_eq_nil_iff.mpr (bne_of_mem_blank solid blank')]
    exact .none
  | @char n n' d cs cs' inside line rest ih =>
    rw [List.dropWhile_cons, List.dropWhile_cons]
    split
    · exact ih
    · exact .some ⟨n, n', rest⟩
  | gap blank blank' feed feed' rest ih =>
    rw [List.dropWhile_append_of_pos (bne_of_mem_blank solid blank),
      List.dropWhile_append_of_pos (bne_of_mem_blank solid blank')]
    exact ih

end Upto

/-! ## Phrases -/

/-- Every part but a space is read in both texts or in none. -/
theorem read {part : Part} (firm : part.isFirm = true) (other : part ≠ .space)
    (h : Reflowed r n cs n' cs') :
    Option.Rel (fun t t' => ∃ m m', Reflowed r m t m' t') (part.read cs) (part.read cs') := by
  have unread : part.startsFirmly = true → Text.opensBlank cs = true → Text.opensBlank cs' = true →
      Option.Rel (fun t t' => ∃ m m', Reflowed r m t m' t') (part.read cs) (part.read cs') := by
    intro starts opens opens'
    rw [Part.read_of_opensBlank firm starts opens, Part.read_of_opensBlank firm starts opens']
    exact .none
  cases part with
  | text s =>
    have solid := (Text.isFirm_iff.mp firm).2
    exact optionRel_imp (h.after? solid) fun _ _ rest => ⟨n, n', rest⟩
  | gap => exact .some ⟨_, _, h.trimStart⟩
  | space => exact absurd rfl other
  | word =>
    rcases h.cases_head with ⟨c, t, t', rfl, rfl, _, _, rest⟩ | ⟨opens, opens'⟩
    · rw [Part.read, Part.read]
      split
      · exact .some ⟨n, n', (rest.takeWhile_eq_and_dropWhile fun _ => Text.isBlank_of_isWord).2⟩
      · exact .none
    · exact unread rfl opens opens'
  | quoted s =>
    rcases h.cases_head with ⟨c, t, t', rfl, rfl, _, _, rest⟩ | ⟨opens, opens'⟩
    · rw [Part.read_quoted_cons, Part.read_quoted_cons]
      split
      · have quote : Text.isBlank '"' = false := by decide
        rw [(rest.takeWhile_ne quote).occurs_eq firm]
        refine bind_optionRel (rest.tail?_dropWhile_ne quote) ?_
        intro u u' related
        split
        · exact .some related
        · exact .none
      · exact .none
    · exact unread rfl opens opens'
  | through c => exact h.tail?_dropWhile_ne (by simpa [Part.isFirm] using firm)

/-- A space is read in both texts or in none, unless both are at their end. -/
theorem read_space (h : Reflowed r n cs n' cs') :
    Option.Rel (fun t t' => ∃ m m', Reflowed r m t m' t') (Part.space.read cs)
      (Part.space.read cs') ∨
    (Text.isAllBlank cs = true ∧ Text.isAllBlank cs' = true) := by
  cases h with
  | ends blank blank' => exact Or.inr ⟨blank, blank'⟩
  | char inside line rest =>
    left
    rw [Part.read, Part.read]
    split
    · exact .some ⟨_, _, rest.trimStart⟩
    · exact .none
  | @gap _ _ gap gap' t t' blank blank' feed feed' rest =>
    left
    have skipped : ∀ {gap : List Char}, Text.isAllBlank gap = true → '\n' ∈ gap → ∀ t,
        Part.space.read (gap ++ t) = some (Text.trimStart t) := by
      intro gap blank feed t
      obtain ⟨c, gap, rfl⟩ := List.exists_cons_of_ne_nil (List.ne_nil_of_mem feed)
      have all : ∀ d ∈ c :: gap, Text.isBlank d = true := List.all_eq_true.mp blank
      rw [List.cons_append, Part.read, if_pos (all c List.mem_cons_self), Text.trimStart,
        List.dropWhile_append_of_pos fun d hd => all d (List.mem_cons_of_mem c hd), Text.trimStart]
    rw [skipped blank feed, skipped blank' feed']
    exact .some ⟨_, _, rest.trimStart⟩

/-- Behind a space at the end of a text nothing starts that starts firmly. -/
theorem readParts_space_of_blank {parts : List Part} (firm : startFirmly parts = true)
    (spaced : areSpaced parts = true) {cs : List Char} (blank : Text.isAllBlank cs = true) :
    readParts (.space :: parts) cs = none := by
  rw [readParts_cons]
  cases cs with
  | nil => rfl
  | cons c cs =>
    rw [Text.isAllBlank, List.all_cons, Bool.and_eq_true] at blank
    rw [Part.read, if_pos blank.1, Text.isAllBlank_iff_trimStart.mp blank.2, Option.bind_some]
    exact readParts_of_opensBlank firm spaced rfl

/-- **A phrase is read alike.** By its parts from left to right, since what each part leaves is
reflowed again. -/
theorem isSome_readParts_eq {parts : List Part} (spaced : areSpaced parts = true)
    (h : Reflowed r n cs n' cs') :
    (readParts parts cs).isSome = (readParts parts cs').isSome := by
  induction parts generalizing n n' cs cs' with
  | nil => rfl
  | cons part parts ih =>
    rw [areSpaced, Bool.and_eq_true, Bool.and_eq_true] at spaced
    have onward : Option.Rel (fun t t' => ∃ m m', Reflowed r m t m' t') (part.read cs)
        (part.read cs') →
        (readParts (part :: parts) cs).isSome = (readParts (part :: parts) cs').isSome := by
      intro related
      rw [readParts_cons, readParts_cons]
      generalize part.read cs = o at related ⊢
      generalize part.read cs' = o' at related ⊢
      cases related with
      | none => rfl
      | some rest =>
        obtain ⟨m, m', rest⟩ := rest
        exact ih spaced.2 rest
    by_cases space : part = .space
    · subst space
      rcases h.read_space with related | ⟨blank, blank'⟩
      · exact onward related
      · have firm : startFirmly parts = true := by simpa using spaced.1.2
        rw [readParts_space_of_blank firm spaced.2 blank,
          readParts_space_of_blank firm spaced.2 blank']
    · exact onward (h.read spaced.1.1 space)

end Reflowed

/-! ## Places -/

/-- The same place on corresponding lines. -/
structure Place.Alike (r : Nat → Nat → Prop) (place place' : Place) : Prop where
  line : r place.line place'.line
  afterWord : place.afterWord = place'.afterWord
  text : Reflowed r place.line place.text place'.line place'.text

variable {r : Nat → Nat → Prop}

/-- **The places correspond**, one for one. -/
theorem placesFrom_reflowed {n n' : Nat} {cs cs' : List Char} (h : Reflowed r n cs n' cs')
    (afterWord : Bool) :
    List.Forall₂ (Place.Alike r) (placesFrom afterWord n cs) (placesFrom afterWord n' cs') := by
  induction h generalizing afterWord with
  | ends blank blank' =>
    rw [placesFrom_of_blank blank, placesFrom_of_blank blank']
    exact .nil
  | @char n n' c cs cs' inside line rest ih =>
    cases blank : Text.isBlank c with
    | true =>
      have same : [c].count '\n' = 0 := Reflowed.feeds_of_char inside []
      rw [placesFrom_cons_blank blank, placesFrom_cons_blank blank, same]
      exact ih false
    | false =>
      rw [placesFrom_cons blank, placesFrom_cons blank]
      exact .cons ⟨line blank, rfl, .char inside line rest⟩ (ih _)
  | gap blank blank' feed feed' rest ih =>
    rw [placesFrom_gap blank (List.ne_nil_of_mem feed),
      placesFrom_gap blank' (List.ne_nil_of_mem feed')]
    exact ih false

/-- The same name on corresponding lines. -/
def SameName (r : Nat → Nat → Prop) (x y : String × Nat) : Prop :=
  x.1 = y.1 ∧ r x.2 y.2

namespace Place.Alike

variable {place place' : Place}

theorem opensBlank_or (h : place.Alike r place') :
    place.text.head? = place'.text.head? ∨
      (Text.opensBlank place.text = true ∧ Text.opensBlank place'.text = true) := by
  rcases h.text.cases_head with ⟨c, t, t', same, same', _⟩ | opens
  · rw [same, same']
    exact Or.inl rfl
  · exact Or.inr opens

theorem isWord?_eq (h : place.Alike r place') :
    Text.isWord? place.text.head? = Text.isWord? place'.text.head? := by
  have other : ∀ {cs : List Char}, Text.opensBlank cs = true → Text.isWord? cs.head? = false := by
    intro cs opens
    cases cs with
    | nil => rfl
    | cons c cs => exact Text.isWord_of_isBlank opens
  rcases h.opensBlank_or with same | ⟨opens, opens'⟩
  · rw [same]
  · rw [other opens, other opens']

/-- A phrase starts at both places or at none. -/
theorem startsAtPlace_eq (h : place.Alike r place') {p : Phrase} (firm : p.isFirm = true) :
    p.startsAtPlace place = p.startsAtPlace place' := by
  rw [Phrase.isFirm, Bool.and_eq_true] at firm
  rw [Phrase.startsAtPlace, h.afterWord, h.isWord?_eq, h.text.isSome_readParts_eq firm.2,
    Phrase.startsAtPlace]

theorem startsWord_eq (h : place.Alike r place') : place.startsWord = place'.startsWord := by
  rw [Place.startsWord, h.afterWord, h.isWord?_eq, Place.startsWord]

theorem word_eq (h : place.Alike r place') : place.word = place'.word :=
  (h.text.takeWhile_eq_and_dropWhile fun _ => Text.isBlank_of_isWord).1

/-- The same name is declared, on corresponding lines, or none is. -/
theorem declares?_rel (h : place.Alike r place') :
    Option.Rel (SameName r) place.declares? place'.declares? := by
  have behind := (h.text.takeWhile_eq_and_dropWhile fun _ => Text.isBlank_of_isWord).2
  have name := behind.trimStart
  unfold Place.declares?
  dsimp only
  rw [h.word_eq]
  generalize place.text.dropWhile Text.isWord = cs at behind name ⊢
  generalize place'.text.dropWhile Text.isWord = cs' at behind name ⊢
  rcases name.cases_head with ⟨c, t, t', same, same', _, line, _⟩ | ⟨opens, opens'⟩
  · -- a name stands behind both words, so there are blanks before it in both texts or in none
    have between : cs.head?.any Text.isBlank = cs'.head?.any Text.isBlank := by
      have opened : ∀ {cs t : List Char}, Text.trimStart cs = c :: t →
          Text.opensBlank cs = true → cs.head?.any Text.isBlank = true := by
        intro cs t start opens
        cases cs with
        | nil => cases start
        | cons d cs => exact opens
      rcases behind.cases_head with ⟨d, u, u', rfl, rfl, _⟩ | ⟨opens, opens'⟩
      · rfl
      · rw [opened same opens, opened same' opens']
    have words := (name.takeWhile_eq_and_dropWhile fun _ => Text.isBlank_of_isWord).1
    rw [between, words, same, same']
    have starts : startsIdentifier (c :: t') = startsIdentifier (c :: t) := rfl
    rw [starts]
    split
    · exact .some ⟨rfl, line⟩
    · exact .none
  · -- nothing stands behind either word
    rw [Text.trimStart_eq_nil opens, Text.trimStart_eq_nil opens', startsIdentifier, Bool.and_false,
      Bool.and_false]
    exact .none

end Place.Alike

end LiveLint.CSource
