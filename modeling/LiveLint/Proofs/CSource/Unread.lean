import LiveLint.Proofs.CSource.Jumps

/-!
# What is not read as code

A line is written as pieces of code with literals between them, and perhaps a comment at the end. A
`Passage` is such a line without the comment. Its code is the pieces with `""` for every literal
(`codeOf_text`), and a comment adds nothing to that: it may take a slash off the end
(`codeOf_commented`), where no jump can be. So what the literals and the comment say decides nothing
(`hasRunOnStatement_unread`).
-/

namespace LiveLint.CSource

/-! ## Passages -/

/-- A complete literal. -/
structure Literal where
  quote : Char
  body : List Char
  isQuote : IsQuote quote
  isBody : LiteralBody quote body

/-- The literal as it is written. -/
def Literal.text (l : Literal) : List Char :=
  l.quote :: (l.body ++ [l.quote])

/-- A piece of code in which no literal and no comment begins. -/
structure Piece where
  text : List Char
  unquoted : ∀ c ∈ text, ¬ IsQuote c
  uncommented : ¬ ['/', '/'] <:+: text

/-- A line without a comment at its end: pieces of code with literals between them. -/
structure Passage where
  first : Piece
  later : List (Literal × Piece)

namespace Passage

/-- The pieces of code, in order. -/
def pieces (p : Passage) : List Piece :=
  p.first :: p.later.map Prod.snd

/-- The passage as it is written. -/
def text (p : Passage) : List Char :=
  p.first.text ++ p.later.flatMap fun part => part.1.text ++ part.2.text

/-- The pieces with an empty literal between any two. -/
def code (p : Passage) : List Char :=
  ['"', '"'].intercalate (p.pieces.map Piece.text)

variable (first piece : Piece) (literal : Literal) (later : List (Literal × Piece))

theorem text_nil : text ⟨first, []⟩ = first.text := by
  simp [text]

theorem text_cons :
    text ⟨first, (literal, piece) :: later⟩ =
      first.text ++ (literal.text ++ text ⟨piece, later⟩) := by
  simp [text]

theorem code_nil : code ⟨first, []⟩ = first.text := by
  simp [code, pieces, List.intercalate]

theorem code_cons :
    code ⟨first, (literal, piece) :: later⟩ = first.text ++ '"' :: '"' :: code ⟨piece, later⟩ := by
  simp [code, pieces, List.intercalate]

end Passage

/-! ## Blanking -/

theorem blankLiterals_append {xs : List Char} (unquoted : ∀ c ∈ xs, ¬ IsQuote c) (cs : List Char) :
    blankLiterals (xs ++ cs) = xs ++ blankLiterals cs := by
  induction xs with
  | nil => rfl
  | cons c xs ih =>
    have later := ih fun d hd => unquoted d (List.mem_cons_of_mem _ hd)
    rw [List.cons_append, blankLiterals_plain (unquoted c List.mem_cons_self), later,
      List.cons_append]

/-- A complete literal becomes an empty one, whatever follows. -/
theorem Literal.blankLiterals_append (l : Literal) (cs : List Char) :
    blankLiterals (l.text ++ cs) = '"' :: '"' :: blankLiterals cs := by
  have closed : afterLiteral l.quote (l.body ++ l.quote :: cs) = some cs :=
    l.isBody.afterLiteral_eq l.isQuote
  rw [Literal.text, List.cons_append, List.append_assoc, List.singleton_append,
    blankLiterals_literal l.isQuote closed]

/-- Of a passage its code is left, whatever follows. -/
theorem Passage.blankLiterals_append (p : Passage) (cs : List Char) :
    blankLiterals (p.text ++ cs) = p.code ++ blankLiterals cs := by
  obtain ⟨first, later⟩ := p
  induction later generalizing first with
  | nil => rw [text_nil, code_nil, CSource.blankLiterals_append first.unquoted]
  | cons part later ih =>
    rw [text_cons, code_cons, List.append_assoc, CSource.blankLiterals_append first.unquoted,
      List.append_assoc, Literal.blankLiterals_append, ih, List.append_assoc, List.cons_append,
      List.cons_append]

/-! ## Comments -/

/-- The two characters do not begin a comment. -/
def NoComment (c d : Char) : Prop :=
  ¬ (c = '/' ∧ d = '/')

/-- No comment begins in a text just if no two neighbours begin one. -/
theorem isChain_noComment_iff {cs : List Char} :
    cs.IsChain NoComment ↔ ¬ ['/', '/'] <:+: cs := by
  rw [List.isChain_iff_forall_rel_of_append_cons_cons]
  constructor
  · rintro chain ⟨front, back, whole⟩
    refine @chain _ _ front back ?_ ⟨rfl, rfl⟩
    rw [← whole, List.append_assoc]
    rfl
  · rintro none c d front back rfl ⟨rfl, rfl⟩
    exact none ⟨front, back, by simp⟩

/-- No comment begins in the code of a passage: a slash at the end of a piece is in front of a
literal. -/
theorem Passage.uncommented (p : Passage) : ¬ ['/', '/'] <:+: p.code := by
  rw [← isChain_noComment_iff]
  obtain ⟨first, later⟩ := p
  induction later generalizing first with
  | nil =>
    rw [code_nil]
    exact isChain_noComment_iff.mpr first.uncommented
  | cons part later ih =>
    have quote : ∀ c, NoComment c '"' := fun c both => absurd both.2 (by decide)
    have quote' : ∀ c, NoComment '"' c := fun c both => absurd both.1 (by decide)
    rw [code_cons]
    refine (isChain_noComment_iff.mpr first.uncommented).append ?_ ?_
    · exact ((ih part.2).cons fun c _ => quote' c).cons fun c _ => quote' c
    · intro c _ d hd
      cases hd
      exact quote c

/-- Without a comment, the code is all that is left. -/
theorem Passage.codeOf_text (p : Passage) : codeOf p.text = p.code := by
  have blanked := p.blankLiterals_append []
  rw [List.append_nil, blankLiterals_nil, List.append_nil] at blanked
  rw [codeOf, blanked, Text.before_eq_iff (List.cons_ne_nil _ _)]
  exact .whole rfl p.uncommented

/-- A comment is cut off, with the slash before it if there is one. -/
theorem Passage.codeOf_commented (p : Passage) (comment : List Char) :
    codeOf (p.text ++ '/' :: '/' :: comment) = p.code ∨
      p.code = codeOf (p.text ++ '/' :: '/' :: comment) ++ ['/'] := by
  have slash : ¬ IsQuote '/' := by decide
  have blanked := p.blankLiterals_append ('/' :: '/' :: comment)
  rw [blankLiterals_plain slash, blankLiterals_plain slash] at blanked
  by_cases last : '/' ∈ p.code.getLast?
  · right
    obtain ⟨front, whole⟩ := List.getLast?_eq_some_iff.mp last
    rw [whole, List.append_assoc] at blanked
    have cut : codeOf (p.text ++ '/' :: '/' :: comment) = front := by
      rw [codeOf, blanked, Text.before_eq_iff (List.cons_ne_nil _ _)]
      exact .cut rfl (whole ▸ p.uncommented)
    rw [cut, whole]
  · left
    rw [codeOf, blanked, Text.before_eq_iff (List.cons_ne_nil _ _)]
    refine .cut rfl (isChain_noComment_iff.mp ?_)
    refine (isChain_noComment_iff.mpr p.uncommented).append (List.isChain_singleton _) ?_
    rintro c hc d - ⟨rfl, -⟩
    exact last hc

/-! ## What decides -/

/-- The code of a passage decides, also with a comment behind it. -/
theorem Passage.runsOn_iff (p : Passage) :
    hasRunOnStatement p.text = true ↔ IsRunOn p.code := by
  rw [hasRunOnStatement, isRunOn_iff, p.codeOf_text]

theorem Passage.runsOn_commented_iff (p : Passage) (comment : List Char) :
    hasRunOnStatement (p.text ++ '/' :: '/' :: comment) = true ↔ IsRunOn p.code := by
  rw [hasRunOnStatement, isRunOn_iff]
  rcases p.codeOf_commented comment with same | shorter
  · rw [same]
  · rw [shorter, isRunOn_concat_iff (by decide)]

/-- **What literals and comments say decides nothing**: the pieces of code decide, with an empty
literal between any two. So lines with the same pieces are found alike, whatever their literals are,
and a comment at the end makes no difference. -/
theorem hasRunOnStatement_unread (p p' : Passage) (same : p.pieces = p'.pieces) :
    (hasRunOnStatement p.text = true ↔ IsRunOn p.code) ∧
      hasRunOnStatement p.text = hasRunOnStatement p'.text ∧
      ∀ comment,
        hasRunOnStatement (p.text ++ '/' :: '/' :: comment) = hasRunOnStatement p.text := by
  have code : p.code = p'.code := by rw [Passage.code, same, Passage.code]
  refine ⟨p.runsOn_iff, ?_, fun comment => ?_⟩
  · rw [Bool.eq_iff_iff, p.runsOn_iff, p'.runsOn_iff, code]
  · rw [Bool.eq_iff_iff, p.runsOn_commented_iff, p.runsOn_iff]

/-- A jump behind a literal. -/
def breakBehind (literal : Literal) : Passage where
  first := ⟨"c = ".toList, by decide, by decide⟩
  later := [(literal, ⟨" break;".toList, by decide, by decide⟩)]

/-- An escaped quote between single quotes. -/
def markedQuote : Literal where
  quote := '\''
  body := "\\'".toList
  isQuote := .inr rfl
  isBody := .escape (by decide) .nil

/-- Words and a single quote between double quotes. -/
def quotedWords : Literal where
  quote := '"'
  body := "x return // '".toList
  isQuote := .inl rfl
  isBody := (literalBody_iff (.inl rfl)).mpr (by decide)

/-- The two literals can stand for each other. -/
theorem hasRunOnStatement_unread_breakBehind :
    (breakBehind markedQuote).text = "c = '\\'' break;".toList ∧
      (breakBehind quotedWords).text = "c = \"x return // '\" break;".toList ∧
      (breakBehind markedQuote).code = "c = \"\" break;".toList ∧
      (breakBehind markedQuote).pieces = (breakBehind quotedWords).pieces ∧
      (hasRunOnStatement "c = '\\'' break;".toList = true ↔ IsRunOn "c = \"\" break;".toList) ∧
      hasRunOnStatement "c = '\\'' break;".toList =
        hasRunOnStatement "c = \"x return // '\" break;".toList ∧
      ∀ comment, hasRunOnStatement ("c = '\\'' break;".toList ++ '/' :: '/' :: comment) =
        hasRunOnStatement "c = '\\'' break;".toList :=
  ⟨by decide, by decide, by decide, rfl,
    hasRunOnStatement_unread (breakBehind markedQuote) (breakBehind quotedWords) rfl⟩

end LiveLint.CSource
