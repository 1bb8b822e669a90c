import LiveLint.CSource.Statement
import Mathlib.Data.List.Infix

/-!
# Literals and comments of a line

Before a line is searched for statements that run on, its literals are blanked and the comment at
its end is cut off. What that leaves can be said without the scanners: `LiteralBody` is what stands
between the quotes of a literal, `Blanked` relates a line to what it is with its literals blanked,
and `IsCode` says which part of that is code. The scanners find just this (`afterLiteral_iff`,
`blanked_iff`, `isCode_iff`).
-/

namespace LiveLint

namespace Text

/-! ## Up to the first occurrence -/

/-- `found` is the text up to the first occurrence of `part`, or all of it if there is none. An
earlier occurrence would end before the last character of this one. -/
inductive IsBefore (part cs found : List Char) : Prop
  | whole : cs = found → ¬ part <:+: cs → IsBefore part cs found
  | cut {behind : List Char} : cs = found ++ (part ++ behind) →
      ¬ part <:+: found ++ part.dropLast → IsBefore part cs found

section Before

variable {part cs r found : List Char} {c : Char}

theorem isBefore_nil_iff (some : part ≠ []) : IsBefore part [] found ↔ found = [] := by
  constructor
  · rintro (same | @⟨behind, whole, -⟩)
    · exact same.symm
    · exact (List.append_eq_nil_iff.mp whole.symm).1
  · rintro rfl
    exact .whole rfl fun inside => some (List.infix_nil.mp inside)

/-- The text begins with what stands before an occurrence and all but the last character of it. -/
theorem isPrefix_append_dropLast (front part behind : List Char) :
    front ++ part.dropLast <+: front ++ (part ++ behind) := by
  have shorter := List.dropLast_prefix part
  exact (List.prefix_append_right_inj _).mpr (shorter.trans (List.prefix_append _ _))

/-- An occurrence at the head is the first one. -/
theorem isBefore_iff_of_isPrefix (some : part ≠ []) (here : part <+: cs) :
    IsBefore part cs found ↔ found = [] := by
  have length : 0 < part.length := List.length_pos_iff.mpr some
  constructor
  · rintro (⟨-, nowhere⟩ | @⟨behind, rfl, first⟩)
    · exact absurd here.isInfix nowhere
    · refine List.length_eq_zero_iff.mp (Nat.eq_zero_of_not_pos fun there => first ?_)
      refine (List.prefix_of_prefix_length_le here (isPrefix_append_dropLast _ _ behind) ?_).isInfix
      rw [List.length_append, List.length_dropLast]
      omega
  · rintro rfl
    obtain ⟨behind, whole⟩ := here
    refine .cut whole.symm fun inside => ?_
    have short := inside.length_le
    rw [List.nil_append, List.length_dropLast] at short
    omega

/-- Where none is at the head, the first one is that of the rest. -/
theorem isBefore_cons_iff (none : ¬ part <+: c :: r) :
    IsBefore part (c :: r) found ↔ ∃ front, found = c :: front ∧ IsBefore part r front := by
  have later : ∀ {text : List Char}, c :: text <+: c :: r →
      (part <:+: c :: text ↔ part <:+: text) := by
    intro text shown
    rw [List.infix_cons_iff, or_iff_right fun first => none (first.trans shown)]
  constructor
  · rintro (⟨rfl, nowhere⟩ | @⟨behind, whole, first⟩)
    · exact ⟨r, rfl, .whole rfl ((later (List.prefix_refl _)).not.mp nowhere)⟩
    · cases found with
      | nil => exact absurd ⟨behind, whole.symm⟩ none
      | cons d front =>
        cases whole
        have shown := (List.prefix_cons_inj c).mpr (isPrefix_append_dropLast front part behind)
        exact ⟨front, rfl, .cut rfl ((later shown).not.mp first)⟩
  · rintro ⟨front, rfl, ⟨rfl, nowhere⟩ | @⟨behind, rfl, first⟩⟩
    · exact .whole rfl ((later (List.prefix_refl _)).not.mpr nowhere)
    · have shown := (List.prefix_cons_inj c).mpr (isPrefix_append_dropLast front part behind)
      exact .cut rfl ((later shown).not.mpr first)

/-- **The text is cut right before the first occurrence**, and nowhere where there is none. -/
theorem before_eq_iff (some : part ≠ []) : before part cs = found ↔ IsBefore part cs found := by
  induction cs generalizing found with
  | nil => rw [before, isBefore_nil_iff some, eq_comm]
  | cons c r ih =>
    rw [before]
    by_cases here : part <+: c :: r
    · rw [if_pos (List.isPrefixOf_iff_prefix.mpr here), isBefore_iff_of_isPrefix some here, eq_comm]
    · rw [if_neg (mt List.isPrefixOf_iff_prefix.mp here), isBefore_cons_iff here]
      constructor
      · rintro rfl
        exact ⟨_, rfl, ih.mp rfl⟩
      · rintro ⟨front, rfl, cut⟩
        rw [ih.mpr cut]

end Before

end Text

namespace CSource

/-! ## Literals -/

/-- The two characters that open literals. -/
abbrev IsQuote (c : Char) : Prop :=
  c = '"' ∨ c = '\''

/-- What stands between two quotes `q` of a literal: a backslash comes with the character behind it,
which is on the same line, and a quote comes with a backslash before it. -/
inductive LiteralBody (q : Char) : List Char → Prop
  | nil : LiteralBody q []
  | plain {c : Char} {body : List Char} : c ≠ q → c ≠ '\\' → LiteralBody q body →
      LiteralBody q (c :: body)
  | escape {c : Char} {body : List Char} : c ≠ '\n' → LiteralBody q body →
      LiteralBody q ('\\' :: c :: body)

section Literal

variable {q c : Char} {r body rest cs : List Char}

theorem IsQuote.ne_backslash (h : IsQuote q) : q ≠ '\\' := by
  rcases h with rfl | rfl <;> decide

theorem afterLiteral_cons (plain : c ≠ '\\') :
    afterLiteral q (c :: r) = if c = q then some r else afterLiteral q r := by
  rw [afterLiteral]
  · rw [if_neg plain]
  · exact fun _ _ h => absurd h plain

theorem afterLiteral_escape (same : c ≠ '\n') :
    afterLiteral q ('\\' :: c :: r) = afterLiteral q r := by
  rw [afterLiteral, if_neg same]

/-- A literal is read up to its closing quote, whatever follows. -/
theorem LiteralBody.afterLiteral_eq (h : LiteralBody q body) (quote : IsQuote q) :
    afterLiteral q (body ++ q :: rest) = some rest := by
  induction h with
  | nil => rw [List.nil_append, afterLiteral_cons quote.ne_backslash, if_pos rfl]
  | plain other plain _ ih => rw [List.cons_append, afterLiteral_cons plain, if_neg other, ih]
  | escape same _ ih => rw [List.cons_append, List.cons_append, afterLiteral_escape same, ih]

theorem exists_literalBody (h : afterLiteral q cs = some rest) :
    ∃ body, LiteralBody q body ∧ cs = body ++ q :: rest := by
  fun_induction afterLiteral q cs with
  | case1 => cases h
  | case2 => cases h
  | case3 c r same ih =>
    obtain ⟨body, literal, rfl⟩ := ih h
    exact ⟨_, literal.escape same, rfl⟩
  | case4 r _ =>
    cases h
    exact ⟨[], .nil, rfl⟩
  | case5 => cases h
  | case6 c r _ other plain ih =>
    obtain ⟨body, literal, rfl⟩ := ih h
    exact ⟨_, literal.plain other plain, rfl⟩

/-- **The scanner finds the closing quote**, and finds one only where there is one. -/
theorem afterLiteral_iff (quote : IsQuote q) :
    afterLiteral q cs = some rest ↔ ∃ body, LiteralBody q body ∧ cs = body ++ q :: rest := by
  constructor
  · exact exists_literalBody
  · rintro ⟨body, literal, rfl⟩
    exact literal.afterLiteral_eq quote

/-- A body is told by what the scanner makes of it in front of the closing quote alone. -/
theorem literalBody_iff (quote : IsQuote q) :
    LiteralBody q body ↔ afterLiteral q (body ++ [q]) = some [] := by
  rw [afterLiteral_iff quote]
  constructor
  · exact fun literal => ⟨body, literal, rfl⟩
  · rintro ⟨body', literal, whole⟩
    rwa [List.append_cancel_right whole]

end Literal

/-! ## Blanked literals -/

/-- The second text is the first with its literals blanked: from left to right every literal becomes
`""`, and what is no literal stays as it is, also a quote that opens none. -/
inductive Blanked : List Char → List Char → Prop
  | nil : Blanked [] []
  | plain {c : Char} {r r' : List Char} : ¬ IsQuote c → Blanked r r' → Blanked (c :: r) (c :: r')
  | literal {q : Char} {body rest rest' : List Char} : IsQuote q → LiteralBody q body →
      Blanked rest rest' → Blanked (q :: (body ++ q :: rest)) ('"' :: '"' :: rest')
  | stray {q : Char} {r r' : List Char} : IsQuote q →
      (∀ body rest, LiteralBody q body → r ≠ body ++ q :: rest) → Blanked r r' →
      Blanked (q :: r) (q :: r')

section Blanked

variable {q c : Char} {r body rest cs cs' : List Char}

theorem blankLiterals_nil : blankLiterals [] = [] := by
  rw [blankLiterals]

theorem blankLiterals_plain (plain : ¬ IsQuote c) :
    blankLiterals (c :: r) = c :: blankLiterals r := by
  rw [blankLiterals, if_neg plain]

theorem blankLiterals_literal (quote : IsQuote q) (literal : afterLiteral q r = some rest) :
    blankLiterals (q :: r) = '"' :: '"' :: blankLiterals rest := by
  rw [blankLiterals, if_pos quote]
  split
  · next found => rw [literal] at found; cases found; rfl
  · next found => rw [literal] at found; cases found

theorem blankLiterals_stray (quote : IsQuote q) (stray : afterLiteral q r = none) :
    blankLiterals (q :: r) = q :: blankLiterals r := by
  rw [blankLiterals, if_pos quote]
  split
  · next found => rw [stray] at found; cases found
  · rfl

theorem Blanked.blankLiterals_eq (h : Blanked cs cs') : blankLiterals cs = cs' := by
  induction h with
  | nil => exact blankLiterals_nil
  | plain plain _ ih => rw [blankLiterals_plain plain, ih]
  | literal quote literal _ ih =>
    rw [blankLiterals_literal quote (literal.afterLiteral_eq quote), ih]
  | @stray q r _ quote none _ ih =>
    cases found : afterLiteral q r with
    | none => rw [blankLiterals_stray quote found, ih]
    | some rest =>
      obtain ⟨body, literal, whole⟩ := exists_literalBody found
      exact absurd whole (none body rest literal)

theorem blanked_blankLiterals (cs : List Char) : Blanked cs (blankLiterals cs) := by
  fun_induction blankLiterals cs with
  | case1 => exact .nil
  | case2 c r quote rest found ih =>
    obtain ⟨body, literal, rfl⟩ := exists_literalBody found
    exact .literal quote literal ih
  | case3 c r quote none ih =>
    refine .stray quote ?_ ih
    rintro body rest literal rfl
    rw [literal.afterLiteral_eq quote] at none
    cases none
  | case4 c r plain ih => exact .plain plain ih

/-- **The scanner blanks the literals**, and there is only one way to do so. -/
theorem blanked_iff : Blanked cs cs' ↔ blankLiterals cs = cs' := by
  constructor
  · exact Blanked.blankLiterals_eq
  · rintro rfl
    exact blanked_blankLiterals cs

end Blanked

/-! ## Code -/

/-- The code of a line is what stands before the first `//` of the line with its literals blanked,
or all of it if there is none. -/
def IsCode (line code : List Char) : Prop :=
  ∃ blanked, Blanked line blanked ∧ Text.IsBefore ['/', '/'] blanked code

/-- **Every line has its code.** -/
theorem isCode_iff {line code : List Char} : IsCode line code ↔ codeOf line = code := by
  rw [codeOf, Text.before_eq_iff (List.cons_ne_nil _ _)]
  constructor
  · rintro ⟨blanked, there, cut⟩
    rwa [there.blankLiterals_eq]
  · exact fun cut => ⟨_, blanked_blankLiterals line, cut⟩

end CSource

end LiveLint
