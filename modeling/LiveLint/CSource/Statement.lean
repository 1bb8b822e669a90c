import LiveLint.Text.Runs
import LiveLint.Text.Search

/-!
# Statements on a line

A line of code ends in a semicolon, a brace or a colon, or a semicolon is missing. Inside a line
one is missing where a jump follows a word with nothing but blanks between, as in
`int x = 1 return 0;`. String and character literals are blanked before that test, so that what
they quote is not read as code, and a comment at the end of the line is cut off. Literals and words
before jumps are those that patterns find (`hasRunOnStatement_eq_byPatterns`).
-/

namespace LiveLint.CSource

/-! ## Literals -/

/-- The text after the literal that a quote `q` has opened, if it is closed. A backslash takes the
next character with it, which must be on the same line. -/
def afterLiteral (q : Char) : List Char → Option (List Char)
  | [] => none
  | '\\' :: c :: r => if c = '\n' then none else afterLiteral q r
  | c :: r => if c = q then some r else if c = '\\' then none else afterLiteral q r

theorem length_afterLiteral {q : Char} {cs rest : List Char} (h : afterLiteral q cs = some rest) :
    rest.length < cs.length := by
  fun_induction afterLiteral q cs with
  | case1 => simp at h
  | case2 => simp at h
  | case3 c r _ ih => have := ih h; simp only [List.length_cons]; omega
  | case4 => simp_all
  | case5 => simp at h
  | case6 c r _ _ _ ih => have := ih h; simp only [List.length_cons]; omega

/-- The line with every literal replaced by an empty string literal. A quote that nothing closes
stays, and the text after it is read on. -/
def blankLiterals (cs : List Char) : List Char :=
  match cs with
  | [] => []
  | c :: r =>
    if c = '"' ∨ c = '\'' then
      match _ : afterLiteral c r with
      | some rest => '"' :: '"' :: blankLiterals rest
      | none => c :: blankLiterals r
    else c :: blankLiterals r
termination_by cs.length
decreasing_by
  · rename_i h
    have shorter := length_afterLiteral h
    rw [List.length_cons]
    omega
  · simp
  · simp

/-- The code of a line: literals blanked, the comment at its end cut off. -/
def codeOf (line : List Char) : List Char :=
  Text.before ['/', '/'] (blankLiterals line)

/-! ## Jumps without a semicolon before them -/

/-- The words that start a jump. -/
def jumpWords : List String :=
  ["return", "break", "continue", "goto"]

/-- The words after which a jump needs no semicolon. -/
def leadWords : List String :=
  ["else", "do"]

/-- The words that stand right before a jump. Two words that are paired are both used up, so a
jump cannot be the word before the next jump. -/
def wordsBeforeJumps : List (List Char) → List String
  | word :: between :: jump :: rest =>
    if Text.isAllBlank between && String.ofList jump ∈ jumpWords then
      String.ofList word :: wordsBeforeJumps rest
    else wordsBeforeJumps (between :: jump :: rest)
  | _ => []

/-- Whether two statements stand on the line with no semicolon between. -/
def hasRunOnStatement (line : List Char) : Bool :=
  (wordsBeforeJumps (Text.runs (codeOf line))).any (· ∉ leadWords)

/-- Whether a line may end here: after a semicolon, a brace or a colon. -/
def isFinished (line : List Char) : Bool :=
  match line.getLast? with
  | some c => c ∈ [';', '{', '}', ':']
  | none => false

end LiveLint.CSource
