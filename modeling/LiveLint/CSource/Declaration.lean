import LiveLint.Text.Lines
import LiveLint.Text.Runs

/-!
# Declared names

A name is declared where a word follows one or more primitive types with nothing but blanks
between, on one line or over several. Declarations are found from the left, none inside another.
Scope and shadowing are not looked at: a name that is declared and is the only word of its spelling
in the whole source is unused. A word that belongs to a type, and `main`, are never variables. Names
and words are those that patterns find (`unusedVariables_eq_unusedByPatterns`).
-/

namespace LiveLint.CSource

/-- The words after which a name is declared. -/
def primitiveTypes : List String :=
  ["int", "float", "double", "char", "long", "short", "unsigned"]

/-- The words that are part of a type and name no variable. -/
def typeWords : List String :=
  ["int", "float", "double", "char", "long", "short", "unsigned", "signed", "void", "const"]

/-- Whether a word can start an identifier: with an ASCII letter or a low line. -/
def startsIdentifier : List Char → Bool
  | [] => false
  | c :: _ => c.isAlpha || c == '_'

/-- A name and the position of its first character. -/
structure Declared where
  name : String
  position : Nat
deriving DecidableEq, Repr

/-- The name that a list of runs begins with, whose head stands at `pos`, and the runs behind it. -/
def nameAt? (pos : Nat) : List (List Char) → Option (Declared × List (List Char))
  | [] => none
  | name :: after => if startsIdentifier name then some (⟨String.ofList name, pos⟩, after) else none

/-- The name that is declared where a list of runs begins, if its head stands at `pos`, and the runs
behind it. The declaration has as many types as it can; where no name follows the last of them, that
type is the name. -/
def declaration? (pos : Nat) : List (List Char) → Option (Declared × List (List Char))
  | type :: between :: rest =>
    if String.ofList type ∈ primitiveTypes && Text.isAllBlank between then
      let behind := pos + type.length + between.length
      (declaration? behind rest).or (nameAt? behind rest)
    else none
  | _ => none

theorem length_nameAt? {pos : Nat} {runs after : List (List Char)} {d : Declared}
    (h : nameAt? pos runs = some (d, after)) : after.length < runs.length := by
  cases runs with
  | nil => cases h
  | cons name rest =>
    rw [nameAt?] at h
    split at h
    · cases h
      exact Nat.lt_succ_self _
    · cases h

theorem length_declaration? {pos : Nat} {runs after : List (List Char)} {d : Declared}
    (h : declaration? pos runs = some (d, after)) : after.length < runs.length := by
  fun_induction declaration? pos runs with
  | case1 pos type between rest _ behind ih =>
    have shorter : after.length < rest.length := by
      rcases Option.or_eq_some_iff.mp h with deeper | ⟨-, here⟩
      · exact ih deeper
      · exact length_nameAt? here
    simp only [List.length_cons]
    omega
  | case2 => cases h
  | case3 => cases h

/-- The names that are declared, in a list of runs whose head stands at `pos`. Declarations are
looked for from the left, and the next one begins behind the name of the last. -/
def declaredFrom (pos : Nat) (runs : List (List Char)) : List Declared :=
  match runs with
  | [] => []
  | run :: rest =>
    match _ : declaration? pos (run :: rest) with
    | some (d, after) => d :: declaredFrom (d.position + d.name.length) after
    | none => declaredFrom (pos + run.length) rest
termination_by runs.length
decreasing_by
  · rename_i h
    exact length_declaration? h
  · simp

/-- The names that are declared, in the order of the text. -/
def declared (cs : List Char) : List Declared :=
  declaredFrom 0 (Text.runs cs)

/-- How often a word is one of the runs. -/
def occurrences (runs : List (List Char)) (word : String) : Nat :=
  runs.count word.toList

/-- Whether a declared name is a variable. -/
def Declared.isVariable (d : Declared) : Bool :=
  d.name != "main" && d.name ∉ typeWords

/-- The variables that are declared and never named again. -/
def unusedVariables (cs : List Char) : List Declared :=
  let runs := Text.runs cs
  (declaredFrom 0 runs).filter fun d => d.isVariable && occurrences runs d.name ≤ 1

end LiveLint.CSource
