import LiveLint.Text.Blank

/-!
# Arguments of directives

The rest of a directive is cut at blanks, except that a text between double quotes is one
argument, blanks and all. A quote that nothing closes runs to the end of the line. Two arguments
need no blank between them where the first ends with its quote.
-/

namespace LiveLint.Buildconf

/-- One argument of a directive. -/
structure Argument where
  /-- What it says, without its quotes. -/
  text : String
  /-- Whether it was written between quotes. -/
  quoted : Bool
deriving DecidableEq, Repr

namespace Argument

/-- A character of an argument without quotes. -/
def isSolid (c : Char) : Bool :=
  !Text.isBlank c

/-- A character inside quotes. -/
def isInside (c : Char) : Bool :=
  c != '"'

theorem length_dropWhile_le {α : Type} (p : α → Bool) (xs : List α) :
    (xs.dropWhile p).length ≤ xs.length :=
  (List.dropWhile_sublist p).length_le

/-- Read the arguments of a text. -/
def readAll (cs : List Char) : List Argument :=
  match _ : Text.trimStart cs with
  | [] => []
  | c :: r =>
    if c = '"' then
      ⟨String.ofList (r.takeWhile isInside), true⟩ :: readAll (r.dropWhile isInside).tail
    else
      ⟨String.ofList (c :: r.takeWhile isSolid), false⟩ :: readAll (r.dropWhile isSolid)
termination_by cs.length
decreasing_by
  all_goals
    rename_i h _
    have trimmed := Text.length_trimStart_le cs
    rw [h, List.length_cons] at trimmed
  · have inside := length_dropWhile_le isInside r
    rw [List.length_tail]
    omega
  · have solid := length_dropWhile_le isSolid r
    omega

/-- The arguments of a directive's rest. -/
def ofRest (rest : String) : List Argument :=
  readAll rest.toList

end Argument

end LiveLint.Buildconf
