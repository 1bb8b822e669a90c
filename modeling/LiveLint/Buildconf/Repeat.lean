/-!
# Repeats

Which members of a list have a key that an earlier one has. The first of its key is never a
repeat.
-/

namespace LiveLint.Buildconf

/-- Each member with whether its key is among `seen` or an earlier member's. -/
def markRepeatsAfter {α : Type} (key : α → String) (seen : List String) : List α → List (α × Bool)
  | [] => []
  | x :: xs => (x, seen.contains (key x)) :: markRepeatsAfter key (key x :: seen) xs

/-- Each member with whether an earlier one has the same key. -/
def markRepeats {α : Type} (key : α → String) (xs : List α) : List (α × Bool) :=
  markRepeatsAfter key [] xs

/-- The members that repeat the key of an earlier one, in order. -/
def repeats {α : Type} (key : α → String) (xs : List α) : List α :=
  ((markRepeats key xs).filter (·.2)).map (·.1)

theorem map_fst_markRepeatsAfter {α : Type} (key : α → String) (seen : List String) (xs : List α) :
    (markRepeatsAfter key seen xs).map (·.1) = xs := by
  induction xs generalizing seen with
  | nil => rfl
  | cons x xs ih => simp [markRepeatsAfter, ih]

/-- Marking keeps the members and their order. -/
theorem map_fst_markRepeats {α : Type} (key : α → String) (xs : List α) :
    (markRepeats key xs).map (·.1) = xs :=
  map_fst_markRepeatsAfter key [] xs

end LiveLint.Buildconf
