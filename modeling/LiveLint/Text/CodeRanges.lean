/-!
# Tables of code points

A Unicode property is stored as closed ranges of code points. Membership is a scan of the table:
the tables are short, and texts are mostly ASCII, which no table holds.
-/

namespace LiveLint.Text

/-- Code points as closed ranges `(first, last)`. -/
abbrev CodeRanges := List (Nat × Nat)

/-- Whether a range of the table holds the code point of `c`. -/
def CodeRanges.covers (ranges : CodeRanges) (c : Char) : Bool :=
  ranges.any fun (first, last) => first ≤ c.toNat && c.toNat ≤ last

theorem CodeRanges.covers_iff {ranges : CodeRanges} {c : Char} :
    ranges.covers c = true ↔ ∃ r ∈ ranges, r.1 ≤ c.toNat ∧ c.toNat ≤ r.2 := by
  simp [CodeRanges.covers, List.any_eq_true]

end LiveLint.Text
