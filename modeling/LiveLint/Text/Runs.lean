import LiveLint.Text.Blank
import LiveLint.Text.WordChar

/-!
# Runs of word characters

A text falls into runs: the longest stretches of word characters, and what stands between them.
Every word of the text is one run, whole, so a run is never mistaken for part of a longer name.
-/

namespace LiveLint.Text

/-- Whether two neighbours belong to the same run. -/
def sameRun (a b : Char) : Bool :=
  isWord a == isWord b

/-- The runs of a text, in order: words and what stands between them, in turn. -/
def runs (cs : List Char) : List (List Char) :=
  cs.splitBy sameRun

end LiveLint.Text
