import LiveLint.Pattern.Match
import LiveLint.Pattern.Reader
import LiveLint.Text.Lines
import LiveLint.Text.Quoted

/-!
# Highlighting

An editor colours tokens that an ordered list of rules finds line by line. Every match of every
rule, or what one group of it stands for, may become a token. Of two that overlap, the one that
starts first wins, and at one start the earlier rule. A match that takes nothing is no token.
Columns count characters from 0.
-/

namespace LiveLint.Language

/-- What a token is, for a theme to colour. -/
inductive HighlightKind
  | keyword
  | tag
  | comment
  | string
  | number
  | preprocessor
  | delimiter
deriving DecidableEq, Repr

namespace HighlightKind

/-- The word for a kind of token. -/
def name : HighlightKind → String
  | keyword => "keyword"
  | tag => "tag"
  | comment => "comment"
  | string => "string"
  | number => "number"
  | preprocessor => "preprocessor"
  | delimiter => "delimiter"

/-- All kinds. -/
def all : List HighlightKind :=
  [keyword, tag, comment, string, number, preprocessor, delimiter]

/-- The kind a word stands for. -/
def ofName? (text : String) : Option HighlightKind :=
  all.find? (·.name == text)

end HighlightKind

/-- A rule that finds tokens. -/
structure HighlightRule where
  /-- The written form of the pattern. -/
  source : String
  pattern : Pattern
  kind : HighlightKind
  /-- The group that is the token, if it is not the whole match. -/
  group : Option Nat
deriving DecidableEq, Repr

/-- A rule whose text is no pattern. -/
structure RuleError where
  source : String
  cause : Pattern.ReadError
deriving DecidableEq, Repr

/-- The start of the message about a rule, up to the cause. -/
def RuleError.heading (e : RuleError) : String :=
  "invalid token pattern " ++ Text.quote e.source ++ ": "

namespace HighlightRule

/-- Make a rule of a written pattern. -/
def ofSource (source : String) (kind : HighlightKind) (group : Option Nat) :
    Except RuleError HighlightRule :=
  match Pattern.ofText source.toList with
  | .ok pattern => .ok ⟨source, pattern, kind, group⟩
  | .error cause => .error ⟨source, cause⟩

/-- The places in a line that the rule finds, in order. -/
def spans (rule : HighlightRule) (line : List Char) : List (Nat × Nat) :=
  (rule.pattern.allMatches line).filterMap (·.span? (rule.group.getD 0))

end HighlightRule

/-- A place that a rule found. -/
structure Found where
  start : Nat
  /-- The place of the rule among the rules. -/
  rule : Nat
  stop : Nat
  kind : HighlightKind
deriving DecidableEq, Repr

namespace Found

/-- The order in which places are looked at: by start, then by rule, then by end. -/
def notAfter (a b : Found) : Bool :=
  a.start < b.start ||
  (a.start == b.start && (a.rule < b.rule || (a.rule == b.rule && a.stop ≤ b.stop)))

/-- The places of all rules, from the kind of each rule and the places it finds. -/
def ofSpans (rules : List (HighlightKind × List (Nat × Nat))) : List Found :=
  rules.zipIdx.flatMap fun ((kind, spans), index) =>
    spans.map fun (start, stop) => ⟨start, index, stop, kind⟩

end Found

/-- A coloured piece of a line. -/
structure Token where
  line : Nat
  start : Nat
  /-- The column after its last character. -/
  stop : Nat
  kind : HighlightKind
deriving DecidableEq, Repr

/-- The rules of a language, the ones that win first. -/
structure Highlighter where
  rules : List HighlightRule
deriving DecidableEq, Repr

namespace Highlighter

/-- What the rules find in a line: for each its kind and its places. -/
def spans (h : Highlighter) (line : List Char) : List (HighlightKind × List (Nat × Nat)) :=
  h.rules.map fun rule => (rule.kind, rule.spans line)

/-- All places that the rules find in a line, in the order of the rules. -/
def found (h : Highlighter) (line : List Char) : List Found :=
  Found.ofSpans (h.spans line)

/-- Go through places in order and keep each that takes something and starts where all kept ones
have ended. -/
def sweep (covered : Nat) : List Found → List Found
  | [] => []
  | f :: fs =>
    if f.stop ≤ f.start || f.start < covered then sweep covered fs
    else f :: sweep f.stop fs

/-- The tokens on a line of the places that were found in it. -/
def tokensOf (number : Nat) (found : List Found) : List Token :=
  (sweep 0 (found.mergeSort Found.notAfter)).map fun f => ⟨number, f.start, f.stop, f.kind⟩

/-- The tokens of one line. -/
def tokensOfLine (h : Highlighter) (number : Nat) (line : List Char) : List Token :=
  tokensOf number (h.found line)

/-- The tokens of a text, line by line, if places are found in some way. -/
def tokensBy (find : List Char → List Found) (table : Text.LineTable) : List Token :=
  (table.lines.zipIdx 1).flatMap fun (line, number) => tokensOf number (find (Text.dropReturn line))

/-- The tokens of a text. -/
def tokens (h : Highlighter) (table : Text.LineTable) : List Token :=
  tokensBy h.found table

/-- Make a highlighter of written rules; the first that is no pattern is told. -/
def ofSources (rules : List (String × HighlightKind × Option Nat)) :
    Except RuleError Highlighter := do
  let rules ← rules.mapM fun (source, kind, group) => HighlightRule.ofSource source kind group
  pure ⟨rules⟩

/-- What the sweep keeps was there. -/
theorem sweep_sublist (covered : Nat) (fs : List Found) : (sweep covered fs).Sublist fs := by
  induction fs generalizing covered with
  | nil => exact .refl _
  | cons f fs ih =>
    unfold sweep
    split
    · exact (ih covered).cons f
    · exact (ih f.stop).cons_cons f

end Highlighter

end LiveLint.Language
