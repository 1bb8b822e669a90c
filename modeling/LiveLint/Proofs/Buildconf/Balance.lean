import LiveLint.Proofs.Buildconf.CrossReference
import LiveLint.Proofs.Buildconf.LineGrammar
import LiveLint.Proofs.Buildconf.Nesting

/-!
# Balance

Whether blocks are balanced is judged by counting: the lines that start with a bracket and the
closers have to be as many. A reader with a stack of open blocks would judge by three other numbers:
the blocks that are still open at the end, the closers that it met with no block open, and the lines
that start with a bracket and open nothing. Each line changes the depth of the stack by what it adds
to the counts (`Nesting.length_stack_step`), so over a whole text the two judgements come to the
same (`isBalanced_iff`): the count is off just if what was left open, or was never an opener, is not
made up for by stray closers.
-/

namespace LiveLint.Buildconf

/-- Whether a line starts with a bracket and opens no block. -/
def Line.isBrokenOpener (line : Line) : Bool :=
  startsWithBracket line && !line.isOpener

namespace Nesting

/-- Whether a line is a closer with no block to end. -/
def isStray (s : Nesting) (line : Line) : Bool :=
  line.isCloser && s.stack.isEmpty

/-- How many closers with no block to end a reader meets on its way over the lines. -/
def strays : Nesting → List Line → Nat
  | _, [] => 0
  | s, line :: lines => strays (s.step line) lines + if s.isStray line then 1 else 0

/-! ## What a line does to the depth -/

/-- An opener makes the stack deeper, and a closer that is not stray makes it less deep. -/
theorem length_stack_step (s : Nesting) (line : Line) :
    (s.step line).stack.length + (if line.isCloser then 1 else 0) =
      s.stack.length + (if line.isOpener then 1 else 0) + if s.isStray line then 1 else 0 := by
  cases kind : line.kind with
  | opener tag name =>
    simp [step, isStray, Line.isCloser, Line.isOpener, kind]
  | closer =>
    have closed : (s.step line).stack.length = s.stack.length - 1 := by
      rw [step, kind]
      exact length_stack_close s
    rw [closed]
    cases stack : s.stack <;> simp [isStray, Line.isCloser, Line.isOpener, kind, stack]
  | directive name rest =>
    have kept : (s.step line).stack.length = s.stack.length := by
      rw [step, kind]
      cases stack : s.stack <;> simp [addDirective, stack]
    rw [kept]
    simp [isStray, Line.isCloser, Line.isOpener, kind]
  | blank | comment | header | text =>
    simp [step, isStray, Line.isCloser, Line.isOpener, kind]

/-- **Over many lines** the depth grows by the openers and shrinks by the closers, the stray ones
apart. -/
theorem length_stack_foldl (s : Nesting) (lines : List Line) :
    (lines.foldl step s).stack.length + lines.countP Line.isCloser =
      s.stack.length + lines.countP Line.isOpener + s.strays lines := by
  induction lines generalizing s with
  | nil => rfl
  | cons line lines ih =>
    have rest := ih (s.step line)
    have first := s.length_stack_step line
    rw [List.foldl_cons, List.countP_cons, List.countP_cons, strays]
    omega

end Nesting

/-! ## What a text leaves unmatched -/

/-- How many blocks are still open at the end of a text. -/
def unclosed (cs : List Char) : Nat :=
  (Nesting.ofLines (Line.ofText cs)).stack.length

/-- How many closers of a text have no block to end. -/
def strayClosers (cs : List Char) : Nat :=
  Nesting.start.strays (Line.ofText cs)

/-- How many lines of a text start with a bracket and open no block. -/
def brokenOpeners (cs : List Char) : Nat :=
  (Line.ofText cs).countP Line.isBrokenOpener

section Counts

variable {cs : List Char}

/-- An opener starts with a bracket. -/
theorem startsWithBracket_of_isOpener {line : Line} (h : line ∈ Line.ofText cs)
    (opens : line.isOpener = true) : startsWithBracket line = true := by
  unfold Line.isOpener at opens
  split at opens
  · next tag name kind =>
    rw [Line.kind_of_mem_ofText h] at kind
    rcases LineKind.ofTrimmed_eq_iff.mp kind with form | ⟨text, -⟩
    · have trimmed : Text.trim line.raw = line.trimmed := rfl
      rw [trimmed] at form
      rw [startsWithBracket]
      generalize line.trimmed = t at form
      cases form
      rfl
    · cases text
  · cases opens

/-- What starts with a bracket is an opener or a broken one. -/
theorem countP_startsWithBracket (cs : List Char) :
    (Line.ofText cs).countP startsWithBracket =
      (Line.ofText cs).countP Line.isOpener + brokenOpeners cs := by
  rw [List.countP_eq_countP_filter_add _ _ Line.isOpener, List.countP_filter, List.countP_filter]
  congr 1
  refine List.countP_congr fun line hline => ?_
  rw [Bool.and_eq_true]
  exact ⟨And.right, fun opens => ⟨startsWithBracket_of_isOpener hline opens, opens⟩⟩

/-- **The count agrees with the stack**: it comes out even just if stray closers make up for the
blocks that are left open and for the broken openers. -/
theorem isBalanced_iff (cs : List Char) :
    isBalanced (Document.parse cs) = true ↔ unclosed cs + brokenOpeners cs = strayClosers cs := by
  have depth := Nesting.start.length_stack_foldl (Line.ofText cs)
  have brackets := countP_startsWithBracket cs
  have empty : Nesting.start.stack.length = 0 := rfl
  have closers : (Line.ofText cs).countP (·.kind == .closer) =
      (Line.ofText cs).countP Line.isCloser := rfl
  rw [isBalanced, beq_iff_eq, Document.lines_parse, brackets, closers, unclosed, strayClosers,
    Nesting.ofLines]
  omega

end Counts

/-! ## What is reported -/

theorem ofRule_unbalanced (doc : Document) :
    ofRule .unbalanced (layoutFindings doc) = reportIf (!isBalanced doc) .unbalanced := by
  have tags : ofRule .unbalanced (doc.lines.filterMap unknownTag?) = [] := by
    rw [ofRule, List.filter_eq_nil_iff]
    intro f hf same
    obtain ⟨line, -, unknown⟩ := List.mem_filterMap.mp hf
    unfold unknownTag? at unknown
    split at unknown
    · split at unknown <;> cases unknown
      cases same
    · cases unknown
  have tab : ofRule .unbalanced
      ((doc.lines.find? hasTab).map fun line => Finding.tab line.number).toList = [] := by
    cases doc.lines.find? hasTab <;> rfl
  have own : Finding.unbalanced.rule = .unbalanced := rfl
  rw [layoutFindings, ofRule_append, ofRule_append, tags, tab, ofRule_reportIf _ own,
    List.nil_append, List.nil_append]

/-- **Blocks are reported as unbalanced** just if the blocks left open at the end and the lines that
start with a bracket and open nothing are not as many as the closers with no block to end. -/
theorem unbalanced_reported_iff (source : String) :
    reported source "B092" ≠ [] ↔
      unclosed source.toList + brokenOpeners source.toList ≠ strayClosers source.toList := by
  have told : reported source "B092" =
      (reportIf (!isBalanced (Document.parse source.toList)) .unbalanced).map
        Finding.diagnostic := by
    rw [← ofRule_unbalanced]
    exact reported_check source .unbalanced
  rw [told, ne_eq (unclosed _ + _), ← isBalanced_iff]
  cases isBalanced (Document.parse source.toList) <;> simp [reportIf]

/-- A stray closer makes up for an opener that nothing ends. -/
example : reported "..\n[tool cc]" "B092" = [] := by
  decide +kernel

end LiveLint.Buildconf
