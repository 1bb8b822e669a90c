import LiveLint.Proofs.Buildconf.Ownership
import LiveLint.Proofs.Lines
import Mathlib.Data.List.Sort

/-!
# Nothing is lost in a document

A document is a tree, and the checks ask it for flat lists. This file says that the flat lists are
those of the text: the lines join to the source again, the walk over the blocks gives the openers
as they stand in the text, and a query for directives gives the directive lines of that name in
their order, wherever the tree has put them. The main statement is `faithful_parse`.

A sort by line is harmless for one reason: no two directives and no two blocks share a line, so
there is only one ascending arrangement (`mergeSort_of_perm`).
-/

namespace LiveLint

namespace Buildconf

/-! ## Sorting by line -/

/-- What stands in strictly ascending order is what a sort by line gives. -/
theorem mergeSort_of_perm {ds es : List Directive} (perm : ds.Perm es)
    (sorted : es.Pairwise (·.line < ·.line)) : ds.mergeSort (·.line ≤ ·.line) = es := by
  have total : ∀ a b : Directive, (a.line ≤ b.line || b.line ≤ a.line) = true := by
    intro a b
    simpa using Nat.le_total a.line b.line
  have trans : ∀ a b c : Directive, decide (a.line ≤ b.line) = true →
      decide (b.line ≤ c.line) = true → decide (a.line ≤ c.line) = true := by
    intro a b c hab hbc
    simp only [decide_eq_true_eq] at hab hbc ⊢
    exact Nat.le_trans hab hbc
  have arranged := List.pairwise_mergeSort trans total ds
  have same : (ds.mergeSort (·.line ≤ ·.line)).Perm es := (List.mergeSort_perm _ _).trans perm
  have weak : es.Pairwise fun a b => decide (a.line ≤ b.line) = true :=
    sorted.imp fun h => decide_eq_true (Nat.le_of_lt h)
  -- equal lines mean the same directive, so two ascending arrangements are one
  refine same.eq_of_pairwise ?_ arranged weak
  intro a b ha hb hab hba
  have line : a.line = b.line := Nat.le_antisymm (of_decide_eq_true hab) (of_decide_eq_true hba)
  exact eq_of_growing sorted (same.subset ha) hb line

theorem args_of_mem_directivesIn {lines : List Line} {d : Directive} (hd : d ∈ directivesIn lines) :
    d.args = Argument.ofRest d.rest := by
  obtain ⟨line, _, hdirective⟩ := List.mem_filterMap.mp hd
  unfold Line.directive? at hdirective
  split at hdirective
  · cases hdirective
    rfl
  · cases hdirective

theorem nodup_directivesIn {lines : List Line} (h : Ascending lines) : (directivesIn lines).Nodup :=
  (pairwise_directivesIn h).imp fun below same => Nat.ne_of_lt below (congrArg Directive.line same)

namespace Document

/-- Every directive of a document, wherever it was put. -/
def allDirectives (doc : Document) : List Directive :=
  doc.loose ++ doc.blocksInOrder.flatMap Block.directives

/-- The directives in the order of the lines are the directive lines. -/
theorem directivesInOrder_parse (cs : List Char) :
    (parse cs).directivesInOrder = directivesIn (Line.ofText cs) :=
  mergeSort_of_perm (perm_directives_parse cs) (pairwise_directivesIn (Line.ascending_ofText cs))

/-- The tree of a document and the queries on it say what the text says. -/
structure Faithful (doc : Document) (cs : List Char) : Prop where
  /-- The lines are the source, cut at its line feeds. -/
  source : ['\n'].intercalate (doc.lines.map Line.raw) = cs
  uncut : ∀ line ∈ doc.lines, '\n' ∉ line.raw
  /-- They are numbered from 1. -/
  numbers : doc.lines.map Line.number = List.range' 1 doc.lines.length
  kinds : ∀ line ∈ doc.lines, line.kind = LineKind.ofLine line.raw
  /-- The walk over the blocks gives the openers in the order of the lines. -/
  openers : doc.blocksInOrder.map Block.opening = openings doc.lines
  /-- The walk needs no sort. -/
  walk : doc.blocksInOrder.mergeSort (·.line ≤ ·.line) = doc.blocksInOrder
  /-- A query by name gives the directive lines of that name in their order. -/
  named : ∀ name, doc.directivesOf name = (directivesIn doc.lines).filter (·.name == name)
  /-- It makes no difference whether the directives are sorted before or after. -/
  sorted : ∀ name, (doc.allDirectives.filter (·.name == name)).mergeSort (·.line ≤ ·.line) =
    doc.directivesOf name
  arguments : ∀ d ∈ directivesIn doc.lines, d.args = Argument.ofRest d.rest
  /-- The tree has the directive lines and no other directives. -/
  directives : doc.allDirectives.Perm (directivesIn doc.lines)
  /-- It has each of them once. -/
  once : ∀ d ∈ directivesIn doc.lines, doc.allDirectives.count d = 1

/-- **A document neither loses, doubles nor moves what its text says.** -/
theorem faithful_parse (cs : List Char) : (parse cs).Faithful cs := by
  have sorted := Line.ascending_ofText cs
  have directives := pairwise_directivesIn sorted
  have named : ∀ name, (parse cs).directivesOf name =
      (directivesIn (parse cs).lines).filter (·.name == name) := by
    intro name
    rw [directivesOf, directivesInOrder_parse, lines_parse]
  refine ⟨?_, ?_, ?_, ?_, openings_parse cs, ?_, named, ?_, ?_, perm_directives_parse cs, ?_⟩
  · rw [lines_parse, Line.raw_ofText, Text.intercalate_splitLines]
  · intro line hline feed
    exact (Text.mem_of_mem_splitLines (Line.raw_of_mem_ofText hline) _ feed).2 rfl
  · exact Line.map_number_ofText cs
  · intro line hline
    exact Line.kind_of_mem_ofText hline
  · refine List.mergeSort_of_pairwise ?_
    exact (pairwise_line_blocksInOrder cs).imp fun h => decide_eq_true (Nat.le_of_lt h)
  · intro name
    rw [named]
    exact mergeSort_of_perm ((perm_directives_parse cs).filter _) (directives.filter _)
  · intro d hd
    exact args_of_mem_directivesIn hd
  · intro d hd
    rw [allDirectives, (perm_directives_parse cs).count_eq]
    exact List.count_eq_one_of_mem (nodup_directivesIn sorted) hd

end Document

end Buildconf

end LiveLint
