import LiveLint.Report
import Mathlib.Data.List.Pairwise

/-!
# The order of a report

A report has the findings it was made of, sorted by one number each, and findings that sort alike
keep their order. Nothing else is to be known of a report: two that have the same findings at every
sort key, in the same order, are equal (`Report.ext_withKey`), and what already stands in order
keeps its order (`Report.filter_ofDiagnostics`).

A finding about no line sorts at a number that is itself a line. So the order by lines is as it
should be (`Report.inLineOrder_ofDiagnostics`) with one exception: a finding about no line is not
put behind one about that last line if it was found before it
(`Report.linelessLast_ofDiagnostics_iff`).
-/

namespace LiveLint

namespace Diagnostic

/-- The findings with a sort key, in their order. -/
def withKey (key : Nat) (ds : List Diagnostic) : List Diagnostic :=
  ds.filter (·.sortKey == key)

section WithKey

variable {key : Nat} {d e : Diagnostic} {ds es : List Diagnostic}

theorem notAfter_iff : d.notAfter e = true ↔ d.sortKey ≤ e.sortKey := by
  rw [notAfter, decide_eq_true_eq]

theorem mem_withKey : d ∈ withKey key ds ↔ d ∈ ds ∧ d.sortKey = key := by
  rw [withKey, List.mem_filter, beq_iff_eq]

theorem withKey_cons (d : Diagnostic) :
    withKey key (d :: ds) = if d.sortKey = key then d :: withKey key ds else withKey key ds := by
  rw [withKey, List.filter_cons]
  simp only [beq_iff_eq]
  rfl

theorem withKey_flatten (parts : List (List Diagnostic)) :
    withKey key parts.flatten = (parts.map (withKey key)).flatten :=
  List.filter_flatten

/-- Findings that sort alike are in order, whatever their order is. -/
theorem pairwise_of_sortKey_eq (h : ∀ d ∈ ds, d.sortKey = key) :
    ds.Pairwise fun d e => d.notAfter e = true := by
  refine List.pairwise_of_forall_mem_list fun d hd e he => ?_
  exact notAfter_iff.mpr (Nat.le_of_eq ((h d hd).trans (h e he).symm))

/-- In sorted findings the first has the least key. -/
theorem sortKey_head_le (sorted : (d :: ds).Pairwise fun d e => d.notAfter e = true)
    (h : e ∈ d :: ds) : d.sortKey ≤ e.sortKey := by
  rcases List.mem_cons.mp h with rfl | h
  · exact Nat.le_refl _
  · exact notAfter_iff.mp (List.rel_of_pairwise_cons sorted h)

theorem mem_of_withKey (same : ∀ key, withKey key ds = withKey key es) (h : d ∈ ds) : d ∈ es := by
  have there : d ∈ withKey d.sortKey ds := mem_withKey.mpr ⟨h, rfl⟩
  rw [same] at there
  exact (mem_withKey.mp there).1

/-- Sorted findings are known by those that sort alike. -/
theorem eq_of_withKey (sorted : ds.Pairwise fun d e => d.notAfter e = true)
    (sorted' : es.Pairwise fun d e => d.notAfter e = true)
    (same : ∀ key, withKey key ds = withKey key es) : ds = es := by
  induction ds generalizing es with
  | nil =>
    cases es with
    | nil => rfl
    | cons e es => cases mem_of_withKey (fun key => (same key).symm) List.mem_cons_self
  | cons d ds ih =>
    cases es with
    | nil => cases mem_of_withKey same List.mem_cons_self
    | cons e es =>
      -- each head is in the other list, so both have the least key
      have keys : d.sortKey = e.sortKey := by
        have there := mem_of_withKey same (List.mem_cons_self (a := d))
        have here := mem_of_withKey (fun key => (same key).symm) (List.mem_cons_self (a := e))
        exact Nat.le_antisymm (sortKey_head_le sorted here) (sortKey_head_le sorted' there)
      have heads := same d.sortKey
      rw [withKey_cons, withKey_cons, if_pos rfl, if_pos keys.symm] at heads
      obtain rfl := (List.cons.inj heads).1
      have tails : ∀ key, withKey key ds = withKey key es := by
        intro key
        have whole := same key
        rw [withKey_cons, withKey_cons] at whole
        split at whole
        · exact (List.cons.inj whole).2
        · exact whole
      rw [ih sorted.of_cons sorted'.of_cons tails]

end WithKey

end Diagnostic

namespace Report

open Diagnostic (withKey lastSortKey)

/-! ## Findings that are tied -/

section Ties

variable {r s : Report} {ds : List Diagnostic}

/-- Two reports with the same findings at every sort key, in the same order, are equal. -/
theorem ext_withKey (h : ∀ key, withKey key r.diagnostics = withKey key s.diagnostics) : r = s :=
  ext (Diagnostic.eq_of_withKey r.sorted s.sorted h)

/-- **What already stands in order keeps its order.** -/
theorem filter_ofDiagnostics {p : Diagnostic → Bool}
    (h : (ds.filter p).Pairwise fun d e => d.notAfter e = true) :
    (ofDiagnostics ds).diagnostics.filter p = ds.filter p := by
  have inside : (ds.filter p).Sublist (ofDiagnostics ds).diagnostics :=
    List.sublist_mergeSort Diagnostic.notAfter_trans Diagnostic.notAfter_total h
      List.filter_sublist
  have kept : (ds.filter p).Sublist ((ofDiagnostics ds).diagnostics.filter p) := by
    have picked := inside.filter p
    rwa [List.filter_filter, funext fun d => Bool.and_self (p d)] at picked
  exact (kept.eq_of_length ((ofDiagnostics_perm ds).filter p).length_eq.symm).symm

theorem withKey_ofDiagnostics (key : Nat) (ds : List Diagnostic) :
    withKey key (ofDiagnostics ds).diagnostics = withKey key ds :=
  filter_ofDiagnostics
    (Diagnostic.pairwise_of_sortKey_eq fun _ hd => (Diagnostic.mem_withKey.mp hd).2)

end Ties

/-! ## The order by lines -/

/-- The second list has the findings of the first by line, those about no line apart. -/
structure InLineOrder (ds sorted : List Diagnostic) : Prop where
  perm : sorted.Perm ds
  /-- Of two findings about lines, the one about the earlier line comes first. -/
  ascending : sorted.Pairwise fun d e => ∀ m ∈ d.line, ∀ n ∈ e.line, m ≤ n
  /-- Findings about one line keep their order, and so do those about none. -/
  stable : ∀ line : Option Nat, sorted.filter (·.line == line) = ds.filter (·.line == line)

/-- Findings about no line stand behind all others. -/
def LinelessLast (ds : List Diagnostic) : Prop :=
  ds.Pairwise fun d e => d.line = none → e.line = none

section Lines

variable {ds : List Diagnostic} {d e : Diagnostic}

theorem inLineOrder_ofDiagnostics (ds : List Diagnostic) :
    InLineOrder ds (ofDiagnostics ds).diagnostics where
  perm := ofDiagnostics_perm ds
  ascending := by
    refine (ofDiagnostics ds).sorted.imp ?_
    intro d e before m hm n hn
    rw [Diagnostic.notAfter_iff, Diagnostic.sortKey, Diagnostic.sortKey, hm, hn] at before
    exact before
  stable := by
    intro line
    have tied : ∀ d ∈ ds.filter (·.line == line), d.sortKey = line.getD lastSortKey := by
      intro d hd
      rw [List.mem_filter, beq_iff_eq] at hd
      rw [Diagnostic.sortKey, hd.2]
    exact filter_ofDiagnostics (Diagnostic.pairwise_of_sortKey_eq tied)

/-- A pair that is tied stands in a report as it was found. -/
theorem pair_sublist_ofDiagnostics_iff (tied : d.sortKey = e.sortKey) :
    [d, e].Sublist (ofDiagnostics ds).diagnostics ↔ [d, e].Sublist ds := by
  have picked : ∀ es : List Diagnostic,
      [d, e].Sublist (withKey d.sortKey es) ↔ [d, e].Sublist es := by
    intro es
    refine ⟨fun h => h.trans List.filter_sublist, fun h => ?_⟩
    have kept : (withKey d.sortKey [d, e]).Sublist (withKey d.sortKey es) := h.filter _
    rw [Diagnostic.withKey_cons, if_pos rfl, Diagnostic.withKey_cons, if_pos tied.symm] at kept
    exact kept
  rw [← picked, withKey_ofDiagnostics, picked]

/-- Behind a finding about no line stand only such findings, and those about the line whose number
stands for no line. -/
theorem pairwise_lineless (counted : ∀ d ∈ ds, ∀ n ∈ d.line, n ≤ lastSortKey) :
    (ofDiagnostics ds).diagnostics.Pairwise fun d e =>
      d.line = none → ∀ n ∈ e.line, n = lastSortKey := by
  refine (ofDiagnostics ds).sorted.imp_of_mem fun {d e} _ he before none n line => ?_
  have bound := counted e ((ofDiagnostics_perm ds).subset he) n line
  rw [Diagnostic.notAfter_iff, Diagnostic.sortKey, Diagnostic.sortKey, none, line] at before
  exact Nat.le_antisymm bound before

theorem linelessLast_ofDiagnostics_iff (counted : ∀ d ∈ ds, ∀ n ∈ d.line, n ≤ lastSortKey) :
    LinelessLast (ofDiagnostics ds).diagnostics ↔
      ds.Pairwise fun d e => d.line = none → e.line ≠ some lastSortKey := by
  have tied : ∀ {d e : Diagnostic}, d.line = none → e.line = some lastSortKey →
      d.sortKey = e.sortKey := by
    intro d e none line
    rw [Diagnostic.sortKey, Diagnostic.sortKey, none, line]
    rfl
  rw [LinelessLast, List.pairwise_iff_forall_sublist, List.pairwise_iff_forall_sublist]
  constructor
  · intro last d e found none line
    have away := last ((pair_sublist_ofDiagnostics_iff (tied none line)).mpr found) none
    rw [line] at away
    cases away
  · intro apart d e shown none
    cases line : e.line with
    | none => rfl
    | some n =>
      obtain rfl : n = lastSortKey :=
        List.pairwise_iff_forall_sublist.mp (pairwise_lineless counted) shown none n line
      have found := (pair_sublist_ofDiagnostics_iff (tied none line)).mp shown
      exact absurd line (apart found none)

/-- **A report has its findings by line**, where lines are counted in 64 bits: those about earlier
lines first, those about one line or about none in the order in which they were found. Behind a
finding about no line no other stands but about the last line that can be counted, and not even
such a finding unless it was found later. -/
theorem byLine_ofDiagnostics (counted : ∀ d ∈ ds, ∀ n ∈ d.line, n ≤ lastSortKey) :
    InLineOrder ds (ofDiagnostics ds).diagnostics ∧
      ((ofDiagnostics ds).diagnostics.Pairwise fun d e =>
        d.line = none → ∀ n ∈ e.line, n = lastSortKey) ∧
      (LinelessLast (ofDiagnostics ds).diagnostics ↔
        ds.Pairwise fun d e => d.line = none → e.line ≠ some lastSortKey) :=
  ⟨inLineOrder_ofDiagnostics ds, pairwise_lineless counted, linelessLast_ofDiagnostics_iff counted⟩

/-- Two findings about the last line that can be counted, and between them one about none. -/
def atLastLine : List Diagnostic :=
  [(Diagnostic.graded "C: first").atLine lastSortKey, Diagnostic.graded "C: whole",
    (Diagnostic.graded "C: second").atLine lastSortKey]

/-- Of these the first comes before the finding about no line, and the second behind it. -/
theorem byLine_ofDiagnostics_atLastLine :
    (∀ d ∈ atLastLine, ∀ n ∈ d.line, n ≤ lastSortKey) ∧
      InLineOrder atLastLine (ofDiagnostics atLastLine).diagnostics ∧
      ((ofDiagnostics atLastLine).diagnostics.Pairwise fun d e =>
        d.line = none → ∀ n ∈ e.line, n = lastSortKey) ∧
      ¬LinelessLast (ofDiagnostics atLastLine).diagnostics := by
  have counted : ∀ d ∈ atLastLine, ∀ n ∈ d.line, n ≤ lastSortKey := by decide
  obtain ⟨order, behind, last⟩ := byLine_ofDiagnostics counted
  exact ⟨counted, order, behind, fun h => absurd (last.mp h) (by decide)⟩

/-- Findings about no line do not always stand last: a finding about the last line that can be
counted, found after one about none, stands behind it. -/
theorem not_linelessLast_atLastLine :
    (∀ d ∈ atLastLine.tail, ∀ n ∈ d.line, n ≤ lastSortKey) ∧
      ¬LinelessLast (ofDiagnostics atLastLine.tail).diagnostics := by
  have counted : ∀ d ∈ atLastLine.tail, ∀ n ∈ d.line, n ≤ lastSortKey := by decide
  refine ⟨counted, fun last => ?_⟩
  exact absurd ((linelessLast_ofDiagnostics_iff counted).mp last) (by decide)

end Lines

end Report

end LiveLint
