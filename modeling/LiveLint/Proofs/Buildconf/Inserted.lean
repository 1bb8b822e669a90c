import LiveLint.Proofs.Buildconf.Layout
import LiveLint.Proofs.Buildconf.Sections

/-!
# A line put in

A line that is put into a text moves the lines below it down by one. If it is a line of layout and
has no tab, that is all: the findings stay as they are, and those about lines below it move along
(`analyze_insertBelow_layout`). Here the text may have tabs, unlike where its layout is changed at
will, since its own lines stay as they are.
-/

namespace LiveLint

/-- Where line `n` is when one more line stands below line `k`. -/
def lowered (k n : Nat) : Nat :=
  if k < n then n + 1 else n

/-- The same diagnostic when one more line stands below line `k`. -/
def Diagnostic.lowered (k : Nat) (d : Diagnostic) : Diagnostic :=
  { d with line := d.line.map (LiveLint.lowered k) }

namespace Buildconf

/-- The text with one more line below line `k`. -/
def insertBelow (t : String) (k : Nat) (raw : List Char) : String :=
  joined ((Text.splitLines t.toList).take k ++ raw :: (Text.splitLines t.toList).drop k)

/-! ## Lines under other numbers -/

/-- The same line at a corresponding place. -/
structure Line.Renumbered (r : Nat → Nat → Prop) (line line' : Line) : Prop extends
    Line.SameText line line' where
  number : r line.number line'.number

theorem Line.Renumbered.alike {r : Nat → Nat → Prop} {line line' : Line}
    (h : line.Renumbered r line') : line.Alike r line' :=
  ⟨congrArg Text.trim h.raw, h.kind, h.number⟩

/-- Line `n` of a text is line `n'` of the one with one more line below line `k`. -/
def Lowered (k n n' : Nat) : Prop :=
  0 < n ∧ n' = lowered k n

theorem lowered_above {k n : Nat} (counted : 0 < n) (above : n ≤ k) : Lowered k n n :=
  ⟨counted, (if_neg (Nat.not_lt.mpr above)).symm⟩

theorem lowered_below {k n : Nat} (below : k < n) : Lowered k n (n + 1) :=
  ⟨Nat.zero_lt_of_lt below, (if_pos below).symm⟩

theorem paired_lowered (k : Nat) : Paired (Lowered k) := by
  rintro m _ n _ ⟨-, rfl⟩ ⟨-, rfl⟩
  unfold lowered
  split <;> split <;> omega

theorem pos_of_lowered {k n n' : Nat} (h : Lowered k n n') : 0 < n ∧ 0 < n' := by
  obtain ⟨counted, rfl⟩ := h
  unfold lowered
  split <;> omega

/-! ## The lines of the longer text -/

section Lines

variable {t : String} {k : Nat}

/-- The lines down to line `k`. -/
def linesTo (t : String) (k : Nat) : List Line :=
  linesFrom 1 ((Text.splitLines t.toList).take k)

/-- The lines below line `k`, numbered from `n`. -/
def linesBelow (t : String) (k n : Nat) : List Line :=
  linesFrom n ((Text.splitLines t.toList).drop k)

theorem ofText_eq_append (inside : k ≤ (Text.splitLines t.toList).length) :
    Line.ofText t.toList = linesTo t k ++ linesBelow t k (k + 1) := by
  have taken : ((Text.splitLines t.toList).take k).length = k := List.length_take_of_le inside
  calc Line.ofText t.toList
      = linesFrom 1 ((Text.splitLines t.toList).take k ++ (Text.splitLines t.toList).drop k) := by
        rw [List.take_append_drop]
        rfl
    _ = linesTo t k ++ linesBelow t k (k + 1) := by
        rw [linesFrom_append, taken, Nat.add_comm 1 k, linesTo, linesBelow]

theorem ofText_insertBelow {raw : List Char} (cut : '\n' ∉ raw)
    (inside : k ≤ (Text.splitLines t.toList).length) :
    Line.ofText (insertBelow t k raw).toList =
      linesTo t k ++ { number := k + 1, raw } :: linesBelow t k (k + 2) := by
  have taken : ((Text.splitLines t.toList).take k).length = k := List.length_take_of_le inside
  have uncut : ∀ raw ∈ Text.splitLines t.toList, '\n' ∉ raw := by
    intro raw hraw feed
    exact (Text.mem_of_mem_splitLines hraw _ feed).2 rfl
  rw [insertBelow, ofText_joined ?_ (by simp), linesFrom_append, taken, Nat.add_comm 1 k, linesTo]
  · rfl
  · refine List.forall_mem_append.mpr ⟨?_, List.forall_mem_cons.mpr ⟨cut, ?_⟩⟩
    · exact fun raw hraw => uncut raw (List.mem_of_mem_take hraw)
    · exact fun raw hraw => uncut raw (List.mem_of_mem_drop hraw)

/-- The other lines are those of the text. -/
theorem lines_lowered (inside : k ≤ (Text.splitLines t.toList).length) :
    List.Forall₂ (Line.Renumbered (Lowered k)) (Line.ofText t.toList)
      (linesTo t k ++ linesBelow t k (k + 2)) := by
  rw [ofText_eq_append inside]
  refine List.rel_append (linesFrom_related ?_) (linesFrom_related ?_)
  · intro i hi raw
    have above : i < k := Nat.lt_of_lt_of_le hi (List.length_take_le _ _)
    have same : Lowered k (1 + i) (1 + i) := lowered_above (by omega) (by omega)
    exact ⟨⟨rfl, rfl⟩, same⟩
  · intro i _ raw
    have below : Lowered k (k + 1 + i) (k + 1 + i + 1) := lowered_below (by omega)
    rw [Nat.add_assoc (k + 1), Nat.add_comm i, ← Nat.add_assoc (k + 1)] at below
    exact ⟨⟨rfl, rfl⟩, below⟩

end Lines

/-! ## A line of layout -/

section Layout

variable {doc doc' : Document} {r : Nat → Nat → Prop} {front back : List Line} {new : Line}

/-- What the check of tags, tabs and balance finds, when one line of layout is put in. -/
theorem layoutFindings_renumbered (h : doc.Alike r doc')
    (lines : List.Forall₂ (Line.Renumbered r) doc.lines (front ++ back))
    (put : doc'.lines = front ++ new :: back) (layout : new.isMeaningful = false)
    (own : new.kind = .ofLine new.raw) (untabbed : hasTab new = false) :
    Moved r (layoutFindings doc) (layoutFindings doc') := by
  have bracket : startsWithBracket new = false := by
    rw [Bool.eq_false_iff]
    intro starts
    rw [isMeaningful_of_startsWithBracket own starts] at layout
    cases layout
  have closer : (new.kind == .closer) = false := by
    rw [Bool.eq_false_iff]
    intro closes
    rw [Line.isMeaningful, eq_of_beq closes] at layout
    cases layout
  have tabs : Option.Rel (Line.Renumbered r) (doc.lines.find? hasTab)
      (doc'.lines.find? hasTab) := by
    rw [put, find?_append_cons_of_neg untabbed]
    exact find?_forall₂ lines fun line line' hline => by rw [hasTab, hline.raw, hasTab]
  have balance : isBalanced doc = isBalanced doc' := by
    rw [isBalanced, isBalanced, put, countP_append_cons_of_neg bracket,
      countP_append_cons_of_neg (p := fun line : Line => line.kind == .closer) closer]
    congr 1
    · refine countP_eq_of_forall₂ lines ?_
      intro line line' hline
      rw [startsWithBracket, hline.alike.trimmed, startsWithBracket]
    · refine countP_eq_of_forall₂ lines ?_
      intro line line' hline
      rw [hline.kind]
  refine List.rel_append (List.rel_append (unknownTags_moved h) ?_) ?_
  · generalize doc.lines.find? hasTab = tab at tabs ⊢
    generalize doc'.lines.find? hasTab = tab' at tabs ⊢
    cases tabs with
    | none => exact .nil
    | some line => exact .cons ⟨rfl, rfl, .some line.number⟩ .nil
  · exact moved_reportIf (congrArg not balance) ⟨rfl, rfl, .none⟩

end Layout

/-! ## The main statement -/

theorem lowered_of_carried {k : Nat} {d d' : Diagnostic} (h : d.Carried (Lowered k) d') :
    d.lowered k = d' := by
  obtain ⟨severity, code, message, line⟩ := d
  obtain ⟨severity', code', message', line'⟩ := d'
  obtain ⟨rfl, rfl, rfl, placed⟩ := h
  cases placed with
  | none => rfl
  | some both =>
    obtain ⟨-, rfl⟩ := both
    rfl

section Main

variable {t : String} {k : Nat} {raw : List Char}

/-- A line of layout that is put in leaves a document alike. -/
theorem alike_insertBelow_layout (inside : k ≤ (Text.splitLines t.toList).length)
    (cut : '\n' ∉ raw) (layout : ({ number := k + 1, raw } : Line).isMeaningful = false) :
    (Document.parse t.toList).Alike (Lowered k)
      (Document.parse (insertBelow t k raw).toList) := by
  refine Document.parse_alike ?_
  rw [Document.meaningfulLines, Document.meaningfulLines, Document.lines_parse,
    Document.lines_parse, ofText_insertBelow cut inside, filter_append_cons_of_neg layout]
  have kept := filter_forall₂ (p := Line.isMeaningful) (q := Line.isMeaningful)
    (lines_lowered inside) fun line line' h => by rw [Line.isMeaningful, h.kind, Line.isMeaningful]
  exact kept.imp fun _ _ h => h.alike

/-- **A line of layout that is put in moves the findings below it and does nothing else.** -/
theorem analyze_insertBelow_layout (inside : k ≤ (Text.splitLines t.toList).length)
    (cut : '\n' ∉ raw) (layout : ({ number := k + 1, raw } : Line).isMeaningful = false)
    (untabbed : '\t' ∉ raw) :
    analyze (insertBelow t k raw) = (analyze t).map (Diagnostic.lowered k) := by
  have alike := alike_insertBelow_layout inside cut layout
  have last := layoutFindings_renumbered alike (lines_lowered inside)
    (ofText_insertBelow cut inside) layout rfl (by simpa [hasTab] using untabbed)
  have moved := documentFindings_moved_of_layout (paired_lowered k) alike last
  have carried : List.Forall₂ (Diagnostic.Carried (Lowered k)) (analyze t)
      (analyze (insertBelow t k raw)) :=
    List.rel_map (fun _ _ h => carried_of_moved (fun _ _ => pos_of_lowered) h) moved
  have same := carried.imp fun _ _ h => lowered_of_carried h
  rw [← eq_of_forall₂ (List.forall₂_map_left_iff.mpr same)]

end Main

end Buildconf

end LiveLint
