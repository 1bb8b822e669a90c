import LiveLint.Buildconf.Document
import Mathlib.Data.List.Induction
import Mathlib.Data.List.Nodup

/-!
# Which blocks are open at a line

An opener on line `m` is open at line `n` if no stretch that starts right after it and ends before
line `n` has more closers than openers (`OpenAt`). This says nothing of a stack, and it holds of
any list of lines, with stray closers and with openers that nothing closes.

`openStack` is the stack of a reader: an opener pushes its number and a closer drops the innermost
one. The main statement, `mem_openStack_iff`, is that the stack holds exactly what is open. The
invariant behind it is `countAfter_of_openStack`: the place of a number on the stack is the surplus
of openers over closers since its line. `ownerOf` is then the innermost open opener, and
`ownerOf_eq_some_iff` and `ownerOf_eq_none_iff` say so.
-/

namespace LiveLint.Buildconf

/-- Whether a line opens a block. -/
def Line.isOpener (line : Line) : Bool :=
  match line.kind with
  | .opener _ _ => true
  | _ => false

/-- Whether a line closes a block. -/
def Line.isCloser (line : Line) : Bool :=
  line.kind == .closer

/-- Line numbers grow. -/
def Ascending (lines : List Line) : Prop :=
  lines.Pairwise (·.number < ·.number)

section Growing

variable {α : Type} {f : α → Nat} {xs : List α}

/-- Numbers that grow are all different. -/
theorem nodup_map_of_growing (h : xs.Pairwise (f · < f ·)) : (xs.map f).Nodup :=
  (List.pairwise_map.mpr h).imp Nat.ne_of_lt

/-- Where numbers grow, a number belongs to one member. -/
theorem eq_of_growing (h : xs.Pairwise (f · < f ·)) {a b : α} (ha : a ∈ xs) (hb : b ∈ xs)
    (same : f a = f b) : a = b :=
  List.inj_on_of_nodup_map (nodup_map_of_growing h) ha hb same

end Growing

/-! ## Counting lines -/

/-- How many lines of a sort have a number above `m` and up to `j`. -/
def countIn (sort : Line → Bool) (lines : List Line) (m j : Nat) : Nat :=
  lines.countP fun line => sort line && (m < line.number && line.number ≤ j)

/-- How many lines of a sort have a number above `m`. -/
def countAfter (sort : Line → Bool) (lines : List Line) (m : Nat) : Nat :=
  lines.countP fun line => sort line && m < line.number

section Counting

variable {sort : Line → Bool} {lines more : List Line} {m j : Nat}

theorem countIn_append :
    countIn sort (lines ++ more) m j = countIn sort lines m j + countIn sort more m j :=
  List.countP_append

theorem countAfter_snoc (line : Line) :
    countAfter sort (lines ++ [line]) m =
      countAfter sort lines m + if sort line && m < line.number then 1 else 0 := by
  simp [countAfter, List.countP_append, List.countP_cons]

theorem countIn_eq_zero (h : ∀ line ∈ lines, m < line.number → j < line.number) :
    countIn sort lines m j = 0 := by
  refine List.countP_eq_zero.mpr ?_
  intro line hline
  have := h line hline
  simp only [Bool.and_eq_true, decide_eq_true_eq, not_and, Nat.not_le]
  exact fun _ hm => this hm

theorem countAfter_eq_zero (h : ∀ line ∈ lines, line.number ≤ m) :
    countAfter sort lines m = 0 := by
  refine List.countP_eq_zero.mpr ?_
  intro line hline
  have := h line hline
  simp only [Bool.and_eq_true, decide_eq_true_eq, not_and, Nat.not_lt]
  exact fun _ => this

/-- An upper end that no line lies beyond is no bound. -/
theorem countIn_eq_countAfter (h : ∀ line ∈ lines, line.number ≤ j) :
    countIn sort lines m j = countAfter sort lines m := by
  refine List.countP_congr ?_
  intro line hline
  have := h line hline
  simp [this]

end Counting

/-! ## Open openers -/

/-- The opener on line `m` is open at line `n`: between them no stretch from line `m` on has more
closers than openers. -/
structure OpenAt (lines : List Line) (m n : Nat) : Prop where
  before : m < n
  opener : ∃ line ∈ lines, line.number = m ∧ line.isOpener = true
  balance : ∀ j, m < j → j < n →
    countIn Line.isCloser lines m j ≤ countIn Line.isOpener lines m j

/-- The opener on line `m` is the innermost that is open at line `n`. -/
def InnermostAt (lines : List Line) (m n : Nat) : Prop :=
  OpenAt lines m n ∧ ∀ k, OpenAt lines k n → k ≤ m

/-- The opener on line `m` is still open after all lines. -/
def StillOpen (lines : List Line) (m : Nat) : Prop :=
  (∃ line ∈ lines, line.number = m ∧ line.isOpener = true) ∧
    ∀ j, countIn Line.isCloser lines m j ≤ countIn Line.isOpener lines m j

/-- The lines that come before line `n`. -/
def linesBefore (lines : List Line) (n : Nat) : List Line :=
  lines.filter (·.number < n)

theorem mem_linesBefore {lines : List Line} {n : Nat} {line : Line} :
    line ∈ linesBefore lines n ↔ line ∈ lines ∧ line.number < n := by
  simp [linesBefore]

theorem countIn_linesBefore {sort : Line → Bool} {lines : List Line} {m n j : Nat} (h : j < n) :
    countIn sort (linesBefore lines n) m j = countIn sort lines m j := by
  rw [linesBefore, countIn, List.countP_filter]
  refine List.countP_congr ?_
  intro line _
  simp only [Bool.and_eq_true, decide_eq_true_eq]
  constructor
  · rintro ⟨counted, _⟩
    exact counted
  · intro counted
    exact ⟨counted, Nat.lt_of_le_of_lt counted.2.2 h⟩

/-- Beyond the last line there is nothing more to count. -/
theorem balance_of_le {lines : List Line} {m last : Nat} (h : ∀ x ∈ lines, x.number ≤ last)
    (balance : ∀ j, j ≤ last → countIn Line.isCloser lines m j ≤ countIn Line.isOpener lines m j)
    (j : Nat) : countIn Line.isCloser lines m j ≤ countIn Line.isOpener lines m j := by
  rcases Nat.le_total j last with hj | hj
  · exact balance j hj
  · have all : ∀ x ∈ lines, x.number ≤ j := fun x hx => Nat.le_trans (h x hx) hj
    rw [countIn_eq_countAfter all, countIn_eq_countAfter all, ← countIn_eq_countAfter h,
      ← countIn_eq_countAfter h]
    exact balance last (Nat.le_refl _)

/-- Being open at a line is a matter of the lines before it. -/
theorem openAt_iff {lines : List Line} {m n : Nat} :
    OpenAt lines m n ↔ StillOpen (linesBefore lines n) m := by
  constructor
  · rintro ⟨before, ⟨line, hline, hnumber, hopener⟩, balance⟩
    refine ⟨⟨line, mem_linesBefore.mpr ⟨hline, hnumber ▸ before⟩, hnumber, hopener⟩, ?_⟩
    -- an end at line `n` or beyond counts the same lines as one just before it
    have last : ∀ x ∈ linesBefore lines n, x.number ≤ n - 1 := by
      intro x hx
      have := (mem_linesBefore.mp hx).2
      omega
    refine balance_of_le last ?_
    intro j hj
    have inside : j < n := by omega
    rcases Nat.lt_or_ge m j with hm | hm
    · rw [countIn_linesBefore inside, countIn_linesBefore inside]
      exact balance j hm inside
    · rw [countIn_eq_zero fun _ _ above => Nat.lt_of_le_of_lt hm above]
      exact Nat.zero_le _
  · rintro ⟨⟨line, hline, hnumber, hopener⟩, balance⟩
    obtain ⟨hmem, hlt⟩ := mem_linesBefore.mp hline
    refine ⟨hnumber ▸ hlt, ⟨line, hmem, hnumber, hopener⟩, ?_⟩
    intro j _ hj
    have := balance j
    rw [countIn_linesBefore hj, countIn_linesBefore hj] at this
    exact this

/-- One more line, numbered beyond all others: an opener is open from there on, and what was open
stays so unless closers now outnumber openers since its line. -/
theorem stillOpen_snoc {lines : List Line} {line : Line} {m : Nat}
    (h : ∀ x ∈ lines, x.number < line.number) :
    StillOpen (lines ++ [line]) m ↔
      (m = line.number ∧ line.isOpener = true) ∨
      (StillOpen lines m ∧
        countAfter Line.isCloser (lines ++ [line]) m ≤
          countAfter Line.isOpener (lines ++ [line]) m) := by
  have whole : ∀ x ∈ lines ++ [line], x.number ≤ line.number := by
    intro x hx
    rcases List.mem_append.mp hx with hx | hx
    · exact Nat.le_of_lt (h x hx)
    · exact Nat.le_of_eq (congrArg Line.number (List.mem_singleton.mp hx))
  have short : ∀ sort j, j < line.number →
      countIn sort (lines ++ [line]) m j = countIn sort lines m j := by
    intro sort j hj
    have none : countIn sort [line] m j = 0 := by
      refine countIn_eq_zero ?_
      intro x hx _
      rwa [List.mem_singleton.mp hx]
    rw [countIn_append, none, Nat.add_zero]
  have long : ∀ sort j, line.number ≤ j →
      countIn sort (lines ++ [line]) m j = countAfter sort (lines ++ [line]) m := fun sort j hj =>
    countIn_eq_countAfter fun x hx => Nat.le_trans (whole x hx) hj
  constructor
  · rintro ⟨⟨x, hx, hnumber, hopener⟩, balance⟩
    rcases List.mem_append.mp hx with hx | hx
    · refine Or.inr ⟨⟨⟨x, hx, hnumber, hopener⟩, ?_⟩, ?_⟩
      · have positive := h x hx
        have last : ∀ y ∈ lines, y.number ≤ line.number - 1 := by
          intro y hy
          have := h y hy
          omega
        refine balance_of_le last ?_
        intro j hj
        have old := balance j
        rwa [short _ j (by omega), short _ j (by omega)] at old
      · have := balance line.number
        rwa [long _ _ (Nat.le_refl _), long _ _ (Nat.le_refl _)] at this
    · rw [List.mem_singleton.mp hx] at hnumber hopener
      exact Or.inl ⟨hnumber.symm, hopener⟩
  · rintro (⟨rfl, hopener⟩ | ⟨⟨⟨x, hx, hnumber, hopener⟩, balance⟩, after⟩)
    · refine ⟨⟨line, by simp, rfl, hopener⟩, ?_⟩
      intro j
      have none : countIn Line.isCloser (lines ++ [line]) line.number j = 0 := by
        refine countIn_eq_zero ?_
        intro x hx above
        exact absurd above (Nat.not_lt.mpr (whole x hx))
      rw [none]
      exact Nat.zero_le _
    · refine ⟨⟨x, List.mem_append_left _ hx, hnumber, hopener⟩, ?_⟩
      intro j
      rcases Nat.lt_or_ge j line.number with hj | hj
      · rw [short _ j hj, short _ j hj]
        exact balance j
      · rw [long _ j hj, long _ j hj]
        exact after

/-! ## The stack of a reader -/

/-- What one line does to the numbers of the open openers. -/
def openStep (stack : List Nat) (line : Line) : List Nat :=
  match line.kind with
  | .opener _ _ => line.number :: stack
  | .closer => stack.tail
  | _ => stack

/-- The numbers of the open openers after all lines, the innermost first. -/
def openStack (lines : List Line) : List Nat :=
  lines.foldl openStep []

@[simp] theorem openStack_nil : openStack [] = [] := rfl

theorem openStack_snoc (lines : List Line) (line : Line) :
    openStack (lines ++ [line]) = openStep (openStack lines) line := by
  simp [openStack]

/-- An ascending list grows by a number beyond all others. -/
theorem ascending_snoc {lines : List Line} {line : Line} :
    Ascending (lines ++ [line]) ↔
      Ascending lines ∧ ∀ x ∈ lines, x.number < line.number := by
  simp [Ascending, List.pairwise_append]

theorem Ascending.linesBefore {lines : List Line} (h : Ascending lines) (n : Nat) :
    Ascending (linesBefore lines n) :=
  h.filter _

/-- All that a line can do to the stack. -/
theorem openStep_cases (line : Line) :
    (line.isOpener = true ∧ line.isCloser = false ∧
      ∀ stack, openStep stack line = line.number :: stack) ∨
    (line.isOpener = false ∧ line.isCloser = true ∧ ∀ stack, openStep stack line = stack.tail) ∨
    (line.isOpener = false ∧ line.isCloser = false ∧ ∀ stack, openStep stack line = stack) := by
  cases h : line.kind <;> simp [Line.isOpener, Line.isCloser, openStep, h]

/-- What is on the stack is the number of an opener. -/
theorem exists_opener_of_mem_openStack {lines : List Line} {m : Nat} (h : m ∈ openStack lines) :
    ∃ line ∈ lines, line.number = m ∧ line.isOpener = true := by
  induction lines using List.reverseRecOn with
  | nil => cases h
  | append_singleton lines line ih =>
    have old : m ∈ openStack lines →
        ∃ x ∈ lines ++ [line], x.number = m ∧ x.isOpener = true := by
      intro hm
      obtain ⟨x, hx, hnumber, hopener⟩ := ih hm
      exact ⟨x, List.mem_append_left _ hx, hnumber, hopener⟩
    rw [openStack_snoc] at h
    rcases openStep_cases line with ⟨opens, _, step⟩ | ⟨_, _, step⟩ | ⟨_, _, step⟩ <;>
      rw [step] at h
    · rcases List.mem_cons.mp h with rfl | hm
      · exact ⟨line, by simp, rfl, opens⟩
      · exact old hm
    · exact old (List.mem_of_mem_tail h)
    · exact old h

theorem lt_of_mem_openStack {lines : List Line} {m n : Nat} (h : ∀ x ∈ lines, x.number < n)
    (hm : m ∈ openStack lines) : m < n := by
  obtain ⟨x, hx, rfl, _⟩ := exists_opener_of_mem_openStack hm
  exact h x hx

/-- The innermost opener has the greatest number. -/
theorem pairwise_openStack {lines : List Line} (h : Ascending lines) :
    (openStack lines).Pairwise (· > ·) := by
  induction lines using List.reverseRecOn with
  | nil => exact List.Pairwise.nil
  | append_singleton lines line ih =>
    obtain ⟨ascending, beyond⟩ := ascending_snoc.mp h
    have sorted := ih ascending
    rw [openStack_snoc]
    rcases openStep_cases line with ⟨_, _, step⟩ | ⟨_, _, step⟩ | ⟨_, _, step⟩ <;> rw [step]
    · exact List.pairwise_cons.mpr ⟨fun m hm => lt_of_mem_openStack beyond hm, sorted⟩
    · exact sorted.tail
    · exact sorted

/-- **The invariant.** The place of an opener on the stack is the surplus of openers over closers
since its line. -/
theorem countAfter_of_openStack {lines : List Line} (h : Ascending lines) {i m : Nat}
    (hi : (openStack lines)[i]? = some m) :
    countAfter Line.isOpener lines m = countAfter Line.isCloser lines m + i := by
  induction lines using List.reverseRecOn generalizing i with
  | nil => cases hi
  | append_singleton lines line ih =>
    obtain ⟨ascending, beyond⟩ := ascending_snoc.mp h
    rw [countAfter_snoc, countAfter_snoc]
    rw [openStack_snoc] at hi
    rcases openStep_cases line with ⟨opens, closes, step⟩ | ⟨opens, closes, step⟩ |
        ⟨opens, closes, step⟩ <;> rw [step] at hi <;> rw [opens, closes]
    · cases i with
      | zero =>
        -- the opener just read: nothing stands after its line
        obtain rfl : line.number = m := by simpa using hi
        have before : ∀ x ∈ lines, x.number ≤ line.number := fun x hx => Nat.le_of_lt (beyond x hx)
        rw [countAfter_eq_zero before, countAfter_eq_zero before]
        simp
      | succ i =>
        rw [List.getElem?_cons_succ] at hi
        have above := lt_of_mem_openStack beyond (List.mem_of_getElem? hi)
        rw [ih ascending hi]
        simp [above]
        omega
    · rw [List.getElem?_tail] at hi
      have above := lt_of_mem_openStack beyond (List.mem_of_getElem? hi)
      rw [ih ascending hi]
      simp [above]
      omega
    · rw [ih ascending hi]
      simp

/-- An opener on the stack has a place there, which is its surplus. -/
theorem surplus_of_mem_openStack {lines : List Line} (h : Ascending lines) {m : Nat}
    (hm : m ∈ openStack lines) :
    ∃ i : Nat, (openStack lines)[i]? = some m ∧
      countAfter Line.isOpener lines m = countAfter Line.isCloser lines m + i := by
  obtain ⟨i, hi⟩ := List.mem_iff_getElem?.mp hm
  exact ⟨i, hi, countAfter_of_openStack h hi⟩

/-- **The stack holds what is open.** -/
theorem mem_openStack_iff {lines : List Line} (h : Ascending lines) {m : Nat} :
    m ∈ openStack lines ↔ StillOpen lines m := by
  induction lines using List.reverseRecOn with
  | nil => simp [StillOpen]
  | append_singleton lines line ih =>
    obtain ⟨ascending, beyond⟩ := ascending_snoc.mp h
    have above : m ∈ openStack lines → m < line.number := lt_of_mem_openStack beyond
    rw [stillOpen_snoc beyond, ← ih ascending]
    rw [openStack_snoc, countAfter_snoc, countAfter_snoc]
    rcases openStep_cases line with ⟨opens, closes, step⟩ | ⟨opens, closes, step⟩ |
        ⟨opens, closes, step⟩ <;> rw [step, opens, closes]
    · -- an opener makes every surplus greater
      simp only [List.mem_cons, and_true]
      refine or_congr_right ?_
      constructor
      · intro hm
        obtain ⟨i, _, surplus⟩ := surplus_of_mem_openStack ascending hm
        refine ⟨hm, ?_⟩
        simp [above hm]
        omega
      · exact fun both => both.1
    · -- a closer takes away the one opener without a surplus
      simp only [Bool.false_eq_true, and_false, false_or, Bool.true_and, Bool.false_and]
      constructor
      · intro hm
        obtain ⟨i, hi⟩ := List.mem_iff_getElem?.mp hm
        rw [List.getElem?_tail] at hi
        have surplus := countAfter_of_openStack ascending hi
        have old := List.mem_of_mem_tail hm
        refine ⟨old, ?_⟩
        simp [above old]
        omega
      · rintro ⟨hm, balance⟩
        obtain ⟨i, hi, surplus⟩ := surplus_of_mem_openStack ascending hm
        simp [above hm] at balance
        cases i with
        | zero => omega
        | succ i =>
          refine List.mem_iff_getElem?.mpr ⟨i, ?_⟩
          rw [List.getElem?_tail]
          exact hi
    · -- any other line leaves the surplus as it was
      simp only [Bool.false_eq_true, and_false, false_or, Bool.false_and]
      constructor
      · intro hm
        obtain ⟨i, _, surplus⟩ := surplus_of_mem_openStack ascending hm
        refine ⟨hm, ?_⟩
        simp
        omega
      · exact fun both => both.1

/-! ## The owner of a line -/

/-- The innermost opener that is open at line `n`. -/
def ownerOf (lines : List Line) (n : Nat) : Option Nat :=
  (openStack (linesBefore lines n)).head?

theorem mem_openStack_linesBefore {lines : List Line} (h : Ascending lines) {m n : Nat} :
    m ∈ openStack (linesBefore lines n) ↔ OpenAt lines m n :=
  (mem_openStack_iff (h.linesBefore n)).trans openAt_iff.symm

theorem ownerOf_eq_some_iff {lines : List Line} (h : Ascending lines) {m n : Nat} :
    ownerOf lines n = some m ↔ InnermostAt lines m n := by
  have sorted := pairwise_openStack (h.linesBefore n)
  have mem := fun k => mem_openStack_linesBefore h (m := k) (n := n)
  unfold ownerOf
  constructor
  · intro hm
    obtain ⟨rest, hrest⟩ := List.head?_eq_some_iff.mp hm
    rw [hrest] at mem sorted
    refine ⟨(mem m).mp List.mem_cons_self, ?_⟩
    intro k hk
    rcases List.mem_cons.mp ((mem k).mpr hk) with rfl | hk
    · exact Nat.le_refl _
    · exact Nat.le_of_lt ((List.pairwise_cons.mp sorted).1 k hk)
  · rintro ⟨hopen, greatest⟩
    have hm := (mem m).mpr hopen
    cases hstack : openStack (linesBefore lines n) with
    | nil =>
      rw [hstack] at hm
      cases hm
    | cons top rest =>
      rw [hstack] at hm sorted mem
      rcases List.mem_cons.mp hm with rfl | hm
      · rfl
      · have below := (List.pairwise_cons.mp sorted).1 m hm
        have above := greatest top ((mem top).mp List.mem_cons_self)
        omega

theorem ownerOf_eq_none_iff {lines : List Line} (h : Ascending lines) {n : Nat} :
    ownerOf lines n = none ↔ ∀ m, ¬OpenAt lines m n := by
  rw [ownerOf, List.head?_eq_none_iff, List.eq_nil_iff_forall_not_mem]
  exact forall_congr' fun m => not_congr (mem_openStack_linesBefore h)

theorem linesBefore_append {lines more : List Line} {n : Nat} (h : ∀ x ∈ more, n ≤ x.number) :
    linesBefore (lines ++ more) n = linesBefore lines n := by
  have none : more.filter (·.number < n) = [] := by
    refine List.filter_eq_nil_iff.mpr ?_
    intro x hx
    have := h x hx
    simpa using this
  rw [linesBefore, List.filter_append, none, List.append_nil, linesBefore]

/-- Lines from `n` on do not change who owns line `n`. -/
theorem ownerOf_append {lines more : List Line} {n : Nat} (h : ∀ x ∈ more, n ≤ x.number) :
    ownerOf (lines ++ more) n = ownerOf lines n := by
  rw [ownerOf, linesBefore_append h, ownerOf]

/-- The next line is owned by the top of the stack. -/
theorem ownerOf_next {lines : List Line} {n : Nat} (h : ∀ x ∈ lines, x.number < n) :
    ownerOf lines n = (openStack lines).head? := by
  have all : linesBefore lines n = lines := by
    refine List.filter_eq_self.mpr ?_
    intro x hx
    exact decide_eq_true (h x hx)
  rw [ownerOf, all]

/-- An open opener is owned by the one right below it on the stack. -/
theorem ownerOf_of_openStack {lines : List Line} (h : Ascending lines) {above rest : List Nat}
    {m : Nat} (hm : openStack lines = above ++ m :: rest) : ownerOf lines m = rest.head? := by
  induction lines using List.reverseRecOn generalizing above with
  | nil => simp at hm
  | append_singleton lines line ih =>
    obtain ⟨ascending, beyond⟩ := ascending_snoc.mp h
    have later : ∀ k, k ≤ line.number → ∀ x ∈ [line], k ≤ x.number := by
      intro k hk x hx
      rwa [List.mem_singleton.mp hx]
    have old : ∀ {above}, openStack lines = above ++ m :: rest →
        ownerOf (lines ++ [line]) m = rest.head? := by
      intro above hstack
      have hmem : m ∈ openStack lines := by simp [hstack]
      rw [ownerOf_append (later m (Nat.le_of_lt (lt_of_mem_openStack beyond hmem)))]
      exact ih ascending hstack
    rw [openStack_snoc] at hm
    rcases openStep_cases line with ⟨_, _, step⟩ | ⟨_, _, step⟩ | ⟨_, _, step⟩ <;> rw [step] at hm
    · cases above with
      | nil =>
        obtain ⟨rfl, hrest⟩ := List.cons.inj hm
        rw [ownerOf_append (later _ (Nat.le_refl _)), ownerOf_next beyond, hrest]
      | cons top above => exact old (List.cons.inj hm).2
    · cases hstack : openStack lines with
      | nil => simp [hstack] at hm
      | cons top below =>
        rw [hstack, List.tail_cons] at hm
        exact @old (top :: above) (by rw [hstack, hm, List.cons_append])
    · exact old hm

end LiveLint.Buildconf
