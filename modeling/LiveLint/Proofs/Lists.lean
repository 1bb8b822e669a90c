import Mathlib.Data.List.Forall2
import Mathlib.Data.List.Pairwise

/-!
# Lists

What the proofs need to know of lists and the library does not say: what lists of related members
have in common, and where the longest stretch of one sort ends.
-/

namespace LiveLint

/-! ## Members that yield nothing -/

theorem flatMap_filter {α β : Type} {p : α → Bool} {f : α → List β}
    (h : ∀ x, p x = false → f x = []) (xs : List α) : (xs.filter p).flatMap f = xs.flatMap f := by
  induction xs with
  | nil => rfl
  | cons x xs ih =>
    cases kept : p x with
    | true =>
      rw [List.filter_cons_of_pos kept, List.flatMap_cons, List.flatMap_cons, ih]
    | false =>
      rw [List.filter_cons_of_neg (by simp [kept]), List.flatMap_cons, h x kept, ih,
        List.nil_append]

section Unwanted

variable {α : Type} {p : α → Bool} {x : α}

theorem filter_append_cons_of_neg (h : p x = false) (front back : List α) :
    (front ++ x :: back).filter p = (front ++ back).filter p := by
  rw [List.filter_append, List.filter_cons_of_neg (by simp [h]), List.filter_append]

theorem find?_append_cons_of_neg (h : p x = false) (front back : List α) :
    (front ++ x :: back).find? p = (front ++ back).find? p := by
  rw [← List.head?_filter, filter_append_cons_of_neg h, List.head?_filter]

theorem countP_append_cons_of_neg (h : p x = false) (front back : List α) :
    (front ++ x :: back).countP p = (front ++ back).countP p := by
  rw [List.countP_eq_length_filter, filter_append_cons_of_neg h, List.countP_eq_length_filter]

end Unwanted

/-! ## Members that are there once -/

/-- A member is there once at most just if there is one way to split the list at it. -/
theorem count_le_one_iff {α : Type} [BEq α] [LawfulBEq α] {xs front back : List α} {x : α}
    (h : xs = front ++ x :: back) :
    xs.count x ≤ 1 ↔ ∀ front' back', xs = front' ++ x :: back' → front' = front := by
  have counted : xs.count x ≤ 1 ↔ x ∉ front ∧ x ∉ back := by
    rw [h, List.count_append, List.count_cons_self, ← List.count_eq_zero, ← List.count_eq_zero]
    omega
  rw [counted]
  constructor
  · rintro ⟨before, behind⟩ front' back' h'
    rcases List.append_eq_append_iff.mp (h.symm.trans h') with ⟨as, rfl, rest⟩ | ⟨as, rfl, rest⟩
    · cases as with
      | nil => exact List.append_nil front
      | cons a as =>
        obtain ⟨-, rfl⟩ := List.cons.inj rest
        exact absurd (List.mem_append_right as List.mem_cons_self) behind
    · cases as with
      | nil => exact (List.append_nil front').symm
      | cons a as =>
        obtain ⟨rfl, -⟩ := List.cons.inj rest
        exact absurd (List.mem_append_right front' List.mem_cons_self) before
  · intro only
    constructor
    · intro mem
      obtain ⟨as, bs, rfl⟩ := List.append_of_mem mem
      have same := only as (bs ++ x :: back) (by rw [h, List.append_assoc, List.cons_append])
      simp at same
    · intro mem
      obtain ⟨as, bs, rfl⟩ := List.append_of_mem mem
      have same := only (front ++ x :: as) bs (by rw [h, List.append_assoc, List.cons_append])
      simp at same

/-! ## Lists in order -/

/-- Members that are numbered have growing numbers. -/
theorem pairwise_snd_zipIdx {α : Type} (xs : List α) (n : Nat) :
    (xs.zipIdx n).Pairwise (·.2 < ·.2) := by
  rw [← List.pairwise_map (f := Prod.snd), List.zipIdx_map_snd]
  exact List.pairwise_lt_range'

/-- Of two members of a list in order, one is before the other or they are the same. -/
theorem eq_or_rel_of_pairwise {α : Type} {R : α → α → Prop} {xs : List α} (h : xs.Pairwise R)
    {x y : α} (hx : x ∈ xs) (hy : y ∈ xs) : x = y ∨ R x y ∨ R y x := by
  by_cases same : x = y
  · exact .inl same
  · have swap : Std.Symm fun x y => R x y ∨ R y x := ⟨fun _ _ => Or.symm⟩
    have either : xs.Pairwise fun x y => R x y ∨ R y x := h.imp .inl
    exact .inr (either.forall hx hy same)

/-! ## Lists of related things -/

section Related

variable {α β γ : Type} {R : α → β → Prop} {xs : List α} {ys : List β}

theorem eq_of_forall₂ {ys : List α} (h : List.Forall₂ (· = ·) xs ys) : xs = ys := by
  rwa [List.forall₂_eq_eq_eq] at h

theorem map_eq_of_forall₂ (h : List.Forall₂ R xs ys) {f : α → γ} {g : β → γ}
    (hf : ∀ x y, R x y → f x = g y) : xs.map f = ys.map g :=
  eq_of_forall₂ (List.rel_map (fun x y hxy => hf x y hxy) h)

theorem any_eq_of_forall₂ (h : List.Forall₂ R xs ys) {p : α → Bool} {q : β → Bool}
    (hp : ∀ x y, R x y → p x = q y) : xs.any p = ys.any q := by
  have same := congrArg (List.any · id) (map_eq_of_forall₂ h hp)
  simpa [List.any_map] using same

theorem isEmpty_eq_of_forall₂ (h : List.Forall₂ R xs ys) : xs.isEmpty = ys.isEmpty := by
  cases h <;> rfl

theorem filter_forall₂ (h : List.Forall₂ R xs ys) {p : α → Bool} {q : β → Bool}
    (hp : ∀ x y, R x y → p x = q y) : List.Forall₂ R (xs.filter p) (ys.filter q) := by
  refine List.rel_filter ?_ h
  intro x y hxy
  show p x = true ↔ q y = true
  rw [hp x y hxy]

theorem countP_eq_of_forall₂ (h : List.Forall₂ R xs ys) {p : α → Bool} {q : β → Bool}
    (hp : ∀ x y, R x y → p x = q y) : xs.countP p = ys.countP q := by
  rw [List.countP_eq_length_filter, List.countP_eq_length_filter]
  exact (filter_forall₂ h hp).length_eq

theorem head?_forall₂ (h : List.Forall₂ R xs ys) : Option.Rel R xs.head? ys.head? := by
  cases h with
  | nil => exact .none
  | cons first _ => exact .some first

theorem tail_forall₂ (h : List.Forall₂ R xs ys) : List.Forall₂ R xs.tail ys.tail := by
  cases h with
  | nil => exact .nil
  | cons _ rest => exact rest

theorem find?_forall₂ (h : List.Forall₂ R xs ys) {p : α → Bool} {q : β → Bool}
    (hp : ∀ x y, R x y → p x = q y) : Option.Rel R (xs.find? p) (ys.find? q) := by
  rw [← List.head?_filter, ← List.head?_filter]
  exact head?_forall₂ (filter_forall₂ h hp)

theorem map_optionRel {δ : Type} {S : γ → δ → Prop} {o : Option α} {o' : Option β}
    (h : Option.Rel R o o') {f : α → γ} {g : β → δ} (hf : ∀ x y, R x y → S (f x) (g y)) :
    Option.Rel S (o.map f) (o'.map g) := by
  cases h with
  | none => exact .none
  | some related => exact .some (hf _ _ related)

theorem bind_optionRel {δ : Type} {S : γ → δ → Prop} {o : Option α} {o' : Option β}
    (h : Option.Rel R o o') {f : α → Option γ} {g : β → Option δ}
    (hf : ∀ x y, R x y → Option.Rel S (f x) (g y)) : Option.Rel S (o.bind f) (o'.bind g) := by
  cases h with
  | none => exact .none
  | some related => exact hf _ _ related

theorem optionRel_imp {S : α → β → Prop} {o : Option α} {o' : Option β} (h : Option.Rel R o o')
    (hS : ∀ x y, R x y → S x y) : Option.Rel S o o' := by
  cases h with
  | none => exact .none
  | some related => exact .some (hS _ _ related)

theorem isSome_eq_of_optionRel {o : Option α} {o' : Option β} (h : Option.Rel R o o') :
    o.isSome = o'.isSome := by
  cases h <;> rfl

/-- Of related numbers that are all positive, a filter of the positive ones drops none. -/
theorem filter_pos_of_rel {r : Nat → Nat → Prop} (positive : ∀ n n', r n n' → 0 < n ∧ 0 < n')
    {line line' : Option Nat} (h : Option.Rel r line line') :
    Option.Rel r (line.filter (0 < ·)) (line'.filter (0 < ·)) := by
  cases h with
  | none => exact .none
  | some corresponds =>
    obtain ⟨pos, pos'⟩ := positive _ _ corresponds
    simp only [Option.filter, pos, pos', decide_true, if_true]
    exact .some corresponds

end Related

namespace Text

/-! ## Where a run ends -/

section Run

variable {α : Type} {p : α → Bool} {run rest : List α}

theorem takeWhile_append_stop (h : ∀ c ∈ run, p c = true) (stop : ∀ c ∈ rest.head?, p c = false) :
    (run ++ rest).takeWhile p = run := by
  rw [List.takeWhile_append_of_pos h]
  cases rest with
  | nil => simp
  | cons c r => simp [stop c rfl]

theorem dropWhile_append_stop (h : ∀ c ∈ run, p c = true) (stop : ∀ c ∈ rest.head?, p c = false) :
    (run ++ rest).dropWhile p = rest := by
  rw [List.dropWhile_append_of_pos h]
  cases rest with
  | nil => rfl
  | cons c r => simp [stop c rfl]

/-- In a text, `run` is a run of characters of one sort, and `rest` does not go on with it. -/
structure Run (p : α → Bool) (run rest : List α) : Prop where
  all : ∀ c ∈ run, p c = true
  ends : ∀ c ∈ rest.head?, p c = false

theorem Run.takeWhile_eq (h : Run p run rest) : (run ++ rest).takeWhile p = run :=
  takeWhile_append_stop h.all h.ends

theorem Run.dropWhile_eq (h : Run p run rest) : (run ++ rest).dropWhile p = rest :=
  dropWhile_append_stop h.all h.ends

theorem run_takeWhile (p : α → Bool) (cs : List α) : Run p (cs.takeWhile p) (cs.dropWhile p) := by
  refine ⟨List.all_eq_true.mp List.all_takeWhile, ?_⟩
  intro c hc
  have stop := List.head?_dropWhile_not p cs
  rw [hc] at stop
  exact stop

end Run

end Text

end LiveLint
