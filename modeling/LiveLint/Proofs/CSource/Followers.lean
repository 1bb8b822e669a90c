import LiveLint.CSource.Declaration

/-!
# No declaration hides another

Declarations are found from the left and none begins inside another, so a name that follows a type
need not be the name of a declaration: of `int long x` only `x` is. `followersFrom` has all names
that follow a type, each looked for on its own. What a declaration passes over are types, which are
never variables, and so both ways find the same variables (`filter_declaredFrom`).
-/

namespace LiveLint.CSource

/-- The names that follow a primitive type, in a list of runs whose head stands at `pos`. -/
def followersFrom (pos : Nat) : List (List Char) → List Declared
  | type :: between :: name :: rest =>
    let later := followersFrom (pos + type.length) (between :: name :: rest)
    if String.ofList type ∈ primitiveTypes && Text.isAllBlank between && startsIdentifier name then
      ⟨String.ofList name, pos + type.length + between.length⟩ :: later
    else later
  | _ => []

/-- The names that follow a primitive type, in the order of the text. -/
def followers (cs : List Char) : List Declared :=
  followersFrom 0 (Text.runs cs)

/-! ## Types among runs -/

section Types

variable {xs : List Char}

theorem not_mem_primitiveTypes_of_blank (blank : Text.isAllBlank xs = true) :
    String.ofList xs ∉ primitiveTypes := by
  intro type
  have solid : ∀ t ∈ primitiveTypes, Text.isAllBlank t.toList = false := by decide
  have := solid _ type
  rw [String.toList_ofList, blank] at this
  cases this

theorem startsIdentifier_of_mem_primitiveTypes (h : String.ofList xs ∈ primitiveTypes) :
    startsIdentifier xs = true := by
  have letters : ∀ t ∈ primitiveTypes, startsIdentifier t.toList = true := by decide
  have := letters _ h
  rwa [String.toList_ofList] at this

/-- A type is no variable. -/
theorem not_isVariable_of_mem_primitiveTypes {d : Declared} (h : d.name ∈ primitiveTypes) :
    d.isVariable = false := by
  have words : ∀ t ∈ primitiveTypes, t ∈ typeWords := by decide
  simp [Declared.isVariable, words _ h]

end Types

/-! ## What a declaration passes over -/

section Passed

variable {pos : Nat} {xs gap name : List Char} {rest after : List (List Char)} {d : Declared}

/-- Nothing follows what is no type. -/
theorem followersFrom_of_not_type (other : String.ofList xs ∉ primitiveTypes) :
    followersFrom pos (xs :: rest) = followersFrom (pos + xs.length) rest := by
  rcases rest with _ | ⟨between, _ | ⟨name, rest⟩⟩
  · rfl
  · rfl
  · rw [followersFrom]
    simp [other]

/-- What follows a type follows it behind blanks. -/
theorem followersFrom_of_type (type : String.ofList xs ∈ primitiveTypes)
    (blank : Text.isAllBlank gap = true) (starts : startsIdentifier name = true) :
    followersFrom pos (xs :: gap :: name :: rest) =
      ⟨String.ofList name, pos + xs.length + gap.length⟩ ::
        followersFrom (pos + xs.length + gap.length) (name :: rest) := by
  rw [followersFrom, followersFrom_of_not_type (not_mem_primitiveTypes_of_blank blank)]
  simp [type, blank, starts]

/-- Where no declaration begins, no type is followed by a name. -/
theorem followersFrom_of_declaration?_eq_none (none : declaration? pos (xs :: rest) = none) :
    followersFrom pos (xs :: rest) = followersFrom (pos + xs.length) rest := by
  rcases rest with _ | ⟨gap, _ | ⟨name, rest⟩⟩
  · rfl
  · rfl
  · rw [followersFrom, if_neg]
    intro declares
    obtain ⟨typed, starts⟩ := Bool.and_eq_true_iff.mp declares
    rw [declaration?, if_pos typed, Option.or_eq_none_iff, nameAt?, if_pos starts] at none
    cases none.2

theorem nameAt?_eq_some_iff : nameAt? pos rest = some (d, after) ↔
    ∃ name, rest = name :: after ∧ startsIdentifier name = true ∧
      d = ⟨String.ofList name, pos⟩ := by
  cases rest with
  | nil => simp [nameAt?]
  | cons name rest =>
    rw [nameAt?]
    split
    · next starts =>
      constructor
      · intro same
        cases same
        exact ⟨name, rfl, starts, rfl⟩
      · rintro ⟨_, same, -, rfl⟩
        cases same
        rfl
    · next stops =>
      constructor
      · intro same
        cases same
      · rintro ⟨_, same, starts, -⟩
        cases same
        exact absurd starts stops

/-- A declaration begins with a type. -/
theorem mem_primitiveTypes_of_declaration?
    (found : declaration? pos (xs :: rest) = some (d, after)) :
    String.ofList xs ∈ primitiveTypes := by
  rcases rest with _ | ⟨between, rest⟩
  · cases found
  · rw [declaration?] at found
    split at found
    · next typed => exact of_decide_eq_true (Bool.and_eq_true_iff.mp typed).1
    · cases found

/-- **A declaration passes over types only.** Its own name is the last that follows a type in it. -/
theorem exists_passed (runs : List (List Char)) (found : declaration? pos runs = some (d, after)) :
    ∃ passed : List Declared, (∀ e ∈ passed, e.name ∈ primitiveTypes) ∧
      followersFrom pos runs =
        passed ++ d :: followersFrom (d.position + d.name.length) after := by
  fun_induction declaration? pos runs with
  | case1 pos type gap rest typed behind ih =>
    obtain ⟨type', blank⟩ := Bool.and_eq_true_iff.mp typed
    have type := of_decide_eq_true type'
    rcases Option.or_eq_some_iff.mp found with deeper | ⟨none, here⟩
    · -- the next type follows this one, and is passed over
      obtain ⟨passed, types, followed⟩ := ih deeper
      rcases rest with _ | ⟨next, rest⟩
      · cases deeper
      · have again := mem_primitiveTypes_of_declaration? deeper
        refine ⟨⟨String.ofList next, behind⟩ :: passed, List.forall_mem_cons.mpr ⟨again, types⟩, ?_⟩
        rw [followersFrom_of_type type blank (startsIdentifier_of_mem_primitiveTypes again),
          followed]
        rfl
    · obtain ⟨name, rfl, starts, rfl⟩ := nameAt?_eq_some_iff.mp here
      refine ⟨[], List.forall_mem_nil _, ?_⟩
      rw [followersFrom_of_type type blank starts, followersFrom_of_declaration?_eq_none none,
        String.length_ofList]
      rfl
  | case2 => cases found
  | case3 => cases found

end Passed

/-! ## Variables -/

/-- **No variable is swallowed by the declaration before it.** -/
theorem filter_declaredFrom (pos : Nat) (runs : List (List Char)) :
    (declaredFrom pos runs).filter Declared.isVariable =
      (followersFrom pos runs).filter Declared.isVariable := by
  fun_induction declaredFrom pos runs with
  | case1 => rfl
  | case2 pos run rest d after found ih =>
    obtain ⟨passed, types, followed⟩ := exists_passed _ found
    have none : passed.filter Declared.isVariable = [] := by
      refine List.filter_eq_nil_iff.mpr fun e he => ?_
      rw [not_isVariable_of_mem_primitiveTypes (types e he)]
      exact Bool.false_ne_true
    rw [followed, List.filter_append, none, List.nil_append, List.filter_cons, List.filter_cons, ih]
  | case3 pos run rest none ih => rw [ih, followersFrom_of_declaration?_eq_none none]

/-- The unused variables are found among all names that follow a type. -/
theorem unusedVariables_eq (cs : List Char) :
    unusedVariables cs = (followers cs).filter fun d =>
      d.isVariable && occurrences (Text.runs cs) d.name ≤ 1 := by
  have apart : ∀ ds : List Declared,
      ds.filter (fun d => d.isVariable && occurrences (Text.runs cs) d.name ≤ 1) =
        (ds.filter Declared.isVariable).filter fun d => occurrences (Text.runs cs) d.name ≤ 1 := by
    intro ds
    rw [List.filter_filter]
    exact List.filter_congr fun d _ => Bool.and_comm _ _
  rw [unusedVariables, apart, filter_declaredFrom, ← apart, followers]

/-- Of two types in a row the second is passed over. -/
example : declared "int long x;".toList = [⟨"x", 9⟩] ∧
    followers "int long x;".toList = [⟨"long", 4⟩, ⟨"x", 9⟩] := by
  decide +kernel

end LiveLint.CSource
