import LiveLint.Proofs.CSource.DeclarationPattern

/-!
# Variables that are never used

A variable is unused where its only occurrence in the text is the one that declares it, right behind
a primitive type (`IsUnused`). The check finds such variables and no others
(`mem_unusedVariables_iff`). It goes by declarations that are found from the left, none inside
another, as a pattern finds them, and hides no variable by that (`filter_declaredFrom`), so all that
follow a type can be looked at (`mem_followers_iff`). `unused_analyze` says what the diagnostics of
a source tell of them.
-/

namespace LiveLint.CSource

open Text (HasWord HasNeighbours IsWordText)

/-! ## Names among runs -/

/-- The runs are a primitive type, a gap and a name. -/
structure Declares (type gap name : List Char) : Prop where
  primitive : String.ofList type ∈ primitiveTypes
  blank : Text.isAllBlank gap = true
  identifier : startsIdentifier name = true

/-- Somewhere among the runs the name follows a type; `pos` is the position of the first run. -/
def FollowsAmong (pos : Nat) (rs : List (List Char)) (d : Declared) : Prop :=
  ∃ front type gap name back, rs = front ++ type :: gap :: name :: back ∧ Declares type gap name ∧
    d = ⟨String.ofList name, pos + (front ++ [type, gap]).flatten.length⟩

section Among

variable {pos : Nat} {type gap name : List Char} {rest rs : List (List Char)} {d : Declared}

/-- It follows in the first three runs, or behind the first one. -/
theorem followsAmong_cons_iff : FollowsAmong pos (type :: gap :: name :: rest) d ↔
    (Declares type gap name ∧ d = ⟨String.ofList name, pos + type.length + gap.length⟩) ∨
      FollowsAmong (pos + type.length) (gap :: name :: rest) d := by
  constructor
  · rintro ⟨front, t, g, n, back, whole, declares, rfl⟩
    rcases List.cons_eq_append_iff.mp whole with ⟨rfl, same⟩ | ⟨front', rfl, later⟩
    · cases same
      left
      refine ⟨declares, ?_⟩
      simp [Nat.add_assoc]
    · right
      refine ⟨front', t, g, n, back, later, declares, ?_⟩
      rw [List.cons_append, List.flatten_cons, List.length_append, Nat.add_assoc]
  · rintro (⟨declares, rfl⟩ | ⟨front, t, g, n, back, later, declares, rfl⟩)
    · refine ⟨[], type, gap, name, rest, rfl, declares, ?_⟩
      simp [Nat.add_assoc]
    · refine ⟨type :: front, t, g, n, back, by rw [later, List.cons_append], declares, ?_⟩
      rw [List.cons_append, List.flatten_cons, List.length_append, Nat.add_assoc]

/-- The scan finds every name that follows a type, and no others. -/
theorem mem_followersFrom_iff : d ∈ followersFrom pos rs ↔ FollowsAmong pos rs d := by
  have declares_iff : ∀ {type gap name}, (String.ofList type ∈ primitiveTypes &&
      Text.isAllBlank gap && startsIdentifier name) = true ↔ Declares type gap name := by
    intro type gap name
    rw [Bool.and_eq_true, Bool.and_eq_true, decide_eq_true_eq]
    constructor
    · rintro ⟨⟨primitive, blank⟩, identifier⟩
      exact ⟨primitive, blank, identifier⟩
    · rintro ⟨primitive, blank, identifier⟩
      exact ⟨⟨primitive, blank⟩, identifier⟩
  fun_induction followersFrom pos rs with
  | case1 pos type gap name rest later declares ih =>
    rw [declares_iff] at declares
    rw [followsAmong_cons_iff, and_iff_right declares, List.mem_cons]
    exact or_congr_right ih
  | case2 pos type gap name rest later none ih =>
    rw [declares_iff] at none
    rw [followsAmong_cons_iff, or_iff_right fun here => none here.1]
    exact ih
  | case3 pos rs short =>
    refine ⟨fun mem => absurd mem List.not_mem_nil, ?_⟩
    rintro ⟨front, t, g, n, back, rfl, -⟩
    rcases front with _ | ⟨_, _ | ⟨_, _ | ⟨_, _⟩⟩⟩ <;> exact (short _ _ _ _ rfl).elim

/-- Names are found in the order in which they stand. -/
theorem pairwise_followersFrom (some : [] ∉ rs) :
    (followersFrom pos rs).Pairwise fun d e => d.position < e.position := by
  fun_induction followersFrom pos rs with
  | case1 pos type gap name rest later declares ih =>
    refine List.pairwise_cons.mpr ⟨?_, ih fun mem => some (List.mem_cons_of_mem _ mem)⟩
    intro d hd
    obtain ⟨front, t, g, n, back, onward, -, rfl⟩ := mem_followersFrom_iff.mp hd
    -- the next name stands behind the gap and one more run at least
    have further : gap.length < (front ++ [t, g]).flatten.length := by
      rcases List.cons_eq_append_iff.mp onward with ⟨rfl, same⟩ | ⟨front', rfl, same⟩
      · cases same
        have there : name ≠ [] := fun none => some (by simp [none])
        simpa using List.length_pos_iff.mpr there
      · have there : t ≠ [] := fun none => some (by simp [same, none])
        have := List.length_pos_iff.mpr there
        simp only [List.cons_append, List.flatten_cons, List.flatten_append, List.length_append]
        omega
    show pos + type.length + gap.length < pos + type.length + _
    omega
  | case2 pos type gap name rest later none ih =>
    exact ih fun mem => some (List.mem_cons_of_mem _ mem)
  | case3 => exact .nil

end Among

/-! ## Names in a text -/

section Text

variable {cs : List Char} {d e : Declared}

/-- The name stands in the text behind the word for a primitive type. -/
def Declared.FollowsType (cs : List Char) (d : Declared) : Prop :=
  ∃ before gap, ∃ type ∈ primitiveTypes,
    HasNeighbours cs before type.toList gap d.name.toList ∧
      d.position = (before ++ (type.toList ++ gap)).length

/-- The name starts with a letter of ASCII or a low line. -/
def Declared.IsIdentifier (d : Declared) : Prop :=
  ∃ c ∈ d.name.toList.head?, c.isAlpha = true ∨ c = '_'

/-- A variable that the text names once, where it declares it. -/
structure IsUnused (cs : List Char) (d : Declared) : Prop where
  once : ∃! before, HasWord cs before d.name.toList
  declared : d.FollowsType cs
  identifier : d.IsIdentifier
  ordinary : d.name ≠ "main" ∧ d.name ∉ typeWords

theorem startsIdentifier_iff {cs : List Char} :
    startsIdentifier cs = true ↔ ∃ c ∈ cs.head?, c.isAlpha = true ∨ c = '_' := by
  cases cs <;> simp [startsIdentifier]

/-- A name is found just if it is an identifier and follows a type. -/
theorem mem_followers_iff : d ∈ followers cs ↔ d.FollowsType cs ∧ d.IsIdentifier := by
  rw [followers, mem_followersFrom_iff, Declared.IsIdentifier, ← startsIdentifier_iff]
  constructor
  · rintro ⟨front, type, gap, name, back, parts, declares, rfl⟩
    have letter := isWord?_of_startsIdentifier declares.identifier
    have mem : name ∈ Text.runs cs := by simp [parts]
    have isWord : IsWordText name := by
      cases name with
      | nil => cases letter
      | cons c r => exact Text.isWordText_of_mem_runs mem List.mem_cons_self letter
    have neighbours := Text.hasNeighbours_iff.mpr
      ⟨isWord, declares.blank, front, back, parts, rfl⟩
    rw [String.toList_ofList]
    refine ⟨⟨front.flatten, gap, String.ofList type, declares.primitive, ?_, ?_⟩,
      declares.identifier⟩
    · rwa [String.toList_ofList, String.toList_ofList]
    · simp [String.toList_ofList]
  · rintro ⟨⟨before, gap, type, primitive, neighbours, position⟩, identifier⟩
    obtain ⟨-, blank, front, back, parts, rfl⟩ := Text.hasNeighbours_iff.mp neighbours
    refine ⟨front, type.toList, gap, d.name.toList, back, parts, ⟨?_, blank, identifier⟩, ?_⟩
    · rwa [String.ofList_toList]
    · obtain ⟨name, position'⟩ := d
      obtain rfl : position' = _ := position
      simp [String.ofList_toList]

/-- **The check finds the unused variables**, and no others. -/
theorem mem_unusedVariables_iff : d ∈ unusedVariables cs ↔ IsUnused cs d := by
  have ordinary_iff : d.isVariable = true ↔ d.name ≠ "main" ∧ d.name ∉ typeWords := by
    simp [Declared.isVariable]
  rw [unusedVariables_eq, List.mem_filter, Bool.and_eq_true, decide_eq_true_eq, ordinary_iff,
    mem_followers_iff, occurrences]
  constructor
  · rintro ⟨⟨⟨before, gap, type, primitive, neighbours, position⟩, identifier⟩, ordinary, once⟩
    have only := (Text.count_runs_le_one_iff neighbours.second).mp once
    exact ⟨⟨_, neighbours.second, only⟩, ⟨before, gap, type, primitive, neighbours, position⟩,
      identifier, ordinary⟩
  · rintro ⟨⟨before, there, only⟩, follows, identifier, ordinary⟩
    exact ⟨⟨follows, identifier⟩, ordinary, (Text.count_runs_le_one_iff there).mpr only⟩

/-- They are found in the order in which they are declared, each under another name. -/
theorem pairwise_unusedVariables (cs : List Char) :
    (unusedVariables cs).Pairwise fun d e => d.position < e.position ∧ d.name ≠ e.name := by
  have ordered : (unusedVariables cs).Pairwise fun d e => d.position < e.position := by
    rw [unusedVariables_eq]
    have some : [] ∉ Text.runs cs := fun mem => Text.ne_nil_of_mem_runs mem rfl
    exact (pairwise_followersFrom some).filter _
  refine ordered.imp_of_mem fun {d e} hd he before => ⟨before, fun same => ?_⟩
  -- what stands before an unused name is known by the name
  obtain ⟨once, ⟨b, gap, type, -, neighbours, position⟩, -, -⟩ := mem_unusedVariables_iff.mp hd
  obtain ⟨-, ⟨b', gap', type', -, neighbours', position'⟩, -, -⟩ := mem_unusedVariables_iff.mp he
  rw [← same] at neighbours'
  have there := once.unique neighbours.second neighbours'.second
  rw [position, position', there] at before
  exact lt_irrefl _ before

end Text

/-! ## Diagnostics -/

/-- What is told about an unused variable. -/
def unusedDiagnostic (name : String) (line : Nat) : Diagnostic :=
  ⟨.warning, some "C009", "C: unused variable \"" ++ name ++ "\".", some line⟩

theorem unusedDiagnostic_inj {name name' : String} {line line' : Nat} :
    unusedDiagnostic name line = unusedDiagnostic name' line' ↔ name = name' ∧ line = line' := by
  simp [unusedDiagnostic]

/-- Whether a finding is about an unused variable. -/
def Finding.isUnused (f : Finding) : Bool :=
  f.rule == .unusedVariable

theorem filter_isUnused_eq_nil {fs : List Finding}
    (none : ∀ name line, .unusedVariable name line ∉ fs) : fs.filter Finding.isUnused = [] := by
  refine List.filter_eq_nil_iff.mpr fun f hf unused => ?_
  cases f with
  | unusedVariable name line => exact none name line hf
  | _ => cases unused

/-- No other check tells of unused variables. -/
theorem filter_findings (cs : List Char) :
    (findings cs).filter Finding.isUnused = variableFindings cs := by
  have shape : (shapeFindings cs).filter Finding.isUnused = [] :=
    filter_isUnused_eq_nil (by simp [shapeFindings, mem_reportIf])
  have headers : (includeFindings cs).filter Finding.isUnused = [] :=
    filter_isUnused_eq_nil (by simp [includeFindings, mem_reportIf])
  have calls : (callFindings cs).filter Finding.isUnused = [] :=
    filter_isUnused_eq_nil (by simp [callFindings, mem_reportIf])
  have layout : (layoutFindings cs).filter Finding.isUnused = [] := by
    refine filter_isUnused_eq_nil fun name line mem => ?_
    obtain ⟨⟨text, number⟩, -, found⟩ := List.mem_flatMap.mp mem
    simp only [lineFindings] at found
    split at found
    · simp [mem_reportIf] at found
    · cases found
  have own : (variableFindings cs).filter Finding.isUnused = variableFindings cs := by
    refine List.filter_eq_self.mpr fun f hf => ?_
    obtain ⟨d, -, rfl⟩ := List.mem_map.mp hf
    rfl
  simp only [findings, List.filter_append, shape, headers, calls, layout, own, List.nil_append,
    List.append_nil]

/-- The diagnostics with the code of the check tell of the unused variables, one of each. -/
theorem filter_analyze (source : String) :
    (analyze source).filter (·.code == some "C009") = (unusedVariables source.toList).map
      fun d => unusedDiagnostic d.name (Text.lineAt source.toList d.position) := by
  have kept : (fun f : Finding => f.diagnostic.code == some "C009") = Finding.isUnused := by
    funext f
    rw [Bool.eq_iff_iff, beq_iff_eq, Finding.isUnused, beq_iff_eq, Finding.diagnostic_code,
      Option.some.injEq]
    exact ⟨fun code => Rule.code_injective code, fun rule => by rw [rule]; rfl⟩
  have found := filter_findings source.toList
  rw [← kept] at found
  rw [analyze, List.filter_map]
  show ((findings source.toList).filter fun f => f.diagnostic.code == some "C009").map _ = _
  rw [found, variableFindings, List.map_map]
  rfl

/-- The names are those that two patterns find. Declarations are matched from the left, none
inside another, and the words are counted. -/
structure FoundByPatterns (cs : List Char) (found : List Declared) : Prop where
  declarations : Pattern.ofText
    "\\b(?:(?:int|float|double|char|long|short|unsigned)\\s+)+([A-Za-z_]\\w*)".toList =
      .ok declarationPattern
  words : Pattern.ofText "\\w+".toList = .ok Language.someWord
  found : found = unusedByPatterns cs

/-- **The unused variables are told, each once, in the order of the text**: a variable is named on a
line just if the word that declares it there is the only one of its spelling. No variable is lost
where declarations are matched from the left. -/
theorem unused_analyze (source : String) :
    (∀ name line, unusedDiagnostic name line ∈ analyze source ↔
      ∃ position, IsUnused source.toList ⟨name, position⟩ ∧
        Text.lineAt source.toList position = line) ∧
    ∃ found : List Declared,
      (analyze source).filter (·.code == some "C009") =
        (found.map fun d => unusedDiagnostic d.name (Text.lineAt source.toList d.position)) ∧
      (∀ d, d ∈ found ↔ IsUnused source.toList d) ∧
      (found.Pairwise fun d e => d.position < e.position ∧ d.name ≠ e.name) ∧
      FoundByPatterns source.toList found := by
  constructor
  · intro name line
    have told : unusedDiagnostic name line ∈ analyze source ↔
        unusedDiagnostic name line ∈ (analyze source).filter (·.code == some "C009") :=
      ⟨fun mem => List.mem_filter.mpr ⟨mem, rfl⟩, fun mem => (List.mem_filter.mp mem).1⟩
    rw [told, filter_analyze, List.mem_map]
    constructor
    · rintro ⟨d, hd, same⟩
      obtain ⟨rfl, rfl⟩ := unusedDiagnostic_inj.mp same
      exact ⟨d.position, mem_unusedVariables_iff.mp hd, rfl⟩
    · rintro ⟨position, unused, rfl⟩
      exact ⟨_, mem_unusedVariables_iff.mpr unused, rfl⟩
  · exact ⟨unusedVariables source.toList, filter_analyze source, fun _ => mem_unusedVariables_iff,
      pairwise_unusedVariables source.toList, ofText_declarationPattern, ofText_someWord,
      unusedVariables_eq_unusedByPatterns source.toList⟩

end LiveLint.CSource
