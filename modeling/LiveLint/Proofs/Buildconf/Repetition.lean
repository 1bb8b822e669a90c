import LiveLint.Proofs.Buildconf.HeaderPlace
import LiveLint.Proofs.Buildconf.Rearranged
import Mathlib.Data.Finset.Card

/-!
# What is said twice

Five checks report what is there a second time: tools, bakes, outputs, the sources of one bake, and
the header. Each walks over a list with a memory of what it has met. This file says the same without
a walk: an occurrence is reported if one on an earlier line has the same key (`IsRepeat`), and so
the first of a key is never reported, all others are, and there are as many reports as occurrences
less the number of keys. The main statement is `flagsRepeats_parse`.

The occurrences are read off the lines of the text, so it plays no part in which blocks they stand;
only a source is one of its own bake, the innermost block that is open at its line
(`mem_sourcesIn`).
-/

namespace LiveLint.Buildconf

/-! ## Repeats and firsts -/

section Occurrences

variable {α κ : Type} (key : α → κ) (line : α → Nat)

/-- An earlier one has the same key. -/
def IsRepeat (all : List α) (x : α) : Prop :=
  ∃ y ∈ all, key y = key x ∧ line y < line x

instance [DecidableEq κ] (all : List α) : DecidablePred (IsRepeat key line all) := fun x =>
  inferInstanceAs (Decidable (∃ y ∈ all, key y = key x ∧ line y < line x))

variable {key line} {all : List α}

theorem isRepeat_cons_iff {x y : α} : IsRepeat key line (x :: all) y ↔
    (key x = key y ∧ line x < line y) ∨ IsRepeat key line all y :=
  List.exists_mem_cons_iff _ _ _

/-- What stands before all others repeats nothing. -/
theorem not_isRepeat_head {x : α} (least : ∀ y ∈ all, line x < line y) :
    ¬IsRepeat key line (x :: all) x := by
  rintro ⟨y, hy, -, earlier⟩
  rcases List.mem_cons.mp hy with rfl | hy
  · exact Nat.lt_irrefl _ earlier
  · exact Nat.lt_asymm earlier (least y hy)

/-- Every key has a first occurrence. -/
theorem exists_first (line : α → Nat) {x : α} (h : x ∈ all) :
    ∃ y ∈ all, key y = key x ∧ ¬IsRepeat key line all y := by
  -- go up from line to line until nothing earlier has the key
  induction n : line x using Nat.strong_induction_on generalizing x with
  | _ n ih =>
    by_cases again : IsRepeat key line all x
    · obtain ⟨y, hy, same, earlier⟩ := again
      obtain ⟨z, hz, key, first⟩ := ih (line y) (by omega) hy rfl
      exact ⟨z, hz, key.trans same, first⟩
    · exact ⟨x, h, rfl, again⟩

variable [DecidableEq κ]

/-- The keys of the first occurrences are all keys. -/
theorem toFinset_firsts (line : α → Nat) :
    ((all.filter fun x => ¬IsRepeat key line all x).map key).toFinset = (all.map key).toFinset := by
  ext k
  rw [List.mem_toFinset, List.mem_toFinset, List.mem_map, List.mem_map]
  constructor
  · rintro ⟨x, hx, rfl⟩
    exact ⟨x, List.mem_of_mem_filter hx, rfl⟩
  · rintro ⟨x, hx, rfl⟩
    obtain ⟨y, hy, same, first⟩ := exists_first line hx
    exact ⟨y, List.mem_filter.mpr ⟨hy, decide_eq_true first⟩, same⟩

/-- No two first occurrences have the same key. -/
theorem nodup_firsts (apart : all.Pairwise (line · ≠ line ·)) :
    ((all.filter fun x => ¬IsRepeat key line all x).map key).Nodup := by
  refine List.pairwise_map.mpr ((apart.filter _).imp_of_mem ?_)
  intro x y hx hy differ same
  obtain ⟨hx, firstx⟩ := List.mem_filter.mp hx
  obtain ⟨hy, firsty⟩ := List.mem_filter.mp hy
  rcases Nat.lt_or_gt_of_ne differ with before | behind
  · exact of_decide_eq_true firsty ⟨x, hx, same, before⟩
  · exact of_decide_eq_true firstx ⟨y, hy, same.symm, behind⟩

/-- **There are as many repeats as occurrences less the number of keys.** -/
theorem length_filter_isRepeat (apart : all.Pairwise (line · ≠ line ·)) :
    (all.filter fun x => IsRepeat key line all x).length + (all.map key).toFinset.card =
      all.length := by
  have firsts : (all.filter fun x => ¬IsRepeat key line all x).length =
      (all.map key).toFinset.card := by
    rw [← toFinset_firsts line, List.toFinset_card_of_nodup (nodup_firsts apart),
      List.length_map]
  have split := List.length_eq_length_filter_add (l := all) fun x =>
    decide (IsRepeat key line all x)
  simp only [← decide_not] at split
  omega

end Occurrences

/-! ## A walk with a memory -/

section Walk

variable {α : Type} {key : α → String} {line : α → Nat}

/-- What has been met plays the part of earlier occurrences. -/
theorem filter_markRepeatsAfter (seen : List String) {xs : List α}
    (sorted : xs.Pairwise (line · < line ·)) :
    ((markRepeatsAfter key seen xs).filter (·.2)).map (·.1) =
      xs.filter fun x => key x ∈ seen ∨ IsRepeat key line xs x := by
  induction xs generalizing seen with
  | nil => rfl
  | cons x xs ih =>
    obtain ⟨least, sorted⟩ := List.pairwise_cons.mp sorted
    -- nothing is earlier than the first one, and it is earlier than all others
    have first : (key x ∈ seen ∨ IsRepeat key line (x :: xs) x) ↔ key x ∈ seen :=
      or_iff_left (not_isRepeat_head least)
    have later : ∀ y ∈ xs, (key y ∈ key x :: seen ∨ IsRepeat key line xs y) ↔
        (key y ∈ seen ∨ IsRepeat key line (x :: xs) y) := by
      intro y hy
      rw [isRepeat_cons_iff, and_iff_left (least y hy), List.mem_cons, eq_comm (a := key y)]
      tauto
    have rest : xs.filter (fun y => key y ∈ key x :: seen ∨ IsRepeat key line xs y) =
        xs.filter fun y => key y ∈ seen ∨ IsRepeat key line (x :: xs) y :=
      List.filter_congr fun y hy => decide_eq_decide.mpr (later y hy)
    have walk := ih (key x :: seen) sorted
    rw [rest] at walk
    rw [markRepeatsAfter, List.filter_cons, List.filter_cons]
    simp only [first, List.contains_eq_mem, decide_eq_true_eq]
    split_ifs
    · rw [List.map_cons, walk]
    · exact walk

/-- **The walk finds the repeats**, where lines grow. -/
theorem repeats_eq_filter {xs : List α} (sorted : xs.Pairwise (line · < line ·)) :
    repeats key xs = xs.filter fun x => IsRepeat key line xs x := by
  have walk : repeats key xs = xs.filter fun x => key x ∈ [] ∨ IsRepeat key line xs x :=
    filter_markRepeatsAfter [] sorted
  simpa using walk

theorem markRepeatsAfter_map {β : Type} (f : β → α) (seen : List String) (xs : List β) :
    markRepeatsAfter key seen (xs.map f) =
      (markRepeatsAfter (key ∘ f) seen xs).map (Prod.map f id) := by
  induction xs generalizing seen with
  | nil => rfl
  | cons x xs ih => simp [markRepeatsAfter, ih]

theorem repeats_map {β : Type} (f : β → α) (xs : List β) :
    repeats key (xs.map f) = (repeats (key ∘ f) xs).map f := by
  rw [repeats, markRepeats, markRepeatsAfter_map, List.filter_map, List.map_map, repeats,
    List.map_map]
  rfl

/-- With one key for all, everything but the first is a repeat. -/
theorem tail_eq_filter {xs : List α} (sorted : xs.Pairwise (line · < line ·)) :
    xs.tail = xs.filter fun x => IsRepeat (fun _ => ()) line xs x := by
  cases xs with
  | nil => rfl
  | cons x xs =>
    obtain ⟨least, -⟩ := List.pairwise_cons.mp sorted
    have first : ¬IsRepeat (fun _ => ()) line (x :: xs) x := not_isRepeat_head least
    have others : ∀ y ∈ xs, IsRepeat (fun _ => ()) line (x :: xs) y := by
      intro y hy
      exact isRepeat_cons_iff.mpr (.inl ⟨rfl, least y hy⟩)
    rw [List.filter_cons_of_neg (by simpa using first), List.tail_cons, eq_comm,
      List.filter_eq_self]
    exact fun y hy => decide_eq_true (others y hy)

end Walk

/-! ## What can be there twice -/

/-- The paths of the outputs, with their lines. -/
def pathsIn (lines : List Line) : List (String × Nat) :=
  ((directivesIn lines).filter (·.name == "output")).filterMap fun d =>
    (d.arg? 1).map (·, d.line)

/-- The valid headers. -/
def headersIn (lines : List Line) : List Line :=
  lines.filter (·.kind == .header true)

/-- A source of a bake. -/
structure OwnedSource where
  /-- The line of the bake. -/
  owner : Nat
  bake : String
  id : String
  line : Nat
deriving DecidableEq, Repr

/-- A source is told from others by its bake and its id. -/
def OwnedSource.key (source : OwnedSource) : Nat × String :=
  (source.owner, source.id)

/-- The sources that the directives of a bake make, if it has a name. -/
def sourcesOf (owner : Nat) (name : Option String) (ds : List Directive) : List OwnedSource :=
  (ds.filter (·.name == "make")).filterMap fun d =>
    name.bind fun bake => (d.arg? 0).map fun id => ⟨owner, bake, id, d.line⟩

/-- The sources of the bakes that some lines open. -/
def sourcesIn (lines : List Line) : List OwnedSource :=
  ((openings lines).filter (·.2.1 == "bake")).flatMap fun o =>
    sourcesOf o.1 o.2.2 (Nesting.owned lines (some o.1))

/-- The sources that a block with a name makes itself. -/
def Block.sources (b : Block) : List OwnedSource :=
  sourcesOf b.line b.name b.directives

/-- The sources of all bakes with a name. -/
def Document.sources (doc : Document) : List OwnedSource :=
  (doc.blocksOf "bake").flatMap Block.sources

/-! ## They stand on lines of their own -/

section Apart

variable (cs : List Char)

theorem outputPaths_parse : outputPaths (Document.parse cs) = pathsIn (Line.ofText cs) := by
  rw [outputPaths, Document.directivesOf, Document.directivesInOrder_parse, pathsIn]

theorem ascending_namesIn (tag : String) :
    (namesIn (Line.ofText cs) tag).Pairwise (·.2 < ·.2) := by
  rw [← named_parse, Document.named]
  refine ((Document.pairwise_line_blocksInOrder cs).filter _).filterMap _ ?_
  intro b b' earlier place hplace place' hplace'
  obtain ⟨_, -, rfl⟩ := Option.map_eq_some_iff.mp hplace
  obtain ⟨_, -, rfl⟩ := Option.map_eq_some_iff.mp hplace'
  exact earlier

theorem ascending_pathsIn : (pathsIn (Line.ofText cs)).Pairwise (·.2 < ·.2) := by
  refine ((pairwise_directivesIn (Line.ascending_ofText cs)).filter _).filterMap _ ?_
  intro d d' earlier place hplace place' hplace'
  obtain ⟨_, -, rfl⟩ := Option.map_eq_some_iff.mp hplace
  obtain ⟨_, -, rfl⟩ := Option.map_eq_some_iff.mp hplace'
  exact earlier

theorem ascending_headersIn : (headersIn (Line.ofText cs)).Pairwise (·.number < ·.number) :=
  (Line.ascending_ofText cs).filter _

/-- The tree gives every bake the sources that its lines give it. -/
theorem sources_parse : (Document.parse cs).sources = sourcesIn (Line.ofText cs) := by
  rw [sourcesIn, ← Document.openings_parse, List.filter_map, List.flatMap_map, Document.sources,
    Document.blocksOf]
  refine List.flatMap_congr fun b hb => ?_
  rw [Block.sources, Document.directives_parse (List.mem_of_mem_filter hb)]
  rfl

variable {cs} {b : Block} {source : OwnedSource}

theorem mem_sourcesOf {owner : Nat} {name : Option String} {ds : List Directive} :
    source ∈ sourcesOf owner name ds ↔ ∃ bake, name = some bake ∧
      ∃ d ∈ ds, d.name = "make" ∧ ∃ id, d.arg? 0 = some id ∧
        source = ⟨owner, bake, id, d.line⟩ := by
  constructor
  · intro h
    obtain ⟨d, hd, made⟩ := List.mem_filterMap.mp h
    obtain ⟨hd, make⟩ := List.mem_filter.mp hd
    obtain ⟨bake, called, made⟩ := Option.bind_eq_some_iff.mp made
    obtain ⟨id, first, made⟩ := Option.map_eq_some_iff.mp made
    exact ⟨bake, called, d, hd, eq_of_beq make, id, first, made.symm⟩
  · rintro ⟨bake, called, d, hd, make, id, first, rfl⟩
    refine List.mem_filterMap.mpr ⟨d, List.mem_filter.mpr ⟨hd, beq_iff_eq.mpr make⟩, ?_⟩
    simp [called, first]

/-- **A source is what a bake makes** whose opener is the innermost one open at its line. -/
theorem mem_sourcesIn : source ∈ sourcesIn (Line.ofText cs) ↔
    (source.owner, "bake", some source.bake) ∈ openings (Line.ofText cs) ∧
      ∃ d ∈ directivesIn (Line.ofText cs), d.name = "make" ∧ d.arg? 0 = some source.id ∧
        d.line = source.line ∧ InnermostAt (Line.ofText cs) source.owner d.line := by
  constructor
  · intro h
    obtain ⟨⟨owner, tag, name⟩, ho, h⟩ := List.mem_flatMap.mp h
    obtain ⟨ho, tagged⟩ := List.mem_filter.mp ho
    obtain rfl : tag = "bake" := eq_of_beq tagged
    obtain ⟨bake, rfl, d, hd, make, id, first, rfl⟩ := mem_sourcesOf.mp h
    obtain ⟨hd, owned⟩ := Document.mem_owned_iff.mp hd
    exact ⟨ho, d, hd, make, first, rfl,
      (ownerOf_eq_some_iff (Line.ascending_ofText cs)).mp owned⟩
  · rintro ⟨ho, d, hd, make, first, line, innermost⟩
    have owned := (ownerOf_eq_some_iff (Line.ascending_ofText cs)).mpr innermost
    have own : d ∈ Nesting.owned (Line.ofText cs) (some source.owner) :=
      Document.mem_owned_iff.mpr ⟨hd, owned⟩
    refine List.mem_flatMap.mpr ⟨_, List.mem_filter.mpr ⟨ho, beq_self_eq_true _⟩, ?_⟩
    refine mem_sourcesOf.mpr ⟨source.bake, rfl, d, own, make, source.id, first, ?_⟩
    rw [line]

theorem owner_of_mem_sources (h : source ∈ b.sources) : source.owner = b.line := by
  obtain ⟨_, -, _, -, -, _, -, rfl⟩ := mem_sourcesOf.mp h
  rfl

theorem exists_directive_of_mem_sources (h : source ∈ b.sources) :
    ∃ d ∈ b.directives, d.line = source.line := by
  obtain ⟨_, -, d, hd, -, _, -, rfl⟩ := mem_sourcesOf.mp h
  exact ⟨d, hd, rfl⟩

/-- A bake makes its sources one below the other. -/
theorem ascending_sources (hb : b ∈ (Document.parse cs).blocksInOrder) :
    b.sources.Pairwise (·.line < ·.line) := by
  rw [Block.sources, sourcesOf, Document.directives_parse hb]
  refine (((pairwise_directivesIn (Line.ascending_ofText cs)).filter _).filter _).filterMap _ ?_
  intro d d' earlier source hsource source' hsource'
  obtain ⟨_, -, made⟩ := Option.bind_eq_some_iff.mp hsource
  obtain ⟨_, -, made'⟩ := Option.bind_eq_some_iff.mp hsource'
  obtain ⟨_, -, rfl⟩ := Option.map_eq_some_iff.mp made
  obtain ⟨_, -, rfl⟩ := Option.map_eq_some_iff.mp made'
  exact earlier

/-- Two directives of a document are on two lines. -/
theorem pairwise_allDirectives (cs : List Char) :
    (Document.parse cs).allDirectives.Pairwise (·.line ≠ ·.line) := by
  have sorted := pairwise_directivesIn (Line.ascending_ofText cs)
  refine ((Document.perm_directives_parse cs).pairwise_iff ?_).mpr (sorted.imp Nat.ne_of_lt)
  exact fun apart => Ne.symm apart

/-- And so are two sources, of one bake or of two. -/
theorem pairwise_sources (cs : List Char) :
    (Document.parse cs).sources.Pairwise (·.line ≠ ·.line) := by
  have inBlocks := (List.pairwise_append.mp (pairwise_allDirectives cs)).2.1
  have between := (List.pairwise_flatMap.mp inBlocks).2
  refine List.pairwise_flatMap.mpr ⟨?_, (between.filter _).imp ?_⟩
  · intro b hb
    exact (ascending_sources (Document.mem_blocksOf.mp hb).1).imp Nat.ne_of_lt
  · intro b b' apart source hsource source' hsource'
    obtain ⟨d, hd, line⟩ := exists_directive_of_mem_sources hsource
    obtain ⟨d', hd', line'⟩ := exists_directive_of_mem_sources hsource'
    rw [← line, ← line']
    exact apart d hd d' hd'

/-- A source of a document repeats another if it repeats one of its own bake. -/
theorem isRepeat_source_iff (hb : b ∈ (Document.parse cs).blocksOf "bake")
    (h : source ∈ b.sources) :
    IsRepeat OwnedSource.key OwnedSource.line (Document.parse cs).sources source ↔
      IsRepeat OwnedSource.id OwnedSource.line b.sources source := by
  constructor
  · rintro ⟨earlier, there, same, before⟩
    obtain ⟨b', hb', there⟩ := List.mem_flatMap.mp there
    obtain ⟨owner, id⟩ := Prod.mk.inj same
    -- the same owner is the same bake
    rw [owner_of_mem_sources there, owner_of_mem_sources h] at owner
    have one : b' = b := Document.eq_of_line_eq (Document.mem_blocksOf.mp hb').1
      (Document.mem_blocksOf.mp hb).1 owner
    exact ⟨earlier, one ▸ there, id, before⟩
  · rintro ⟨earlier, there, id, before⟩
    refine ⟨earlier, List.mem_flatMap.mpr ⟨b, hb, there⟩, Prod.ext ?_ id, before⟩
    exact (owner_of_mem_sources there).trans (owner_of_mem_sources h).symm

theorem filter_sources (cs : List Char) :
    (Document.parse cs).sources.filter
        (IsRepeat OwnedSource.key OwnedSource.line (Document.parse cs).sources) =
      ((Document.parse cs).blocksOf "bake").flatMap fun bake =>
        bake.sources.filter (IsRepeat OwnedSource.id OwnedSource.line bake.sources) := by
  rw [Document.sources, List.filter_flatMap]
  refine List.flatMap_congr ?_
  intro b hb
  refine List.filter_congr ?_
  intro source h
  exact decide_eq_decide.mpr (isRepeat_source_iff hb h)

end Apart

/-! ## What the checks find -/

section Found

variable (doc : Document)

theorem ofRule_repeatedTool : ofRule .repeatedTool (repeatedNames doc) =
    (repeats Prod.fst (doc.named "tool")).map fun place => .repeatedTool place.1 place.2 := by
  have own : ∀ place : String × Nat,
      (Finding.repeatedTool place.1 place.2).rule = .repeatedTool := fun _ => rfl
  have other : ∀ place : String × Nat,
      (Finding.repeatedBake place.1 place.2).rule ≠ .repeatedTool := by simp [Finding.rule]
  rw [repeatedNames, ofRule_append]
  exact (congrArg₂ _ (ofRule_map _ own) (ofRule_map_of_ne _ other)).trans (List.append_nil _)

theorem ofRule_repeatedBake : ofRule .repeatedBake (repeatedNames doc) =
    (repeats Prod.fst (doc.named "bake")).map fun place => .repeatedBake place.1 place.2 := by
  have own : ∀ place : String × Nat,
      (Finding.repeatedBake place.1 place.2).rule = .repeatedBake := fun _ => rfl
  have other : ∀ place : String × Nat,
      (Finding.repeatedTool place.1 place.2).rule ≠ .repeatedBake := by simp [Finding.rule]
  rw [repeatedNames, ofRule_append]
  exact (congrArg₂ _ (ofRule_map_of_ne _ other) (ofRule_map _ own)).trans (List.nil_append _)

theorem ofRule_pathFindings (path : String) (line : Nat) (again : Bool) :
    ofRule .repeatedOutput (pathFindings path line again) =
      reportIf again (.repeatedOutput path line) := by
  have own : (Finding.repeatedOutput path line).rule = .repeatedOutput := rfl
  simp only [pathFindings, ofRule_append]
  rw [ofRule_reportIf_of_ne _ (by simp [Finding.rule]),
    ofRule_reportIf_of_ne _ (by simp [Finding.rule]),
    ofRule_reportIf_of_ne _ (by simp [Finding.rule]), ofRule_reportIf _ own]
  rfl

theorem ofRule_repeatedOutput : ofRule .repeatedOutput (outputFindings doc) =
    (repeats Prod.fst (outputPaths doc)).map fun place => .repeatedOutput place.1 place.2 := by
  rw [← flatMap_markRepeats, outputFindings, ofRule, List.filter_flatMap]
  refine List.flatMap_congr ?_
  intro place _
  exact ofRule_pathFindings place.1.1 place.1.2 place.2

theorem ofRule_namedBakeFindings (bake : Block) (name : String) :
    ofRule .repeatedSource (namedBakeFindings bake name) =
      (repeats Prod.fst (sourceIds (bake.directivesOf "make"))).map
        fun place => .repeatedSource name place.1 place.2 := by
  have own : ∀ place : String × Nat,
      (Finding.repeatedSource name place.1 place.2).rule = .repeatedSource := fun _ => rfl
  have count : ofRule .repeatedSource (outputCountFindings bake name) = [] := by
    unfold outputCountFindings
    split <;> rfl
  simp only [namedBakeFindings, ofRule_append, count]
  rw [ofRule_reportIf_of_ne _ (by simp [Finding.rule]),
    ofRule_reportIf_of_ne _ (by simp [Finding.rule]),
    ofRule_reportIf_of_ne _ (by simp [Finding.rule]),
    ofRule_map_of_ne _ fun _ => by simp [Finding.rule]]
  exact ofRule_map _ own

theorem ofRule_bakeFindings : ofRule .repeatedSource (bakeFindings doc) =
    (doc.blocksOf "bake").flatMap fun bake => (repeats OwnedSource.id bake.sources).map
      fun source => .repeatedSource source.bake source.id source.line := by
  rw [bakeFindings, ofRule, List.filter_flatMap]
  refine List.flatMap_congr ?_
  intro bake _
  cases called : bake.name with
  | none =>
    have none : bake.sources = [] := by simp [Block.sources, sourcesOf, called]
    rw [none]
    rfl
  | some name =>
    have sources : bake.sources = (sourceIds (bake.directivesOf "make")).map fun place =>
        ⟨bake.line, name, place.1, place.2⟩ := by
      simp [Block.sources, sourcesOf, sourceIds, called, List.map_filterMap, Block.directivesOf,
        Function.comp_def]
    rw [sources, repeats_map, List.map_map]
    exact ofRule_namedBakeFindings bake name

end Found

/-! ## What is reported -/

/-- Of all occurrences of something the repeats are told of, each on its line. -/
structure Flags {α κ : Type} [DecidableEq κ] (told : List Diagnostic) (all : List α) (key : α → κ)
    (line : α → Nat) (finding : α → Finding) : Prop where
  /-- One diagnostic for each that has an earlier one with its key, and no other. -/
  repeats : told = (all.filter (IsRepeat key line all)).map fun x => (finding x).diagnostic
  /-- It is anchored where the repeat stands. -/
  anchors : told.map Diagnostic.line = (all.filter (IsRepeat key line all)).map (some ∘ line)
  /-- There are as many as occurrences less the number of keys. -/
  count : told.length + (all.map key).toFinset.card = all.length

/-- What is there a second time in a text is reported, and nothing else is. -/
structure FlagsRepeats (source : String) (lines : List Line) : Prop where
  tools : Flags (reported source "B024") (namesIn lines "tool") Prod.fst Prod.snd
    fun place => .repeatedTool place.1 place.2
  bakes : Flags (reported source "B025") (namesIn lines "bake") Prod.fst Prod.snd
    fun place => .repeatedBake place.1 place.2
  outputs : Flags (reported source "B043") (pathsIn lines) Prod.fst Prod.snd
    fun place => .repeatedOutput place.1 place.2
  /-- A source is a repeat in its own bake only. -/
  sources : Flags (reported source "B036") (sourcesIn lines) OwnedSource.key OwnedSource.line
    fun source => .repeatedSource source.bake source.id source.line
  /-- Its own bake is the innermost block that is open at its line. -/
  owned : ∀ s, s ∈ sourcesIn lines ↔ (s.owner, "bake", some s.bake) ∈ openings lines ∧
    ∃ d ∈ directivesIn lines, d.name = "make" ∧ d.arg? 0 = some s.id ∧ d.line = s.line ∧
      InnermostAt lines s.owner d.line
  /-- All valid headers are alike. -/
  headers : Flags (reported source "B004") (headersIn lines) (fun _ => ()) Line.number
    fun line => .repeatedHeader line.number
  /-- So the first one is not told of, and every other is. -/
  headerCount : (reported source "B004").length = (headersIn lines).length - 1

section Reported

variable {α κ : Type} [DecidableEq κ] {told : List Diagnostic} {all : List α} {key : α → κ}
variable {line : α → Nat} {finding : α → Finding}

theorem Flags.of_eq (repeats : told = ((all.filter (IsRepeat key line all)).map finding).map
      Finding.diagnostic) (apart : all.Pairwise (line · ≠ line ·))
    (placed : ∀ x ∈ all, 0 < line x) (own : ∀ x, (finding x).line = some (line x)) :
    Flags told all key line finding := by
  rw [List.map_map] at repeats
  refine ⟨repeats, ?_, ?_⟩
  · rw [repeats, List.map_map]
    refine List.map_congr_left ?_
    intro x hx
    have counted := placed x (List.mem_of_mem_filter hx)
    show (finding x).line.filter (0 < ·) = some (line x)
    simp [own, counted]
  · rw [repeats, List.length_map, length_filter_isRepeat apart]

end Reported

section Counted

variable {cs : List Char}

theorem line_pos_of_mem_namesIn {tag : String} {place : String × Nat}
    (h : place ∈ namesIn (Line.ofText cs) tag) : 0 < place.2 := by
  rw [← named_parse] at h
  obtain ⟨b, hb, -, -, line⟩ := Document.mem_named.mp h
  rw [← line]
  exact Document.line_pos_of_mem_blocksInOrder hb

theorem line_pos_of_mem_pathsIn {place : String × Nat} (h : place ∈ pathsIn (Line.ofText cs)) :
    0 < place.2 := by
  obtain ⟨d, hd, made⟩ := List.mem_filterMap.mp h
  obtain ⟨_, -, rfl⟩ := Option.map_eq_some_iff.mp made
  exact Document.pos_of_line (exists_line_of_mem_directivesIn (List.mem_of_mem_filter hd))

theorem line_pos_of_mem_sources {source : OwnedSource} (h : source ∈ (Document.parse cs).sources) :
    0 < source.line := by
  obtain ⟨b, hb, h⟩ := List.mem_flatMap.mp h
  obtain ⟨d, hd, line⟩ := exists_directive_of_mem_sources h
  have own : d ∈ (Document.parse cs).allDirectives :=
    List.mem_append_right _ (List.mem_flatMap.mpr ⟨b, (Document.mem_blocksOf.mp hb).1, hd⟩)
  rw [← line]
  exact Document.line_pos_of_mem_allDirectives own

/-- What the check of bakes finds is said by the sources of the document. -/
theorem ofRule_repeatedSource (cs : List Char) :
    ofRule .repeatedSource (bakeFindings (Document.parse cs)) =
      ((Document.parse cs).sources.filter
        (IsRepeat OwnedSource.key OwnedSource.line (Document.parse cs).sources)).map
          fun source => .repeatedSource source.bake source.id source.line := by
  rw [ofRule_bakeFindings, filter_sources, List.map_flatMap]
  refine List.flatMap_congr ?_
  intro bake hbake
  rw [repeats_eq_filter (ascending_sources (Document.mem_blocksOf.mp hbake).1)]

end Counted

/-- **Every repeat is reported, and no first occurrence is**, in every text. -/
theorem flagsRepeats_parse (source : String) :
    FlagsRepeats source (Line.ofText source.toList) := by
  have names := ascending_namesIn source.toList
  have paths := ascending_pathsIn source.toList
  have lines := ascending_headersIn source.toList
  have headers : reported source "B004" = ((headersIn (Line.ofText source.toList)).tail.map
      fun line => .repeatedHeader line.number).map Finding.diagnostic :=
    (reported_check source .repeatedHeader).trans
      (congrArg (List.map Finding.diagnostic) (ofRule_repeatedHeader _))
  refine ⟨?_, ?_, ?_, ?_, fun _ => mem_sourcesIn, ?_, ?_⟩
  · refine .of_eq ?_ ((names "tool").imp Nat.ne_of_lt) (fun _ => line_pos_of_mem_namesIn) ?_
    · rw [← repeats_eq_filter (names "tool"), ← named_parse, ← ofRule_repeatedTool]
      exact reported_check source .repeatedTool
    · exact fun _ => rfl
  · refine .of_eq ?_ ((names "bake").imp Nat.ne_of_lt) (fun _ => line_pos_of_mem_namesIn) ?_
    · rw [← repeats_eq_filter (names "bake"), ← named_parse, ← ofRule_repeatedBake]
      exact reported_check source .repeatedBake
    · exact fun _ => rfl
  · refine .of_eq ?_ (paths.imp Nat.ne_of_lt) (fun _ => line_pos_of_mem_pathsIn) ?_
    · rw [← repeats_eq_filter paths, ← outputPaths_parse, ← ofRule_repeatedOutput]
      exact reported_check source .repeatedOutput
    · exact fun _ => rfl
  · rw [← sources_parse]
    refine .of_eq ?_ (pairwise_sources source.toList) (fun _ => line_pos_of_mem_sources) ?_
    · rw [← ofRule_repeatedSource]
      exact reported_check source .repeatedSource
    · exact fun _ => rfl
  · refine .of_eq ?_ (lines.imp Nat.ne_of_lt) ?_ fun _ => rfl
    · rw [← tail_eq_filter lines]
      exact headers
    · intro line hline
      exact (Line.number_of_mem_ofText (List.mem_of_mem_filter hline)).1
  · rw [headers, List.length_map, List.length_map, List.length_tail]

/-- A bake of the name is no tool, and a tool inside a bake is one. -/
example : (reported "[tool a]\n[bake a]\n[tool a]\n..\n[tool a]" "B024").map Diagnostic.line =
    [some 3, some 5] := by
  decide +kernel

end LiveLint.Buildconf
