import LiveLint.Buildconf.Check
import LiveLint.Proofs.Buildconf.Alike

/-!
# Alike documents have the same findings

Every check gives the same findings of alike documents, one for one, on corresponding lines
(`documentFindings_moved`). A check takes its lines, blocks and directives from the document, keeps
some of them, and makes findings of each; so its proof follows its definition, and what it decides
on has to be the same on both sides.

Two places look at more than the text of a line. Telling a bare source only once compares line
numbers, which is why the correspondence has to be one to one (`Paired`). Tabs and the brackets of
the balance are looked for in all lines, so a document has to be `Plain` for them.
-/

namespace LiveLint.Buildconf

variable {r : Nat → Nat → Prop}

/-- No two lines correspond to the same line. -/
def Paired (r : Nat → Nat → Prop) : Prop :=
  ∀ ⦃m m' n n'⦄, r m m' → r n n' → (m = n ↔ m' = n')

/-! ## Names and where they stand -/

/-- The same text on corresponding lines. -/
inductive Placed (r : Nat → Nat → Prop) : String × Nat → String × Nat → Prop
  | intro (key : String) {n n' : Nat} (line : r n n') : Placed r (key, n) (key, n')

theorem map_fst_of_placed {xs ys : List (String × Nat)} (h : List.Forall₂ (Placed r) xs ys) :
    xs.map (·.1) = ys.map (·.1) := by
  refine map_eq_of_forall₂ h ?_
  rintro _ _ ⟨key, _⟩
  rfl

/-- The same mark on corresponding texts. -/
def Marked (r : Nat → Nat → Prop) (x y : (String × Nat) × Bool) : Prop :=
  Placed r x.1 y.1 ∧ x.2 = y.2

theorem markRepeatsAfter_placed {xs ys : List (String × Nat)} (h : List.Forall₂ (Placed r) xs ys)
    (seen : List String) :
    List.Forall₂ (Marked r) (markRepeatsAfter (·.1) seen xs) (markRepeatsAfter (·.1) seen ys) := by
  induction h generalizing seen with
  | nil => exact .nil
  | cons first _ ih =>
    obtain ⟨key, line⟩ := first
    exact .cons ⟨⟨key, line⟩, rfl⟩ (ih (key :: seen))

/-- The same texts are repeats. -/
theorem repeats_placed {xs ys : List (String × Nat)} (h : List.Forall₂ (Placed r) xs ys) :
    List.Forall₂ (Placed r) (repeats (·.1) xs) (repeats (·.1) ys) := by
  have marked := markRepeatsAfter_placed h []
  have kept := filter_forall₂ (p := (·.2)) (q := (·.2)) marked fun _ _ both => both.2
  exact List.rel_map (fun _ _ both => both.1) kept

/-! ## Directives and blocks -/

namespace Directive.Alike

variable {d d' : Directive}

theorem arg?_eq (h : d.Alike r d') (n : Nat) : d.arg? n = d'.arg? n := by
  rw [Directive.arg?, h.args_eq, Directive.arg?]

theorem hasKeyword_eq (h : d.Alike r d') (n : Nat) (keyword : String) :
    d.hasKeyword n keyword = d'.hasKeyword n keyword := by
  rw [Directive.hasKeyword, h.args_eq, Directive.hasKeyword]

theorem command_eq (h : d.Alike r d') : d.command = d'.command := by
  rw [Directive.command, h.args_eq, Directive.command]

end Directive.Alike

namespace Block.Alike

variable {b b' : Block}

theorem directivesOf (h : b.Alike r b') (name : String) :
    List.Forall₂ (Directive.Alike r) (b.directivesOf name) (b'.directivesOf name) := by
  refine filter_forall₂ h.directives ?_
  intro d d' hd
  rw [hd.name_eq]

theorem otherDirectives (h : b.Alike r b') (allowed : List String) :
    List.Forall₂ (Directive.Alike r) (b.otherDirectives allowed) (b'.otherDirectives allowed) := by
  refine filter_forall₂ h.directives ?_
  intro d d' hd
  rw [hd.name_eq]

theorem has_eq (h : b.Alike r b') (name : String) : b.has name = b'.has name := by
  refine any_eq_of_forall₂ h.directives ?_
  intro d d' hd
  rw [hd.name_eq]

end Block.Alike

/-! ## What checks ask of a document -/

namespace Document.Alike

variable {doc doc' : Document}

theorem blocksOf (h : doc.Alike r doc') (tag : String) :
    List.Forall₂ (Block.Alike r) (doc.blocksOf tag) (doc'.blocksOf tag) := by
  refine filter_forall₂ h.blocks ?_
  intro b b' hb
  rw [hb.tag_eq]

theorem directivesOf (h : doc.Alike r doc') (name : String) :
    List.Forall₂ (Directive.Alike r) (doc.directivesOf name) (doc'.directivesOf name) := by
  refine filter_forall₂ h.directives ?_
  intro d d' hd
  rw [hd.name_eq]

theorem named (h : doc.Alike r doc') (tag : String) :
    List.Forall₂ (Placed r) (doc.named tag) (doc'.named tag) := by
  refine List.rel_filterMap ?_ (h.blocksOf tag)
  intro b b' hb
  show Option.Rel _ (b.name.map _) (b'.name.map _)
  rw [← hb.name_eq]
  cases b.name with
  | none => exact .none
  | some name => exact .some ⟨name, hb.line⟩

end Document.Alike

/-! ## Lines of layout -/

/-- What holds of no line of layout can be looked for among the other lines. -/
theorem filter_meaningfulLines {doc : Document} {p : Line → Bool}
    (h : ∀ line ∈ doc.lines, p line = true → line.isMeaningful = true) :
    doc.meaningfulLines.filter p = doc.lines.filter p := by
  rw [Document.meaningfulLines, List.filter_filter]
  refine List.filter_congr ?_
  intro line hline
  cases held : p line with
  | false => rfl
  | true => rw [h line hline held, Bool.and_true]

theorem find?_meaningfulLines {doc : Document} {p : Line → Bool}
    (h : ∀ line ∈ doc.lines, p line = true → line.isMeaningful = true) :
    doc.meaningfulLines.find? p = doc.lines.find? p := by
  rw [← List.head?_filter, filter_meaningfulLines h, List.head?_filter]

theorem countP_meaningfulLines {doc : Document} {p : Line → Bool}
    (h : ∀ line ∈ doc.lines, p line = true → line.isMeaningful = true) :
    doc.meaningfulLines.countP p = doc.lines.countP p := by
  rw [List.countP_eq_length_filter, filter_meaningfulLines h, ← List.countP_eq_length_filter]

theorem isMeaningful_of_startsWithBracket {line : Line} (kind : line.kind = .ofLine line.raw)
    (h : startsWithBracket line = true) : line.isMeaningful = true := by
  obtain ⟨rest, hrest⟩ := List.isPrefixOf_iff_prefix.mp h
  rw [isMeaningful_iff kind, ← hrest]
  simp

/-! ## Findings -/

/-- The same finding on corresponding lines, or about no line on both sides. -/
structure Finding.Moved (r : Nat → Nat → Prop) (f f' : Finding) : Prop where
  rule : f.rule = f'.rule
  message : f.message = f'.message
  line : Option.Rel r f.line f'.line

/-- The same findings, one for one. -/
abbrev Moved (r : Nat → Nat → Prop) : List Finding → List Finding → Prop :=
  List.Forall₂ (Finding.Moved r)

theorem moved_reportIf {c c' : Bool} {f f' : Finding} (same : c = c') (h : f.Moved r f') :
    Moved r (reportIf c f) (reportIf c' f') := by
  rw [same]
  unfold reportIf
  split
  · exact .cons h .nil
  · exact .nil

theorem moved_flatMap {α β : Type} {R : α → β → Prop} {xs : List α} {ys : List β}
    {f : α → List Finding} {g : β → List Finding} (h : List.Forall₂ R xs ys)
    (hf : ∀ x y, R x y → Moved r (f x) (g y)) : Moved r (xs.flatMap f) (ys.flatMap g) :=
  List.rel_flatMap h fun x y hxy => hf x y hxy

/-- A check of the members of a list that no document changes. -/
theorem moved_flatMap_same {α : Type} {xs : List α} {f g : α → List Finding}
    (hfg : ∀ x, Moved r (f x) (g x)) : Moved r (xs.flatMap f) (xs.flatMap g) := by
  have same : List.Forall₂ (· = ·) xs xs := List.forall₂_same.mpr fun _ _ => rfl
  refine moved_flatMap same ?_
  rintro x _ rfl
  exact hfg x

theorem moved_map {α β : Type} {R : α → β → Prop} {xs : List α} {ys : List β} {f : α → Finding}
    {g : β → Finding} (h : List.Forall₂ R xs ys) (hf : ∀ x y, R x y → (f x).Moved r (g y)) :
    Moved r (xs.map f) (ys.map g) :=
  List.rel_map (fun x y hxy => hf x y hxy) h

variable {doc doc' : Document}

/-! ## Header and layout -/

theorem firstLineFindings_moved (h : doc.Alike r doc') :
    Moved r (firstLineFindings doc) (firstLineFindings doc') := by
  have first := head?_forall₂ h.lines
  unfold firstLineFindings
  generalize doc.meaningfulLines.head? = a at first ⊢
  generalize doc'.meaningfulLines.head? = a' at first ⊢
  cases first with
  | none => exact .cons ⟨rfl, rfl, .none⟩ .nil
  | some line =>
    dsimp only
    rw [line.trimmed]
    split
    · exact .nil
    · exact .cons ⟨rfl, rfl, .some line.number⟩ (.cons ⟨rfl, rfl, .none⟩ .nil)

theorem validHeaders_alike (h : doc.Alike r doc') :
    List.Forall₂ (Line.Alike r) (validHeaders doc) (validHeaders doc') := by
  have meaningful : ∀ line : Line, (line.kind == .header true) = true →
      line.isMeaningful = true := by
    intro line kind
    rw [Line.isMeaningful, eq_of_beq kind]
    rfl
  rw [validHeaders, ← filter_meaningfulLines fun line _ => meaningful line, validHeaders,
    ← filter_meaningfulLines fun line _ => meaningful line]
  refine filter_forall₂ h.lines ?_
  intro line line' hline
  rw [hline.kind]

theorem headerFindings_moved (h : doc.Alike r doc') :
    Moved r (headerFindings doc) (headerFindings doc') := by
  have valid := validHeaders_alike h
  refine List.rel_append (firstLineFindings_moved h) (List.rel_append ?_ ?_)
  · exact moved_reportIf (isEmpty_eq_of_forall₂ valid) ⟨rfl, rfl, .none⟩
  · refine moved_map (tail_forall₂ valid) ?_
    intro line line' hline
    exact ⟨rfl, rfl, .some hline.number⟩

/-- Every line is what its text says it is, and none has a tab. -/
structure Document.Plain (doc : Document) : Prop where
  kinds : ∀ line ∈ doc.lines, line.kind = .ofLine line.raw
  untabbed : ∀ line ∈ doc.lines, hasTab line = false

theorem unknownTags_moved (h : doc.Alike r doc') :
    Moved r (doc.lines.filterMap unknownTag?) (doc'.lines.filterMap unknownTag?) := by
  -- no line of layout has a tag
  have skip : ∀ lines : List Line,
      (lines.filter Line.isMeaningful).filterMap unknownTag? = lines.filterMap unknownTag? := by
    intro lines
    rw [List.filterMap_filter]
    refine List.filterMap_congr ?_
    intro line _
    unfold Line.isMeaningful unknownTag?
    cases line.kind <;> rfl
  rw [← skip, ← skip doc'.lines]
  refine List.rel_filterMap ?_ h.lines
  intro line line' hline
  unfold unknownTag?
  rw [← hline.kind]
  cases line.kind with
  | opener tag name =>
    dsimp only
    split
    · exact .none
    · exact .some ⟨rfl, rfl, .some hline.number⟩
  | blank => exact .none
  | comment => exact .none
  | header valid => exact .none
  | closer => exact .none
  | directive name rest => exact .none
  | text => exact .none

theorem isBalanced_eq (h : doc.Alike r doc') (plain : doc.Plain) (plain' : doc'.Plain) :
    isBalanced doc = isBalanced doc' := by
  have closes : ∀ line : Line, (line.kind == .closer) = true → line.isMeaningful = true := by
    intro line kind
    rw [Line.isMeaningful, eq_of_beq kind]
    rfl
  have brackets : ∀ {doc : Document}, doc.Plain →
      ∀ line ∈ doc.lines, startsWithBracket line = true → line.isMeaningful = true :=
    fun plain line hline => isMeaningful_of_startsWithBracket (plain.kinds line hline)
  rw [isBalanced, ← countP_meaningfulLines (brackets plain),
    ← countP_meaningfulLines fun line _ => closes line, isBalanced,
    ← countP_meaningfulLines (brackets plain'),
    ← countP_meaningfulLines fun line _ => closes line]
  congr 1
  · refine countP_eq_of_forall₂ h.lines ?_
    intro line line' hline
    rw [startsWithBracket, hline.trimmed, startsWithBracket]
  · refine countP_eq_of_forall₂ h.lines ?_
    intro line line' hline
    rw [hline.kind]

theorem tabFindings_of_plain (plain : doc.Plain) :
    ((doc.lines.find? hasTab).map fun line => Finding.tab line.number).toList = [] := by
  have none : doc.lines.find? hasTab = none := by
    refine List.find?_eq_none.mpr ?_
    intro line hline
    rw [plain.untabbed line hline]
    exact Bool.false_ne_true
  rw [none]
  rfl

theorem layoutFindings_moved (h : doc.Alike r doc') (plain : doc.Plain) (plain' : doc'.Plain) :
    Moved r (layoutFindings doc) (layoutFindings doc') := by
  rw [layoutFindings, tabFindings_of_plain plain, layoutFindings, tabFindings_of_plain plain',
    isBalanced_eq h plain plain']
  refine List.rel_append (List.rel_append (unknownTags_moved h) .nil) ?_
  exact moved_reportIf rfl ⟨rfl, rfl, .none⟩

/-! ## The workspace -/

theorem workspaceCountFindings_moved {bs bs' : List Block}
    (h : List.Forall₂ (Block.Alike r) bs bs') :
    Moved r (workspaceCountFindings bs) (workspaceCountFindings bs') := by
  rcases h with _ | ⟨_, _ | ⟨second, _⟩⟩
  · exact .cons ⟨rfl, rfl, .none⟩ .nil
  · exact .nil
  · exact .cons ⟨rfl, rfl, .some second.line⟩ .nil

theorem unsetKeys_moved {b b' : Block} (h : b.Alike r b') :
    Moved r (unsetKeys b) (unsetKeys b') := by
  refine moved_flatMap_same ?_
  intro key
  refine moved_reportIf (congrArg not ?_) ⟨rfl, rfl, .some h.line⟩
  refine any_eq_of_forall₂ (h.directivesOf "set") ?_
  intro d d' hd
  exact hd.hasKeyword_eq 0 key

theorem settingFindings_moved (profiles : List String) {d d' : Directive} (h : d.Alike r d') :
    Moved r (settingFindings profiles d) (settingFindings profiles d') := by
  unfold settingFindings
  rw [← h.arg?_eq, ← h.hasKeyword_eq, ← h.hasKeyword_eq, ← h.hasKeyword_eq]
  split
  · exact .nil
  · split_ifs
    · exact moved_reportIf rfl ⟨rfl, rfl, .some h.line⟩
    · refine List.rel_append ?_ ?_
      · exact moved_reportIf rfl ⟨rfl, rfl, .some h.line⟩
      · exact moved_reportIf rfl ⟨rfl, rfl, .some h.line⟩
    · exact moved_reportIf rfl ⟨rfl, rfl, .some h.line⟩

theorem workspaceFindings_moved (h : doc.Alike r doc') :
    Moved r (workspaceFindings doc) (workspaceFindings doc') := by
  have profiles : declaredProfiles doc = declaredProfiles doc' :=
    map_fst_of_placed (h.named "profile")
  -- a profile is looked up by its name, so the lines of the profiles do not matter
  unfold workspaceFindings
  rw [profiles]
  refine List.rel_append (workspaceCountFindings_moved (h.blocksOf "workspace")) ?_
  refine moved_flatMap (h.blocksOf "workspace") ?_
  intro b b' hb
  refine List.rel_append (unsetKeys_moved hb) ?_
  refine moved_flatMap (hb.directivesOf "set") ?_
  intro d d' hd
  exact settingFindings_moved _ hd

/-! ## Tools and runs -/

theorem absences_moved (h : doc.Alike r doc') : Moved r (absences doc) (absences doc') := by
  refine List.rel_append (List.rel_append (List.rel_append ?_ ?_) ?_) ?_
  · exact moved_reportIf (isEmpty_eq_of_forall₂ (h.named "tool")) ⟨rfl, rfl, .none⟩
  · exact moved_reportIf (isEmpty_eq_of_forall₂ (h.named "bake")) ⟨rfl, rfl, .none⟩
  · exact moved_reportIf (isEmpty_eq_of_forall₂ (h.named "run")) ⟨rfl, rfl, .none⟩
  · exact moved_reportIf (isEmpty_eq_of_forall₂ (h.directivesOf "exec")) ⟨rfl, rfl, .none⟩

theorem repeatedNames_moved (h : doc.Alike r doc') :
    Moved r (repeatedNames doc) (repeatedNames doc') := by
  refine List.rel_append ?_ ?_
  · refine moved_map (repeats_placed (h.named "tool")) ?_
    rintro _ _ ⟨name, line⟩
    exact ⟨rfl, rfl, .some line⟩
  · refine moved_map (repeats_placed (h.named "bake")) ?_
    rintro _ _ ⟨name, line⟩
    exact ⟨rfl, rfl, .some line⟩

theorem idleTools_moved (h : doc.Alike r doc') : Moved r (idleTools doc) (idleTools doc') := by
  unfold idleTools
  rw [map_fst_of_placed (h.named "run")]
  refine moved_flatMap (h.named "tool") ?_
  rintro _ _ ⟨name, line⟩
  exact moved_reportIf rfl ⟨rfl, rfl, .some line⟩

theorem unknownTools_moved (h : doc.Alike r doc') :
    Moved r (unknownTools doc) (unknownTools doc') := by
  unfold unknownTools
  rw [map_fst_of_placed (h.named "tool")]
  refine moved_flatMap (h.named "run") ?_
  rintro _ _ ⟨name, line⟩
  exact moved_reportIf rfl ⟨rfl, rfl, .some line⟩

theorem presenceFindings_moved (h : doc.Alike r doc') :
    Moved r (presenceFindings doc) (presenceFindings doc') :=
  List.rel_append (List.rel_append (List.rel_append (absences_moved h) (repeatedNames_moved h))
    (idleTools_moved h)) (unknownTools_moved h)

theorem namedToolFindings_moved {b b' : Block} (h : b.Alike r b') (name : String) :
    Moved r (namedToolFindings b name) (namedToolFindings b' name) := by
  refine List.rel_append ?_ ?_
  · have first := head?_forall₂ (h.directivesOf "exec")
    generalize (b.directivesOf "exec").head? = a at first ⊢
    generalize (b'.directivesOf "exec").head? = a' at first ⊢
    cases first with
    | none => exact .cons ⟨rfl, rfl, .some h.line⟩ .nil
    | some hd =>
      dsimp only [toolNameFindings]
      rw [hd.command_eq]
      exact moved_reportIf rfl ⟨rfl, rfl, .some hd.line⟩
  · refine moved_map (h.otherDirectives namesInTool) ?_
    intro d d' hd
    rw [hd.name_eq]
    exact ⟨rfl, rfl, .some hd.line⟩

theorem commandFindings_moved {d d' : Directive} (h : d.Alike r d') :
    Moved r (commandFindings d) (commandFindings d') := by
  dsimp only [commandFindings]
  rw [h.command_eq]
  split
  · exact .cons ⟨rfl, rfl, .some h.line⟩ .nil
  · refine List.rel_append ?_ ?_
    · exact moved_reportIf rfl ⟨rfl, rfl, .some h.line⟩
    · exact moved_reportIf rfl ⟨rfl, rfl, .some h.line⟩

/-- A check of the blocks that have a name. -/
theorem moved_named {bs bs' : List Block} {check : Block → String → List Finding}
    (h : List.Forall₂ (Block.Alike r) bs bs')
    (hcheck : ∀ b b' name, b.Alike r b' → Moved r (check b name) (check b' name)) :
    Moved r (bs.flatMap fun b => (b.name.map (check b)).getD [])
      (bs'.flatMap fun b => (b.name.map (check b)).getD []) := by
  refine moved_flatMap h ?_
  intro b b' hb
  rw [← hb.name_eq]
  cases b.name with
  | none => exact .nil
  | some name => exact hcheck b b' name hb

theorem toolFindings_moved (h : doc.Alike r doc') :
    Moved r (toolFindings doc) (toolFindings doc') := by
  refine List.rel_append ?_ ?_
  · exact moved_named (h.blocksOf "tool") fun _ _ name hb => namedToolFindings_moved hb name
  · exact moved_flatMap (h.directivesOf "exec") fun _ _ hd => commandFindings_moved hd

theorem namedRunFindings_moved {b b' : Block} (h : b.Alike r b') (tool : String) :
    Moved r (namedRunFindings b tool) (namedRunFindings b' tool) := by
  dsimp only [namedRunFindings]
  rw [h.has_eq, h.has_eq, h.has_eq, h.parentTag_eq]
  refine List.rel_append (List.rel_append (List.rel_append (List.rel_append ?_ ?_) ?_) ?_) ?_
  · exact moved_reportIf rfl ⟨rfl, rfl, .some h.line⟩
  · exact moved_reportIf rfl ⟨rfl, rfl, .some h.line⟩
  · exact moved_reportIf rfl ⟨rfl, rfl, .some h.line⟩
  · refine moved_map (h.otherDirectives namesInRun) ?_
    intro d d' hd
    rw [hd.name_eq]
    exact ⟨rfl, rfl, .some hd.line⟩
  · exact moved_reportIf rfl ⟨rfl, rfl, .some h.line⟩

theorem runFindings_moved (h : doc.Alike r doc') :
    Moved r (runFindings doc) (runFindings doc') :=
  moved_named (h.blocksOf "run") fun _ _ tool hb => namedRunFindings_moved hb tool

/-! ## Bakes, outputs and sources -/

theorem outputCountFindings_moved {b b' : Block} (h : b.Alike r b') (name : String) :
    Moved r (outputCountFindings b name) (outputCountFindings b' name) := by
  unfold outputCountFindings
  rw [(h.directivesOf "output").length_eq]
  split
  · exact .cons ⟨rfl, rfl, .some h.line⟩ .nil
  · exact .nil
  · exact .cons ⟨rfl, rfl, .some h.line⟩ .nil

/-- An argument of each directive, with its line. -/
theorem placed_arg? {ds ds' : List Directive} (h : List.Forall₂ (Directive.Alike r) ds ds')
    (n : Nat) : List.Forall₂ (Placed r) (ds.filterMap fun d => (d.arg? n).map (·, d.line))
      (ds'.filterMap fun d => (d.arg? n).map (·, d.line)) := by
  refine List.rel_filterMap ?_ h
  intro d d' hd
  show Option.Rel _ ((d.arg? n).map _) ((d'.arg? n).map _)
  rw [← hd.arg?_eq]
  cases d.arg? n with
  | none => exact .none
  | some text => exact .some ⟨text, hd.line⟩

theorem namedBakeFindings_moved {b b' : Block} (h : b.Alike r b') (name : String) :
    Moved r (namedBakeFindings b name) (namedBakeFindings b' name) := by
  have runs : b.children.any (·.tag == "run") = b'.children.any (·.tag == "run") := by
    refine any_eq_of_forall₂ h.children ?_
    intro c c' hc
    rw [hc.tag_eq]
  unfold namedBakeFindings
  rw [h.has_eq, runs]
  refine List.rel_append (List.rel_append (List.rel_append (List.rel_append (List.rel_append
    ?_ ?_) ?_) ?_) ?_) ?_
  · exact moved_reportIf rfl ⟨rfl, rfl, .some h.line⟩
  · exact moved_reportIf rfl ⟨rfl, rfl, .some h.line⟩
  · exact outputCountFindings_moved h name
  · exact moved_reportIf rfl ⟨rfl, rfl, .some h.line⟩
  · refine moved_map (h.otherDirectives namesInBake) ?_
    intro d d' hd
    rw [hd.name_eq]
    exact ⟨rfl, rfl, .some hd.line⟩
  · refine moved_map (repeats_placed (placed_arg? (h.directivesOf "make") 0)) ?_
    rintro _ _ ⟨id, line⟩
    exact ⟨rfl, rfl, .some line⟩

theorem bakeFindings_moved (h : doc.Alike r doc') :
    Moved r (bakeFindings doc) (bakeFindings doc') :=
  moved_named (h.blocksOf "bake") fun _ _ name hb => namedBakeFindings_moved hb name

theorem outputFindings_moved (h : doc.Alike r doc') :
    Moved r (outputFindings doc) (outputFindings doc') := by
  have paths := placed_arg? (h.directivesOf "output") 1
  refine moved_flatMap (markRepeatsAfter_placed paths []) ?_
  rintro ⟨_, isRepeat⟩ ⟨_, _⟩ ⟨⟨path, line⟩, rfl⟩
  refine List.rel_append (List.rel_append (List.rel_append ?_ ?_) ?_) ?_
  · exact moved_reportIf rfl ⟨rfl, rfl, .some line⟩
  · exact moved_reportIf rfl ⟨rfl, rfl, .some line⟩
  · exact moved_reportIf rfl ⟨rfl, rfl, .some line⟩
  · exact moved_reportIf rfl ⟨rfl, rfl, .some line⟩

theorem hasBarePattern_eq {d d' : Directive} (h : d.Alike r d') :
    hasBarePattern d = hasBarePattern d' := by
  rw [hasBarePattern, h.args_eq, hasBarePattern]

theorem hasEmptyPattern_eq {d d' : Directive} (h : d.Alike r d') :
    hasEmptyPattern d = hasEmptyPattern d' := by
  rw [hasEmptyPattern, h.args_eq, hasEmptyPattern]

theorem patternFindings_moved (paired : Paired r) {first first' : Option Nat}
    (hfirst : Option.Rel r first first') {d d' : Directive} (h : d.Alike r d') :
    Moved r (patternFindings first d) (patternFindings first' d') := by
  -- the first bare source is this one on one side exactly if it is on the other
  have isFirst : (first == some d.line) = (first' == some d'.line) := by
    cases hfirst with
    | none => rfl
    | some line =>
      rw [Bool.eq_iff_iff, beq_iff_eq, beq_iff_eq, Option.some.injEq, Option.some.injEq]
      exact paired line h.line
  unfold patternFindings
  rw [← h.arg?_eq, hasBarePattern_eq h, hasEmptyPattern_eq h, isFirst]
  refine List.rel_append (List.rel_append ?_ ?_) ?_
  · split
    · exact .nil
    · exact moved_reportIf rfl ⟨rfl, rfl, .some h.line⟩
  · exact moved_reportIf rfl ⟨rfl, rfl, .some h.line⟩
  · exact moved_reportIf rfl ⟨rfl, rfl, .some h.line⟩

theorem sourceFindings_moved (paired : Paired r) (h : doc.Alike r doc') :
    Moved r (sourceFindings doc) (sourceFindings doc') := by
  have makes := h.directivesOf "make"
  have bare := find?_forall₂ makes fun _ _ hd => hasBarePattern_eq hd
  have first : Option.Rel r (((doc.directivesOf "make").find? hasBarePattern).map Directive.line)
      (((doc'.directivesOf "make").find? hasBarePattern).map Directive.line) :=
    map_optionRel bare fun _ _ hd => hd.line
  exact moved_flatMap makes fun _ _ hd => patternFindings_moved paired first hd

/-! ## References -/

theorem mentioned_eq {ds ds' : List Directive} (h : List.Forall₂ (Directive.Alike r) ds ds') :
    mentioned ds = mentioned ds' := by
  refine eq_of_forall₂ (List.rel_flatMap h ?_)
  intro d d' hd
  show List.Forall₂ _ (d.args.map _) (d'.args.map _)
  rw [hd.args_eq]
  exact List.forall₂_same.mpr fun _ _ => rfl

theorem unusedBakes_moved (h : doc.Alike r doc') :
    Moved r (unusedBakes doc) (unusedBakes doc') := by
  have names := mentioned_eq (List.rel_append (h.directivesOf "ref") (h.directivesOf "needs"))
  unfold unusedBakes
  rw [names]
  refine moved_flatMap (h.named "bake") ?_
  rintro _ _ ⟨name, line⟩
  exact moved_reportIf rfl ⟨rfl, rfl, .some line⟩

theorem hasExport_eq (h : doc.Alike r doc') : hasExport doc = hasExport doc' := by
  refine any_eq_of_forall₂ (h.blocksOf "export") ?_
  intro b b' hb
  refine any_eq_of_forall₂ (hb.directivesOf "ref") ?_
  intro d d' hd
  rw [hd.args_eq]

theorem exportFindings_moved (h : doc.Alike r doc') :
    Moved r (exportFindings doc) (exportFindings doc') := by
  have meaningful : ∀ line : Line, isHeader line = true → line.isMeaningful = true := by
    intro line
    unfold isHeader Line.isMeaningful
    cases line.kind <;> simp
  have header : Option.Rel (Line.Alike r) (doc.lines.find? isHeader)
      (doc'.lines.find? isHeader) := by
    rw [← find?_meaningfulLines fun line _ => meaningful line,
      ← find?_meaningfulLines fun line _ => meaningful line]
    refine find?_forall₂ h.lines ?_
    intro line line' hline
    rw [isHeader, hline.kind, isHeader]
  refine moved_reportIf (congrArg not (hasExport_eq h)) ⟨rfl, rfl, ?_⟩
  exact map_optionRel header fun _ _ line => line.number

theorem unknownTargets_moved (bakes : List String) {found : String → Nat → Finding}
    (hfound : ∀ target n n', r n n' → (found target n).Moved r (found target n'))
    {ds ds' : List Directive} (h : List.Forall₂ (Directive.Alike r) ds ds') :
    Moved r (unknownTargets bakes found ds) (unknownTargets bakes found ds') := by
  refine moved_flatMap h ?_
  intro d d' hd
  rw [hd.args_eq]
  refine moved_flatMap_same ?_
  intro target
  exact moved_reportIf rfl (hfound target.text _ _ hd.line)

theorem referenceFindings_moved (h : doc.Alike r doc') :
    Moved r (referenceFindings doc) (referenceFindings doc') := by
  unfold referenceFindings
  rw [map_fst_of_placed (h.named "bake")]
  refine List.rel_append (List.rel_append (List.rel_append (unusedBakes_moved h)
    (exportFindings_moved h)) ?_) ?_
  · refine unknownTargets_moved _ ?_ (h.directivesOf "ref")
    intro target n n' line
    exact ⟨rfl, rfl, .some line⟩
  · refine unknownTargets_moved _ ?_ (h.directivesOf "needs")
    intro target n n' line
    exact ⟨rfl, rfl, .some line⟩

/-! ## Inputs and outputs by name -/

theorem moved_argument {argument : Option String} {check check' : String → List Finding}
    (h : ∀ text, Moved r (check text) (check' text)) :
    Moved r (argumentFindings argument check) (argumentFindings argument check') := by
  cases argument with
  | none => exact .nil
  | some text => exact h text

theorem inputFindings_moved (ids : List String) {d d' : Directive} (h : d.Alike r d') :
    Moved r (inputFindings ids d) (inputFindings ids d') := by
  unfold inputFindings
  rw [h.arg?_eq, h.arg?_eq]
  refine List.rel_append (moved_argument ?_) (moved_argument ?_)
  · intro id
    exact moved_reportIf rfl ⟨rfl, rfl, .some h.line⟩
  · intro flag
    exact moved_reportIf rfl ⟨rfl, rfl, .some h.line⟩

theorem resultFindings_moved (outputs : List String) {d d' : Directive} (h : d.Alike r d') :
    Moved r (resultFindings outputs d) (resultFindings outputs d') := by
  unfold resultFindings
  rw [h.arg?_eq, h.arg?_eq]
  refine List.rel_append (moved_argument ?_) (moved_argument ?_)
  · intro output
    exact moved_reportIf rfl ⟨rfl, rfl, .some h.line⟩
  · intro flag
    exact moved_reportIf rfl ⟨rfl, rfl, .some h.line⟩

theorem firstArguments_eq {ds ds' : List Directive} (h : List.Forall₂ (Directive.Alike r) ds ds') :
    firstArguments ds = firstArguments ds' := by
  refine eq_of_forall₂ (List.rel_filterMap ?_ h)
  intro d d' hd
  show Option.Rel _ (d.arg? 0) (d'.arg? 0)
  rw [← hd.arg?_eq]
  cases d.arg? 0 with
  | none => exact .none
  | some text => exact .some rfl

theorem renamesAmong_alike {ds ds' : List Directive} (h : List.Forall₂ (Directive.Alike r) ds ds') :
    List.Forall₂ (Directive.Alike r) (renamesAmong ds) (renamesAmong ds') :=
  filter_forall₂ h fun _ _ hd => hd.hasKeyword_eq 1 "as"

theorem renamingFindings_moved (h : doc.Alike r doc') :
    Moved r (renamingFindings doc) (renamingFindings doc') := by
  have outputs := h.directivesOf "output"
  have emits := h.directivesOf "emits"
  dsimp only [renamingFindings]
  rw [firstArguments_eq (h.directivesOf "make"), firstArguments_eq outputs,
    isEmpty_eq_of_forall₂ outputs, isEmpty_eq_of_forall₂ emits]
  refine List.rel_append (List.rel_append ?_ ?_) ?_
  · exact moved_flatMap (renamesAmong_alike (h.directivesOf "takes")) fun _ _ hd =>
      inputFindings_moved _ hd
  · exact moved_flatMap (renamesAmong_alike emits) fun _ _ hd => resultFindings_moved _ hd
  · exact moved_reportIf rfl ⟨rfl, rfl, .none⟩

/-! ## All checks -/

/-- All checks but the last look at what alike documents have in common. -/
theorem documentFindings_moved_of_layout (paired : Paired r) (h : doc.Alike r doc')
    (layout : Moved r (layoutFindings doc) (layoutFindings doc')) :
    Moved r (documentFindings doc) (documentFindings doc') := by
  unfold documentFindings
  refine List.rel_append ?_ layout
  refine List.rel_append ?_ (renamingFindings_moved h)
  refine List.rel_append ?_ (sourceFindings_moved paired h)
  refine List.rel_append ?_ (referenceFindings_moved h)
  refine List.rel_append ?_ (runFindings_moved h)
  refine List.rel_append ?_ (toolFindings_moved h)
  refine List.rel_append ?_ (outputFindings_moved h)
  refine List.rel_append ?_ (bakeFindings_moved h)
  refine List.rel_append ?_ (presenceFindings_moved h)
  exact List.rel_append (headerFindings_moved h) (workspaceFindings_moved h)

/-- **Alike documents have the same findings, one for one, on corresponding lines.** -/
theorem documentFindings_moved (paired : Paired r) (h : doc.Alike r doc') (plain : doc.Plain)
    (plain' : doc'.Plain) : Moved r (documentFindings doc) (documentFindings doc') :=
  documentFindings_moved_of_layout paired h (layoutFindings_moved h plain plain')

end LiveLint.Buildconf
