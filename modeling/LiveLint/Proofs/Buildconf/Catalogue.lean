import LiveLint.Buildconf.Check

/-!
# Which check speaks for a rule

The findings of a document are one list, made by many checks. This file cuts that list into pieces,
one for each check, and gives for every rule the piece that speaks for it (`Rule.check`). So what is
reported under a rule is found by looking at one piece (`ofRule_documentFindings`), and a document
without findings is one in which every piece is silent (`documentFindings_eq_nil_iff`).
-/

namespace LiveLint.Buildconf

/-! ## The checks -/

/-- The pieces of the findings, in their order. -/
inductive Check
  | header
  | workspace
  | absences
  | repeatedNames
  | idleTools
  | unknownTools
  | bakes
  | outputs
  | tools
  | runs
  | unusedBakes
  | exports
  | refs
  | needs
  | sources
  | inputs
  | results
  | emission
  | layout
deriving DecidableEq, Repr

namespace Check

/-- The checks in their order. -/
def all : List Check :=
  [header, workspace, absences, repeatedNames, idleTools, unknownTools, bakes, outputs, tools,
   runs, unusedBakes, exports, refs, needs, sources, inputs, results, emission, layout]

/-- What a check finds in a document. -/
def findings (doc : Document) : Check → List Finding
  | header => headerFindings doc
  | workspace => workspaceFindings doc
  | absences => Buildconf.absences doc
  | repeatedNames => Buildconf.repeatedNames doc
  | idleTools => Buildconf.idleTools doc
  | unknownTools => Buildconf.unknownTools doc
  | bakes => bakeFindings doc
  | outputs => outputFindings doc
  | tools => toolFindings doc
  | runs => runFindings doc
  | unusedBakes => Buildconf.unusedBakes doc
  | exports => exportFindings doc
  | refs => unknownTargets ((doc.named "bake").map (·.1)) .unknownRef (doc.directivesOf "ref")
  | needs => unknownTargets ((doc.named "bake").map (·.1)) .unknownNeed (doc.directivesOf "needs")
  | sources => sourceFindings doc
  | inputs =>
    (renamesAmong (doc.directivesOf "takes")).flatMap
      (inputFindings (firstArguments (doc.directivesOf "make")))
  | results =>
    (renamesAmong (doc.directivesOf "emits")).flatMap
      (resultFindings (firstArguments (doc.directivesOf "output")))
  | emission =>
    reportIf (!(doc.directivesOf "output").isEmpty && (doc.directivesOf "emits").isEmpty)
      .outputsNotEmitted
  | layout => layoutFindings doc

theorem mem_all (c : Check) : c ∈ all := by
  cases c <;> decide

theorem nodup_all : all.Nodup := by
  decide

end Check

/-- The check that speaks for a rule. -/
def Rule.check : Rule → Check
  | misplacedHeader | noHeader | noValidHeader | repeatedHeader => .header
  | noWorkspace | secondWorkspace | unsetKey | unusualRoot | unusualTargetDir
  | absoluteTargetDir | unknownProfile => .workspace
  | noTool | noBake | noRun | noCommand => .absences
  | repeatedTool | repeatedBake => .repeatedNames
  | idleTool => .idleTools
  | unknownTool => .unknownTools
  | bakeLacksSource | bakeLacksRun | bakeLacksOutput | manyOutputs | oddBakeDirective
  | oddBakeName | repeatedSource => .bakes
  | strayOutput | outputLacksExtension | blankInOutput | repeatedOutput => .outputs
  | toolLacksCommand | misnamedTool | oddToolDirective | emptyCommand | spacedCommand
  | relativeCommand => .tools
  | runLacksFiles | runLacksResult | runLacksFlags | oddRunDirective | looseRun => .runs
  | unusedBake => .unusedBakes
  | nothingExported => .exports
  | unknownRef => .refs
  | unknownNeed => .needs
  | unknownSourceKind | emptySource | bareSource => .sources
  | unknownInput | oddInputFlag => .inputs
  | unknownOutput | oddOutputFlag => .results
  | outputsNotEmitted => .emission
  | tab | unknownTag | unbalanced => .layout

/-- The findings are those of the checks, one check after the other. -/
theorem documentFindings_eq_flatMap (doc : Document) :
    documentFindings doc = Check.all.flatMap (Check.findings doc) := by
  simp [documentFindings, presenceFindings, referenceFindings, renamingFindings, Check.all,
    Check.findings]

theorem documentFindings_eq_nil_iff {doc : Document} :
    documentFindings doc = [] ↔ ∀ c : Check, c.findings doc = [] := by
  rw [documentFindings_eq_flatMap, List.flatMap_eq_nil_iff]
  exact ⟨fun h c => h c (Check.mem_all c), fun h c _ => h c⟩

/-! ## A check speaks for its own rules -/

/-- Every finding is by a rule that the check speaks for. -/
def Speaks (c : Check) (found : List Finding) : Prop :=
  ∀ f ∈ found, f.rule.check = c

section Speaks

variable {c : Check} {f : Finding} {found more : List Finding} {α : Type}

@[simp] theorem speaks_nil : Speaks c [] := by
  simp [Speaks]

@[simp] theorem speaks_singleton : Speaks c [f] ↔ f.rule.check = c := by
  simp [Speaks]

@[simp] theorem speaks_append :
    Speaks c (found ++ more) ↔ Speaks c found ∧ Speaks c more :=
  List.forall_mem_append

theorem speaks_reportIf (b : Bool) (h : f.rule.check = c) : Speaks c (reportIf b f) := by
  intro g hg
  rw [(mem_reportIf.mp hg).2]
  exact h

theorem speaks_map {g : α → Finding} (xs : List α) (h : ∀ x, (g x).rule.check = c) :
    Speaks c (xs.map g) := by
  intro f hf
  obtain ⟨x, _, rfl⟩ := List.mem_map.mp hf
  exact h x

theorem speaks_flatMap {g : α → List Finding} (xs : List α) (h : ∀ x, Speaks c (g x)) :
    Speaks c (xs.flatMap g) := by
  intro f hf
  obtain ⟨x, _, hfx⟩ := List.mem_flatMap.mp hf
  exact h x f hfx

theorem speaks_getD_map {g : α → List Finding} (o : Option α) (h : ∀ x, Speaks c (g x)) :
    Speaks c ((o.map g).getD []) := by
  cases o with
  | none => exact speaks_nil
  | some x => exact h x

end Speaks

section Own

variable (doc : Document)

theorem speaks_header : Speaks .header (headerFindings doc) := by
  rw [headerFindings, headerCountFindings, speaks_append, speaks_append]
  refine ⟨?_, speaks_reportIf _ rfl, speaks_map _ fun _ => rfl⟩
  unfold firstLineFindings
  split
  · exact speaks_singleton.mpr rfl
  · split
    · exact speaks_nil
    · exact List.forall_mem_cons.mpr ⟨rfl, speaks_singleton.mpr rfl⟩

theorem speaks_settings (profiles : List String) (set : Directive) :
    Speaks .workspace (settingFindings profiles set) := by
  unfold settingFindings
  split
  · exact speaks_nil
  · split
    · exact speaks_reportIf _ rfl
    · split
      · exact speaks_append.mpr ⟨speaks_reportIf _ rfl, speaks_reportIf _ rfl⟩
      · exact speaks_reportIf _ rfl

theorem speaks_workspace : Speaks .workspace (workspaceFindings doc) := by
  refine speaks_append.mpr ⟨?_, speaks_flatMap _ fun workspace => speaks_append.mpr ⟨?_, ?_⟩⟩
  · unfold workspaceCountFindings
    split
    · exact speaks_singleton.mpr rfl
    · exact speaks_nil
    · exact speaks_singleton.mpr rfl
  · exact speaks_flatMap _ fun key => speaks_reportIf _ rfl
  · exact speaks_flatMap _ fun set => speaks_settings _ set

theorem speaks_absences : Speaks .absences (absences doc) := by
  simp only [absences, speaks_append]
  exact ⟨⟨⟨speaks_reportIf _ rfl, speaks_reportIf _ rfl⟩, speaks_reportIf _ rfl⟩,
    speaks_reportIf _ rfl⟩

theorem speaks_repeatedNames : Speaks .repeatedNames (repeatedNames doc) :=
  speaks_append.mpr ⟨speaks_map _ fun _ => rfl, speaks_map _ fun _ => rfl⟩

theorem speaks_outputCount (bake : Block) (name : String) :
    Speaks .bakes (outputCountFindings bake name) := by
  unfold outputCountFindings
  split
  · exact speaks_singleton.mpr rfl
  · exact speaks_nil
  · exact speaks_singleton.mpr rfl

theorem speaks_bakes : Speaks .bakes (bakeFindings doc) := by
  refine speaks_flatMap _ fun bake => speaks_getD_map _ fun name => ?_
  simp only [namedBakeFindings, speaks_append]
  exact ⟨⟨⟨⟨⟨speaks_reportIf _ rfl, speaks_reportIf _ rfl⟩, speaks_outputCount bake name⟩,
    speaks_reportIf _ rfl⟩, speaks_map _ fun _ => rfl⟩, speaks_map _ fun _ => rfl⟩

theorem speaks_outputs : Speaks .outputs (outputFindings doc) := by
  refine speaks_flatMap _ fun output => ?_
  simp only [pathFindings, speaks_append]
  exact ⟨⟨⟨speaks_reportIf _ rfl, speaks_reportIf _ rfl⟩, speaks_reportIf _ rfl⟩,
    speaks_reportIf _ rfl⟩

theorem speaks_namedTool (tool : Block) (name : String) :
    Speaks .tools (namedToolFindings tool name) := by
  refine speaks_append.mpr ⟨?_, speaks_map _ fun _ => rfl⟩
  split
  · exact speaks_singleton.mpr rfl
  · exact speaks_reportIf _ rfl

theorem speaks_command (exec : Directive) : Speaks .tools (commandFindings exec) := by
  rw [commandFindings]
  split
  · exact speaks_singleton.mpr rfl
  · exact speaks_append.mpr ⟨speaks_reportIf _ rfl, speaks_reportIf _ rfl⟩

theorem speaks_tools : Speaks .tools (toolFindings doc) :=
  speaks_append.mpr
    ⟨speaks_flatMap _ fun tool => speaks_getD_map _ fun name => speaks_namedTool tool name,
     speaks_flatMap _ speaks_command⟩

theorem speaks_runs : Speaks .runs (runFindings doc) := by
  refine speaks_flatMap _ fun run => speaks_getD_map _ fun tool => ?_
  simp only [namedRunFindings, speaks_append]
  exact ⟨⟨⟨⟨speaks_reportIf _ rfl, speaks_reportIf _ rfl⟩, speaks_reportIf _ rfl⟩,
    speaks_map _ fun _ => rfl⟩, speaks_reportIf _ rfl⟩

theorem speaks_sources : Speaks .sources (sourceFindings doc) := by
  refine speaks_flatMap _ fun make => ?_
  simp only [patternFindings, speaks_append]
  refine ⟨⟨?_, speaks_reportIf _ rfl⟩, speaks_reportIf _ rfl⟩
  split
  · exact speaks_nil
  · exact speaks_reportIf _ rfl

theorem speaks_layout : Speaks .layout (layoutFindings doc) := by
  simp only [layoutFindings, speaks_append]
  refine ⟨⟨?_, ?_⟩, speaks_reportIf _ rfl⟩
  · intro f hf
    obtain ⟨line, _, unknown⟩ := List.mem_filterMap.mp hf
    unfold unknownTag? at unknown
    split at unknown
    · split at unknown <;> cases unknown
      rfl
    · cases unknown
  · cases doc.lines.find? hasTab with
    | none => exact speaks_nil
    | some line => exact speaks_singleton.mpr rfl

/-- A check reports under its own rules only. -/
theorem speaks_check (c : Check) : Speaks c (c.findings doc) := by
  cases c with
  | header => exact speaks_header doc
  | workspace => exact speaks_workspace doc
  | absences => exact speaks_absences doc
  | repeatedNames => exact speaks_repeatedNames doc
  | idleTools => exact speaks_flatMap _ fun _ => speaks_reportIf _ rfl
  | unknownTools => exact speaks_flatMap _ fun _ => speaks_reportIf _ rfl
  | bakes => exact speaks_bakes doc
  | outputs => exact speaks_outputs doc
  | tools => exact speaks_tools doc
  | runs => exact speaks_runs doc
  | unusedBakes => exact speaks_flatMap _ fun _ => speaks_reportIf _ rfl
  | exports => exact speaks_reportIf _ rfl
  | refs => exact speaks_flatMap _ fun _ => speaks_flatMap _ fun _ => speaks_reportIf _ rfl
  | needs => exact speaks_flatMap _ fun _ => speaks_flatMap _ fun _ => speaks_reportIf _ rfl
  | sources => exact speaks_sources doc
  | inputs =>
    exact speaks_flatMap _ fun takes => speaks_append.mpr
      ⟨speaks_getD_map _ fun _ => speaks_reportIf _ rfl,
       speaks_getD_map _ fun _ => speaks_reportIf _ rfl⟩
  | results =>
    exact speaks_flatMap _ fun emits => speaks_append.mpr
      ⟨speaks_getD_map _ fun _ => speaks_reportIf _ rfl,
       speaks_getD_map _ fun _ => speaks_reportIf _ rfl⟩
  | emission => exact speaks_reportIf _ rfl
  | layout => exact speaks_layout doc

end Own

/-! ## What is reported under a rule -/

/-- The findings of a rule among given ones. -/
def ofRule (rule : Rule) (found : List Finding) : List Finding :=
  found.filter (·.rule == rule)

theorem ofRule_append (rule : Rule) (found more : List Finding) :
    ofRule rule (found ++ more) = ofRule rule found ++ ofRule rule more :=
  List.filter_append found more

/-- A check is silent about the rules of others. -/
theorem ofRule_of_speaks {c : Check} {rule : Rule} {found : List Finding} (h : Speaks c found)
    (other : rule.check ≠ c) : ofRule rule found = [] := by
  rw [ofRule, List.filter_eq_nil_iff]
  intro f hf same
  refine other ?_
  rw [← eq_of_beq same]
  exact h f hf

/-- **What is reported under a rule is what its check reports under it.** -/
theorem ofRule_documentFindings (doc : Document) (rule : Rule) :
    ofRule rule (documentFindings doc) = ofRule rule (rule.check.findings doc) := by
  -- the check of the rule stands at one place only, and whatever is around it is silent
  obtain ⟨before, after, cut⟩ := List.append_of_mem (Check.mem_all rule.check)
  have nodup := Check.nodup_all
  rw [cut, List.nodup_append] at nodup
  obtain ⟨_, later, earlier⟩ := nodup
  have silent : ∀ others : List Check, rule.check ∉ others →
      others.flatMap (fun c => ofRule rule (c.findings doc)) = [] := by
    intro others absent
    rw [List.flatMap_eq_nil_iff]
    intro c hc
    refine ofRule_of_speaks (speaks_check doc c) ?_
    rintro rfl
    exact absent hc
  have ahead : rule.check ∉ before := fun h => earlier _ h _ List.mem_cons_self rfl
  have behind : rule.check ∉ after := (List.nodup_cons.mp later).1
  calc ofRule rule (documentFindings doc)
      = Check.all.flatMap (fun c => ofRule rule (c.findings doc)) := by
        rw [documentFindings_eq_flatMap, ofRule, List.filter_flatMap]
        rfl
    _ = ofRule rule (rule.check.findings doc) := by
        rw [cut, List.flatMap_append, List.flatMap_cons, silent before ahead, silent after behind,
          List.nil_append, List.append_nil]

end LiveLint.Buildconf
