import LiveLint.Proofs.Buildconf.Face

/-!
# When nothing is found

`Clean` says of a list of faces what the checks want of a document: one workspace with its four
settings, tools and runs that fit each other, bakes that are made, run, put out and mentioned. A
document that shows clean faces has no findings but those about its header and its layout
(`findings_eq_nil`). The proof goes check by check, and each needs only the part of `Clean` that
stands for it.
-/

namespace LiveLint

theorem Text.afterLast_of_not_mem {sep : Char} {cs : List Char} (h : sep ∉ cs) :
    afterLast sep cs = cs := by
  have other : ∀ c ∈ cs.reverse, (c != sep) = true := by
    intro c hc
    refine bne_iff_ne.mpr ?_
    rintro rfl
    exact h (List.mem_reverse.mp hc)
  have all : (cs.reverse ++ []).takeWhile (· != sep) = cs.reverse :=
    takeWhile_append_stop other (by simp)
  rw [List.append_nil] at all
  rw [afterLast, all, List.reverse_reverse]

namespace Buildconf

/-! ## What is asked of arguments -/

/-- The settings are those of a workspace, with the recommended values. -/
structure CleanSettings (profiles : List String) (settings : List (List Argument)) : Prop where
  keys : ∀ key ∈ requiredKeys, ∃ args ∈ settings, isKeyword args 0 key = true
  root : ∀ args ∈ settings, isKeyword args 0 "root" = true → argText args 1 = some "."
  targetDir : ∀ args ∈ settings, isKeyword args 0 "target_dir" = true →
    argText args 1 = some "target"
  profile : ∀ args ∈ settings, isKeyword args 0 "profile" = true →
    ∀ profile ∈ argText args 1, profile ∈ profiles

/-- A bake is complete, and its sources have different ids. -/
structure CleanBake (f : Face) (name : String) : Prop where
  made : argsAmong "make" f.sayings ≠ []
  run : "run" ∈ f.inner
  output : (argsAmong "output" f.sayings).length = 1
  snakeCase : isSnakeCase name = true
  known : ∀ s ∈ f.sayings, s.name ∈ namesInBake
  once : ((argsAmong "make" f.sayings).filterMap (argText · 0)).Nodup

/-- An output has a place and an extension. -/
structure CleanPath (path : String) : Prop where
  inDirectory : outputDirectory.toList <+: path.toList
  extension : hasExtension path.toList = true
  solid : ∀ c ∈ path.toList, Text.isBlank c = false

/-- A command is one plain word. -/
def CleanCommand (args : List Argument) : Prop :=
  ∃ word, args = [word] ∧ isIdentifier word.text.toList = true

/-- A tool is called like its command. -/
structure CleanTool (f : Face) (name : String) : Prop where
  command : ∃ word, argsAmong "exec" f.sayings = [[word]] ∧ word.text = name ∧
    isIdentifier name.toList = true
  known : ∀ s ∈ f.sayings, s.name ∈ namesInTool

/-- A run emits something, sets its flags, and stands in a bake. -/
structure CleanRun (f : Face) : Prop where
  emits : argsAmong "emits" f.sayings ≠ []
  flags : argsAmong "set" f.sayings ≠ []
  known : ∀ s ∈ f.sayings, s.name ∈ namesInRun
  inBake : f.parentTag = some "bake"

/-- A source has a known kind and a quoted pattern that says something. -/
structure CleanSource (args : List Argument) : Prop where
  kind : ∀ kind ∈ argText args 1, kind ∈ sourceKinds
  pattern : ∃ a, args[2]? = some a ∧ a.quoted = true ∧ Text.isAllBlank a.text.toList = false

/-- Everything is as the checks want it. -/
structure Clean (faces : List Face) : Prop where
  workspace : ∃ f, faces.filter (·.tag == "workspace") = [f] ∧
    CleanSettings (namesAmong "profile" faces) (argsAmong "set" f.sayings)
  someTool : namesAmong "tool" faces ≠ []
  someBake : namesAmong "bake" faces ≠ []
  someRun : namesAmong "run" faces ≠ []
  someCommand : said faces "exec" ≠ []
  toolsOnce : (namesAmong "tool" faces).Nodup
  bakesOnce : (namesAmong "bake" faces).Nodup
  toolsUsed : namesAmong "tool" faces ⊆ namesAmong "run" faces
  toolsKnown : namesAmong "run" faces ⊆ namesAmong "tool" faces
  bakes : ∀ f ∈ faces, f.tag = "bake" → ∀ name ∈ f.name, CleanBake f name
  outputs : ∀ args ∈ said faces "output", ∀ path ∈ argText args 1, CleanPath path
  outputsOnce : ((said faces "output").filterMap (argText · 1)).Nodup
  tools : ∀ f ∈ faces, f.tag = "tool" → ∀ name ∈ f.name, CleanTool f name
  commands : ∀ args ∈ said faces "exec", CleanCommand args
  runs : ∀ f ∈ faces, f.tag = "run" → f.name ≠ none → CleanRun f
  bakesUsed : ∀ name ∈ namesAmong "bake" faces,
    ∃ args ∈ said faces "ref" ++ said faces "needs", ∃ a ∈ args, a.text = name
  exported : ∃ f ∈ faces, f.tag = "export" ∧ ∃ args ∈ argsAmong "ref" f.sayings, args ≠ []
  refs : ∀ args ∈ said faces "ref", ∀ a ∈ args, a.text ∈ namesAmong "bake" faces
  needs : ∀ args ∈ said faces "needs", ∀ a ∈ args, a.text ∈ namesAmong "bake" faces
  sources : ∀ args ∈ said faces "make", CleanSource args
  inputs : ∀ args ∈ said faces "takes", isKeyword args 1 "as" = true →
    (∀ id ∈ argText args 0, ∃ made ∈ said faces "make", argText made 0 = some id) ∧
    ∀ flag ∈ argText args 2, looksLikeFlag flag = true ∨ flag = "@args"
  results : ∀ args ∈ said faces "emits", isKeyword args 1 "as" = true →
    (∀ id ∈ argText args 0, ∃ out ∈ said faces "output", argText out 0 = some id) ∧
    ∀ flag ∈ argText args 2, looksLikeFlag flag = true
  emitted : said faces "output" ≠ [] → said faces "emits" ≠ []

/-! ## Tests and repeats that find nothing -/

theorem reportIf_eq_nil {b : Bool} {f : Finding} (h : b = false) : reportIf b f = [] := by
  rw [h]
  rfl

theorem getD_map_eq_nil {α : Type} {o : Option α} {g : α → List Finding}
    (h : ∀ x ∈ o, g x = []) : (o.map g).getD [] = [] := by
  cases o with
  | none => rfl
  | some x => exact h x rfl

/-- Where all keys differ, no mark is set. -/
theorem markRepeatsAfter_of_nodup {α : Type} {key : α → String} {xs : List α} {seen : List String}
    (nodup : (xs.map key).Nodup) (fresh : ∀ x ∈ xs, key x ∉ seen) :
    ∀ marked ∈ markRepeatsAfter key seen xs, marked.2 = false := by
  induction xs generalizing seen with
  | nil => exact List.forall_mem_nil _
  | cons x xs ih =>
    rw [List.map_cons, List.nodup_cons] at nodup
    rw [List.forall_mem_cons] at fresh
    refine List.forall_mem_cons.mpr ⟨by simpa using fresh.1, ih nodup.2 ?_⟩
    intro y hy hseen
    rcases List.mem_cons.mp hseen with same | hseen
    · exact nodup.1 (same ▸ List.mem_map_of_mem hy)
    · exact fresh.2 y hy hseen

theorem markRepeats_of_nodup {α : Type} {key : α → String} {xs : List α}
    (nodup : (xs.map key).Nodup) : ∀ marked ∈ markRepeats key xs, marked.2 = false :=
  markRepeatsAfter_of_nodup nodup fun _ _ => List.not_mem_nil

theorem repeats_of_nodup {α : Type} {key : α → String} {xs : List α}
    (nodup : (xs.map key).Nodup) : repeats key xs = [] := by
  rw [repeats, List.map_eq_nil_iff, List.filter_eq_nil_iff]
  intro marked hmarked
  rw [markRepeats_of_nodup nodup marked hmarked]
  exact Bool.false_ne_true

/-! ## One bake, tool, run, output or source -/

theorem namedBakeFindings_eq_nil {bake : Block} {name : String}
    (ok : CleanBake bake.face name) : namedBakeFindings bake name = [] := by
  have made : bake.has "make" = true := (has_of_face rfl "make").mpr ok.made
  have run : bake.children.any (·.tag == "run") = true := by
    rw [any_tag_children rfl]
    simpa using ok.run
  have count : (bake.directivesOf "output").length = 1 := by
    rw [← ok.output, ← map_args_directivesOf rfl, List.length_map]
  have once : ((sourceIds (bake.directivesOf "make")).map (·.1)).Nodup := by
    have ids : (sourceIds (bake.directivesOf "make")).map (·.1) =
        (argsAmong "make" bake.face.sayings).filterMap (argText · 0) := by
      rw [sourceIds, List.map_filterMap, ← map_args_directivesOf rfl, List.filterMap_map]
      refine List.filterMap_congr fun d _ => ?_
      rw [Option.map_map]
      exact Option.map_id'
    rw [ids]
    exact ok.once
  rw [namedBakeFindings, outputCountFindings, count, otherDirectives_eq_nil rfl ok.known,
    repeats_of_nodup once]
  simp [made, run, ok.snakeCase, reportIf]

theorem pathFindings_eq_nil {path : String} (ok : CleanPath path) (line : Nat) :
    pathFindings path line false = [] := by
  have inDirectory := List.isPrefixOf_iff_prefix.mpr ok.inDirectory
  have solid : path.toList.any Text.isBlank = false := by
    simpa using ok.solid
  simp only [pathFindings, inDirectory, ok.extension, solid]
  rfl

/-- A plain word is trimmed, and there is no slash in it. -/
theorem command_eq {exec : Directive} {word : Argument} (args : exec.args = [word])
    (ok : isIdentifier word.text.toList = true) : exec.command = word.text.toList := by
  have text : (String.intercalate " " (exec.args.map Argument.text)).toList = word.text.toList := by
    rw [args]
    rfl
  rw [Directive.command, text, (trimmed_of_isIdentifier ok).trim_eq]

theorem commandFindings_eq_nil {exec : Directive} (ok : CleanCommand exec.args) :
    commandFindings exec = [] := by
  obtain ⟨word, args, ident⟩ := ok
  have some := (isIdentifier_iff.mp ident).1
  have space := not_mem_of_isIdentifier ident (c := ' ') (by decide)
  have dot := not_mem_of_isIdentifier ident (c := '.') (by decide)
  rw [commandFindings, command_eq args ident]
  cases letters : word.text.toList with
  | nil => exact absurd letters some
  | cons c r =>
    rw [letters, List.mem_cons, not_or] at dot space
    have bare : ('.' == c) = false := beq_false_of_ne dot.1
    simp [reportIf, space.1, space.2, List.isPrefixOf, bare]

theorem namedToolFindings_eq_nil {tool : Block} {name : String} (ok : CleanTool tool.face name) :
    namedToolFindings tool name = [] := by
  obtain ⟨word, only, called, ident⟩ := ok.command
  obtain ⟨exec, one, args⟩ : ∃ d, tool.directivesOf "exec" = [d] ∧ d.args = [word] := by
    rw [← map_args_directivesOf rfl] at only
    exact List.map_eq_singleton_iff.mp only
  rw [← called] at ident
  -- without a slash the whole command is the name of the binary
  have binary : Text.afterLast '/' exec.command = word.text.toList := by
    rw [command_eq args ident]
    exact Text.afterLast_of_not_mem (not_mem_of_isIdentifier ident (by decide))
  rw [namedToolFindings, one, otherDirectives_eq_nil rfl ok.known]
  simp [toolNameFindings, binary, called, reportIf]

theorem namedRunFindings_eq_nil {run : Block} (ok : CleanRun run.face) (tool : String) :
    namedRunFindings run tool = [] := by
  have emits : run.has "emits" = true := (has_of_face rfl "emits").mpr ok.emits
  have flags : run.has "set" = true := (has_of_face rfl "set").mpr ok.flags
  have parent : run.parentTag = some "bake" := (parentTag_of_face rfl).trans ok.inBake
  rw [namedRunFindings, otherDirectives_eq_nil rfl ok.known]
  simp [emits, flags, parent, reportIf]

theorem patternFindings_eq_nil {make : Directive} (ok : CleanSource make.args)
    (firstBare : Option Nat) : patternFindings firstBare make = [] := by
  obtain ⟨a, found, quoted, full⟩ := ok.pattern
  have bare : hasBarePattern make = false := by simp [hasBarePattern, found, quoted]
  have empty : hasEmptyPattern make = false := by simp [hasEmptyPattern, found, full]
  rw [patternFindings, bare, empty]
  cases kind : make.arg? 1 with
  | none => rfl
  | some k => simpa [reportIf] using ok.kind k kind

/-! ## Check by check -/

section Checks

variable {doc : Document} {faces : List Face} (shows : doc.Shows faces)
include shows

theorem settingFindings_eq_nil {settings : List (List Argument)} {set : Directive}
    (ok : CleanSettings (namesAmong "profile" faces) settings) (hset : set.args ∈ settings) :
    settingFindings (declaredProfiles doc) set = [] := by
  have profiles : declaredProfiles doc = namesAmong "profile" faces := shows.map_named "profile"
  unfold settingFindings
  split
  · rfl
  · next value found =>
    split
    · next root =>
      have value : value = "." := Option.some.inj (found.symm.trans (ok.root _ hset root))
      exact reportIf_eq_nil (by simp [value])
    · split
      · next targetDir =>
        have value : value = "target" :=
          Option.some.inj (found.symm.trans (ok.targetDir _ hset targetDir))
        rw [value]
        rfl
      · rw [profiles]
        refine reportIf_eq_nil ?_
        cases profile : set.hasKeyword 0 "profile" with
        | false => rfl
        | true => simpa using ok.profile _ hset profile value found

theorem workspaceFindings_eq_nil (clean : Clean faces) : workspaceFindings doc = [] := by
  obtain ⟨f, only, ok⟩ := clean.workspace
  obtain ⟨workspace, one, face⟩ : ∃ b, doc.blocksOf "workspace" = [b] ∧ b.face = f := by
    rw [← shows.map_face_blocksOf] at only
    exact List.map_eq_singleton_iff.mp only
  have settings : workspace.settings.map Directive.args = argsAmong "set" f.sayings :=
    map_args_directivesOf face "set"
  have keys : unsetKeys workspace = [] := by
    rw [unsetKeys, List.flatMap_eq_nil_iff]
    intro key hkey
    obtain ⟨args, hargs, keyword⟩ := ok.keys key hkey
    rw [← settings] at hargs
    obtain ⟨d, hd, rfl⟩ := List.mem_map.mp hargs
    have found : workspace.settings.any (·.hasKeyword 0 key) = true :=
      List.any_eq_true.mpr ⟨d, hd, keyword⟩
    exact reportIf_eq_nil (by rw [found]; rfl)
  have values : workspace.settings.flatMap (settingFindings (declaredProfiles doc)) = [] := by
    rw [List.flatMap_eq_nil_iff]
    intro set hset
    refine settingFindings_eq_nil shows ok ?_
    rw [← settings]
    exact List.mem_map_of_mem hset
  rw [workspaceFindings, one, List.flatMap_singleton, keys, values]
  rfl

theorem absences_eq_nil (clean : Clean faces) : absences doc = [] := by
  have tool := shows.named_ne_nil clean.someTool
  have bake := shows.named_ne_nil clean.someBake
  have run := shows.named_ne_nil clean.someRun
  have command := shows.directivesOf_ne_nil clean.someCommand
  simp [absences, reportIf, tool, bake, run, command]

theorem repeatedNames_eq_nil (clean : Clean faces) : repeatedNames doc = [] := by
  have tools : ((doc.named "tool").map (·.1)).Nodup := by
    rw [shows.map_named]
    exact clean.toolsOnce
  have bakes : ((doc.named "bake").map (·.1)).Nodup := by
    rw [shows.map_named]
    exact clean.bakesOnce
  rw [repeatedNames, repeats_of_nodup tools, repeats_of_nodup bakes]
  rfl

theorem idleTools_eq_nil (clean : Clean faces) : idleTools doc = [] := by
  rw [idleTools, shows.map_named, List.flatMap_eq_nil_iff]
  intro use huse
  exact reportIf_eq_nil (by simpa using clean.toolsUsed (shows.name_mem huse))

theorem unknownTools_eq_nil (clean : Clean faces) : unknownTools doc = [] := by
  rw [unknownTools, shows.map_named, List.flatMap_eq_nil_iff]
  intro use huse
  exact reportIf_eq_nil (by simpa using clean.toolsKnown (shows.name_mem huse))

theorem bakeFindings_eq_nil (clean : Clean faces) : bakeFindings doc = [] := by
  rw [bakeFindings, List.flatMap_eq_nil_iff]
  intro bake hbake
  obtain ⟨hface, tag⟩ := shows.face_mem hbake
  exact getD_map_eq_nil fun name called =>
    namedBakeFindings_eq_nil (clean.bakes _ hface tag name called)

theorem outputFindings_eq_nil (clean : Clean faces) : outputFindings doc = [] := by
  have paths : (outputPaths doc).map (·.1) =
      ((doc.directivesOf "output").map Directive.args).filterMap (argText · 1) := by
    rw [outputPaths, List.map_filterMap, List.filterMap_map]
    refine List.filterMap_congr fun d _ => ?_
    rw [Option.map_map]
    exact Option.map_id'
  have perm : ((outputPaths doc).map (·.1)).Perm
      ((said faces "output").filterMap (argText · 1)) := by
    rw [paths]
    exact (shows.perm_args "output").filterMap _
  -- that there are no doubles does not depend on the order
  have once : ((outputPaths doc).map (·.1)).Nodup := perm.nodup_iff.mpr clean.outputsOnce
  rw [outputFindings, List.flatMap_eq_nil_iff]
  rintro ⟨⟨path, line⟩, isRepeat⟩ hmarked
  have first : isRepeat = false := markRepeats_of_nodup once _ hmarked
  have member : (path, line) ∈ outputPaths doc := by
    rw [← map_fst_markRepeats (·.1) (outputPaths doc)]
    exact List.mem_map_of_mem hmarked
  obtain ⟨args, hargs, found⟩ :=
    List.mem_filterMap.mp (perm.subset (List.mem_map_of_mem member))
  rw [first]
  exact pathFindings_eq_nil (clean.outputs args hargs path found) line

theorem toolFindings_eq_nil (clean : Clean faces) : toolFindings doc = [] := by
  rw [toolFindings, List.append_eq_nil_iff, List.flatMap_eq_nil_iff, List.flatMap_eq_nil_iff]
  constructor
  · intro tool htool
    obtain ⟨hface, tag⟩ := shows.face_mem htool
    exact getD_map_eq_nil fun name called =>
      namedToolFindings_eq_nil (clean.tools _ hface tag name called)
  · intro exec hexec
    exact commandFindings_eq_nil (clean.commands _ (shows.args_mem hexec))

theorem runFindings_eq_nil (clean : Clean faces) : runFindings doc = [] := by
  rw [runFindings, List.flatMap_eq_nil_iff]
  intro run hrun
  obtain ⟨hface, tag⟩ := shows.face_mem hrun
  refine getD_map_eq_nil fun tool called => namedRunFindings_eq_nil ?_ tool
  refine clean.runs _ hface tag ?_
  rw [← name_of_face rfl, called]
  exact Option.some_ne_none tool

theorem unusedBakes_eq_nil (clean : Clean faces) : unusedBakes doc = [] := by
  rw [unusedBakes, List.flatMap_eq_nil_iff]
  intro use huse
  obtain ⟨args, hargs, a, ha, text⟩ := clean.bakesUsed _ (shows.name_mem huse)
  have target : use.1 ∈ doc.targets := by
    rcases List.mem_append.mp hargs with hargs | hargs
    · obtain ⟨d, hd, rfl⟩ := shows.exists_of_mem_args hargs
      rw [Document.mem_directivesOf] at hd
      exact ⟨d, hd.1, Or.inl hd.2, a, ha, text⟩
    · obtain ⟨d, hd, rfl⟩ := shows.exists_of_mem_args hargs
      rw [Document.mem_directivesOf] at hd
      exact ⟨d, hd.1, Or.inr hd.2, a, ha, text⟩
  refine reportIf_eq_nil ?_
  rw [Document.contains_mentioned, decide_eq_true target]
  rfl

theorem exportFindings_eq_nil (clean : Clean faces) : exportFindings doc = [] := by
  obtain ⟨f, hf, tag, args, hargs, nonempty⟩ := clean.exported
  obtain ⟨b, hb, rfl⟩ : ∃ b ∈ doc.blocksInOrder, b.face = f := by
    rw [← shows.blocks] at hf
    exact List.mem_map.mp hf
  rw [← map_args_directivesOf rfl] at hargs
  obtain ⟨d, hd, rfl⟩ := List.mem_map.mp hargs
  have exported : hasExport doc = true := by
    refine List.any_eq_true.mpr ⟨b, Document.mem_blocksOf.mpr ⟨hb, tag⟩, ?_⟩
    exact List.any_eq_true.mpr ⟨d, hd, by simpa using nonempty⟩
  exact reportIf_eq_nil (by rw [exported]; rfl)

theorem unknownTargets_eq_nil {found : String → Nat → Finding} {directive : String}
    (known : ∀ args ∈ said faces directive, ∀ a ∈ args, a.text ∈ namesAmong "bake" faces) :
    unknownTargets ((doc.named "bake").map (·.1)) found (doc.directivesOf directive) = [] := by
  rw [unknownTargets, shows.map_named, List.flatMap_eq_nil_iff]
  intro d hd
  rw [List.flatMap_eq_nil_iff]
  intro a ha
  exact reportIf_eq_nil (by simpa using known _ (shows.args_mem hd) a ha)

theorem sourceFindings_eq_nil (clean : Clean faces) : sourceFindings doc = [] := by
  rw [sourceFindings, List.flatMap_eq_nil_iff]
  intro make hmake
  exact patternFindings_eq_nil (clean.sources _ (shows.args_mem hmake)) _

/-- Whatever the directives of a name mention first is among the first arguments of another. -/
theorem unknown_eq_nil {directive id : String} {f : Finding}
    (known : ∃ args ∈ said faces directive, argText args 0 = some id) :
    reportIf (!(firstArguments (doc.directivesOf directive)).contains id) f = [] := by
  refine reportIf_eq_nil ?_
  rw [Document.contains_firstArguments, decide_eq_true (shows.mem_ids.mpr known)]
  rfl

theorem inputFindings_eq_nil (clean : Clean faces) :
    (renamesAmong (doc.directivesOf "takes")).flatMap
      (inputFindings (firstArguments (doc.directivesOf "make"))) = [] := by
  rw [List.flatMap_eq_nil_iff]
  intro takes htakes
  obtain ⟨member, keyword⟩ := List.mem_filter.mp htakes
  obtain ⟨known, flags⟩ := clean.inputs _ (shows.args_mem member) keyword
  refine List.append_eq_nil_iff.mpr ⟨getD_map_eq_nil fun id hid => ?_,
    getD_map_eq_nil fun flag hflag => ?_⟩
  · exact unknown_eq_nil shows (known id hid)
  · refine reportIf_eq_nil ?_
    rcases flags flag hflag with dash | rfl
    · rw [dash]
      rfl
    · exact Bool.and_false _

theorem resultFindings_eq_nil (clean : Clean faces) :
    (renamesAmong (doc.directivesOf "emits")).flatMap
      (resultFindings (firstArguments (doc.directivesOf "output"))) = [] := by
  rw [List.flatMap_eq_nil_iff]
  intro emits hemits
  obtain ⟨member, keyword⟩ := List.mem_filter.mp hemits
  obtain ⟨known, flags⟩ := clean.results _ (shows.args_mem member) keyword
  refine List.append_eq_nil_iff.mpr ⟨getD_map_eq_nil fun id hid => ?_,
    getD_map_eq_nil fun flag hflag => ?_⟩
  · exact unknown_eq_nil shows (known id hid)
  · exact reportIf_eq_nil (by rw [flags flag hflag]; rfl)

theorem emission_eq_nil (clean : Clean faces) :
    reportIf (!(doc.directivesOf "output").isEmpty && (doc.directivesOf "emits").isEmpty)
      .outputsNotEmitted = [] := by
  refine reportIf_eq_nil ?_
  cases outputs : doc.directivesOf "output" with
  | nil => rfl
  | cons d ds =>
    have member : d ∈ doc.directivesOf "output" := by rw [outputs]; exact List.mem_cons_self
    have emitted := clean.emitted (List.ne_nil_of_mem (shows.args_mem member))
    simp [shows.directivesOf_ne_nil emitted]

/-- **A document that shows clean faces has no findings** but those about its header and its
layout. -/
theorem findings_eq_nil (clean : Clean faces) (header : headerFindings doc = [])
    (layout : layoutFindings doc = []) : documentFindings doc = [] := by
  rw [documentFindings_eq_nil_iff]
  intro c
  cases c with
  | header => exact header
  | workspace => exact workspaceFindings_eq_nil shows clean
  | absences => exact absences_eq_nil shows clean
  | repeatedNames => exact repeatedNames_eq_nil shows clean
  | idleTools => exact idleTools_eq_nil shows clean
  | unknownTools => exact unknownTools_eq_nil shows clean
  | bakes => exact bakeFindings_eq_nil shows clean
  | outputs => exact outputFindings_eq_nil shows clean
  | tools => exact toolFindings_eq_nil shows clean
  | runs => exact runFindings_eq_nil shows clean
  | unusedBakes => exact unusedBakes_eq_nil shows clean
  | exports => exact exportFindings_eq_nil shows clean
  | refs => exact unknownTargets_eq_nil shows clean.refs
  | needs => exact unknownTargets_eq_nil shows clean.needs
  | sources => exact sourceFindings_eq_nil shows clean
  | inputs => exact inputFindings_eq_nil shows clean
  | results => exact resultFindings_eq_nil shows clean
  | emission => exact emission_eq_nil shows clean
  | layout => exact layout

end Checks

end Buildconf

end LiveLint
