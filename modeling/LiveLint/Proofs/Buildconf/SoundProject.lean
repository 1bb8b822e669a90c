import LiveLint.Proofs.Buildconf.Clean
import LiveLint.Proofs.Buildconf.ProjectFaces

/-!
# Sound projects have no findings

The text of a sound project has tidy rows (`Project.Sound.tidy`), and its faces are clean
(`Project.Sound.clean`): whatever a check asks for is there because soundness has it for the parts
of the kind that the check is about. So no check objects to the text, whatever the size of the
project (`Project.analyze_text_eq_nil`).
-/

namespace LiveLint.Buildconf

open Argument (word literal reread fits_literal reread_cons reread_of_plain oneLine_of_solid
  plain_word plain_of_isIdentifier)

/-! ## Names and extensions -/

theorem isIdentifier_of_isSnakeCase {name : String} (ok : isSnakeCase name = true) :
    isIdentifier name.toList = true := by
  rw [isSnakeCase, Bool.and_eq_true, List.all_eq_true] at ok
  refine isIdentifier_iff.mpr ⟨?_, fun c hc => ?_⟩
  · simpa using ok.1
  · have kind := ok.2 c hc
    simp only [isIdentChar, Char.isAlphanum, Text.isAlpha_eq, Bool.or_eq_true] at kind ⊢
    tauto

namespace Project

/-! ## What is read back -/

section Readable

variable {p : Project}

theorem Source.Sound.plain {s : Source} (ok : s.Sound) : ∀ a ∈ s.args, a.Plain := by
  have kind : ∀ kind ∈ sourceKinds, (word kind).Plain := by decide
  simp only [Source.args, List.forall_mem_cons]
  exact ⟨plain_word ok.id, kind _ ok.kind, ok.pattern, List.forall_mem_nil _⟩

theorem Bake.Sound.plain {b : Bake} (ok : b.Sound p) : ∀ a ∈ b.output, a.Plain := by
  simp only [Bake.output, List.forall_mem_cons]
  exact ⟨plain_word ok.port, ⟨ok.path, oneLine_of_solid ok.solid⟩, List.forall_mem_nil _⟩

theorem Bake.Sound.identifier {b : Bake} (ok : b.Sound p) : isIdentifier b.name.toList = true :=
  isIdentifier_of_isSnakeCase ok.snakeCase

theorem plain_name {name : String} (ok : isIdentifier name.toList = true) (quoted : Bool) :
    ∀ a ∈ [Argument.mk name quoted], a.Plain :=
  List.forall_mem_singleton.mpr (plain_of_isIdentifier ok quoted)

theorem reread_word {name : String} (ok : isIdentifier name.toList = true) :
    reread [word name] = [word name] :=
  reread_of_plain (plain_name ok false)

theorem reread_literal {name : String} (ok : isIdentifier name.toList = true) :
    reread [literal name] = [literal name] :=
  reread_of_plain (plain_name ok true)

variable (sound : p.Sound)
include sound

theorem Run.Sound.plain_input {r : Run} (ok : r.Sound p) : ∀ a ∈ r.input, a.Plain := by
  obtain ⟨b, hb, s, hs, same⟩ := ok.takes
  -- it was written down once already, where the source was made
  have id : (word r.takes).Writable := by
    rw [← same]
    exact ((sound.bakes b hb).sources s hs).id
  simp only [Run.input, List.forall_mem_cons]
  exact ⟨plain_word id, by decide, by decide, List.forall_mem_nil _⟩

theorem Run.Sound.plain_result {r : Run} (ok : r.Sound p) : ∀ a ∈ r.result, a.Plain := by
  obtain ⟨b, hb, same⟩ := ok.emits
  have port : (word r.emits).Writable := by
    rw [← same]
    exact (sound.bakes b hb).port
  simp only [Run.result, List.forall_mem_cons]
  exact ⟨plain_word port, by decide, by decide, List.forall_mem_nil _⟩

theorem Sound.profile_identifier : isIdentifier p.profile.toList = true :=
  sound.profiles _ sound.profile

theorem Sound.exports_identifier {name : String} (h : name ∈ p.exports) :
    isIdentifier name.toList = true := by
  obtain ⟨b, hb, rfl⟩ := sound.exports name h
  exact (sound.bakes b hb).identifier

/-- The name of the workspace is read as far as its first quote; the other settings are plain. -/
theorem Sound.reread_settings : p.settings.map reread =
    [word "name" :: reread [literal p.name], setting "root" ".", setting "target_dir" "target",
     setting "profile" p.profile] := by
  have plain : ∀ {key value}, (word key).Plain → (literal value).Plain →
      reread (setting key value) = setting key value := by
    intro key value hkey hvalue
    refine reread_of_plain ?_
    simp only [setting, List.forall_mem_cons]
    exact ⟨hkey, hvalue, List.forall_mem_nil _⟩
  -- what a name with quotes is read as does not matter: no check asks for the value of this key
  have name : reread (setting "name" p.name) = word "name" :: reread [literal p.name] :=
    reread_cons (by decide) _
  have profile : reread (setting "profile" p.profile) = setting "profile" p.profile :=
    plain (by decide) (plain_of_isIdentifier sound.profile_identifier true)
  rw [settings, List.map_cons, List.map_cons, List.map_cons, List.map_singleton, name,
    plain (by decide) (by decide), plain (by decide) (by decide), profile]

end Readable

/-! ## Tidy rows -/

section Tidy

variable {p : Project}

/-- A directive with plain arguments is tidy. -/
theorem tidy_say_plain {name : String} {args : List Argument}
    (called : isDirectiveName name.toList = true) (some : args ≠ [])
    (plain : ∀ a ∈ args, a.Plain) (depth : Nat) :
    ∀ row ∈ (say name args).rows depth, row.kind.Tidy :=
  tidy_say called some (fun a ha => (plain a ha).fits) depth

theorem named_of_some {name : String} (ok : isIdentifier name.toList = true) :
    ∀ n ∈ some name, isIdentifier n.toList = true := by
  rintro _ ⟨⟩
  exact ok

theorem tidy_toolEntry {tool : String} (ok : isIdentifier tool.toList = true) (depth : Nat) :
    ∀ row ∈ (toolEntry tool).rows depth, row.kind.Tidy := by
  refine tidy_block (by decide) (named_of_some ok) ?_
  rw [List.forall_mem_singleton]
  exact tidy_say_plain (by decide) (List.cons_ne_nil _ _) (plain_name ok true) _

theorem tidy_profileEntry {profile : String} (ok : isIdentifier profile.toList = true)
    (depth : Nat) : ∀ row ∈ (profileEntry profile).rows depth, row.kind.Tidy :=
  tidy_block (by decide) (named_of_some ok) (List.forall_mem_nil _)

variable (sound : p.Sound)
include sound

theorem Run.Sound.tidy_entry {r : Run} (ok : r.Sound p) (depth : Nat) :
    ∀ row ∈ r.entry.rows depth, row.kind.Tidy := by
  refine tidy_block (by decide) (named_of_some (sound.tools _ ok.tool)) ?_
  simp only [List.forall_mem_cons]
  exact ⟨tidy_say_plain (by decide) (List.cons_ne_nil _ _) (ok.plain_input sound) _,
    tidy_say_plain (by decide) (List.cons_ne_nil _ _) (ok.plain_result sound) _,
    tidy_say (by decide) (List.cons_ne_nil _ _)
      (List.forall_mem_singleton.mpr (fits_literal ok.flag)) _,
    List.forall_mem_nil _⟩

theorem Bake.Sound.tidy_entry {b : Bake} (ok : b.Sound p) (depth : Nat) :
    ∀ row ∈ b.entry.rows depth, row.kind.Tidy := by
  refine tidy_block (by decide) (named_of_some ok.identifier) ?_
  rw [List.forall_mem_append, List.forall_mem_append, List.forall_mem_map, List.forall_mem_map,
    List.forall_mem_singleton]
  refine ⟨⟨fun s hs => ?_, fun r hr => ?_⟩, ?_⟩
  · exact tidy_say_plain (by decide) (List.cons_ne_nil _ _) (ok.sources s hs).plain _
  · exact (ok.runs r hr).tidy_entry sound _
  · exact tidy_say_plain (by decide) (List.cons_ne_nil _ _) ok.plain _

theorem Sound.settings_fit : ∀ args ∈ p.settings, args ≠ [] ∧ ∀ a ∈ args, a.Fits := by
  have fit : ∀ {key value}, (word key).Plain → Argument.OneLine value →
      setting key value ≠ [] ∧ ∀ a ∈ setting key value, a.Fits := by
    intro key value called ok
    simp only [setting, List.forall_mem_cons]
    exact ⟨List.cons_ne_nil _ _, called.fits, fits_literal ok, List.forall_mem_nil _⟩
  simp only [settings, List.forall_mem_cons]
  exact ⟨fit (by decide) sound.name, fit (by decide) (by decide), fit (by decide) (by decide),
    fit (by decide) (plain_of_isIdentifier sound.profile_identifier true).2,
    List.forall_mem_nil _⟩

/-- The rows of a sound project are tidy. -/
theorem Sound.tidy : Entries.Tidy p.entries := by
  refine tidy_rows ?_
  simp only [entries, List.forall_mem_append, List.forall_mem_map, List.forall_mem_singleton]
  -- one case per kind of block, in the order of the text
  refine ⟨⟨⟨⟨tidy_block (by decide) (by simp) ?_, fun t ht => ?_⟩, fun b hb => ?_⟩,
    tidy_block (by decide) (by simp) ?_⟩, fun q hq => ?_⟩
  · rw [List.forall_mem_map]
    intro args hargs
    obtain ⟨some, fits⟩ := sound.settings_fit args hargs
    exact tidy_say (by decide) some fits _
  · exact tidy_toolEntry (sound.tools t ht) 0
  · exact (sound.bakes b hb).tidy_entry sound 0
  · rw [List.forall_mem_map]
    intro name hname
    exact tidy_say_plain (by decide) (List.cons_ne_nil _ _)
      (plain_name (sound.exports_identifier hname) false) _
  · exact tidy_profileEntry (sound.profiles q hq) 0

end Tidy

/-! ## Clean faces -/

section Clean

variable {p : Project}

theorem Source.Sound.clean {s : Source} (ok : s.Sound) : CleanSource s.args where
  kind := by
    rintro _ ⟨⟩
    exact ok.kind
  pattern := ⟨literal s.pattern, rfl, rfl, ok.full⟩

theorem Bake.Sound.clean {b : Bake} (ok : b.Sound p) : CleanBake b.face b.name where
  made := by
    simpa [Bake.face] using ok.someSource
  run := by
    obtain ⟨r, hr⟩ := List.exists_mem_of_ne_nil _ ok.someRun
    exact List.mem_map_of_mem hr
  output := by
    simp [Bake.face]
  snakeCase := ok.snakeCase
  known := by
    rw [Bake.face, List.forall_mem_append, List.forall_mem_map, List.forall_mem_singleton]
    refine ⟨fun s _ => ?_, ?_⟩ <;> simp only [namesInBake] <;> decide
  once := by
    have made : argsAmong "make" b.face.sayings = b.sources.map Source.args := by
      have reread : b.sources.map (fun s => reread s.args) = b.sources.map Source.args :=
        List.map_congr_left fun s hs => reread_of_plain (ok.sources s hs).plain
      simpa [Bake.face] using reread
    have ids : (b.sources.map Source.args).filterMap (argText · 0) = b.sources.map Source.id := by
      rw [List.filterMap_map, ← List.filterMap_eq_map]
      rfl
    rw [made, ids]
    exact ok.idsOnce

theorem Bake.Sound.cleanPath {b : Bake} (ok : b.Sound p) : CleanPath b.path :=
  ⟨ok.inDirectory, hasExtension_iff.mpr ok.extension, ok.solid⟩

theorem clean_toolFace {tool : String} (ok : isIdentifier tool.toList = true) :
    CleanTool (toolFace tool) tool where
  command := ⟨literal tool, by simp [toolFace, reread_literal ok], rfl, ok⟩
  known := by
    rw [toolFace, List.forall_mem_singleton]
    exact List.mem_singleton_self _

theorem clean_face (r : Run) : CleanRun r.face where
  emits := by simp [Run.face]
  flags := by simp [Run.face]
  known := by
    simp only [Run.face, List.forall_mem_cons]
    exact ⟨by decide, by decide, by decide, List.forall_mem_nil _⟩
  inBake := rfl

variable (sound : p.Sound)
include sound

theorem Sound.cleanSettings :
    CleanSettings (namesAmong "profile" p.faces) (argsAmong "set" p.workspaceFace.sayings) := by
  have said : argsAmong "set" p.workspaceFace.sayings = p.settings.map reread :=
    (argsAmong_map "set" "set" reread p.settings).trans (if_pos rfl)
  rw [said, sound.reread_settings, namesAmong_profile]
  refine ⟨?_, ?_, ?_, ?_⟩
  · simp [requiredKeys, setting, isKeyword, word]
  · simp [setting, isKeyword, argText, word, literal]
  · simp [setting, isKeyword, argText, word, literal]
  · simp [setting, isKeyword, argText, word, literal, sound.profile]

theorem Sound.said_make : said p.faces "make" =
    p.bakes.flatMap fun b => b.sources.map Source.args := by
  calc
    said p.faces "make" = p.bakes.flatMap fun b => b.sources.map fun s => reread s.args := by
      simp [said_faces, flatMap_nil_fun]
    _ = p.bakes.flatMap fun b => b.sources.map Source.args :=
      List.flatMap_congr fun b hb => List.map_congr_left fun s hs =>
        reread_of_plain ((sound.bakes b hb).sources s hs).plain

theorem Sound.said_output : said p.faces "output" = p.bakes.map Bake.output := by
  calc
    said p.faces "output" = p.bakes.map fun b => reread b.output := by
      simp [said_faces, ← List.map_eq_flatMap, flatMap_nil_fun]
    _ = p.bakes.map Bake.output :=
      List.map_congr_left fun b hb => reread_of_plain (sound.bakes b hb).plain

theorem Sound.said_exec : said p.faces "exec" = p.tools.map fun tool => [literal tool] := by
  calc
    said p.faces "exec" = p.tools.map fun tool => reread [literal tool] := by
      simp [said_faces, ← List.map_eq_flatMap, flatMap_nil_fun]
    _ = p.tools.map fun tool => [literal tool] :=
      List.map_congr_left fun tool h => reread_literal (sound.tools tool h)

theorem Sound.said_takes : said p.faces "takes" =
    p.bakes.flatMap fun b => b.runs.map Run.input := by
  calc
    said p.faces "takes" = p.bakes.flatMap fun b => b.runs.map fun r => reread r.input := by
      simp [said_faces, ← List.map_eq_flatMap, flatMap_nil_fun]
    _ = p.bakes.flatMap fun b => b.runs.map Run.input :=
      List.flatMap_congr fun b hb => List.map_congr_left fun r hr =>
        reread_of_plain (((sound.bakes b hb).runs r hr).plain_input sound)

theorem Sound.said_emits : said p.faces "emits" =
    p.bakes.flatMap fun b => b.runs.map Run.result := by
  calc
    said p.faces "emits" = p.bakes.flatMap fun b => b.runs.map fun r => reread r.result := by
      simp [said_faces, ← List.map_eq_flatMap, flatMap_nil_fun]
    _ = p.bakes.flatMap fun b => b.runs.map Run.result :=
      List.flatMap_congr fun b hb => List.map_congr_left fun r hr =>
        reread_of_plain (((sound.bakes b hb).runs r hr).plain_result sound)

theorem Sound.said_ref : said p.faces "ref" = p.exports.map fun name => [word name] := by
  calc
    said p.faces "ref" = p.exports.map fun name => reread [word name] := by
      simp [said_faces, flatMap_nil_fun]
    _ = p.exports.map fun name => [word name] :=
      List.map_congr_left fun name h => reread_word (sound.exports_identifier h)

theorem Sound.runs_ne_nil {α : Type} (f : Run → α) :
    (p.bakes.flatMap fun b => b.runs.map f) ≠ [] := by
  obtain ⟨b, hb⟩ := List.exists_mem_of_ne_nil _ sound.someBake
  obtain ⟨r, hr⟩ := List.exists_mem_of_ne_nil _ (sound.bakes b hb).someRun
  exact List.ne_nil_of_mem (List.mem_flatMap.mpr ⟨b, hb, List.mem_map_of_mem hr⟩)

/-- What follows from the soundness of a run holds of every run. -/
theorem Sound.forall_runs {α : Type} {f : Run → α} {P : α → Prop}
    (each : ∀ r, r.Sound p → P (f r)) : ∀ x ∈ p.bakes.flatMap fun b => b.runs.map f, P x := by
  intro x hx
  obtain ⟨b, hb, hx⟩ := List.mem_flatMap.mp hx
  obtain ⟨r, hr, rfl⟩ := List.mem_map.mp hx
  exact each r ((sound.bakes b hb).runs r hr)

/-- The faces of a sound project are clean. -/
theorem Sound.clean : Clean p.faces where
  workspace := ⟨p.workspaceFace, p.filter_workspace, sound.cleanSettings⟩
  someTool := by
    rw [namesAmong_tool]
    exact sound.someTool
  someBake := by
    rw [namesAmong_bake]
    exact mt List.map_eq_nil_iff.mp sound.someBake
  someRun := by
    rw [namesAmong_run]
    exact sound.runs_ne_nil Run.tool
  someCommand := by
    rw [sound.said_exec]
    exact mt List.map_eq_nil_iff.mp sound.someTool
  toolsOnce := by
    rw [namesAmong_tool]
    exact sound.toolsOnce
  bakesOnce := by
    rw [namesAmong_bake]
    exact sound.bakesOnce
  toolsUsed := by
    rw [namesAmong_tool, namesAmong_run]
    intro t ht
    obtain ⟨b, hb, r, hr, rfl⟩ := sound.toolsUsed t ht
    exact List.mem_flatMap.mpr ⟨b, hb, List.mem_map_of_mem hr⟩
  toolsKnown := by
    rw [namesAmong_tool, namesAmong_run]
    exact sound.forall_runs fun r ok => ok.tool
  bakes := by
    intro f hf tag
    obtain ⟨b, hb, rfl⟩ := p.mem_bakeFaces hf tag
    rintro _ ⟨⟩
    exact (sound.bakes b hb).clean
  outputs := by
    rw [sound.said_output, List.forall_mem_map]
    rintro b hb _ ⟨⟩
    exact (sound.bakes b hb).cleanPath
  outputsOnce := by
    have paths : (p.bakes.map Bake.output).filterMap (argText · 1) = p.bakes.map Bake.path := by
      rw [List.filterMap_map, ← List.filterMap_eq_map]
      rfl
    rw [sound.said_output, paths]
    exact sound.pathsOnce
  tools := by
    intro f hf tag
    obtain ⟨tool, htool, rfl⟩ := p.mem_toolFaces hf tag
    rintro _ ⟨⟩
    exact clean_toolFace (sound.tools tool htool)
  commands := by
    rw [sound.said_exec, List.forall_mem_map]
    intro tool htool
    exact ⟨literal tool, rfl, sound.tools tool htool⟩
  runs := by
    intro f hf tag _
    obtain ⟨_, _, r, _, rfl⟩ := p.mem_runFaces hf tag
    exact clean_face r
  bakesUsed := by
    rw [namesAmong_bake, List.forall_mem_map, sound.said_ref]
    intro b hb
    have mentioned := List.mem_map_of_mem (f := fun name => [word name]) (sound.exported b hb)
    exact ⟨_, List.mem_append_left _ mentioned, _, List.mem_singleton_self _, rfl⟩
  exported := by
    obtain ⟨b, hb⟩ := List.exists_mem_of_ne_nil _ sound.someBake
    have face : p.exportFace ∈ p.faces := by simp [faces]
    have mentioned : [word b.name] ∈ argsAmong "ref" p.exportFace.sayings := by
      rw [exportFace, argsAmong_map, if_pos rfl, ← reread_word (sound.bakes b hb).identifier]
      exact List.mem_map_of_mem (sound.exported b hb)
    exact ⟨_, face, rfl, _, mentioned, List.cons_ne_nil _ _⟩
  refs := by
    rw [sound.said_ref, namesAmong_bake, List.forall_mem_map]
    intro name hname
    obtain ⟨b, hb, rfl⟩ := sound.exports name hname
    exact List.forall_mem_singleton.mpr (List.mem_map_of_mem hb)
  needs := by
    rw [said_needs]
    exact List.forall_mem_nil _
  sources := by
    rw [sound.said_make]
    intro args hargs
    obtain ⟨b, hb, hargs⟩ := List.mem_flatMap.mp hargs
    obtain ⟨s, hs, rfl⟩ := List.mem_map.mp hargs
    exact ((sound.bakes b hb).sources s hs).clean
  inputs := by
    rw [sound.said_takes, sound.said_make]
    refine sound.forall_runs fun r ok _ => ⟨?_, ?_⟩
    · rintro _ ⟨⟩
      obtain ⟨made, hmade, s, hs, same⟩ := ok.takes
      exact ⟨s.args, List.mem_flatMap.mpr ⟨made, hmade, List.mem_map_of_mem hs⟩,
        congrArg some same⟩
    · rintro _ ⟨⟩
      exact Or.inr rfl
  results := by
    rw [sound.said_emits, sound.said_output]
    refine sound.forall_runs fun r ok _ => ⟨?_, ?_⟩
    · rintro _ ⟨⟩
      obtain ⟨out, hout, same⟩ := ok.emits
      exact ⟨out.output, List.mem_map_of_mem hout, congrArg some same⟩
    · rintro _ ⟨⟩
      decide
  emitted := by
    -- there are outputs anyway, so the condition is of no use
    intro _
    rw [sound.said_emits]
    exact sound.runs_ne_nil Run.result

end Clean

/-! ## No findings -/

theorem sayings_entries (p : Project) : Entries.sayings p.entries = [] := by
  rw [Entries.sayings, List.filterMap_eq_nil_iff]
  simp only [entries, List.forall_mem_append, List.forall_mem_map, List.forall_mem_singleton]
  exact ⟨⟨⟨⟨trivial, fun _ _ => rfl⟩, fun _ _ => rfl⟩, trivial⟩, fun _ _ => rfl⟩

/-- **No check objects to the text of a sound project.** -/
theorem analyze_text_eq_nil (p : Project) (sound : p.Sound) : analyze p.text = [] := by
  have shows : (Document.parse (written p.entries)).Shows p.faces := by
    rw [← p.faces_entries]
    exact shows_written sound.tidy.writable p.sayings_entries
  have none : documentFindings (Document.parse (written p.entries)) = [] :=
    findings_eq_nil shows sound.clean (headerFindings_written sound.tidy)
      (layoutFindings_written sound.tidy)
  rw [analyze, text, String.toList_ofList, findings, none, List.map_nil]

/-- A compiler and a linker, each with a bake. The linker takes the source of the other bake. -/
def compiled : Project where
  name := "app"
  profile := "debug"
  tools := ["cc", "ld"]
  bakes :=
    [{ name := "objects", sources := [⟨"c_src", "cglob", "src/*.c"⟩],
       runs := [⟨"cc", "c_src", "obj", "-O2"⟩], port := "obj", path := "target/out/app.o" },
     { name := "program", sources := [⟨"c_lib", "file", "lib/start.c"⟩],
       runs := [⟨"cc", "c_lib", "obj", "-O2"⟩, ⟨"ld", "c_src", "exe", "-s"⟩], port := "exe",
       path := "target/out/app.exe" }]
  exports := ["program", "objects"]
  profiles := ["release", "debug"]

theorem analyze_text_eq_nil_compiled : compiled.Sound ∧ analyze compiled.text = [] := by
  have sound : compiled.Sound := by decide
  exact ⟨sound, analyze_text_eq_nil compiled sound⟩

end Project

end LiveLint.Buildconf
