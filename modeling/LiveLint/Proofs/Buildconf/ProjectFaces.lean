import LiveLint.Proofs.Buildconf.Face
import LiveLint.Proofs.Buildconf.Project

/-!
# The faces of a project

The text of a project shows one face for the workspace, one for each tool, bake, run and profile,
and one for the export (`faces_entries`). What the faces of a tag are (`filter_tag_faces`) and what
all directives of a name say (`said_faces`) is told once for every tag and every name; it is the
parts of the project of one kind.
-/

namespace LiveLint.Buildconf.Project

open Argument (word literal reread)

/-! ## The faces of a project -/

def workspaceFace (p : Project) : Face :=
  ⟨none, "workspace", none, p.settings.map fun args => ⟨"set", reread args⟩, []⟩

def toolFace (tool : String) : Face :=
  ⟨none, "tool", some tool, [⟨"exec", reread [literal tool]⟩], []⟩

def Run.face (r : Run) : Face :=
  ⟨some "bake", "run", some r.tool,
    [⟨"takes", reread r.input⟩, ⟨"emits", reread r.result⟩, ⟨"set", reread [literal r.flag]⟩], []⟩

def Bake.face (b : Bake) : Face :=
  ⟨none, "bake", some b.name,
    (b.sources.map fun s => ⟨"make", reread s.args⟩) ++ [⟨"output", reread b.output⟩],
    b.runs.map fun _ => "run"⟩

def exportFace (p : Project) : Face :=
  ⟨none, "export", none, p.exports.map fun name => ⟨"ref", reread [word name]⟩, []⟩

def profileFace (profile : String) : Face :=
  ⟨none, "profile", some profile, [], []⟩

/-- What the text of a project shows. -/
def faces (p : Project) : List Face :=
  [p.workspaceFace] ++ p.tools.map toolFace ++
    (p.bakes.flatMap fun b => [b.face] ++ b.runs.map Run.face) ++
    [p.exportFace] ++ p.profiles.map profileFace

section Faces

variable {α : Type}

theorem sayings_map_say (name : String) (args : α → List Argument) (xs : List α) :
    Entries.sayings (xs.map fun x => say name (args x)) =
      xs.map fun x => ⟨name, reread (args x)⟩ := by
  rw [Entries.sayings, List.filterMap_map, ← List.filterMap_eq_map]
  rfl

theorem tags_map_say (name : String) (args : α → List Argument) (xs : List α) :
    Entries.tags (xs.map fun x => say name (args x)) = [] := by
  rw [Entries.tags, List.filterMap_map, List.filterMap_eq_nil_iff]
  intro x _
  rfl

theorem faces_map_say (parentTag : Option String) (name : String) (args : α → List Argument)
    (xs : List α) : Entries.faces parentTag (xs.map fun x => say name (args x)) = [] := by
  rw [Entries.faces_eq_flatMap, List.flatMap_map, List.flatMap_eq_nil_iff]
  intro x _
  rfl

/-- A block without a name in which one directive is said of several things. -/
theorem faces_block_say (tag name : String) (args : α → List Argument) (xs : List α) :
    Entries.faces none [.block tag none (xs.map fun x => say name (args x))] =
      [⟨none, tag, none, xs.map fun x => ⟨name, reread (args x)⟩, []⟩] := by
  rw [Entries.faces, Entry.faces, sayings_map_say, tags_map_say, faces_map_say]
  rfl

/-- Parts that are one block each. -/
theorem faces_map {parentTag : Option String} {entry : α → Entry} {face : α → Face}
    (one : ∀ x, (entry x).faces parentTag = [face x]) (xs : List α) :
    Entries.faces parentTag (xs.map entry) = xs.map face := by
  rw [Entries.faces_eq_flatMap, List.flatMap_map, List.map_eq_flatMap]
  exact List.flatMap_congr fun x _ => one x

end Faces

theorem faces_entry (b : Bake) : b.entry.faces none = [b.face] ++ b.runs.map Run.face := by
  have sayings : Entries.sayings (b.runs.map Run.entry) = [] := by
    rw [Entries.sayings, List.filterMap_map, List.filterMap_eq_nil_iff]
    intro r _
    rfl
  have tags : Entries.tags (b.runs.map Run.entry) = b.runs.map fun _ => "run" := by
    rw [Entries.tags, List.filterMap_map, ← List.filterMap_eq_map]
    rfl
  have faces : Entries.faces (some "bake") (b.runs.map Run.entry) = b.runs.map Run.face :=
    faces_map (fun _ => rfl) b.runs
  rw [Bake.entry, Entry.faces, Entries.sayings_append, Entries.sayings_append, sayings_map_say,
    sayings, Entries.tags_append, Entries.tags_append, tags_map_say, tags, Entries.faces_append,
    Entries.faces_append, faces_map_say, faces]
  simp [Bake.face, say, Entries.sayings, Entries.tags, Entries.faces, Entry.faces, reread]

theorem faces_entries (p : Project) : Entries.faces none p.entries = p.faces := by
  have bakes : Entries.faces none (p.bakes.map Bake.entry) =
      p.bakes.flatMap fun b => [b.face] ++ b.runs.map Run.face := by
    rw [Entries.faces_eq_flatMap, List.flatMap_map]
    exact List.flatMap_congr fun b _ => faces_entry b
  have tools : Entries.faces none (p.tools.map toolEntry) = p.tools.map toolFace :=
    faces_map (fun _ => rfl) p.tools
  have profiles : Entries.faces none (p.profiles.map profileEntry) = p.profiles.map profileFace :=
    faces_map (fun _ => rfl) p.profiles
  rw [entries, Entries.faces_append, Entries.faces_append, Entries.faces_append,
    Entries.faces_append, faces_block_say, tools, bakes, faces_block_say, profiles]
  rfl

/-! ## The faces of a tag, and what is said of a name -/

theorem flatMap_nil_fun {α β : Type} (xs : List α) : (xs.flatMap fun _ => ([] : List β)) = [] :=
  List.flatMap_eq_nil_iff.mpr fun _ _ => rfl

section Tables

variable (p : Project)

/-- The faces of a tag are the parts of one kind. -/
theorem filter_tag_faces (tag : String) : p.faces.filter (·.tag == tag) =
    (if "workspace" = tag then [p.workspaceFace] else []) ++
    (if "tool" = tag then p.tools.map toolFace else []) ++
    (p.bakes.flatMap fun b => (if "bake" = tag then [b.face] else []) ++
      if "run" = tag then b.runs.map Run.face else []) ++
    (if "export" = tag then [p.exportFace] else []) ++
    if "profile" = tag then p.profiles.map profileFace else [] := by
  have one : ∀ f : Face, [f].filter (·.tag == tag) = if f.tag = tag then [f] else [] := fun f =>
    filter_tag_map (fun _ : Unit => rfl) tag [()]
  simp only [faces, List.filter_append, List.filter_flatMap, one,
    filter_tag_map (fun _ => rfl : ∀ t, (toolFace t).tag = "tool"),
    filter_tag_map (fun _ => rfl : ∀ r, (Run.face r).tag = "run"),
    filter_tag_map (fun _ => rfl : ∀ q, (profileFace q).tag = "profile")]
  rfl

/-- The directives of a name are those of one kind of parts. -/
theorem said_faces (name : String) : said p.faces name =
    (if "set" = name then p.settings.map reread else []) ++
    (p.tools.flatMap fun t => if "exec" = name then [reread [literal t]] else []) ++
    (p.bakes.flatMap fun b =>
      (if "make" = name then b.sources.map fun s => reread s.args else []) ++
      (if "output" = name then [reread b.output] else []) ++
      b.runs.flatMap fun r =>
        (if "takes" = name then [reread r.input] else []) ++
        (if "emits" = name then [reread r.result] else []) ++
        (if "set" = name then [reread [literal r.flag]] else [])) ++
    (if "ref" = name then p.exports.map fun e => reread [word e] else []) := by
  have settings : argsAmong name p.workspaceFace.sayings =
      if "set" = name then p.settings.map reread else [] :=
    argsAmong_map name "set" reread p.settings
  have tool : ∀ t, argsAmong name (toolFace t).sayings =
      if "exec" = name then [reread [literal t]] else [] :=
    fun t => argsAmong_cons name _ []
  have bake : ∀ b : Bake, argsAmong name b.face.sayings =
      (if "make" = name then b.sources.map fun s => reread s.args else []) ++
        if "output" = name then [reread b.output] else [] := by
    intro b
    rw [Bake.face, argsAmong_append, argsAmong_map, argsAmong_cons, argsAmong_nil]
  have run : ∀ r : Run, argsAmong name r.face.sayings =
      (if "takes" = name then [reread r.input] else []) ++
        (if "emits" = name then [reread r.result] else []) ++
        if "set" = name then [reread [literal r.flag]] else [] := by
    intro r
    -- the three directives apart, so that each is taken or left on its own
    show argsAmong name ([⟨"takes", reread r.input⟩] ++ [⟨"emits", reread r.result⟩] ++
      [⟨"set", reread [literal r.flag]⟩]) = _
    simp only [argsAmong_append, argsAmong_cons, argsAmong_nil]
  have exported : argsAmong name p.exportFace.sayings =
      if "ref" = name then p.exports.map fun e => reread [word e] else [] :=
    argsAmong_map name "ref" _ p.exports
  have profile : ∀ q, argsAmong name (profileFace q).sayings = [] := fun _ => rfl
  -- a profile says nothing, so its part of the sum is empty
  rw [said_eq_flatMap, faces]
  simp only [List.flatMap_append, List.flatMap_singleton, List.flatMap_map, List.flatMap_assoc,
    settings, tool, bake, run, exported, profile, flatMap_nil_fun, List.append_nil]

theorem said_needs : said p.faces "needs" = [] := by
  simp [said_faces, flatMap_nil_fun]

theorem filter_workspace : p.faces.filter (·.tag == "workspace") = [p.workspaceFace] := by
  simp [filter_tag_faces, flatMap_nil_fun]

theorem filter_tool : p.faces.filter (·.tag == "tool") = p.tools.map toolFace := by
  simp [filter_tag_faces, flatMap_nil_fun]

theorem filter_bake : p.faces.filter (·.tag == "bake") = p.bakes.map Bake.face := by
  simp [filter_tag_faces, ← List.map_eq_flatMap]

theorem filter_run : p.faces.filter (·.tag == "run") =
    p.bakes.flatMap fun b => b.runs.map Run.face := by
  simp [filter_tag_faces]

theorem filter_profile : p.faces.filter (·.tag == "profile") = p.profiles.map profileFace := by
  simp [filter_tag_faces, flatMap_nil_fun]

theorem namesAmong_tool : namesAmong "tool" p.faces = p.tools := by
  rw [namesAmong, filter_tool, List.filterMap_map]
  exact List.filterMap_some

theorem namesAmong_bake : namesAmong "bake" p.faces = p.bakes.map Bake.name := by
  rw [namesAmong, filter_bake, List.filterMap_map, ← List.filterMap_eq_map]
  rfl

theorem namesAmong_run : namesAmong "run" p.faces =
    p.bakes.flatMap fun b => b.runs.map Run.tool := by
  rw [namesAmong, filter_run, List.filterMap_flatMap]
  refine List.flatMap_congr fun b _ => ?_
  rw [List.filterMap_map, ← List.filterMap_eq_map]
  rfl

theorem namesAmong_profile : namesAmong "profile" p.faces = p.profiles := by
  rw [namesAmong, filter_profile, List.filterMap_map]
  exact List.filterMap_some

theorem mem_toolFaces {f : Face} (hf : f ∈ p.faces) (tag : f.tag = "tool") :
    ∃ t ∈ p.tools, toolFace t = f := by
  rw [← List.mem_map, ← filter_tool]
  exact List.mem_filter.mpr ⟨hf, beq_iff_eq.mpr tag⟩

theorem mem_bakeFaces {f : Face} (hf : f ∈ p.faces) (tag : f.tag = "bake") :
    ∃ b ∈ p.bakes, b.face = f := by
  rw [← List.mem_map, ← filter_bake]
  exact List.mem_filter.mpr ⟨hf, beq_iff_eq.mpr tag⟩

theorem mem_runFaces {f : Face} (hf : f ∈ p.faces) (tag : f.tag = "run") :
    ∃ b ∈ p.bakes, ∃ r ∈ b.runs, r.face = f := by
  have found : f ∈ p.faces.filter (·.tag == "run") :=
    List.mem_filter.mpr ⟨hf, beq_iff_eq.mpr tag⟩
  rw [filter_run] at found
  obtain ⟨b, hb, found⟩ := List.mem_flatMap.mp found
  exact ⟨b, hb, List.mem_map.mp found⟩

end Tables

end LiveLint.Buildconf.Project
