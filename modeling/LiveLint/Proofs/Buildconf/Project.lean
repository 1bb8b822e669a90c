import LiveLint.Proofs.Buildconf.Tidy
import Mathlib.Tactic.MkIffOfInductiveProp

/-!
# Projects

What a build configuration is for: a workspace, tools, bakes that run the tools on sources and put
one file out each, and an export of the bakes. `Project` is that much in plain data,
`Project.text` writes it down in the usual layout, and `Project.Sound` is what a working project
has: names that are names, references that lead somewhere, things that are told apart. Soundness
can be tested.

What stands between quotes is on one line and has no tabs, and a pattern or a path has no quotes
either: the format has no way to write them.
-/

namespace LiveLint.Buildconf

open Argument (word literal reread)

/-! ## Extensions -/

/-- A path has an extension if it ends in a dot and letters or digits. -/
theorem hasExtension_iff {path : List Char} : hasExtension path = true ↔
    ∃ stem ending, path = stem ++ '.' :: ending ∧ ending ≠ [] ∧
      ∀ c ∈ ending, c.isAlphanum = true := by
  constructor
  · intro has
    simp only [hasExtension, Bool.and_eq_true, beq_iff_eq] at has
    obtain ⟨some, dot⟩ := has
    obtain ⟨stem, rest⟩ := List.head?_eq_some_iff.mp dot
    refine ⟨stem.reverse, (path.reverse.takeWhile Char.isAlphanum).reverse, ?_, ?_, ?_⟩
    · calc
        path = path.reverse.reverse := (List.reverse_reverse path).symm
        _ = (path.reverse.takeWhile Char.isAlphanum ++ '.' :: stem).reverse := by
          rw [← rest, List.takeWhile_append_dropWhile]
        _ = stem.reverse ++ '.' :: (path.reverse.takeWhile Char.isAlphanum).reverse := by simp
    · simpa using some
    · intro c hc
      exact List.all_eq_true.mp List.all_takeWhile c (List.mem_reverse.mp hc)
  · rintro ⟨stem, ending, rfl, some, alphanum⟩
    have letters : ∀ c ∈ ending.reverse, c.isAlphanum = true := fun c hc =>
      alphanum c (List.mem_reverse.mp hc)
    have stop : ∀ c ∈ ('.' :: stem.reverse).head?, c.isAlphanum = false := by
      rintro _ ⟨⟩
      rfl
    have back : (stem ++ '.' :: ending).reverse = ending.reverse ++ '.' :: stem.reverse := by simp
    simp only [hasExtension, back, Text.takeWhile_append_stop letters stop,
      Text.dropWhile_append_stop letters stop]
    simpa using some

/-! ## Projects -/

namespace Project

/-- What a bake is made of. -/
structure Source where
  id : String
  kind : String
  pattern : String

/-- One use of a tool: what it takes, what it emits, and a flag. -/
structure Run where
  tool : String
  takes : String
  emits : String
  flag : String

/-- A bake with its sources, its runs, and the one file it puts out. -/
structure Bake where
  name : String
  sources : List Source
  runs : List Run
  port : String
  path : String

end Project

/-- A project. -/
structure Project where
  name : String
  profile : String
  tools : List String
  bakes : List Project.Bake
  /-- The bakes that are exported. -/
  exports : List String
  /-- The profiles that are declared. -/
  profiles : List String

namespace Project

/-! ## The text of a project -/

/-- What a `.make` says. -/
def Source.args (s : Source) : List Argument :=
  [word s.id, word s.kind, literal s.pattern]

/-- What the `.takes` of a run says. -/
def Run.input (r : Run) : List Argument :=
  [word r.takes, word "as", literal "@args"]

/-- What the `.emits` of a run says. -/
def Run.result (r : Run) : List Argument :=
  [word r.emits, word "as", literal "-o"]

/-- The block of a run. -/
def Run.entry (r : Run) : Entry :=
  .block "run" (some r.tool)
    [say "takes" r.input, say "emits" r.result, say "set" [literal r.flag]]

/-- What the `.output` of a bake says. -/
def Bake.output (b : Bake) : List Argument :=
  [word b.port, literal b.path]

/-- The block of a bake. -/
def Bake.entry (b : Bake) : Entry :=
  .block "bake" (some b.name)
    ((b.sources.map fun s => say "make" s.args) ++ b.runs.map Run.entry ++ [say "output" b.output])

/-- The block of a tool. -/
def toolEntry (tool : String) : Entry :=
  .block "tool" (some tool) [say "exec" [literal tool]]

/-- The block of a profile. -/
def profileEntry (profile : String) : Entry :=
  .block "profile" (some profile) []

/-- What a `.set` of the workspace says. -/
def setting (key value : String) : List Argument :=
  [word key, literal value]

section Text

variable (p : Project)

/-- The settings of the workspace. -/
def settings : List (List Argument) :=
  [setting "name" p.name, setting "root" ".", setting "target_dir" "target",
   setting "profile" p.profile]

/-- All blocks of a project. -/
def entries : List Entry :=
  [.block "workspace" none (p.settings.map (say "set"))] ++ p.tools.map toolEntry ++
    p.bakes.map Bake.entry ++
    [.block "export" none (p.exports.map fun name => say "ref" [word name])] ++
    p.profiles.map profileEntry

/-- The text of a project. -/
def text : String :=
  String.ofList (written p.entries)

end Text

example : text
    { name := "app", profile := "debug", tools := ["cc"], exports := ["build"],
      profiles := ["debug"],
      bakes := [{ name := "build", sources := [⟨"c_src", "cglob", "src/*.c"⟩],
                  runs := [⟨"cc", "c_src", "exe", "-O2"⟩], port := "exe",
                  path := "target/out/app.exe" }] } =
    "!muf 4
[workspace]
  .set name \"app\"
  .set root \".\"
  .set target_dir \"target\"
  .set profile \"debug\"
..
[tool cc]
  .exec \"cc\"
..
[bake build]
  .make c_src cglob \"src/*.c\"
  [run cc]
    .takes c_src as \"@args\"
    .emits exe as \"-o\"
    .set \"-O2\"
  ..
  .output exe \"target/out/app.exe\"
..
[export]
  .ref build
..
[profile debug]
..
" := by
  cbv

/-! ## Sound projects -/

/-- The source can be written, its kind is known, and its pattern is not blank. -/
@[mk_iff]
structure Source.Sound (s : Source) : Prop where
  id : (word s.id).Writable
  kind : s.kind ∈ sourceKinds
  pattern : (literal s.pattern).Plain
  full : Text.isAllBlank s.pattern.toList = false

/-- The run uses a declared tool, takes some source, and emits some output. -/
@[mk_iff]
structure Run.Sound (p : Project) (r : Run) : Prop where
  tool : r.tool ∈ p.tools
  -- the source and the output may be those of another bake
  takes : ∃ b ∈ p.bakes, ∃ s ∈ b.sources, s.id = r.takes
  emits : ∃ b ∈ p.bakes, b.port = r.emits
  flag : Argument.OneLine r.flag

/-- The bake has a name in snake case, sources with different ids, runs, and a good path. -/
@[mk_iff]
structure Bake.Sound (p : Project) (b : Bake) : Prop where
  snakeCase : isSnakeCase b.name = true
  someSource : b.sources ≠ []
  sources : ∀ s ∈ b.sources, s.Sound
  idsOnce : (b.sources.map Source.id).Nodup
  someRun : b.runs ≠ []
  runs : ∀ r ∈ b.runs, r.Sound p
  port : (word b.port).Writable
  inDirectory : outputDirectory.toList <+: b.path.toList
  extension : ∃ stem ending, b.path.toList = stem ++ '.' :: ending ∧ ending ≠ [] ∧
    ∀ c ∈ ending, c.isAlphanum = true
  solid : ∀ c ∈ b.path.toList, Text.isBlank c = false
  path : (literal b.path).Writable

/-- The project works: what has to be there is there, and every reference leads somewhere. -/
@[mk_iff]
structure Sound (p : Project) : Prop where
  name : Argument.OneLine p.name
  profile : p.profile ∈ p.profiles
  profiles : ∀ q ∈ p.profiles, isIdentifier q.toList = true
  someTool : p.tools ≠ []
  tools : ∀ t ∈ p.tools, isIdentifier t.toList = true
  toolsOnce : p.tools.Nodup
  -- that runs use declared tools only is part of the soundness of a run
  toolsUsed : ∀ t ∈ p.tools, ∃ b ∈ p.bakes, ∃ r ∈ b.runs, r.tool = t
  someBake : p.bakes ≠ []
  bakes : ∀ b ∈ p.bakes, b.Sound p
  bakesOnce : (p.bakes.map Bake.name).Nodup
  pathsOnce : (p.bakes.map Bake.path).Nodup
  -- a bake may be exported twice, and in any order
  exported : ∀ b ∈ p.bakes, b.name ∈ p.exports
  exports : ∀ name ∈ p.exports, ∃ b ∈ p.bakes, b.name = name

instance (s : Source) : Decidable s.Sound :=
  decidable_of_iff _ s.sound_iff.symm

instance (p : Project) (r : Run) : Decidable (r.Sound p) :=
  decidable_of_iff _ (r.sound_iff p).symm

instance (path : String) : Decidable (∃ stem ending, path.toList = stem ++ '.' :: ending ∧
    ending ≠ [] ∧ ∀ c ∈ ending, c.isAlphanum = true) :=
  decidable_of_iff _ hasExtension_iff

instance (p : Project) (b : Bake) : Decidable (b.Sound p) :=
  decidable_of_iff _ (b.sound_iff p).symm

instance (p : Project) : Decidable p.Sound :=
  decidable_of_iff _ p.sound_iff.symm

end Project

end LiveLint.Buildconf
