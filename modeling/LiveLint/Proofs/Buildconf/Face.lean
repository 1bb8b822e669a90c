import LiveLint.Proofs.Buildconf.CrossReference
import LiveLint.Proofs.Buildconf.Written

/-!
# What a document says

Apart from the lines it is on, a document is a list of blocks, and a block is its tag, its name,
what its directives say and which blocks stand in it. `Face` is that much of a block. A document
that shows a list of faces (`Document.Shows`) answers the queries of the checks from it: the names
of a tag, the arguments of all directives of a name. A document that was written shows the faces of
its entries (`shows_written`), so what the checks find in it can be told from the entries.
-/

namespace LiveLint.Buildconf

/-! ## Faces -/

/-- What a directive says. -/
structure Saying where
  name : String
  args : List Argument
deriving DecidableEq, Repr

/-- What a block says. -/
structure Face where
  parentTag : Option String
  tag : String
  name : Option String
  /-- What the directives right inside it say. -/
  sayings : List Saying
  /-- The tags of the blocks right inside it. -/
  inner : List String
deriving DecidableEq, Repr

/-- What a directive says, apart from its line. -/
def Directive.saying (d : Directive) : Saying :=
  ⟨d.name, d.args⟩

/-- What a block says, apart from its line. -/
def Block.face (b : Block) : Face :=
  ⟨b.parentTag, b.tag, b.name, b.directives.map Directive.saying, b.children.map Block.tag⟩

/-- What the argument at place `n` says. -/
def argText (args : List Argument) (n : Nat) : Option String :=
  args[n]?.map Argument.text

/-- Whether the argument at place `n` is the given word, without quotes. -/
def isKeyword (args : List Argument) (n : Nat) (keyword : String) : Bool :=
  args[n]?.any fun a => !a.quoted && a.text == keyword

/-- The arguments of those who say something of a name. -/
def argsAmong (name : String) (sayings : List Saying) : List (List Argument) :=
  (sayings.filter (·.name == name)).map Saying.args

theorem map_args_filter (name : String) (ds : List Directive) :
    (ds.filter (·.name == name)).map Directive.args =
      argsAmong name (ds.map Directive.saying) := by
  rw [argsAmong, List.filter_map, List.map_map]
  rfl

@[simp] theorem argsAmong_nil (name : String) : argsAmong name [] = [] :=
  rfl

@[simp] theorem argsAmong_cons (name : String) (s : Saying) (sayings : List Saying) :
    argsAmong name (s :: sayings) =
      if s.name = name then s.args :: argsAmong name sayings else argsAmong name sayings := by
  simp only [argsAmong, List.filter_cons, beq_iff_eq]
  split <;> rfl

@[simp] theorem argsAmong_append (name : String) (before after : List Saying) :
    argsAmong name (before ++ after) = argsAmong name before ++ argsAmong name after := by
  rw [argsAmong, List.filter_append, List.map_append]
  rfl

@[simp] theorem argsAmong_map {α : Type} (name called : String) (args : α → List Argument)
    (xs : List α) :
    argsAmong name (xs.map fun x => ⟨called, args x⟩) =
      if called = name then xs.map args else [] := by
  induction xs with
  | nil => exact (ite_self _).symm
  | cons x xs ih =>
    rw [List.map_cons, argsAmong_cons, ih]
    split <;> rfl

section OfBlock

variable {b : Block} {f : Face} (h : b.face = f)
include h

theorem name_of_face : b.name = f.name := by
  rw [← h]
  rfl

theorem parentTag_of_face : b.parentTag = f.parentTag := by
  rw [← h]
  rfl

theorem map_args_directivesOf (name : String) :
    (b.directivesOf name).map Directive.args = argsAmong name f.sayings := by
  rw [← h]
  exact map_args_filter name b.directives

theorem has_of_face (name : String) : b.has name = true ↔ argsAmong name f.sayings ≠ [] := by
  rw [Block.has_iff, ← map_args_directivesOf h, ne_eq, ne_eq, List.map_eq_nil_iff]

/-- A block has no other directives than the given ones if its face says nothing else. -/
theorem otherDirectives_eq_nil {allowed : List String} (only : ∀ s ∈ f.sayings, s.name ∈ allowed) :
    b.otherDirectives allowed = [] := by
  rw [Block.otherDirectives, List.filter_eq_nil_iff]
  intro d hd
  have said : d.saying ∈ f.sayings := by
    rw [← h]
    exact List.mem_map_of_mem hd
  have known : d.name ∈ allowed := only _ said
  simpa using known

theorem any_tag_children (tag : String) : b.children.any (·.tag == tag) = f.inner.contains tag := by
  rw [← h]
  show _ = (b.children.map Block.tag).contains tag
  rw [List.contains_eq_any_beq, List.any_map]
  congr 1
  funext c
  exact Bool.beq_comm

end OfBlock

/-! ## Documents that show faces -/

/-- What a document says is what the faces say, and nothing is loose. -/
structure Document.Shows (doc : Document) (faces : List Face) : Prop where
  blocks : doc.blocksInOrder.map Block.face = faces
  directives : doc.allDirectives.map Directive.saying = faces.flatMap Face.sayings

/-- The arguments of all directives of a name, as the faces have them. -/
def said (faces : List Face) (name : String) : List (List Argument) :=
  argsAmong name (faces.flatMap Face.sayings)

/-- The names of the faces of a tag. -/
def namesAmong (tag : String) (faces : List Face) : List String :=
  (faces.filter (·.tag == tag)).filterMap Face.name

theorem said_eq_flatMap (faces : List Face) (name : String) :
    said faces name = faces.flatMap fun f => argsAmong name f.sayings := by
  rw [said, argsAmong, List.filter_flatMap, List.map_flatMap]
  rfl

theorem filter_tag_map {α : Type} {face : α → Face} {tag : String}
    (tagged : ∀ x, (face x).tag = tag) (wanted : String) (xs : List α) :
    (xs.map face).filter (·.tag == wanted) = if tag = wanted then xs.map face else [] := by
  split
  · next same =>
    rw [List.filter_eq_self, List.forall_mem_map]
    intro x _
    rw [tagged, beq_iff_eq]
    exact same
  · next other =>
    rw [List.filter_eq_nil_iff, List.forall_mem_map]
    intro x _
    rw [tagged, beq_iff_eq]
    exact other

namespace Document.Shows

variable {doc : Document} {faces : List Face} (shows : doc.Shows faces)
include shows

theorem face_mem {b : Block} {tag : String} (hb : b ∈ doc.blocksOf tag) :
    b.face ∈ faces ∧ b.face.tag = tag := by
  rw [mem_blocksOf] at hb
  rw [← shows.blocks]
  exact ⟨List.mem_map_of_mem hb.1, hb.2⟩

theorem map_face_blocksOf (tag : String) :
    (doc.blocksOf tag).map Block.face = faces.filter (·.tag == tag) := by
  rw [← shows.blocks, List.filter_map]
  rfl

theorem map_named (tag : String) : (doc.named tag).map (·.1) = namesAmong tag faces := by
  have pieces : ∀ b : Block, (b.name.map (·, b.line)).map Prod.fst = b.face.name := by
    intro b
    rw [Option.map_map]
    exact Option.map_id'
  rw [named, List.map_filterMap, namesAmong, ← shows.map_face_blocksOf, List.filterMap_map]
  exact List.filterMap_congr fun b _ => pieces b

/-- The arguments of the directives of a name, in some order. -/
theorem perm_args (name : String) :
    ((doc.directivesOf name).map Directive.args).Perm (said faces name) := by
  rw [said, ← shows.directives, ← map_args_filter]
  have perm : doc.directivesInOrder.Perm doc.allDirectives := List.mergeSort_perm _ _
  exact (perm.filter _).map _

theorem args_mem {name : String} {d : Directive} (hd : d ∈ doc.directivesOf name) :
    d.args ∈ said faces name :=
  (shows.perm_args name).subset (List.mem_map_of_mem hd)

theorem exists_of_mem_args {name : String} {args : List Argument} (h : args ∈ said faces name) :
    ∃ d ∈ doc.directivesOf name, d.args = args :=
  List.mem_map.mp ((shows.perm_args name).symm.subset h)

theorem directivesOf_ne_nil {name : String} (h : said faces name ≠ []) :
    doc.directivesOf name ≠ [] := by
  obtain ⟨args, hargs⟩ := List.exists_mem_of_ne_nil _ h
  obtain ⟨d, hd, _⟩ := shows.exists_of_mem_args hargs
  exact List.ne_nil_of_mem hd

theorem named_ne_nil {tag : String} (h : namesAmong tag faces ≠ []) : doc.named tag ≠ [] := by
  rw [← shows.map_named] at h
  exact mt List.map_eq_nil_iff.mpr h

theorem name_mem {tag : String} {use : String × Nat} (h : use ∈ doc.named tag) :
    use.1 ∈ namesAmong tag faces := by
  rw [← shows.map_named]
  exact List.mem_map_of_mem h

theorem mem_ids {directive id : String} :
    id ∈ doc.ids directive ↔ ∃ args ∈ said faces directive, argText args 0 = some id := by
  constructor
  · rintro ⟨d, hd, called, found⟩
    exact ⟨d.args, shows.args_mem (mem_directivesOf.mpr ⟨hd, called⟩), found⟩
  · rintro ⟨args, hargs, found⟩
    obtain ⟨d, hd, rfl⟩ := shows.exists_of_mem_args hargs
    exact ⟨d, (mem_directivesOf.mp hd).1, (mem_directivesOf.mp hd).2, found⟩

end Document.Shows

/-! ## Entries and their faces -/

/-- What the directives right among parts say. -/
def Entries.sayings (es : List Entry) : List Saying :=
  es.filterMap fun
    | .directive name rest => some ⟨name, Argument.ofRest rest⟩
    | .block .. => none

/-- The tags of the blocks right among parts. -/
def Entries.tags (es : List Entry) : List String :=
  es.filterMap fun
    | .directive .. => none
    | .block tag .. => some tag

mutual

/-- The faces of the blocks of a part. -/
def Entry.faces (parentTag : Option String) : Entry → List Face
  | .directive .. => []
  | .block tag name entries =>
    ⟨parentTag, tag, name, Entries.sayings entries, Entries.tags entries⟩ ::
      Entries.faces (some tag) entries

/-- The faces of the blocks of several parts. -/
def Entries.faces (parentTag : Option String) : List Entry → List Face
  | [] => []
  | e :: es => e.faces parentTag ++ Entries.faces parentTag es

end

theorem Entries.faces_eq_flatMap (parentTag : Option String) (es : List Entry) :
    Entries.faces parentTag es = es.flatMap (Entry.faces parentTag) := by
  induction es with
  | nil => rfl
  | cons e es ih => rw [Entries.faces, ih, List.flatMap_cons]

theorem Entries.sayings_append (es fs : List Entry) :
    Entries.sayings (es ++ fs) = Entries.sayings es ++ Entries.sayings fs :=
  List.filterMap_append

theorem Entries.tags_append (es fs : List Entry) :
    Entries.tags (es ++ fs) = Entries.tags es ++ Entries.tags fs :=
  List.filterMap_append

theorem Entries.faces_append (parentTag : Option String) (es fs : List Entry) :
    Entries.faces parentTag (es ++ fs) =
      Entries.faces parentTag es ++ Entries.faces parentTag fs := by
  simp only [Entries.faces_eq_flatMap, List.flatMap_append]

theorem Entries.map_saying_directivesAt (n : Nat) (es : List Entry) :
    (Entries.directivesAt n es).map Directive.saying = Entries.sayings es := by
  induction es generalizing n with
  | nil => rfl
  | cons e es ih =>
    cases e with
    | directive name rest => exact congrArg _ (ih (n + 1))
    | block tag name entries => exact ih _

theorem Entries.map_tag_blocksAt (parentTag : Option String) (n : Nat) (es : List Entry) :
    (Entries.blocksAt parentTag n es).map Block.tag = Entries.tags es := by
  induction es generalizing n with
  | nil => rfl
  | cons e es ih =>
    rw [Entries.blocksAt, List.map_append, ih]
    cases e <;> rfl

mutual

theorem Entry.map_face_blocksAt : ∀ (e : Entry) (parentTag : Option String) (n : Nat),
    (Block.subtrees (e.blocksAt parentTag n)).map Block.face = e.faces parentTag
  | .directive name rest, parentTag, n => rfl
  | .block tag name entries, parentTag, n => by
    rw [Entry.blocksAt, Block.subtrees_singleton, Block.subtree, List.map_cons, Entry.faces,
      Entries.map_face_blocksAt entries, Block.face, Entries.map_saying_directivesAt,
      Entries.map_tag_blocksAt]

theorem Entries.map_face_blocksAt : ∀ (es : List Entry) (parentTag : Option String) (n : Nat),
    (Block.subtrees (Entries.blocksAt parentTag n es)).map Block.face =
      Entries.faces parentTag es
  | [], parentTag, n => rfl
  | e :: es, parentTag, n => by
    rw [Entries.blocksAt, Block.subtrees_append, List.map_append, Entry.map_face_blocksAt e,
      Entries.map_face_blocksAt es, Entries.faces]

end

/-- **A written document shows the faces of its entries.** -/
theorem shows_written {entries : List Entry} (ok : Entries.Writable entries)
    (tight : Entries.sayings entries = []) :
    (Document.parse (written entries)).Shows (Entries.faces none entries) := by
  have faces : (Document.parse (written entries)).blocksInOrder.map Block.face =
      Entries.faces none entries := by
    rw [Document.blocksInOrder, parse_written ok]
    exact Entries.map_face_blocksAt entries none 2
  -- so all directives are those of blocks
  have loose : (Document.parse (written entries)).loose.map Directive.saying = [] := by
    rw [parse_written ok]
    exact (Entries.map_saying_directivesAt 2 entries).trans tight
  refine ⟨faces, ?_⟩
  rw [Document.allDirectives, List.map_append, loose, List.nil_append, ← faces, List.flatMap_map,
    List.map_flatMap]
  rfl

end LiveLint.Buildconf
