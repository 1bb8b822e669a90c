import LiveLint.Proofs.Buildconf.LineText

/-!
# Documents as they are written

Whoever writes a document on purpose starts with the header and puts what stands in a block two
spaces further in, with a closer under the opener. `Entry` is what such a document is made of and
`written` is its text. The main statement is `parse_written`: the text is read as the tree it was
written for, with everything on the line where it was put.

The rows of an entry are read in one go: whatever is open in front of them gets the directives and
blocks of the entry and nothing else changes (`foldl_rows`). That is an induction on entries, in
which a block is opened, filled by what stands in it, and closed.
-/

namespace LiveLint.Buildconf

/-! ## What is written -/

/-- A part of a document. -/
inductive Entry
  | directive (name rest : String)
  | block (tag : String) (name : Option String) (entries : List Entry)

/-- One row of a text: what it says, and how many blocks it stands in. -/
structure Row where
  depth : Nat
  kind : LineKind

namespace Row

/-- Two spaces for every block around a row. -/
def indent (depth : Nat) : List Char :=
  List.replicate (2 * depth) ' '

/-- The row as it is written. -/
def text (row : Row) : List Char :=
  indent row.depth ++ row.kind.written

theorem isBlank_of_mem_indent {depth : Nat} : ∀ c ∈ indent depth, Text.isBlank c = true := by
  intro c hc
  rw [List.eq_of_mem_replicate hc]
  rfl

theorem ofLine_text {row : Row} (ok : row.kind.Writable) : .ofLine row.text = row.kind :=
  LineKind.ofLine_written ok isBlank_of_mem_indent

theorem trim_text {row : Row} (ok : row.kind.Writable) : Text.trim row.text = row.kind.written := by
  rw [Text.trim, text, Text.trimStart_append_of_blank isBlank_of_mem_indent, ← Text.trim,
    (LineKind.trimmed_written ok).trim_eq]

end Row

mutual

/-- The rows of a part that stands in `depth` blocks. -/
def Entry.rows (depth : Nat) : Entry → List Row
  | .directive name rest => [⟨depth, .directive name rest⟩]
  | .block tag name entries =>
    ⟨depth, .opener tag name⟩ :: (Entries.rows (depth + 1) entries ++ [⟨depth, .closer⟩])

/-- The rows of several parts, one part after the other. -/
def Entries.rows (depth : Nat) : List Entry → List Row
  | [] => []
  | e :: es => e.rows depth ++ Entries.rows depth es

end

theorem Entries.rows_eq_flatMap (depth : Nat) (es : List Entry) :
    Entries.rows depth es = es.flatMap (Entry.rows depth) := by
  induction es with
  | nil => rfl
  | cons e es ih => rw [Entries.rows, ih, List.flatMap_cons]

mutual

/-- How many rows a part has. -/
def Entry.size : Entry → Nat
  | .directive .. => 1
  | .block _ _ entries => Entries.size entries + 2

/-- How many rows several parts have. -/
def Entries.size : List Entry → Nat
  | [] => 0
  | e :: es => e.size + Entries.size es

end

mutual

theorem Entry.length_rows (depth : Nat) : ∀ e : Entry, (e.rows depth).length = e.size
  | .directive .. => rfl
  | .block tag name entries => by
    rw [Entry.rows, Entry.size, List.length_cons, List.length_append,
      Entries.length_rows _ entries]
    rfl

theorem Entries.length_rows (depth : Nat) :
    ∀ es : List Entry, (Entries.rows depth es).length = Entries.size es
  | [] => rfl
  | e :: es => by
    rw [Entries.rows, Entries.size, List.length_append, Entry.length_rows depth e,
      Entries.length_rows depth es]

end

/-- All rows of a document, the header first. -/
def documentRows (entries : List Entry) : List Row :=
  ⟨0, .header true⟩ :: Entries.rows 0 entries

/-- The text of a document. Every row ends in a line feed. -/
def written (entries : List Entry) : List Char :=
  ((documentRows entries).map Row.text).flatMap (· ++ ['\n'])

/-- Every row has a written form. -/
def Entries.Writable (entries : List Entry) : Prop :=
  ∀ row ∈ Entries.rows 0 entries, row.kind.Writable

/-! ## Where things stand -/

/-- The directives right among parts that start on a line. -/
def Entries.directivesAt (line : Nat) : List Entry → List Directive
  | [] => []
  | .directive name rest :: es => { name, rest, line } :: Entries.directivesAt (line + 1) es
  | .block tag name entries :: es =>
    Entries.directivesAt (line + (Entry.block tag name entries).size) es

mutual

/-- The block of a part that starts on a line. -/
def Entry.blocksAt (parentTag : Option String) (line : Nat) : Entry → List Block
  | .directive .. => []
  | .block tag name entries =>
    [⟨tag, name, line, parentTag, Entries.directivesAt (line + 1) entries,
      Entries.blocksAt (some tag) (line + 1) entries⟩]

/-- The blocks right among parts that start on a line. -/
def Entries.blocksAt (parentTag : Option String) (line : Nat) : List Entry → List Block
  | [] => []
  | e :: es => e.blocksAt parentTag line ++ Entries.blocksAt parentTag (line + e.size) es

end

theorem Entries.directivesAt_cons (line : Nat) (e : Entry) (es : List Entry) :
    Entries.directivesAt line (e :: es) =
      Entries.directivesAt line [e] ++ Entries.directivesAt (line + e.size) es := by
  cases e <;> rfl

/-! ## Lines of rows -/

/-- Rows as lines from a number on. -/
def numbered (n : Nat) (rows : List Row) : List Line :=
  (rows.zipIdx n).map fun (row, number) => { number, raw := row.text }

theorem numbered_cons (n : Nat) (row : Row) (rows : List Row) :
    numbered n (row :: rows) = { number := n, raw := row.text } :: numbered (n + 1) rows :=
  rfl

theorem numbered_append (n : Nat) (before after : List Row) :
    numbered n (before ++ after) = numbered n before ++ numbered (n + before.length) after := by
  rw [numbered, List.zipIdx_append, List.map_append]
  rfl

/-- A text of whole lines is cut into these lines, with an empty one at the end. -/
theorem splitLines_flatMap {lines : List (List Char)} (whole : ∀ line ∈ lines, '\n' ∉ line) :
    Text.splitLines (lines.flatMap (· ++ ['\n'])) = lines ++ [[]] := by
  induction lines with
  | nil => rfl
  | cons line lines ih =>
    have first := whole line List.mem_cons_self
    have later := ih fun l hl => whole l (List.mem_cons_of_mem _ hl)
    rw [List.flatMap_cons, List.append_assoc, List.singleton_append, Text.splitLines_append first,
      later, List.cons_append]

/-- A row is a line of its kind. -/
theorem Row.line_eq {row : Row} (ok : row.kind.Writable) (n : Nat) :
    ({ number := n, raw := row.text } : Line) = ⟨n, row.text, row.kind⟩ :=
  congrArg (Line.mk n row.text) (Row.ofLine_text ok)

/-- A blank character in a row is a space, or it is in the rest of a directive. -/
theorem Row.not_mem_text {row : Row} (ok : row.kind.Writable) {c : Char}
    (blank : Text.isBlank c = true) (other : c ≠ ' ')
    (rest : ∀ name rest, row.kind = .directive name rest → c ∉ rest.toList) : c ∉ row.text := by
  intro hc
  rcases List.mem_append.mp hc with hc | hc
  · exact other (List.eq_of_mem_replicate hc)
  · rcases LineKind.eq_space_or_mem_rest ok hc blank with space | ⟨name, r, kind, hc⟩
    · exact other space
    · exact rest name r kind hc

theorem Row.newline_not_mem_text {row : Row} (ok : row.kind.Writable) : '\n' ∉ row.text := by
  refine Row.not_mem_text ok rfl (by decide) ?_
  intro name rest kind
  rw [kind] at ok
  exact ok.2.2.2

theorem writable_documentRows {entries : List Entry} (ok : Entries.Writable entries) :
    ∀ row ∈ documentRows entries, row.kind.Writable :=
  List.forall_mem_cons.mpr ⟨rfl, ok⟩

/-- The lines of a written document are its rows and an empty line. -/
theorem ofText_written {entries : List Entry} (ok : Entries.Writable entries) :
    Line.ofText (written entries) = numbered 1 (documentRows entries) ++
      [{ number := Entries.size entries + 2, raw := [] }] := by
  have whole : ∀ line ∈ (documentRows entries).map Row.text, '\n' ∉ line := by
    intro line hline
    obtain ⟨row, hrow, rfl⟩ := List.mem_map.mp hline
    exact Row.newline_not_mem_text (writable_documentRows ok row hrow)
  have count : 1 + (documentRows entries).length = Entries.size entries + 2 := by
    rw [documentRows, List.length_cons, Entries.length_rows]
    omega
  rw [Line.ofText, written, splitLines_flatMap whole, List.zipIdx_append, List.map_append,
    List.length_map, count, List.zipIdx_map, List.map_map]
  rfl

/-! ## Reading the rows of an entry -/

namespace Nesting

/-- The tag of the innermost open block. -/
def innerTag (s : Nesting) : Option String :=
  s.stack.head?.map Block.tag

/-- The state with more directives and more closed blocks in the innermost place. -/
def extend (s : Nesting) (ds : List Directive) (bs : List Block) : Nesting :=
  match s.stack with
  | [] => { s with loose := s.loose ++ ds, closed := s.closed ++ bs }
  | b :: rest =>
    let extended := { b with directives := b.directives ++ ds, children := b.children ++ bs }
    { s with stack := extended :: rest }

theorem extend_nil (s : Nesting) : s.extend [] [] = s := by
  obtain ⟨stack, closed, loose⟩ := s
  rcases stack with _ | ⟨⟨tag, name, line, parentTag, directives, children⟩, rest⟩ <;>
    simp [extend]

theorem extend_extend (s : Nesting) (ds ds' : List Directive) (bs bs' : List Block) :
    (s.extend ds bs).extend ds' bs' = s.extend (ds ++ ds') (bs ++ bs') := by
  obtain ⟨stack, closed, loose⟩ := s
  cases stack <;> simp [extend]

theorem innerTag_extend (s : Nesting) (ds : List Directive) (bs : List Block) :
    (s.extend ds bs).innerTag = s.innerTag := by
  obtain ⟨stack, closed, loose⟩ := s
  cases stack <;> rfl

theorem addDirective_eq_extend (s : Nesting) (d : Directive) :
    s.addDirective d = s.extend [d] [] := by
  obtain ⟨stack, closed, loose⟩ := s
  cases stack <;> simp [addDirective, extend, Block.withDirective]

/-- To open a block, fill it and close it is to add it. -/
theorem close_extend_opened (s : Nesting) (tag : String) (name : Option String) (line : Nat)
    (ds : List Directive) (bs : List Block) :
    ((s.opened tag name line).extend ds bs).close =
      s.extend [] [⟨tag, name, line, s.innerTag, ds, bs⟩] := by
  obtain ⟨stack, closed, loose⟩ := s
  cases stack <;> simp [opened, extend, close, innerTag, Block.opened, Block.withChild]

end Nesting

mutual

/-- The rows of a part add it in the innermost place. -/
theorem Entry.foldl_rows : ∀ (e : Entry) {depth : Nat}, (∀ row ∈ e.rows depth, row.kind.Writable) →
    ∀ (n : Nat) (s : Nesting), (numbered n (e.rows depth)).foldl Nesting.step s =
      s.extend (Entries.directivesAt n [e]) (e.blocksAt s.innerTag n)
  | .directive name rest, depth, ok, n, s => by
    have line := Row.line_eq (ok _ List.mem_cons_self) n
    rw [Entry.rows, numbered_cons, line]
    exact Nesting.addDirective_eq_extend s _
  | .block tag name entries, depth, ok, n, s => by
    rw [Entry.rows, List.forall_mem_cons, List.forall_mem_append, List.forall_mem_singleton] at ok
    obtain ⟨opens, inside, closes⟩ := ok
    -- opened, filled, and closed: then the block stands among the children of its place
    have filled := Entries.foldl_rows entries inside (n + 1) (s.opened tag name n)
    rw [Entry.rows, numbered_cons, numbered_append, Row.line_eq opens, List.foldl_cons,
      List.foldl_append, numbered_cons, Row.line_eq closes]
    exact (congrArg Nesting.close filled).trans (Nesting.close_extend_opened s tag name n _ _)

/-- The rows of several parts add them in the innermost place. -/
theorem Entries.foldl_rows : ∀ (es : List Entry) {depth : Nat},
    (∀ row ∈ Entries.rows depth es, row.kind.Writable) →
    ∀ (n : Nat) (s : Nesting), (numbered n (Entries.rows depth es)).foldl Nesting.step s =
      s.extend (Entries.directivesAt n es) (Entries.blocksAt s.innerTag n es)
  | [], _, _, n, s => (Nesting.extend_nil s).symm
  | e :: es, depth, ok, n, s => by
    rw [Entries.rows] at ok
    have first := Entry.foldl_rows e (fun row hrow => ok row (List.mem_append_left _ hrow)) n s
    have later := Entries.foldl_rows es (fun row hrow => ok row (List.mem_append_right _ hrow))
      (n + e.size) (s.extend (Entries.directivesAt n [e]) (e.blocksAt s.innerTag n))
    rw [Entries.rows, numbered_append, List.foldl_append, first, Entry.length_rows, later,
      Nesting.extend_extend, Nesting.innerTag_extend, Entries.directivesAt_cons n e es,
      Entries.blocksAt]

end

/-- **A document is read as it was written**: every directive and every block in its place, on its
line. -/
theorem parse_written {entries : List Entry} (ok : Entries.Writable entries) :
    Document.parse (written entries) =
      { lines := numbered 1 (documentRows entries) ++
          [{ number := Entries.size entries + 2, raw := [] }]
        blocks := Entries.blocksAt none 2 entries
        loose := Entries.directivesAt 2 entries } := by
  have read : Nesting.ofLines (numbered 1 (documentRows entries) ++
      [{ number := Entries.size entries + 2, raw := [] }]) =
      ⟨[], Entries.blocksAt none 2 entries, Entries.directivesAt 2 entries⟩ := by
    have header := Row.line_eq (writable_documentRows ok _ List.mem_cons_self) 1
    rw [Nesting.ofLines_snoc, documentRows, numbered_cons, header, Nesting.ofLines,
      List.foldl_cons]
    exact congrArg (Nesting.step · _) (Entries.foldl_rows entries ok 2 Nesting.start)
  rw [Document.parse, ofText_written ok, read]
  rfl

end LiveLint.Buildconf
