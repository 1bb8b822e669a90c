import LiveLint.Buildconf.Argument
import LiveLint.Buildconf.Line

/-!
# Documents

Blocks nest by a stack: an opener starts a block inside the innermost open one, a closer ends it,
and a directive belongs to the innermost open block. A closer with no block to end is passed over.
Blocks that are still open at the end of the text are ended there, the innermost first, as if
closers followed. A directive outside any block is loose.

`Nesting` is the state between two lines, and `Document.parse` is the state after the last one
with all blocks ended.
-/

namespace LiveLint.Buildconf

/-- A `.name arguments` line. -/
structure Directive where
  name : String
  /-- What follows the name, trimmed. -/
  rest : String
  /-- The number of its line. -/
  line : Nat
  args : List Argument := Argument.ofRest rest
deriving DecidableEq, Repr

namespace Directive

/-- What the argument at place `n` says, counted from 0. -/
def arg? (d : Directive) (n : Nat) : Option String :=
  d.args[n]?.map Argument.text

/-- Whether the argument at place `n` is the given word, without quotes. -/
def hasKeyword (d : Directive) (n : Nat) (keyword : String) : Bool :=
  d.args[n]?.any fun a => !a.quoted && a.text == keyword

end Directive

/-- A block from its opener to its closer. -/
structure Block where
  tag : String
  name : Option String
  /-- The number of the opener's line. -/
  line : Nat
  /-- The tag of the block around it. -/
  parentTag : Option String
  /-- The directives right inside it, in order. -/
  directives : List Directive
  /-- The blocks right inside it, in order. -/
  children : List Block
deriving Repr

namespace Block

/-- A block with nothing inside yet. -/
def opened (tag : String) (name : Option String) (line : Nat) (parentTag : Option String) : Block :=
  ⟨tag, name, line, parentTag, [], []⟩

/-- The block with one more directive at its end. -/
def withDirective (b : Block) (d : Directive) : Block :=
  { b with directives := b.directives ++ [d] }

/-- The block with one more block at its end. -/
def withChild (b child : Block) : Block :=
  { b with children := b.children ++ [child] }

/-- Its own directives of a name. -/
def directivesOf (b : Block) (name : String) : List Directive :=
  b.directives.filter (·.name == name)

/-- Whether it has a directive of a name itself. -/
def has (b : Block) (name : String) : Bool :=
  b.directives.any (·.name == name)

mutual

/-- The block and all blocks inside it, in the order of their openers. -/
def subtree : Block → List Block
  | ⟨tag, name, line, parentTag, directives, children⟩ =>
    ⟨tag, name, line, parentTag, directives, children⟩ :: subtrees children

/-- All blocks of a forest, in the order of their openers. -/
def subtrees : List Block → List Block
  | [] => []
  | b :: bs => b.subtree ++ subtrees bs

end

theorem has_iff {b : Block} {name : String} :
    b.has name = true ↔ b.directivesOf name ≠ [] := by
  simp [has, directivesOf, List.filter_eq_nil_iff]

end Block

/-! ## The stack of open blocks -/

/-- What is known after some lines of a document. -/
structure Nesting where
  /-- The blocks that are open, the innermost first. -/
  stack : List Block
  /-- The blocks outside any other that are closed, in order. -/
  closed : List Block
  /-- The directives outside any block, in order. -/
  loose : List Directive
deriving Repr

namespace Nesting

/-- Before the first line. -/
def start : Nesting := ⟨[], [], []⟩

/-- End the innermost open block, if there is one. -/
def close (s : Nesting) : Nesting :=
  match s.stack with
  | [] => s
  | [b] => { s with stack := [], closed := s.closed ++ [b] }
  | b :: parent :: rest => { s with stack := parent.withChild b :: rest }

/-- Put a directive where it belongs. -/
def addDirective (s : Nesting) (d : Directive) : Nesting :=
  match s.stack with
  | [] => { s with loose := s.loose ++ [d] }
  | b :: rest => { s with stack := b.withDirective d :: rest }

/-- Read one line. -/
def step (s : Nesting) (line : Line) : Nesting :=
  match line.kind with
  | .opener tag name =>
    let parentTag := s.stack.head?.map Block.tag
    { s with stack := .opened tag name line.number parentTag :: s.stack }
  | .closer => s.close
  | .directive name rest => s.addDirective { name, rest, line := line.number }
  | .blank | .comment | .header _ | .text => s

/-- Read lines from the start. -/
def ofLines (lines : List Line) : Nesting :=
  lines.foldl step start

/-- End blocks until none is open. -/
def closeAll : Nat → Nesting → Nesting
  | 0, s => s
  | n + 1, s => closeAll n s.close

/-- The same with no block open. -/
def finish (s : Nesting) : Nesting :=
  closeAll s.stack.length s

theorem length_stack_close (s : Nesting) : s.close.stack.length = s.stack.length - 1 := by
  unfold close
  split <;> simp_all

theorem stack_finish (s : Nesting) : s.finish.stack = [] := by
  suffices h : ∀ n (t : Nesting), t.stack.length ≤ n → (closeAll n t).stack = [] from
    h _ _ (Nat.le_refl _)
  intro n
  induction n with
  | zero => intro t ht; exact List.length_eq_zero_iff.1 (Nat.le_zero.1 ht)
  | succ n ih =>
    intro t ht
    refine ih _ ?_
    rw [length_stack_close]
    omega

end Nesting

/-! ## Documents and what is asked of them -/

/-- A whole document. -/
structure Document where
  lines : List Line
  /-- The blocks outside any other, in order. -/
  blocks : List Block
  /-- The directives outside any block, in order. -/
  loose : List Directive
deriving Repr

namespace Document

/-- Read a document. -/
def parse (cs : List Char) : Document :=
  let lines := Line.ofText cs
  let nesting := (Nesting.ofLines lines).finish
  ⟨lines, nesting.closed, nesting.loose⟩

/-- Every block at any depth, in the order of the openers. -/
def blocksInOrder (doc : Document) : List Block :=
  Block.subtrees doc.blocks

/-- The blocks of a tag, in the order of the openers. -/
def blocksOf (doc : Document) (tag : String) : List Block :=
  doc.blocksInOrder.filter (·.tag == tag)

/-- Every directive, inside blocks or not, in the order of the lines. -/
def directivesInOrder (doc : Document) : List Directive :=
  (doc.loose ++ doc.blocksInOrder.flatMap Block.directives).mergeSort (·.line ≤ ·.line)

/-- The directives of a name, inside blocks or not, in the order of the lines. -/
def directivesOf (doc : Document) (name : String) : List Directive :=
  doc.directivesInOrder.filter (·.name == name)

/-- The lines that are more than layout. -/
def meaningfulLines (doc : Document) : List Line :=
  doc.lines.filter Line.isMeaningful

/-- The names of the blocks of a tag, with their lines; blocks without a name are left out. -/
def named (doc : Document) (tag : String) : List (String × Nat) :=
  (doc.blocksOf tag).filterMap fun b => b.name.map (·, b.line)

@[simp] theorem lines_parse (cs : List Char) : (parse cs).lines = Line.ofText cs := rfl

end Document

end LiveLint.Buildconf
