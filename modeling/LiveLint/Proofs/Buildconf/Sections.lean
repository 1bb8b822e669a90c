import LiveLint.Proofs.Buildconf.Rearranged
import Mathlib.Data.List.Infix

/-!
# The order of sections does not matter

A stretch of lines is self-contained if every opener in it is closed in it and every closer in it
closes such an opener. Two self-contained stretches that follow each other where no block is open
can change places: severity, code and message of all findings stay the same, and as many of each
(`analyze_exchange`). The lines they are told on do not.

Where no block is open, a reader only adds to what it has read so far (`foldl_step_after`). So what
it makes of a stretch is the same wherever the stretch stands, but for the numbers of the lines, and
the whole document is put together from what its stretches are read as (`finish_sections`).
-/

namespace LiveLint

namespace Buildconf

/-! ## Stretches of lines -/

/-- Whether a line opens a block. -/
def opensBlock (raw : List Char) : Bool :=
  match LineKind.ofLine raw with
  | .opener _ _ => true
  | _ => false

/-- Whether a line closes a block. -/
def closesBlock (raw : List Char) : Bool :=
  LineKind.ofLine raw == .closer

/-- No closer comes before the opener that it closes, and all openers are closed. -/
structure SelfContained (raws : List (List Char)) : Prop where
  opened : ∀ before, before <+: raws → before.countP closesBlock ≤ before.countP opensBlock
  closed : raws.countP opensBlock = raws.countP closesBlock

instance (raws : List (List Char)) : Decidable (SelfContained raws) :=
  decidable_of_iff ((∀ before ∈ raws.inits, before.countP closesBlock ≤ before.countP opensBlock) ∧
      raws.countP opensBlock = raws.countP closesBlock)
    ⟨fun h => ⟨fun before first => h.1 before ((List.mem_inits before raws).mpr first), h.2⟩,
      fun h => ⟨fun before first => h.opened before ((List.mem_inits before raws).mp first),
        h.closed⟩⟩

/-- Lines numbered from `n`. -/
def linesFrom (n : Nat) (raws : List (List Char)) : List Line :=
  (raws.zipIdx n).map fun (raw, number) => { number, raw }

/-- The text with the given lines. -/
def joined (raws : List (List Char)) : String :=
  String.ofList (['\n'].intercalate raws)

section Lines

variable {n m : Nat} {raws more : List (List Char)}

theorem linesFrom_append :
    linesFrom n (raws ++ more) = linesFrom n raws ++ linesFrom (n + raws.length) more := by
  rw [linesFrom, List.zipIdx_append, List.map_append]
  rfl

/-- The lines of a text are those it was joined of. -/
theorem ofText_joined (cut : ∀ raw ∈ raws, '\n' ∉ raw) (some : raws ≠ []) :
    Line.ofText (joined raws).toList = linesFrom 1 raws := by
  rw [joined, String.toList_ofList, Line.ofText, Text.splitLines_eq_splitOn,
    List.splitOn_intercalate '\n' cut some, linesFrom]

/-- The same lines under other numbers. -/
theorem linesFrom_related {R : Line → Line → Prop} (h : ∀ i < raws.length, ∀ raw,
    R { number := n + i, raw } { number := m + i, raw }) :
    List.Forall₂ R (linesFrom n raws) (linesFrom m raws) := by
  induction raws generalizing n m with
  | nil => exact .nil
  | cons raw raws ih =>
    refine .cons (h 0 (Nat.zero_lt_succ _) raw) (ih ?_)
    intro i hi raw
    have next := h (i + 1) (Nat.succ_lt_succ hi) raw
    rwa [Nat.add_comm i 1, ← Nat.add_assoc, ← Nat.add_assoc] at next

theorem linesFrom_alike (n m : Nat) (raws : List (List Char)) :
    List.Forall₂ (Line.Alike Anywhere) (linesFrom n raws) (linesFrom m raws) :=
  linesFrom_related fun _ _ _ => ⟨rfl, rfl, trivial⟩

end Lines

/-! ## Reading where no block is open -/

namespace Nesting

/-- The state with blocks and directives before those that it has. -/
def after (s : Nesting) (closed : List Block) (loose : List Directive) : Nesting :=
  { s with closed := closed ++ s.closed, loose := loose ++ s.loose }

variable {s : Nesting} {closed : List Block} {loose : List Directive}

theorem close_after : (s.after closed loose).close = s.close.after closed loose := by
  obtain ⟨_ | ⟨b, _ | ⟨parent, rest⟩⟩, done, others⟩ := s
  · rfl
  · simp [after, close]
  · rfl

theorem addDirective_after (d : Directive) :
    (s.after closed loose).addDirective d = (s.addDirective d).after closed loose := by
  obtain ⟨_ | ⟨b, rest⟩, done, others⟩ := s
  · simp [after, addDirective]
  · rfl

theorem step_after (line : Line) :
    (s.after closed loose).step line = (s.step line).after closed loose := by
  unfold step
  cases line.kind with
  | opener tag name => rfl
  | closer => exact close_after
  | directive name rest => exact addDirective_after _
  | blank => rfl
  | comment => rfl
  | header valid => rfl
  | text => rfl

/-- What was read before makes no difference to what is read now. -/
theorem foldl_step_after (lines : List Line) :
    lines.foldl step (s.after closed loose) = (lines.foldl step s).after closed loose := by
  induction lines generalizing s with
  | nil => rfl
  | cons line lines ih => rw [List.foldl_cons, step_after, ih, List.foldl_cons]

theorem finish_after : (s.after closed loose).finish = s.finish.after closed loose := by
  have all : ∀ (n : Nat) (s : Nesting),
      closeAll n (s.after closed loose) = (closeAll n s).after closed loose := by
    intro n
    induction n with
    | zero => exact fun _ => rfl
    | succ n ih =>
      intro s
      rw [closeAll, close_after, ih, closeAll]
  exact all s.stack.length s

/-- Behind lines that leave no block open, lines are read as if they came first. -/
theorem ofLines_append {lines more : List Line} (ended : (ofLines lines).stack = []) :
    ofLines (lines ++ more) =
      (ofLines more).after (ofLines lines).closed (ofLines lines).loose := by
  have before : ofLines lines = start.after (ofLines lines).closed (ofLines lines).loose := by
    rw [after, start, List.append_nil, List.append_nil, ← ended]
  rw [ofLines, List.foldl_append, ← ofLines, before, foldl_step_after, ← before, ← ofLines]

/-- As long as no closer is passed over, as many blocks are open as openers outnumber closers. -/
theorem length_openStack {n : Nat} {raws : List (List Char)}
    (h : ∀ before, before <+: raws → before.countP closesBlock ≤ before.countP opensBlock) :
    (openStack (linesFrom n raws)).length + raws.countP closesBlock = raws.countP opensBlock := by
  induction raws using List.reverseRecOn with
  | nil => rfl
  | append_singleton raws raw ih =>
    have before := ih fun before hbefore => h before (hbefore.trans (List.prefix_append _ _))
    have whole := h (raws ++ [raw]) (List.prefix_refl _)
    -- the last line on its own
    obtain ⟨line, last, opens, closes⟩ : ∃ line : Line,
        linesFrom n (raws ++ [raw]) = linesFrom n raws ++ [line] ∧
        line.isOpener = opensBlock raw ∧ line.isCloser = closesBlock raw :=
      ⟨_, linesFrom_append, rfl, rfl⟩
    rw [last, openStack_snoc]
    rw [List.countP_append, List.countP_append, List.countP_singleton, List.countP_singleton,
      ← opens, ← closes] at whole ⊢
    rcases openStep_cases line with ⟨opens, closes, step⟩ | ⟨opens, closes, step⟩ |
        ⟨opens, closes, step⟩ <;> rw [step] <;> simp only [opens, closes] at whole ⊢
    · rw [List.length_cons]
      simp
      omega
    · rw [List.length_tail]
      simp at whole ⊢
      omega
    · simp
      omega

theorem stack_of_selfContained {raws : List (List Char)} (h : SelfContained raws) (n : Nat) :
    (ofLines (linesFrom n raws)).stack = [] := by
  have height := length_openStack (n := n) h.opened
  rw [h.closed] at height
  have empty : (openStack (linesFrom n raws)).length = 0 := by omega
  rw [← stack_ofLines, List.length_map] at empty
  exact List.eq_nil_of_length_eq_zero empty

end Nesting

/-! ## Documents made of sections -/

/-- What a stretch of lines is read as. -/
def readFrom (n : Nat) (raws : List (List Char)) : Nesting :=
  .ofLines (linesFrom n raws)

theorem readFrom_alike (n m : Nat) (raws : List (List Char)) :
    (readFrom n raws).Alike Anywhere (readFrom m raws) :=
  Nesting.ofLines_alike (linesFrom_alike n m raws)

section Reading

variable {n : Nat} {raws more : List (List Char)}

theorem readFrom_append (ended : (readFrom n raws).stack = []) :
    readFrom n (raws ++ more) =
      (readFrom (n + raws.length) more).after (readFrom n raws).closed (readFrom n raws).loose := by
  rw [readFrom, linesFrom_append]
  exact Nesting.ofLines_append ended

theorem stack_readFrom_append (ended : (readFrom n raws).stack = []) (h : SelfContained more) :
    (readFrom n (raws ++ more)).stack = [] := by
  rw [readFrom_append ended]
  exact Nesting.stack_of_selfContained h _

theorem closed_readFrom_append (ended : (readFrom n raws).stack = []) :
    (readFrom n (raws ++ more)).closed =
      (readFrom n raws).closed ++ (readFrom (n + raws.length) more).closed := by
  rw [readFrom_append ended]
  rfl

theorem closed_finish_readFrom_append (ended : (readFrom n raws).stack = []) :
    (readFrom n (raws ++ more)).finish.closed =
      (readFrom n raws).closed ++ (readFrom (n + raws.length) more).finish.closed := by
  rw [readFrom_append ended, Nesting.finish_after]
  rfl

end Reading

section Exchange

variable {front xs ys rest : List (List Char)}

/-- The blocks of a document are those of its stretches, one after the other. -/
theorem closed_finish_sections (ended : (readFrom 1 front).stack = []) (hxs : SelfContained xs)
    (hys : SelfContained ys) :
    (readFrom 1 (front ++ xs ++ ys ++ rest)).finish.closed =
      (readFrom 1 front).closed ++
        ((readFrom (1 + front.length) xs).closed ++
          (readFrom (1 + (front ++ xs).length) ys).closed) ++
        (readFrom (1 + (front ++ xs ++ ys).length) rest).finish.closed := by
  have ended' := stack_readFrom_append ended hxs
  have ended'' := stack_readFrom_append ended' hys
  rw [closed_finish_readFrom_append ended'', closed_readFrom_append ended',
    closed_readFrom_append ended, List.append_assoc (readFrom 1 front).closed]

/-- Two neighbours change places between what comes before and behind them. -/
theorem rearranged_exchange {α : Type} {R : α → α → Prop} {as as' bs bs' cs cs' ds ds' : List α}
    (ha : List.Forall₂ R as as') (hb : List.Forall₂ R bs bs') (hc : List.Forall₂ R cs cs')
    (hd : List.Forall₂ R ds ds') :
    Rearranged R (as ++ (bs ++ cs) ++ ds) (as' ++ (cs' ++ bs') ++ ds') :=
  ((Rearranged.of_forall₂ ha).append (.swap hb hc)).append (.of_forall₂ hd)

theorem linesFrom_sections (front xs ys rest : List (List Char)) :
    linesFrom 1 (front ++ xs ++ ys ++ rest) =
      linesFrom 1 front ++
        (linesFrom (1 + front.length) xs ++ linesFrom (1 + (front ++ xs).length) ys) ++
        linesFrom (1 + (front ++ xs ++ ys).length) rest := by
  rw [linesFrom_append, linesFrom_append, linesFrom_append, List.append_assoc (linesFrom 1 front)]

theorem linesFrom_exchange {R : Line → Line → Prop}
    (h : ∀ number number' raw, R { number, raw } { number := number', raw }) :
    Rearranged R (linesFrom 1 (front ++ xs ++ ys ++ rest))
      (linesFrom 1 (front ++ ys ++ xs ++ rest)) := by
  rw [linesFrom_sections front xs, linesFrom_sections front ys]
  have same : ∀ n m raws, List.Forall₂ R (linesFrom n raws) (linesFrom m raws) :=
    fun _ _ _ => linesFrom_related fun _ _ raw => h _ _ raw
  exact rearranged_exchange (same _ _ _) (same _ _ _) (same _ _ _) (same _ _ _)

theorem closed_exchange (ended : (readFrom 1 front).stack = []) (hxs : SelfContained xs)
    (hys : SelfContained ys) :
    Rearranged (Block.Alike Anywhere)
      (Block.subtrees (readFrom 1 (front ++ xs ++ ys ++ rest)).finish.closed)
      (Block.subtrees (readFrom 1 (front ++ ys ++ xs ++ rest)).finish.closed) := by
  have walks : ∀ n m raws, List.Forall₂ (Block.Alike Anywhere)
      (Block.subtrees (readFrom n raws).closed) (Block.subtrees (readFrom m raws).closed) :=
    fun n m raws => Block.Alike.subtrees _ (readFrom_alike n m raws).closed
  rw [closed_finish_sections ended hxs hys, closed_finish_sections ended hys hxs]
  simp only [Block.subtrees_append]
  refine rearranged_exchange (walks 1 1 front) (walks _ _ xs) (walks _ _ ys) ?_
  exact Block.Alike.subtrees _ (Nesting.finish_alike (readFrom_alike _ _ rest)).closed

/-- What is meaningful among the first lines comes first in the whole document. -/
theorem head?_meaningful {lines more : List Line} (some : lines.any Line.isMeaningful = true) :
    ((lines ++ more).filter Line.isMeaningful).head? = (lines.filter Line.isMeaningful).head? := by
  have there : lines.filter Line.isMeaningful ≠ [] := by
    obtain ⟨line, hline, meaningful⟩ := List.any_eq_true.mp some
    exact List.ne_nil_of_mem (List.mem_filter.mpr ⟨hline, meaningful⟩)
  rw [List.filter_append, List.head?_append_of_ne_nil _ there]

/-- The document with two self-contained stretches in the one order and in the other. -/
theorem parse_exchange (cut : ∀ raw ∈ front ++ xs ++ ys ++ rest, '\n' ∉ raw)
    (leads : (linesFrom 1 front).any Line.isMeaningful = true)
    (ended : (readFrom 1 front).stack = []) (hxs : SelfContained xs) (hys : SelfContained ys) :
    (Document.parse (joined (front ++ xs ++ ys ++ rest)).toList).Rearranged
      (Document.parse (joined (front ++ ys ++ xs ++ rest)).toList) := by
  have some : front ≠ [] := by
    rintro rfl
    cases leads
  have lines : Line.ofText (joined (front ++ xs ++ ys ++ rest)).toList =
      linesFrom 1 (front ++ xs ++ ys ++ rest) :=
    ofText_joined cut (by simp [some])
  have lines' : Line.ofText (joined (front ++ ys ++ xs ++ rest)).toList =
      linesFrom 1 (front ++ ys ++ xs ++ rest) := by
    refine ofText_joined ?_ (by simp [some])
    intro raw hraw
    apply cut raw
    simp only [List.mem_append] at hraw ⊢
    rcases hraw with ((inFront | inSecond) | inFirst) | inRest
    · exact .inl (.inl (.inl inFront))
    · exact .inl (.inr inSecond)
    · exact .inl (.inl (.inr inFirst))
    · exact .inr inRest
  refine ⟨?_, ?_, ?_, ?_⟩
  · have begins : ∀ more, ((linesFrom 1 (front ++ more)).filter Line.isMeaningful).head? =
        ((linesFrom 1 front).filter Line.isMeaningful).head? := by
      intro more
      rw [linesFrom_append, head?_meaningful leads]
    unfold Document.meaningfulLines
    rw [Document.lines_parse, Document.lines_parse, lines, lines', List.append_assoc,
      List.append_assoc, begins, List.append_assoc, List.append_assoc, begins]
  · rw [Document.lines_parse, Document.lines_parse, lines, lines']
    exact linesFrom_exchange fun _ _ _ => ⟨rfl, rfl⟩
  · unfold Document.blocksInOrder Document.parse
    rw [lines, lines']
    exact closed_exchange ended hxs hys
  · rw [Document.directivesInOrder_parse, Document.directivesInOrder_parse, lines, lines']
    refine (linesFrom_exchange (R := Line.Alike Anywhere) ?_).filterMap ?_
    · exact fun _ _ _ => ⟨rfl, rfl, trivial⟩
    · exact fun _ _ alike => directive?_alike alike

end Exchange

end Buildconf

/-! ## The main statement -/

/-- What a diagnostic says, wherever it says it. -/
def Diagnostic.said (d : Diagnostic) : Severity × Option String × String :=
  (d.severity, d.code, d.message)

namespace Buildconf

theorem said_of_moved {r : Nat → Nat → Prop} {f f' : Finding} (h : f.Moved r f') :
    f.diagnostic.said = f'.diagnostic.said := by
  unfold Diagnostic.said
  rw [Finding.diagnostic_severity, Finding.diagnostic_severity, Finding.diagnostic_code,
    Finding.diagnostic_code, h.rule]
  exact congrArg _ (congrArg _ h.message)

/-- **The order of sections does not matter.** Where something meaningful has been said and no
block is open, two self-contained stretches of lines can change places, and the same is found, as
often. -/
theorem analyze_exchange {front xs ys rest : List (List Char)}
    (cut : ∀ raw ∈ front ++ xs ++ ys ++ rest, '\n' ∉ raw)
    (leads : (linesFrom 1 front).any Line.isMeaningful = true)
    (ended : (Nesting.ofLines (linesFrom 1 front)).stack = []) (hxs : SelfContained xs)
    (hys : SelfContained ys) :
    ((analyze (joined (front ++ xs ++ ys ++ rest))).map Diagnostic.said).Perm
      ((analyze (joined (front ++ ys ++ xs ++ rest))).map Diagnostic.said) := by
  have sorted : ∀ cs, (Document.parse cs).directivesInOrder.Pairwise (·.line < ·.line) := by
    intro cs
    rw [Document.directivesInOrder_parse]
    exact pairwise_directivesIn (Line.ascending_ofText cs)
  have rearranged := parse_exchange cut leads ended hxs hys
  have found := documentFindings_rearranged rearranged (sorted _) (sorted _)
  unfold analyze findings
  rw [List.map_map, List.map_map]
  exact found.map_perm fun _ _ moved => said_of_moved moved

/-- A tool. -/
def compiler : List (List Char) :=
  ["[tool cc]".toList, ".exec gcc".toList, "..".toList]

/-- The same tool once more, with a tab, and a second header behind it. -/
def spare : List (List Char) :=
  ["[tool cc]".toList, "\t.exec bin cc".toList, "..".toList, headerText]

theorem analyze_exchange_spare :
    (∀ raw ∈ [headerText] ++ compiler ++ spare ++ ["[run cc]".toList], '\n' ∉ raw) ∧
    (linesFrom 1 [headerText]).any Line.isMeaningful = true ∧
    (Nesting.ofLines (linesFrom 1 [headerText])).stack = [] ∧
    SelfContained compiler ∧ SelfContained spare ∧
    ((analyze (joined ([headerText] ++ compiler ++ spare ++ ["[run cc]".toList]))).map
      Diagnostic.said).Perm
      ((analyze (joined ([headerText] ++ spare ++ compiler ++ ["[run cc]".toList]))).map
        Diagnostic.said) ∧
    (analyze (joined ([headerText] ++ compiler ++ spare ++ ["[run cc]".toList]))).map
        Diagnostic.line ≠
      (analyze (joined ([headerText] ++ spare ++ compiler ++ ["[run cc]".toList]))).map
        Diagnostic.line := by
  have cut : ∀ raw ∈ [headerText] ++ compiler ++ spare ++ ["[run cc]".toList], '\n' ∉ raw := by
    decide
  have leads : (linesFrom 1 [headerText]).any Line.isMeaningful = true := by
    decide
  have ended : (Nesting.ofLines (linesFrom 1 [headerText])).stack = [] := rfl
  have first : SelfContained compiler := by
    decide
  have second : SelfContained spare := by
    decide
  exact ⟨cut, leads, ended, first, second, analyze_exchange cut leads ended first second,
    by decide +kernel⟩

end Buildconf

end LiveLint
