import LiveLint.Proofs.Buildconf.Written

/-!
# Header and layout of a written document

A written document starts with its header and has as many closers as openers, whatever its entries
are. If the openers have known tags and no directive holds a tab (`Tidy`), there is nothing to say
about its header and its layout (`headerFindings_written`, `layoutFindings_written`).
-/

namespace LiveLint.Buildconf

/-! ## Tidy rows -/

/-- An opener of a known tag, a closer, or a directive without tabs. -/
def LineKind.Tidy : LineKind → Prop
  | opener tag name => (opener tag name).Writable ∧ tag ∈ blockTags
  | closer => True
  | directive name rest => (directive name rest).Writable ∧ '\t' ∉ rest.toList
  | header _ | blank | comment | text => False

theorem LineKind.Tidy.writable {kind : LineKind} (tidy : kind.Tidy) : kind.Writable := by
  cases kind with
  | opener tag name => exact tidy.1
  | directive name rest => exact tidy.1
  | closer => exact trivial
  | header valid => cases tidy
  | blank => cases tidy
  | comment => cases tidy
  | text => cases tidy

/-- All rows are tidy. -/
def Entries.Tidy (entries : List Entry) : Prop :=
  ∀ row ∈ Entries.rows 0 entries, row.kind.Tidy

theorem Entries.Tidy.writable {entries : List Entry} (tidy : Entries.Tidy entries) :
    Entries.Writable entries :=
  fun row hrow => (tidy row hrow).writable

theorem Row.tab_not_mem_text {row : Row} (tidy : row.kind.Tidy) : '\t' ∉ row.text := by
  refine Row.not_mem_text tidy.writable rfl (by decide) ?_
  intro name rest kind
  rw [kind] at tidy
  exact tidy.2

/-! ## Tidy entries -/

namespace Argument

/-- The text stands on one line and has no tab. -/
def OneLine (text : String) : Prop :=
  '\n' ∉ text.toList ∧ '\t' ∉ text.toList

instance (text : String) : Decidable (OneLine text) :=
  inferInstanceAs (Decidable (_ ∧ _))

/-- The argument can be written into a line, though perhaps not be read from it again. -/
def Fits (a : Argument) : Prop :=
  (a.quoted = false → a.Writable) ∧ OneLine a.text

theorem fits_literal {text : String} (ok : OneLine text) : (literal text).Fits :=
  ⟨fun bare => Bool.noConfusion bare, ok⟩

/-- The argument can be written into a line and be read from it again. -/
def Plain (a : Argument) : Prop :=
  a.Writable ∧ OneLine a.text

instance (a : Argument) : Decidable a.Plain :=
  inferInstanceAs (Decidable (_ ∧ _))

theorem Plain.fits {a : Argument} (plain : a.Plain) : a.Fits :=
  ⟨fun _ => plain.1, plain.2⟩

theorem reread_of_plain {args : List Argument} (plain : ∀ a ∈ args, a.Plain) :
    reread args = args :=
  reread_eq fun a ha => (plain a ha).1

theorem oneLine_of_solid {text : String} (solid : ∀ c ∈ text.toList, Text.isBlank c = false) :
    OneLine text := by
  have other : ∀ c, Text.isBlank c = true → c ∉ text.toList := by
    intro c blank hc
    rw [solid c hc] at blank
    cases blank
  exact ⟨other _ rfl, other _ rfl⟩

theorem plain_word {text : String} (ok : (word text).Writable) : (word text).Plain := by
  have solid : ∀ c ∈ text.toList, Text.isBlank c = false := fun c hc => by
    simpa [isSolid] using ok.2.1 c hc
  exact ⟨ok, oneLine_of_solid solid⟩

/-- An identifier is plain with and without quotes. -/
theorem plain_of_isIdentifier {text : String} (ok : isIdentifier text.toList = true)
    (quoted : Bool) : Plain ⟨text, quoted⟩ := by
  have solid : ∀ c ∈ text.toList, Text.isBlank c = false := fun c hc =>
    isBlank_of_isIdentChar ((isIdentifier_iff.mp ok).2 c hc)
  have quote : '"' ∉ text.toList := not_mem_of_isIdentifier ok (by decide)
  refine ⟨?_, oneLine_of_solid solid⟩
  cases quoted with
  | true => exact quote
  | false =>
    refine ⟨(isIdentifier_iff.mp ok).1, fun c hc => ?_, fun start => ?_⟩
    · rw [isSolid, solid c hc]
      rfl
    · exact quote (List.mem_of_mem_head? start)

section Written

variable {a : Argument} (fits : a.Fits)
include fits

theorem Fits.ne_nil : a.written ≠ [] := by
  obtain ⟨text, quoted⟩ := a
  cases quoted with
  | true => exact List.cons_ne_nil _ _
  | false => exact (fits.1 rfl).1

theorem Fits.trimmed : Text.Trimmed a.written := by
  obtain ⟨text, quoted⟩ := a
  cases quoted with
  | true =>
    have quote : Text.Trimmed ['"'] := Text.trimmed_singleton rfl
    exact quote.join quote (List.cons_ne_nil _ _) (List.cons_ne_nil _ _)
  | false =>
    exact Text.trimmed_of_solid fun c hc => by simpa [isSolid] using (fits.1 rfl).2.1 c hc

theorem Fits.not_mem {c : Char} (hc : c = '\n' ∨ c = '\t') : c ∉ a.written := by
  obtain ⟨text, quoted⟩ := a
  have inside : c ∉ text.toList := by
    rcases hc with rfl | rfl
    · exact fits.2.1
    · exact fits.2.2
  cases quoted with
  | true => rcases hc with rfl | rfl <;> simpa [written] using inside
  | false => exact inside

end Written

theorem phrase_fits {args : List Argument} (some : args ≠ []) (fits : ∀ a ∈ args, a.Fits) :
    phrase args ≠ [] ∧ Text.Trimmed (phrase args) ∧ '\n' ∉ phrase args ∧ '\t' ∉ phrase args := by
  induction args with
  | nil => exact absurd rfl some
  | cons a args ih =>
    rw [List.forall_mem_cons] at fits
    have own := fits.1
    cases args with
    | nil =>
      rw [phrase_singleton]
      exact ⟨own.ne_nil, own.trimmed, own.not_mem (Or.inl rfl), own.not_mem (Or.inr rfl)⟩
    | cons b args =>
      obtain ⟨nonempty, trimmed, feed, tab⟩ := ih (List.cons_ne_nil _ _) fits.2
      have cut : phrase (a :: b :: args) = a.written ++ [' '] ++ phrase (b :: args) := by
        rw [phrase_cons_cons, List.append_assoc]
        rfl
      rw [cut]
      -- no blank at either end: the first argument opens the phrase and the last one closes it
      refine ⟨?_, own.trimmed.join trimmed own.ne_nil nonempty, ?_, ?_⟩
      · simp
      · simp [own.not_mem (Or.inl rfl), feed]
      · simp [own.not_mem (Or.inr rfl), tab]

end Argument

/-- A directive with the given arguments. -/
def say (name : String) (args : List Argument) : Entry :=
  .directive name (String.ofList (Argument.phrase args))

theorem tidy_say {name : String} {args : List Argument}
    (called : isDirectiveName name.toList = true) (some : args ≠ []) (fits : ∀ a ∈ args, a.Fits)
    (depth : Nat) :
    ∀ row ∈ (say name args).rows depth, row.kind.Tidy := by
  obtain ⟨nonempty, trimmed, feed, tab⟩ := Argument.phrase_fits some fits
  rw [say, Entry.rows, List.forall_mem_singleton]
  simp only [LineKind.Tidy, LineKind.Writable, String.toList_ofList]
  exact ⟨⟨called, nonempty, trimmed, feed⟩, tab⟩

theorem tidy_rows {es : List Entry} {depth : Nat}
    (each : ∀ e ∈ es, ∀ row ∈ e.rows depth, row.kind.Tidy) :
    ∀ row ∈ Entries.rows depth es, row.kind.Tidy := by
  rw [Entries.rows_eq_flatMap]
  intro row hrow
  obtain ⟨e, he, hrow⟩ := List.mem_flatMap.mp hrow
  exact each e he row hrow

theorem tidy_block {tag : String} {name : Option String} {entries : List Entry} {depth : Nat}
    (known : tag ∈ blockTags) (named : ∀ n ∈ name, isIdentifier n.toList = true)
    (inside : ∀ e ∈ entries, ∀ row ∈ e.rows (depth + 1), row.kind.Tidy) :
    ∀ row ∈ (Entry.block tag name entries).rows depth, row.kind.Tidy := by
  have identifier : ∀ t ∈ blockTags, isIdentifier t.toList = true := by decide
  rw [Entry.rows, List.forall_mem_cons, List.forall_mem_append, List.forall_mem_singleton]
  exact ⟨⟨⟨identifier tag known, named⟩, known⟩, tidy_rows inside, trivial⟩

/-! ## As many closers as openers -/

/-- Whether a row is an opener. -/
def Row.isOpener (row : Row) : Bool :=
  match row.kind with
  | .opener .. => true
  | _ => false

/-- Whether a row is a closer. -/
def Row.isCloser (row : Row) : Bool :=
  row.kind == .closer

mutual

theorem Entry.countP_rows (depth : Nat) : ∀ e : Entry,
    (e.rows depth).countP Row.isOpener = (e.rows depth).countP Row.isCloser
  | .directive name rest => rfl
  | .block tag name entries => by
    have inside := Entries.countP_rows (depth + 1) entries
    simp only [Entry.rows, List.countP_cons, List.countP_append, inside]
    rfl

theorem Entries.countP_rows (depth : Nat) : ∀ es : List Entry,
    (Entries.rows depth es).countP Row.isOpener = (Entries.rows depth es).countP Row.isCloser
  | [] => rfl
  | e :: es => by
    rw [Entries.rows, List.countP_append, List.countP_append, Entry.countP_rows depth e,
      Entries.countP_rows depth es]

end

/-! ## The lines of tidy rows -/

theorem forall_mem_numbered {P : Line → Prop} {rows : List Row}
    (each : ∀ row ∈ rows, ∀ n, P { number := n, raw := row.text }) (n : Nat) :
    ∀ line ∈ numbered n rows, P line := by
  intro line hline
  obtain ⟨⟨row, number⟩, hrow, rfl⟩ := List.mem_map.mp hline
  exact each row (List.fst_mem_of_mem_zipIdx hrow) number

theorem countP_numbered {p : Line → Bool} {q : Row → Bool} {rows : List Row}
    (same : ∀ row ∈ rows, ∀ n, p { number := n, raw := row.text } = q row) (n : Nat) :
    (numbered n rows).countP p = rows.countP q := by
  induction rows generalizing n with
  | nil => rfl
  | cons row rows ih =>
    rw [List.forall_mem_cons] at same
    rw [numbered_cons, List.countP_cons, List.countP_cons, same.1 n, ih same.2]

theorem startsWithBracket_row {row : Row} (ok : row.kind.Writable) (n : Nat) :
    startsWithBracket { number := n, raw := row.text } = row.isOpener := by
  rw [startsWithBracket, Line.trimmed, Row.trim_text ok, Row.isOpener]
  cases kind : row.kind <;> rfl

theorem isCloser_row {row : Row} (ok : row.kind.Writable) (n : Nat) :
    (({ number := n, raw := row.text } : Line).kind == .closer) = row.isCloser := by
  rw [Row.line_eq ok, Row.isCloser]

section Written

variable {entries : List Entry} (tidy : Entries.Tidy entries)
include tidy

/-- The lines of a written document: the header, the rows, and an empty line. -/
theorem lines_written : (Document.parse (written entries)).lines =
    { number := 1, raw := headerText } :: (numbered 2 (Entries.rows 0 entries) ++
      [{ number := Entries.size entries + 2, raw := [] }]) := by
  rw [Document.lines_parse, ofText_written tidy.writable]
  rfl

theorem forall_lines_written {P : Line → Prop} (header : P { number := 1, raw := headerText })
    (last : ∀ n, P { number := n, raw := [] })
    (each : ∀ row ∈ Entries.rows 0 entries, ∀ n, P { number := n, raw := row.text }) :
    ∀ line ∈ (Document.parse (written entries)).lines, P line := by
  rw [lines_written tidy, List.forall_mem_cons, List.forall_mem_append, List.forall_mem_singleton]
  exact ⟨header, forall_mem_numbered each 2, last _⟩

theorem headerFindings_written : headerFindings (Document.parse (written entries)) = [] := by
  have header : ({ number := 1, raw := headerText } : Line).kind = .header true := rfl
  have first : (Document.parse (written entries)).meaningfulLines.head? =
      some { number := 1, raw := headerText } := by
    rw [Document.meaningfulLines, lines_written tidy, List.filter_cons_of_pos rfl, List.head?_cons]
  have others : (numbered 2 (Entries.rows 0 entries)).filter (·.kind == .header true) = [] := by
    rw [List.filter_eq_nil_iff]
    refine forall_mem_numbered ?_ 2
    intro row hrow n
    have ok := tidy row hrow
    rw [Row.line_eq ok.writable, beq_iff_eq]
    show ¬row.kind = .header true
    intro valid
    rw [valid] at ok
    cases ok
  have only : validHeaders (Document.parse (written entries)) =
      [{ number := 1, raw := headerText }] := by
    rw [validHeaders, lines_written tidy, List.filter_cons_of_pos rfl, List.filter_append, others]
    rfl
  have trimmed : ({ number := 1, raw := headerText } : Line).trimmed = headerText := rfl
  rw [headerFindings, firstLineFindings, first, headerCountFindings, only]
  simp only [trimmed, if_true]
  rfl

theorem layoutFindings_written : layoutFindings (Document.parse (written entries)) = [] := by
  have tags : (Document.parse (written entries)).lines.filterMap unknownTag? = [] := by
    rw [List.filterMap_eq_nil_iff]
    refine forall_lines_written tidy rfl (fun _ => rfl) ?_
    intro row hrow n
    have ok := tidy row hrow
    rw [Row.line_eq ok.writable, unknownTag?]
    cases kind : row.kind with
    | opener tag name =>
      rw [kind] at ok
      exact if_pos ok.2
    | header valid => rfl
    | blank => rfl
    | comment => rfl
    | closer => rfl
    | directive name rest => rfl
    | text => rfl
  have tabs : (Document.parse (written entries)).lines.find? hasTab = none := by
    rw [List.find?_eq_none]
    refine forall_lines_written tidy (by decide) (fun _ => Bool.false_ne_true) ?_
    intro row hrow n
    simpa [hasTab] using Row.tab_not_mem_text (tidy row hrow)
  have balanced : isBalanced (Document.parse (written entries)) = true := by
    have openers : (numbered 2 (Entries.rows 0 entries)).countP startsWithBracket =
        (Entries.rows 0 entries).countP Row.isOpener :=
      countP_numbered (fun row hrow n => startsWithBracket_row (tidy.writable row hrow) n) 2
    have closers : (numbered 2 (Entries.rows 0 entries)).countP (·.kind == .closer) =
        (Entries.rows 0 entries).countP Row.isCloser :=
      countP_numbered (fun row hrow n => isCloser_row (tidy.writable row hrow) n) 2
    rw [isBalanced, lines_written tidy, beq_iff_eq]
    simp only [List.countP_cons, List.countP_append, openers, closers,
      Entries.countP_rows 0 entries]
    rfl
  rw [layoutFindings, tags, tabs, balanced]
  rfl

end Written

end LiveLint.Buildconf
