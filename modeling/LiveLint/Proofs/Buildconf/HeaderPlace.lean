import LiveLint.Proofs.Buildconf.CrossReference
import LiveLint.Proofs.Buildconf.LineGrammar

/-!
# The header of a document

A header is judged twice: by the kind of its line, which lets blanks stand where they like, and in
its place at the top, where it has to be written to the letter. This file says what is reported of
it (`headerReported_parse`), and when the two judgements agree: just if a header at the top that is
valid by its kind is the header to the letter. A header with two blanks before the digit is the
shortest on which they differ (`wideHeader_disagrees`).
-/

namespace LiveLint.Buildconf

/-! ## Valid headers -/

/-- A line is a valid header if it says `!muf`, one blank or more, and `4`. -/
theorem kind_eq_header_iff {cs : List Char} {line : Line} (h : line ∈ Line.ofText cs) :
    line.kind = .header true ↔ ∃ gap, gap ≠ [] ∧ Text.isAllBlank gap = true ∧
      line.trimmed = ['!', 'm', 'u', 'f'] ++ (gap ++ ['4']) := by
  rw [Line.kind_of_mem_ofText h]
  show LineKind.ofTrimmed line.trimmed = .header true ↔ _
  rw [LineKind.ofTrimmed_eq_iff]
  constructor
  · rintro (form | ⟨text, _⟩)
    · generalize line.trimmed = t at form
      cases form with
      | header asks =>
        obtain ⟨gap, some, blank, rfl⟩ := asks.mp rfl
        exact ⟨gap, some, blank, rfl⟩
    · cases text
  · rintro ⟨gap, some, blank, trimmed⟩
    rw [trimmed]
    exact .inl (.header (iff_of_true rfl ⟨gap, some, blank, rfl⟩))

/-- The header to the letter is one of them. -/
theorem kind_of_trimmed_eq {cs : List Char} {line : Line} (h : line ∈ Line.ofText cs)
    (letter : line.trimmed = headerText) : line.kind = .header true :=
  (kind_eq_header_iff h).mpr ⟨[' '], by decide, by decide, letter⟩

theorem mem_of_head?_meaningfulLines {doc : Document} {first : Line}
    (h : doc.meaningfulLines.head? = some first) : first ∈ doc.lines :=
  List.mem_of_mem_filter (List.mem_of_head? h)

/-! ## What the check finds -/

section Found

variable (doc : Document)

/-- The check of a header has three parts. -/
theorem ofRule_headerFindings (rule : Rule) : ofRule rule (headerFindings doc) =
    ofRule rule (firstLineFindings doc) ++
      (ofRule rule (reportIf (validHeaders doc).isEmpty .noValidHeader) ++
        ofRule rule ((validHeaders doc).tail.map fun line => .repeatedHeader line.number)) := by
  rw [headerFindings, headerCountFindings, ofRule_append, ofRule_append]

/-- The place of the header is judged by two rules. -/
theorem ofRule_firstLineFindings_of_ne {rule : Rule} (misplaced : rule ≠ .misplacedHeader)
    (missing : rule ≠ .noHeader) : ofRule rule (firstLineFindings doc) = [] := by
  rw [ofRule, List.filter_eq_nil_iff]
  intro f hf same
  have either : f.rule = .misplacedHeader ∨ f.rule = .noHeader := by
    unfold firstLineFindings at hf
    split at hf
    · rw [List.mem_singleton.mp hf]
      exact .inr rfl
    · split at hf
      · cases hf
      · rcases List.mem_cons.mp hf with rfl | hf
        · exact .inl rfl
        · rw [List.mem_singleton.mp hf]
          exact .inr rfl
  rw [eq_of_beq same] at either
  exact either.elim misplaced missing

theorem ofRule_misplacedHeader : ofRule .misplacedHeader (headerFindings doc) =
    ofRule .misplacedHeader (firstLineFindings doc) := by
  rw [ofRule_headerFindings, ofRule_reportIf_of_ne _ (by decide),
    ofRule_map_of_ne _ fun _ => by simp [Finding.rule], List.append_nil, List.append_nil]

theorem ofRule_noHeader : ofRule .noHeader (headerFindings doc) =
    ofRule .noHeader (firstLineFindings doc) := by
  rw [ofRule_headerFindings, ofRule_reportIf_of_ne _ (by decide),
    ofRule_map_of_ne _ fun _ => by simp [Finding.rule], List.append_nil, List.append_nil]

theorem ofRule_noValidHeader : ofRule .noValidHeader (headerFindings doc) =
    reportIf (validHeaders doc).isEmpty .noValidHeader := by
  have own : Finding.noValidHeader.rule = .noValidHeader := rfl
  rw [ofRule_headerFindings, ofRule_firstLineFindings_of_ne doc (by decide) (by decide),
    ofRule_reportIf _ own, ofRule_map_of_ne _ fun _ => by simp [Finding.rule], List.append_nil,
    List.nil_append]

theorem ofRule_repeatedHeader : ofRule .repeatedHeader (headerFindings doc) =
    (validHeaders doc).tail.map fun line => .repeatedHeader line.number := by
  have own : ∀ line : Line, (Finding.repeatedHeader line.number).rule = .repeatedHeader :=
    fun _ => rfl
  rw [ofRule_headerFindings, ofRule_firstLineFindings_of_ne doc (by decide) (by decide),
    ofRule_reportIf_of_ne _ (by decide), ofRule_map _ own, List.nil_append, List.nil_append]

end Found

/-! ## What is reported -/

/-- The two judgements of a header agree on a text. -/
structure HeaderAgrees (source : String) (doc : Document) : Prop where
  /-- A valid header at the top is passed over in silence. -/
  silent : ∀ first, doc.meaningfulLines.head? = some first → first.kind = .header true →
    reported source "B001" = [] ∧ reported source "B002" = [] ∧ reported source "B003" = []
  /-- Without one the header is missing. -/
  missing : (∀ first, doc.meaningfulLines.head? = some first → first.kind ≠ .header true) →
    reported source "B002" ≠ []
  /-- And it is missed at the line that stands there. -/
  misplaced : ∀ first, doc.meaningfulLines.head? = some first → first.kind ≠ .header true →
    ∃ d ∈ reported source "B001", d.line = some first.number
  /-- No header is valid just if none of the lines is. -/
  invalid : reported source "B003" ≠ [] ↔ ∀ line ∈ doc.lines, line.kind ≠ .header true

/-- What is reported of the header of a text. -/
structure HeaderReported (source : String) (doc : Document) : Prop where
  /-- A line is a valid header if it says `!muf`, one blank or more, and `4`. -/
  valid : ∀ line ∈ doc.lines, line.kind = .header true ↔ ∃ gap, gap ≠ [] ∧
    Text.isAllBlank gap = true ∧ line.trimmed = ['!', 'm', 'u', 'f'] ++ (gap ++ ['4'])
  /-- The header to the letter is passed over at the top. -/
  letter : ∀ first, doc.meaningfulLines.head? = some first → first.trimmed = headerText →
    reported source "B001" = [] ∧ reported source "B002" = []
  /-- Whatever else stands there is told of twice. -/
  other : ∀ first, doc.meaningfulLines.head? = some first → first.trimmed ≠ headerText →
    reported source "B001" = [(Finding.misplacedHeader first.number).diagnostic] ∧
    reported source "B002" = [Finding.noHeader.diagnostic]
  /-- And where nothing stands, the header is missing. -/
  nothing : doc.meaningfulLines.head? = none →
    reported source "B001" = [] ∧ reported source "B002" = [Finding.noHeader.diagnostic]
  /-- That no header is valid is told once, if none is. -/
  invalid : reported source "B003" =
    if ∃ line ∈ doc.lines, line.kind = .header true then [] else [Finding.noValidHeader.diagnostic]
  /-- The two judgements agree if a valid header at the top is the header to the letter. -/
  agrees : HeaderAgrees source doc ↔ ∀ first, doc.meaningfulLines.head? = some first →
    first.kind = .header true → first.trimmed = headerText

section Parts

variable {source : String}

theorem reported_misplacedHeader : reported source "B001" =
    (ofRule .misplacedHeader (firstLineFindings (Document.parse source.toList))).map
      Finding.diagnostic := by
  rw [← ofRule_misplacedHeader]
  exact reported_check source .misplacedHeader

theorem reported_noHeader : reported source "B002" =
    (ofRule .noHeader (firstLineFindings (Document.parse source.toList))).map
      Finding.diagnostic := by
  rw [← ofRule_noHeader]
  exact reported_check source .noHeader

theorem reported_noValidHeader : reported source "B003" =
    (reportIf (validHeaders (Document.parse source.toList)).isEmpty .noValidHeader).map
      Finding.diagnostic := by
  rw [← ofRule_noValidHeader]
  exact reported_check source .noValidHeader

/-- A text with no meaningful line has no header. -/
theorem reported_of_nothing (h : (Document.parse source.toList).meaningfulLines.head? = none) :
    reported source "B001" = [] ∧ reported source "B002" = [Finding.noHeader.diagnostic] := by
  rw [reported_misplacedHeader, reported_noHeader, firstLineFindings, h]
  exact ⟨rfl, rfl⟩

variable {first : Line}

theorem reported_of_letter
    (h : (Document.parse source.toList).meaningfulLines.head? = some first)
    (letter : first.trimmed = headerText) :
    reported source "B001" = [] ∧ reported source "B002" = [] := by
  rw [reported_misplacedHeader, reported_noHeader, firstLineFindings, h]
  simp only [letter, if_true]
  exact ⟨rfl, rfl⟩

theorem reported_of_other
    (h : (Document.parse source.toList).meaningfulLines.head? = some first)
    (other : first.trimmed ≠ headerText) :
    reported source "B001" = [(Finding.misplacedHeader first.number).diagnostic] ∧
      reported source "B002" = [Finding.noHeader.diagnostic] := by
  rw [reported_misplacedHeader, reported_noHeader, firstLineFindings, h]
  simp only [if_neg other]
  exact ⟨rfl, rfl⟩

theorem validHeaders_isEmpty_iff {doc : Document} :
    (validHeaders doc).isEmpty = true ↔ ¬∃ line ∈ doc.lines, line.kind = .header true := by
  simp [validHeaders]

/-- That no line is a valid header is told once. -/
theorem reported_noValidHeader_eq : reported source "B003" =
    if ∃ line ∈ (Document.parse source.toList).lines, line.kind = .header true then []
    else [Finding.noValidHeader.diagnostic] := by
  rw [reported_noValidHeader]
  split_ifs with valid
  · rw [Bool.eq_false_iff.mpr (fun empty => validHeaders_isEmpty_iff.mp empty valid)]
    rfl
  · rw [validHeaders_isEmpty_iff.mpr valid]
    rfl

/-- The line of a misplaced header is a real one. -/
theorem line_misplacedHeader (h : first ∈ (Document.parse source.toList).lines) :
    (Finding.misplacedHeader first.number).diagnostic.line = some first.number := by
  have counted : 0 < first.number := (Line.number_of_mem_ofText h).1
  show (some first.number).filter (0 < ·) = some first.number
  simp [counted]

/-- **The judgements agree** if a valid header at the top is the header to the letter. -/
theorem headerAgrees_iff : HeaderAgrees source (Document.parse source.toList) ↔
    ∀ first, (Document.parse source.toList).meaningfulLines.head? = some first →
      first.kind = .header true → first.trimmed = headerText := by
  constructor
  · intro agrees first h valid
    by_contra other
    have told := (reported_of_other h other).2
    rw [(agrees.silent first h valid).2.1] at told
    cases told
  · intro letter
    -- a line at the top that is no valid header is not the header to the letter either
    have other : ∀ first, (Document.parse source.toList).meaningfulLines.head? = some first →
        first.kind ≠ .header true → first.trimmed ≠ headerText := by
      intro first h invalid same
      exact invalid (kind_of_trimmed_eq (mem_of_head?_meaningfulLines h) same)
    refine ⟨?_, ?_, ?_, ?_⟩
    · intro first h valid
      have passed := reported_of_letter h (letter first h valid)
      refine ⟨passed.1, passed.2, ?_⟩
      rw [reported_noValidHeader_eq, if_pos ⟨first, mem_of_head?_meaningfulLines h, valid⟩]
    · intro invalid
      cases h : (Document.parse source.toList).meaningfulLines.head? with
      | none =>
        rw [(reported_of_nothing h).2]
        exact List.cons_ne_nil _ _
      | some first =>
        rw [(reported_of_other h (other first h (invalid first h))).2]
        exact List.cons_ne_nil _ _
    · intro first h invalid
      rw [(reported_of_other h (other first h invalid)).1]
      exact ⟨_, List.mem_singleton_self _, line_misplacedHeader (mem_of_head?_meaningfulLines h)⟩
    · rw [reported_noValidHeader_eq]
      split_ifs with valid
      · obtain ⟨line, hline, header⟩ := valid
        exact iff_of_false (fun told => told rfl) fun none => none line hline header
      · refine iff_of_true (List.cons_ne_nil _ _) ?_
        intro line hline header
        exact valid ⟨line, hline, header⟩

end Parts

/-- **What is reported of the header of a text**, and when its two judgements agree. -/
theorem headerReported_parse (source : String) :
    HeaderReported source (Document.parse source.toList) where
  valid _ hline := kind_eq_header_iff hline
  letter _ h letter := reported_of_letter h letter
  other _ h other := reported_of_other h other
  nothing h := reported_of_nothing h
  invalid := reported_noValidHeader_eq
  agrees := headerAgrees_iff

/-- **They do not agree on a header with two blanks before the digit**: it is valid by its kind,
and missing at the top. -/
theorem wideHeader_disagrees :
    ¬HeaderAgrees "!muf  4" (Document.parse "!muf  4".toList) := by
  intro agrees
  have top : (Document.parse "!muf  4".toList).meaningfulLines.head? =
      some { number := 1, raw := "!muf  4".toList } := by decide +kernel
  have told : reported "!muf  4" "B002" ≠ [] := by decide +kernel
  exact told (agrees.silent _ top (by decide +kernel)).2.1

end LiveLint.Buildconf
