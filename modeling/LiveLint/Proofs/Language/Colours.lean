import LiveLint.Proofs.Buildconf.LineShape
import LiveLint.Proofs.Language.Finds

/-!
# Colours and kinds of lines

An editor asks three times what a line of a build configuration is: the reader of documents gives
its kind, the comment tokens of the profile say whether it is a comment, and the rules of the
highlighter colour it. The three are written apart, the first without patterns and the last with
nothing else. `Profile.AgreesOn` says how they agree, and `agreesOn_buildconf` that they do on
every line. The argument is the same for each kind: the kind gives the first character behind the
indentation, which rules out all other rules there, and what is found further on starts later.
-/

namespace LiveLint.Language

open Buildconf (LineKind)

/-- The token stands where `word` stands in the line, right behind `before`. -/
structure Token.Covers (t : Token) (line before word : List Char) : Prop where
  shown : before ++ word <+: line
  start : t.start = before.length
  stop : t.stop = before.length + word.length

/-- What a profile tells an editor about a line agrees with the kind of the line. -/
structure Profile.AgreesOn (p : Profile) (number : Nat) (line : List Char) : Prop where
  /-- What switches comments on and off knows the comments. -/
  lineComment : p.comments.isLineComment line = true ↔ LineKind.ofLine line = .comment
  comment : (∃ t ∈ p.highlighter.tokensOfLine number line, t.kind = .comment) ↔
    LineKind.ofLine line = .comment
  /-- A comment is one token, and all of the line. -/
  commentAlone : LineKind.ofLine line = .comment →
    ∃ t, p.highlighter.tokensOfLine number line = [t] ∧ t.kind = .comment ∧ t.Covers line [] line
  closer : (∃ t ∈ p.highlighter.tokensOfLine number line, t.kind = .delimiter) ↔
    LineKind.ofLine line = .closer
  /-- A closer is one token: its two points. -/
  closerAlone : LineKind.ofLine line = .closer →
    ∃ t, p.highlighter.tokensOfLine number line = [t] ∧ t.kind = .delimiter ∧
      t.Covers line (line.takeWhile Text.isBlank) ['.', '.']
  /-- The first token of an opener goes from its bracket to the first that closes. -/
  opener : ∀ tag name, LineKind.ofLine line = .opener tag name →
    ∃ t inner, (p.highlighter.tokensOfLine number line).head? = some t ∧ t.kind = .tag ∧
      ']' ∉ inner ∧ t.Covers line (line.takeWhile Text.isBlank) ('[' :: (inner ++ [']']))
  /-- The tokens of a valid header are its mark and its version. -/
  header : LineKind.ofLine line = .header true →
    ∃ t u before, p.highlighter.tokensOfLine number line = [t, u] ∧
      t.kind = .keyword ∧ t.Covers line (line.takeWhile Text.isBlank) ['!', 'm', 'u', 'f'] ∧
      u.kind = .number ∧ u.Covers line before ['4']
  /-- The first token of a directive is its name, if that is written in small letters. -/
  directive : ∀ name rest, LineKind.ofLine line = .directive name rest →
    (∀ c ∈ name.toList, isNameLetter c = true) →
    ∃ t, (p.highlighter.tokensOfLine number line).head? = some t ∧ t.kind = .keyword ∧
      t.Covers line (line.takeWhile Text.isBlank) ('.' :: name.toList)

theorem isIdentChar_of_isNameLetter {c : Char} (h : isNameLetter c = true) :
    Buildconf.isIdentChar c = true := by
  simp only [isNameLetter, Bool.or_eq_true, Bool.and_eq_true, decide_eq_true_eq] at h
  simp only [Buildconf.isIdentChar, Char.isAlphanum, Text.isAlpha_eq, Text.isLower_eq,
    Bool.or_eq_true, Bool.and_eq_true, decide_eq_true_eq]
  tauto

theorem isNameLetter_of_isBlank {c : Char} (h : Text.isBlank c = true) :
    isNameLetter c = false := by
  rw [← Bool.not_eq_true]
  intro letter
  rw [Buildconf.isBlank_of_isIdentChar (isIdentChar_of_isNameLetter letter)] at h
  cases h

/-! ## Comments -/

section Lines

variable {line : List Char} {number : Nat}

theorem isLineComment_iff :
    Profile.buildconf.comments.isLineComment line = true ↔ LineKind.ofLine line = .comment := by
  have letters : ";;".toList = [';', ';'] := String.toList_ofList
  have token : Profile.buildconf.comments.isLineComment line =
      List.isPrefixOf [';', ';'] (Text.trimStart line) := by
    rw [← letters]
    rfl
  rw [Buildconf.ofLine_eq_comment_iff, token, List.isPrefixOf_iff_prefix]
  constructor
  · rintro ⟨rest, text⟩
    exact ⟨rest, text.symm⟩
  · rintro ⟨rest, text⟩
    exact ⟨rest, text.symm⟩

theorem tokens_of_comment (inside : '\n' ∉ line) (kind : LineKind.ofLine line = .comment) :
    Profile.buildconf.highlighter.tokensOfLine number line =
      [⟨number, 0, line.length, .comment⟩] := by
  obtain ⟨rest, text⟩ := Buildconf.ofLine_eq_comment_iff.mp kind
  obtain ⟨gap, -, parts, -⟩ := Text.exists_indent line
  rw [text] at parts
  have length : 0 < line.length := by
    rw [parts, List.length_append, List.length_cons]
    omega
  refine Highlighter.tokensOfLine_eq_singleton ⟨0, 2, line.length, .comment⟩ ?_ length ?_
  · refine Highlighter.mem_found_iff.mpr ⟨commentLine, rfl, ?_, rfl⟩
    refine mem_spans_commentLine_iff.mpr ⟨rest, text, fun mem => inside ?_, rfl⟩
    rw [parts]
    simp [mem]
  · intro f hf takes
    have finds := finds_of_mem_found hf
    rcases finds.later_or_canOpen text with later | opens
    · right
      show 0 < f.start ∧ f.start < line.length
      omega
    · cases finds with
      | comment => exact .inl rfl
      | _ => cases opens

/-! ## Closers -/

theorem tokens_of_closer (kind : LineKind.ofLine line = .closer) :
    Profile.buildconf.highlighter.tokensOfLine number line =
      [⟨number, Text.indent line, Text.indent line + 2, .delimiter⟩] := by
  obtain ⟨after, text, blank⟩ := Buildconf.ofLine_eq_closer_iff.mp kind
  obtain ⟨gap, blank', parts, -⟩ := Text.exists_indent line
  rw [text] at parts
  have chars : ∀ c ∈ line, Text.isBlank c = true ∨ c = '.' := by
    intro c hc
    rw [parts] at hc
    simp only [List.mem_append, List.mem_cons] at hc
    rcases hc with hc | hc | hc | hc
    · exact .inl (List.all_eq_true.mp blank' c hc)
    · exact .inr hc
    · exact .inr hc
    · exact .inl (List.all_eq_true.mp blank c hc)
  refine Highlighter.tokensOfLine_eq_singleton
    ⟨Text.indent line, 4, Text.indent line + 2, .delimiter⟩ ?_ ?_ ?_
  · refine Highlighter.mem_found_iff.mpr ⟨blockCloser, rfl, ?_, rfl⟩
    exact mem_spans_blockCloser_iff.mpr ⟨after, text, blank, rfl⟩
  · show Text.indent line < Text.indent line + 2
    omega
  · intro f hf takes
    left
    have finds := finds_of_mem_found hf
    cases finds with
    | closer => rfl
    | quoted text' =>
      exact absurd (chars '"' (by rw [text']; simp)) (by decide)
    | name text' nonempty letters =>
      obtain ⟨c, more, rfl⟩ := List.exists_cons_of_ne_nil nonempty
      have letter := letters c List.mem_cons_self
      rcases chars c (by rw [text']; simp) with blank | rfl
      · rw [isNameLetter_of_isBlank blank] at letter
        cases letter
      · cases letter
    | @number _ c _ _ text' digits =>
      have digit := digits c List.mem_cons_self
      rcases chars c (by rw [text']; simp) with blank | rfl
      · rw [Text.isDigit_of_isBlank blank] at digit
        cases digit
      · cases digit
    | header text' | tag text' | comment text' =>
      exact absurd (List.cons.inj (text'.symm.trans text)).1 (by decide)

/-! ## Openers -/

theorem head?_tokens_of_opener {inner rest : List Char}
    (text : Text.trimStart line = '[' :: (inner ++ ']' :: rest)) (nonempty : inner ≠ [])
    (none : ']' ∉ inner) :
    (Profile.buildconf.highlighter.tokensOfLine number line).head? =
      some ⟨number, Text.indent line, Text.indent line + (inner.length + 2), .tag⟩ := by
  refine Highlighter.head?_tokensOfLine
    (x := ⟨Text.indent line, 1, Text.indent line + (inner.length + 2), .tag⟩) ?_ ?_ ?_
  · refine Highlighter.mem_found_iff.mpr ⟨blockTag, rfl, ?_, rfl⟩
    exact mem_spans_blockTag_iff.mpr ⟨inner, rest, text, nonempty, none, rfl⟩
  · show Text.indent line < Text.indent line + (inner.length + 2)
    omega
  · intro f hf takes
    have finds := finds_of_mem_found hf
    rcases finds.later_or_canOpen text with later | opens
    · exact .inr later.1
    · cases finds with
      | tag text' none' =>
        rw [eq_of_bracket none none' (List.cons.inj (text.symm.trans text')).2]
        exact .inl rfl
      | _ => cases opens

/-! ## Headers -/

/-- A word ends before a blank and at the end of the line. -/
theorem isBoundary_of_blank {c : Char} {next : Option Char} (word : Text.isWord c = true)
    (blank : ∀ b ∈ next, Text.isBlank b = true) : Text.isBoundary (some c) next = true := by
  have none : Text.isWord? next = false := by
    cases next with
    | none => rfl
    | some b => exact Text.isWord_of_isBlank (blank b rfl)
  rw [Text.isBoundary, none, Text.isWord?, word]
  rfl

/-- Where only one character is a digit, a number is that. -/
theorem eq_of_only_digit {before more rest before' rest' : List Char} {c d : Char}
    (same : before ++ c :: (more ++ rest) = before' ++ d :: rest')
    (digits : ∀ x ∈ c :: more, Text.isDigit x = true)
    (none : ∀ x ∈ before', Text.isDigit x = false)
    (none' : ∀ x ∈ rest', Text.isDigit x = false) : before = before' ∧ more = [] := by
  have digit := digits c List.mem_cons_self
  have place : before = before' := by
    rcases List.append_eq_append_iff.mp same with ⟨u, rfl, tail⟩ | ⟨u, rfl, tail⟩
    · cases u with
      | nil => exact (List.append_nil _).symm
      | cons x u =>
        obtain ⟨rfl, -⟩ := List.cons.inj tail
        rw [none c (by simp)] at digit
        cases digit
    · cases u with
      | nil => exact List.append_nil _
      | cons x u =>
        obtain ⟨-, rfl⟩ := List.cons.inj tail
        rw [none' c (by simp)] at digit
        cases digit
  subst place
  obtain ⟨-, rfl⟩ := List.cons.inj (List.append_cancel_left same)
  refine ⟨rfl, ?_⟩
  cases more with
  | nil => rfl
  | cons x more =>
    have further := digits x (by simp)
    rw [none' x (by simp)] at further
    cases further

section Header

variable {gap gap' : List Char}

/-- The version of a header behind all that stands before it. -/
theorem version_split
    (text : Text.trimStart line = '!' :: 'm' :: 'u' :: 'f' :: (gap ++ '4' :: gap')) :
    line = (line.takeWhile Text.isBlank ++ ['!', 'm', 'u', 'f'] ++ gap) ++ '4' :: gap' := by
  have parts : line.takeWhile Text.isBlank ++ Text.trimStart line = line :=
    List.takeWhile_append_dropWhile
  rw [text] at parts
  refine parts.symm.trans ?_
  simp

theorem length_before_version :
    (line.takeWhile Text.isBlank ++ ['!', 'm', 'u', 'f'] ++ gap).length =
      Text.indent line + (gap.length + 4) := by
  rw [List.length_append, List.length_append, Text.indent, Nat.add_assoc,
    Nat.add_comm gap.length]
  rfl

/-- The version is the first digit of a header. -/
theorem isDigit_before_version (blank : Text.isAllBlank gap = true) :
    ∀ c ∈ line.takeWhile Text.isBlank ++ ['!', 'm', 'u', 'f'] ++ gap, Text.isDigit c = false := by
  have solid : ∀ c ∈ ['!', 'm', 'u', 'f'], Text.isDigit c = false := by decide
  intro c hc
  rcases List.mem_append.mp hc with hc | hc
  · rcases List.mem_append.mp hc with hc | hc
    · exact Text.isDigit_of_isBlank (List.all_eq_true.mp List.all_takeWhile c hc)
    · exact solid c hc
  · exact Text.isDigit_of_isBlank (List.all_eq_true.mp blank c hc)

theorem mark_found
    (text : Text.trimStart line = '!' :: 'm' :: 'u' :: 'f' :: (gap ++ '4' :: gap'))
    (apart : gap ≠ []) (blank : Text.isAllBlank gap = true) :
    (Text.indent line, Text.indent line + 4) ∈ headerMark.spans line := by
  refine mem_spans_headerMark_iff.mpr ⟨_, text, isBoundary_of_blank (by decide) ?_, rfl⟩
  intro c hc
  rw [List.head?_append_of_ne_nil _ apart] at hc
  exact List.all_eq_true.mp blank c (List.mem_of_mem_head? hc)

theorem version_found
    (text : Text.trimStart line = '!' :: 'm' :: 'u' :: 'f' :: (gap ++ '4' :: gap'))
    (apart : gap ≠ []) (blank : Text.isAllBlank gap = true)
    (blank' : Text.isAllBlank gap' = true) :
    (Text.indent line + (gap.length + 4), Text.indent line + (gap.length + 5)) ∈
      wholeNumber.spans line := by
  have behind : ∀ c ∈ gap'.head?, Text.isBlank c = true := fun c hc =>
    List.all_eq_true.mp blank' c (List.mem_of_mem_head? hc)
  have found := mem_spans_wholeNumber (version_split text) (by decide)
    (isDigit_before_version blank) ?_ (isBoundary_of_blank (by decide) behind)
    fun c hc => Text.isDigit_of_isBlank (behind c hc)
  · rw [length_before_version] at found
    exact found
  · rw [Text.isBoundary_comm]
    refine isBoundary_of_blank (by decide) fun c hc => ?_
    rw [List.getLast?_append_of_ne_nil _ apart] at hc
    exact List.all_eq_true.mp blank c (List.mem_of_mem_getLast? hc)

theorem tokens_of_header
    (text : Text.trimStart line = '!' :: 'm' :: 'u' :: 'f' :: (gap ++ '4' :: gap'))
    (apart : gap ≠ []) (blank : Text.isAllBlank gap = true)
    (blank' : Text.isAllBlank gap' = true) :
    Profile.buildconf.highlighter.tokensOfLine number line =
      [⟨number, Text.indent line, Text.indent line + 4, .keyword⟩,
       ⟨number, Text.indent line + (gap.length + 4), Text.indent line + (gap.length + 5),
        .number⟩] := by
  have chars : ∀ c ∈ line, Text.isBlank c = true ∨ c ∈ ['!', 'm', 'u', 'f', '4'] := by
    intro c hc
    rw [version_split text] at hc
    simp only [List.mem_append, List.mem_cons] at hc ⊢
    rcases hc with ((hc | hc) | hc) | hc | hc
    · exact .inl (List.all_eq_true.mp List.all_takeWhile c hc)
    · right
      tauto
    · exact .inl (List.all_eq_true.mp blank c hc)
    · right
      tauto
    · exact .inl (List.all_eq_true.mp blank' c hc)
  refine Highlighter.tokensOfLine_eq_of_cover
    [⟨Text.indent line, 0, Text.indent line + 4, .keyword⟩,
     ⟨Text.indent line + (gap.length + 4), 6, Text.indent line + (gap.length + 5), .number⟩]
    ?_ ?_ ?_ ?_
  · refine List.forall_mem_cons.mpr ⟨?_, List.forall_mem_singleton.mpr ?_⟩
    · exact Highlighter.mem_found_iff.mpr
        ⟨headerMark, rfl, mark_found text apart blank, rfl⟩
    · exact Highlighter.mem_found_iff.mpr
        ⟨wholeNumber, rfl, version_found text apart blank blank', rfl⟩
  · refine List.pairwise_pair.mpr ?_
    show Text.indent line + 4 ≤ Text.indent line + (gap.length + 4)
    omega
  · refine List.forall_mem_cons.mpr ⟨?_, List.forall_mem_singleton.mpr ?_⟩
    · show Text.indent line < Text.indent line + 4
      omega
    · show Text.indent line + (gap.length + 4) < Text.indent line + (gap.length + 5)
      omega
  · intro f hf takes
    cases finds_of_mem_found hf with
    | header => exact ⟨_, List.mem_cons_self, .inl rfl⟩
    | quoted text' => exact absurd (chars '"' (by rw [text']; simp)) (by decide)
    | name text' => exact absurd (chars '.' (by rw [text']; simp)) (by decide)
    | number text' digits =>
      obtain ⟨rfl, rfl⟩ := eq_of_only_digit (text'.symm.trans (version_split text)) digits
        (isDigit_before_version blank)
        fun c hc => Text.isDigit_of_isBlank (List.all_eq_true.mp blank' c hc)
      refine ⟨_, List.mem_cons_of_mem _ List.mem_cons_self, .inl ?_⟩
      rw [length_before_version]
      rfl
    | tag text' | comment text' | closer text' =>
      exact absurd (List.cons.inj (text'.symm.trans text)).1 (by decide)

end Header

/-! ## Directives -/

theorem head?_tokens_of_directive {name after : List Char}
    (text : Text.trimStart line = '.' :: (name ++ after)) (nonempty : name ≠ [])
    (letters : ∀ c ∈ name, isNameLetter c = true)
    (stop : ∀ c ∈ after.head?, Text.isBlank c = true) :
    (Profile.buildconf.highlighter.tokensOfLine number line).head? =
      some ⟨number, Text.indent line, Text.indent line + (name.length + 1), .keyword⟩ := by
  obtain ⟨gap, blank, parts, length⟩ := Text.exists_indent line
  rw [text] at parts
  have span : (Text.indent line, Text.indent line + (name.length + 1)) ∈
      directiveName.spans line := by
    rw [length]
    refine mem_spans_directiveName parts ?_ nonempty letters ?_
    · intro point
      exact absurd (List.all_eq_true.mp blank _ point) (by decide)
    · exact fun c hc => isNameLetter_of_isBlank (stop c hc)
  refine Highlighter.head?_tokensOfLine
    (x := ⟨Text.indent line, 5, Text.indent line + (name.length + 1), .keyword⟩) ?_ ?_ ?_
  · exact Highlighter.mem_found_iff.mpr ⟨directiveName, rfl, span, rfl⟩
  · show Text.indent line < Text.indent line + (name.length + 1)
    omega
  · intro f hf takes
    have finds := finds_of_mem_found hf
    rcases finds.later_or_canOpen text with later | opens
    · exact .inr later.1
    · cases finds with
      | closer text' =>
        obtain ⟨c, more, rfl⟩ := List.exists_cons_of_ne_nil nonempty
        obtain ⟨rfl, -⟩ := List.cons.inj (List.cons.inj (text.symm.trans text')).2
        cases letters '.' List.mem_cons_self
      | @name before' name' _ text' =>
        rcases start_cases text' (by decide) text with ⟨same, -⟩ | later
        · obtain ⟨rule, there, span', -⟩ := Highlighter.mem_found_iff.mp hf
          cases there
          have stops : before'.length + (name'.length + 1) =
              Text.indent line + (name.length + 1) :=
            (Prod.mk.inj (eq_of_mem_spans rfl span' span same)).2
          exact .inl (by rw [stops, same])
        · exact .inr later.1
      | _ => cases opens

end Lines

/-! ## All kinds -/

theorem comment_of_token {line : List Char} {number : Nat} {t : Token}
    (ht : t ∈ Profile.buildconf.highlighter.tokensOfLine number line) (kind : t.kind = .comment) :
    LineKind.ofLine line = .comment := by
  obtain ⟨f, hf, rfl⟩ := Highlighter.exists_found_of_mem_tokensOfLine ht
  cases finds_of_mem_found hf with
  | comment text => exact Buildconf.ofLine_eq_comment_iff.mpr ⟨_, text⟩
  | _ => cases kind

theorem closer_of_token {line : List Char} {number : Nat} {t : Token}
    (ht : t ∈ Profile.buildconf.highlighter.tokensOfLine number line) (kind : t.kind = .delimiter) :
    LineKind.ofLine line = .closer := by
  obtain ⟨f, hf, rfl⟩ := Highlighter.exists_found_of_mem_tokensOfLine ht
  cases finds_of_mem_found hf with
  | closer text blank => exact Buildconf.ofLine_eq_closer_iff.mpr ⟨_, text, blank⟩
  | _ => cases kind

/-- A token behind the indentation. -/
theorem covers_behind_indent {line rest : List Char} (word : List Char) {t : Token}
    (text : Text.trimStart line = word ++ rest) (start : t.start = Text.indent line)
    (stop : t.stop = Text.indent line + word.length) :
    t.Covers line (line.takeWhile Text.isBlank) word where
  shown := by
    refine ⟨rest, ?_⟩
    rw [List.append_assoc, ← text]
    exact List.takeWhile_append_dropWhile
  start := start
  stop := stop

/-- **An editor sees the lines of a build configuration as they are read.** -/
theorem agreesOn_buildconf {line : List Char} (inside : '\n' ∉ line) (number : Nat) :
    (Profile.ofKind .buildconf).AgreesOn number line where
  lineComment := isLineComment_iff
  comment := by
    constructor
    · rintro ⟨t, ht, kind⟩
      exact comment_of_token ht kind
    · intro kind
      have alone : (Profile.ofKind .buildconf).highlighter.tokensOfLine number line = _ :=
        tokens_of_comment inside kind
      rw [alone]
      exact ⟨_, List.mem_cons_self, rfl⟩
  commentAlone := by
    intro kind
    refine ⟨_, tokens_of_comment inside kind, rfl, ⟨List.prefix_rfl, rfl, ?_⟩⟩
    exact (Nat.zero_add _).symm
  closer := by
    constructor
    · rintro ⟨t, ht, kind⟩
      exact closer_of_token ht kind
    · intro kind
      have alone : (Profile.ofKind .buildconf).highlighter.tokensOfLine number line = _ :=
        tokens_of_closer kind
      rw [alone]
      exact ⟨_, List.mem_cons_self, rfl⟩
  closerAlone := by
    intro kind
    obtain ⟨gap, text, -⟩ := Buildconf.ofLine_eq_closer_iff.mp kind
    exact ⟨_, tokens_of_closer kind, rfl, covers_behind_indent ['.', '.'] text rfl rfl⟩
  opener := by
    intro tag name kind
    obtain ⟨inner, rest, text, nonempty, none⟩ := Buildconf.exists_of_opener kind
    refine ⟨_, inner, head?_tokens_of_opener text nonempty none, rfl, none, ?_⟩
    have text' : Text.trimStart line = '[' :: (inner ++ [']']) ++ rest := by
      rw [text]
      simp
    refine covers_behind_indent _ text' rfl ?_
    simp
  header := by
    intro kind
    obtain ⟨gap, gap', text, apart, blank, blank'⟩ := Buildconf.exists_of_valid_header kind
    refine ⟨_, _, _, tokens_of_header text apart blank blank', rfl,
      covers_behind_indent ['!', 'm', 'u', 'f'] text rfl rfl, rfl,
      ⟨gap', ?_⟩, length_before_version.symm, ?_⟩
    · refine Eq.trans ?_ (version_split text).symm
      rw [List.append_assoc, List.singleton_append]
    · rw [length_before_version]
      rfl
  directive := by
    intro name rest kind letters
    obtain ⟨after, text, nonempty, stop⟩ := Buildconf.exists_of_directive kind
    refine ⟨_, head?_tokens_of_directive text nonempty letters stop, rfl, ?_⟩
    exact covers_behind_indent ('.' :: name.toList) text rfl rfl

/-- A directive with more behind its name. -/
theorem agreesOn_buildconf_needs :
    '\n' ∉ "  .needs [\"a 4\"] ;; .ref 12".toList ∧
      (Profile.ofKind .buildconf).AgreesOn 3 "  .needs [\"a 4\"] ;; .ref 12".toList := by
  have inside : '\n' ∉ "  .needs [\"a 4\"] ;; .ref 12".toList := by decide
  exact ⟨inside, agreesOn_buildconf inside 3⟩

end LiveLint.Language
