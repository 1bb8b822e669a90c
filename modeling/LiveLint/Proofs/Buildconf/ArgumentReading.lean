import LiveLint.Proofs.Buildconf.ArgumentText

/-!
# Arguments as they are read

Reading and writing arguments belong together. A list of arguments can be laid out in many ways:
`LaidOut` leaves open how many blanks of what kind stand between two of them and at the ends.
Every layout of writable arguments is read as those arguments (`readAll_of_laidOut`), and every text
whatsoever is read as writable arguments (`writable_of_mem_readAll`), also one with a quote that
nothing closes or with a word right behind a quoted text. So what can be read is what can be
written, and what was read is read again from any layout of it (`writable_iff_read`).
-/

namespace LiveLint.Buildconf.Argument

/-- A text lays out the arguments: they stand in it as they are written, in order, with blanks
between any two of them and perhaps at the ends. -/
inductive LaidOut : List Argument → List Char → Prop
  | none {gap : List Char} (blank : Text.isAllBlank gap = true) : LaidOut [] gap
  | last {gap tail : List Char} {a : Argument} (blank : Text.isAllBlank gap = true)
      (blank' : Text.isAllBlank tail = true) : LaidOut [a] (gap ++ (a.written ++ tail))
  | more {gap between rest : List Char} {a b : Argument} {args : List Argument}
      (blank : Text.isAllBlank gap = true) (apart : between ≠ [])
      (blank' : Text.isAllBlank between = true) (later : LaidOut (b :: args) rest) :
      LaidOut (a :: b :: args) (gap ++ (a.written ++ (between ++ rest)))

section Layout

variable {gap cs : List Char} {args : List Argument}

/-- Blanks in front make no difference. -/
theorem readAll_gap_append (blank : Text.isAllBlank gap = true) (cs : List Char) :
    readAll (gap ++ cs) = readAll cs := by
  induction gap with
  | nil => rfl
  | cons c gap ih =>
    rw [Text.isAllBlank, List.all_cons, Bool.and_eq_true] at blank
    rw [List.cons_append, readAll_cons_blank blank.1, ih blank.2]

theorem readAll_of_isAllBlank (blank : Text.isAllBlank gap = true) : readAll gap = [] := by
  have only := readAll_gap_append blank []
  rwa [List.append_nil, readAll_nil] at only

theorem isBlank_of_mem_head? (blank : Text.isAllBlank gap = true) {c : Char} (hc : c ∈ gap.head?) :
    Text.isBlank c = true :=
  List.all_eq_true.mp blank c (List.mem_of_mem_head? hc)

/-- **Arguments are read as they were laid out.** -/
theorem readAll_of_laidOut (h : LaidOut args cs) (ok : ∀ a ∈ args, a.Writable) :
    readAll cs = args := by
  induction h with
  | none blank => exact readAll_of_isAllBlank blank
  | last blank blank' =>
    rw [readAll_gap_append blank,
      readAll_written_append (ok _ List.mem_cons_self) fun _ => isBlank_of_mem_head? blank',
      readAll_of_isAllBlank blank']
  | @more gap between rest a b args blank apart blank' later ih =>
    have behind : ∀ c ∈ (between ++ rest).head?, Text.isBlank c = true := by
      intro c hc
      rw [List.head?_append_of_ne_nil _ apart] at hc
      exact isBlank_of_mem_head? blank' hc
    rw [readAll_gap_append blank, readAll_written_append (ok _ List.mem_cons_self) behind,
      readAll_gap_append blank', ih fun c hc => ok c (List.mem_cons_of_mem _ hc)]

/-- There is a layout of any arguments: with one space between any two. -/
theorem laidOut_phrase (args : List Argument) : LaidOut args (phrase args) := by
  induction args with
  | nil => exact .none rfl
  | cons a args ih =>
    cases args with
    | nil =>
      have alone := @LaidOut.last [] [] a rfl rfl
      rwa [List.nil_append, List.append_nil, ← phrase_singleton] at alone
    | cons b args =>
      have blank : Text.isAllBlank [' '] = true := by decide
      have first := @LaidOut.more [] [' '] _ a b args rfl (List.cons_ne_nil _ _) blank ih
      rwa [List.nil_append, List.singleton_append, ← phrase_cons_cons] at first

end Layout

/-! ## What can be read -/

theorem writable_literal (r : List Char) :
    Writable ⟨String.ofList (r.takeWhile isInside), true⟩ := by
  rw [Writable, if_pos rfl, String.toList_ofList]
  intro quote
  exact absurd rfl (bne_iff_ne.mp ((Text.run_takeWhile isInside r).all _ quote))

theorem writable_word {c : Char} (solid : isSolid c = true) (bare : c ≠ '"') (r : List Char) :
    Writable ⟨String.ofList (c :: r.takeWhile isSolid), false⟩ := by
  rw [Writable, if_neg Bool.false_ne_true, String.toList_ofList]
  refine ⟨List.cons_ne_nil _ _, ?_, fun first => bare (Option.some.inj first)⟩
  intro d hd
  rcases List.mem_cons.mp hd with rfl | later
  · exact solid
  · exact (Text.run_takeWhile isSolid r).all d later

theorem isSolid_of_trimStart {cs r : List Char} {c : Char} (start : Text.trimStart cs = c :: r) :
    isSolid c = true := by
  have first := (Text.run_takeWhile Text.isBlank cs).ends c
  rw [← Text.trimStart, start] at first
  rw [isSolid, first rfl]
  rfl

/-- **Whatever is read can be written**, also from a text with an open quote. -/
theorem writable_of_mem_readAll {cs : List Char} {a : Argument} (h : a ∈ readAll cs) :
    a.Writable := by
  fun_induction readAll cs with
  | case1 cs blank => cases h
  | case2 cs r start ih =>
    rcases List.mem_cons.mp h with rfl | later
    · exact writable_literal r
    · exact ih later
  | case3 cs c r start bare ih =>
    rcases List.mem_cons.mp h with rfl | later
    · exact writable_word (isSolid_of_trimStart start) bare r
    · exact ih later

/-- **What can be read is what can be written**: writable arguments are read from every layout of
them, and whatever a text is read as is writable, so it is laid out somewhere and read again from
every layout of it. -/
theorem writable_iff_read :
    (∀ args, (∀ a ∈ args, a.Writable) ↔ ∃ text, ofRest text = args) ∧
    (∀ args text, (∀ a ∈ args, a.Writable) → LaidOut args text.toList → ofRest text = args) ∧
    ∀ text, (∀ a ∈ ofRest text, a.Writable) ∧
      (∃ again : String, LaidOut (ofRest text) again.toList) ∧
      ∀ again : String, LaidOut (ofRest text) again.toList → ofRest again = ofRest text := by
  have readable : ∀ (text : String), ∀ a ∈ ofRest text, a.Writable :=
    fun text a => writable_of_mem_readAll
  have back : ∀ args (text : String), (∀ a ∈ args, a.Writable) → LaidOut args text.toList →
      ofRest text = args := fun args text ok laid => readAll_of_laidOut laid ok
  refine ⟨fun args => ⟨fun ok => ⟨_, reread_eq ok⟩, ?_⟩, back, fun text => ⟨readable text, ?_, ?_⟩⟩
  · rintro ⟨text, rfl⟩
    exact readable text
  · refine ⟨String.ofList (phrase (ofRest text)), ?_⟩
    rw [String.toList_ofList]
    exact laidOut_phrase _
  · exact fun again laid => back _ again (readable text) laid

/-- Of `"a"b "open` the second argument has no gap in front of it and the third no closing quote.
Written out with both, they are read as the same three. -/
theorem writable_iff_read_open_quote :
    ofRest "\"a\"b \"open" = [literal "a", word "b", literal "open"] ∧
      ofRest "\"a\" \t b \"open\" " = ofRest "\"a\"b \"open" := by
  have reading : ofRest "\"a\"b \"open" = [literal "a", word "b", literal "open"] := by
    decide +kernel
  have tail : LaidOut [literal "open"] "\"open\" ".toList :=
    @LaidOut.last [] [' '] (literal "open") rfl (by decide)
  have middle : LaidOut [word "b", literal "open"] "b \"open\" ".toList :=
    @LaidOut.more [] [' '] _ (word "b") _ _ rfl (by decide) (by decide) tail
  refine ⟨reading, (writable_iff_read.2.2 _).2.2 _ ?_⟩
  rw [reading]
  exact @LaidOut.more [] [' ', '\t', ' '] _ (literal "a") _ _ rfl (by decide) (by decide) middle

end LiveLint.Buildconf.Argument
