import LiveLint.Proofs.CSource.WholeWords
import LiveLint.Proofs.Language.Rules
import LiveLint.Proofs.Pattern.Scan

/-!
# Words as patterns

The words of a text are the runs of word characters in it, and they are also what the pattern `\w+`
finds (`captures_wordRun`). A pattern that has words in it goes through a text run by run: inside a
run no word starts or ends (`isBoundary_inside`).
-/

namespace LiveLint.CSource

open Pattern (Trail Way Ways Scans Match way_seqOf_iff)
open LiveLint.Language

/-! ## Choices of words -/

/-- One of several words. -/
def wordChoice (words : List String) : Pattern :=
  .choice (words.map fun w => .seqOf (chars w))

theorem way_wordChoice_iff {words : List String} (some : words ≠ []) {a b : Trail} :
    Way (wordChoice words) a b ↔ ∃ w ∈ words, a.Reads w.toList b := by
  have some' : words.map (fun w => Pattern.seqOf (chars w)) ≠ [] := by simpa using some
  rw [wordChoice, Pattern.way_choice_iff some']
  simp only [List.mem_map, exists_exists_and_eq_and, way_seqOf_iff, ways_chars_iff]

/-! ## Places in a run -/

/-- A text falls into its first run and the others. -/
theorem exists_first_run (c : Char) (r : List Char) :
    ∃ xs ys, c :: r = xs ++ ys ∧ xs ≠ [] ∧ (∀ d ∈ xs, Text.isWord d = Text.isWord c) ∧
      (∀ d ∈ ys.head?, Text.isWord d = !Text.isWord c) ∧
      Text.runs (c :: r) = xs :: Text.runs ys := by
  obtain ⟨xs, ys, text, some, same, other⟩ := Text.exists_run c r
  exact ⟨xs, ys, text, some, same, other, by rw [text, Text.runs_append some same other]⟩

/-- At the place a run of the text begins, or the text ends. -/
def AtEdge (a : Pattern.Place) : Prop :=
  ∀ c ∈ a.before, ∀ d ∈ a.rest.head?, Text.isWord c ≠ Text.isWord d

theorem atEdge_start (cs : List Char) : AtEdge (.start cs) := by
  intro c hc
  cases hc

/-- Behind a text in which no run goes on, one begins. -/
theorem atEdge_of_apart {a b : Pattern.Place} {xs : List Char} (some : xs ≠ [])
    (apart : Text.Apart xs b.rest) (reads : a.Reads xs b) : AtEdge b := by
  intro c hc
  obtain ⟨e, last⟩ := Option.isSome_iff_exists.mp (List.getLast?_isSome.mpr some)
  rw [reads.before, last] at hc
  cases hc
  exact apart c last

/-- Behind a run the next one begins. -/
theorem atEdge_of_reads {a b : Pattern.Place} {xs : List Char} {kind : Bool} (some : xs ≠ [])
    (same : ∀ c ∈ xs, Text.isWord c = kind) (other : ∀ c ∈ b.rest.head?, Text.isWord c = !kind)
    (reads : a.Reads xs b) : AtEdge b := by
  refine atEdge_of_apart some (fun c hc d hd => ?_) reads
  rw [same c (List.mem_of_getLast? hc), other d hd]
  cases kind <;> decide

/-- Where a word begins at an edge, there is a boundary. -/
theorem AtEdge.isBoundary {a : Pattern.Place} (h : AtEdge a)
    (word : Text.isWord? a.rest.head? = true) :
    Text.isBoundary a.before a.rest.head? = true := by
  rw [Text.isBoundary, word]
  cases before : a.before with
  | none => rfl
  | some c =>
    cases first : a.rest.head? with
    | none =>
      rw [first] at word
      cases word
    | some d =>
      rw [first] at word
      have other := h c before d first
      have letter : Text.isWord d = true := word
      rw [letter] at other
      simpa [Text.isWord?] using other

section Inside

variable {a d : Pattern.Place} {v w xs ys : List Char} {kind : Bool}

/-- Inside a run no word starts or ends. -/
theorem isBoundary_inside (same : ∀ c ∈ v ++ w, Text.isWord c = kind) (before : v ≠ [])
    (behind : w ≠ []) (reads : a.Reads v d) (rest : d.rest = w ++ ys) :
    Text.isBoundary d.before d.rest.head? = false := by
  obtain ⟨v, c, rfl⟩ : ∃ v' c, v = v' ++ [c] :=
    ⟨_, _, (List.dropLast_concat_getLast before).symm⟩
  obtain ⟨e, w, rfl⟩ := List.exists_cons_of_ne_nil behind
  have left : d.before = some c := by
    rw [reads.before, List.getLast?_concat]
    rfl
  rw [left, rest, Text.isBoundary]
  show (Text.isWord c != Text.isWord e) = false
  rw [same c (by simp), same e (by simp), bne_self_eq_false]

/-- What is read of a text that starts with `xs`, and not all of it, leaves some of `xs`. -/
theorem exists_left_of_prefix (inside : v <+: xs) (proper : v ≠ xs) (reads : a.Reads v d)
    (text : a.rest = xs ++ ys) : ∃ w, w ≠ [] ∧ xs = v ++ w ∧ d.rest = w ++ ys := by
  obtain ⟨w, rfl⟩ := inside
  refine ⟨w, fun none => proper (by rw [none, List.append_nil]), rfl, ?_⟩
  have whole := reads.rest.symm.trans text
  rwa [List.append_assoc, List.append_cancel_left_eq] at whole

end Inside

/-! ## The pattern of words -/

theorem ofText_someWord : Pattern.ofText "\\w+".toList = .ok someWord := by
  rw [String.toList_ofList]
  decide +kernel

/-- Whether a run is a word. -/
def isWordRun (run : List Char) : Bool :=
  Text.isWord? run.head?

section SomeWord

variable {a b : Pattern.Place} {xs cs : List Char}

/-- Where a word starts, all of it is matched. -/
theorem exists_matchAt?_someWord (some : xs ≠ []) (word : ∀ c ∈ xs, Text.isWord c = true)
    (stop : ∀ c ∈ b.rest.head?, Text.isWord c = false) (reads : a.Reads xs b) :
    ∃ m, someWord.matchAt? a = .some m ∧ m.start = a.position ∧ m.final.place = b := by
  simp only [← word_holds] at word stop
  obtain ⟨t, longest, place⟩ :=
    Pattern.exists_getLast?_runEnds 1 (s := .start a) some word reads stop
  refine ⟨⟨a.position, t⟩, ?_, rfl, place⟩
  have ends : someWord.ends 1 (.start a) =
      (Pattern.runEnds ⟨false, [.word]⟩ 1 (.start a)).reverse := rfl
  rw [Pattern.matchAt?, ends, List.head?_reverse, longest]
  rfl

/-- Where no word character stands, none is matched. -/
theorem matchAt?_someWord_of_other (other : ∀ c ∈ a.rest.head?, Text.isWord c = false) :
    someWord.matchAt? a = none := by
  refine Option.eq_none_iff_forall_ne_some.mpr fun m here => ?_
  obtain ⟨w, ⟨some, all⟩, reads⟩ := way_someWord_iff.mp (Pattern.way_of_matchAt? here).2
  obtain ⟨c, w, rfl⟩ := List.exists_cons_of_ne_nil some
  have first : c ∈ a.rest.head? := by
    have rest : a.rest = c :: w ++ _ := reads.place.rest
    rw [rest]
    rfl
  have letter := all c List.mem_cons_self
  rw [other c first] at letter
  cases letter

/-- **What `\w+` finds** are the words, whole. -/
theorem captures_someWord (cs : List Char) :
    (someWord.captures 0 cs).map (·.2) = (Text.runs cs).filter isWordRun := by
  suffices h : ∀ r u a, (Pattern.Place.start cs).Reads u a → a.rest = r →
      ∃ ms, Scans someWord a ms ∧ (ms.filterMap (Match.capture cs 0)).map (·.2) =
        (Text.runs r).filter isWordRun by
    obtain ⟨ms, scans, found⟩ := h cs [] _ (Pattern.Place.reads_nil _) rfl
    rw [Pattern.captures_eq_of_scans rfl scans, found]
  intro r
  induction r using Text.runs_induction with
  | nil =>
    intro u a _ last
    exact ⟨[], .done last, rfl⟩
  | word xs ys some same stop ih =>
    intro u a before text
    obtain ⟨b, reads, rest⟩ := Pattern.Place.exists_reads text
    obtain ⟨ms, scans, found⟩ := ih (u ++ xs) b (before.trans reads) rest
    obtain ⟨m, here, start, place⟩ := exists_matchAt?_someWord some same (rest ▸ stop) reads
    have capture : m.capture cs 0 = .some (a.position, xs) := by
      have stops : m.stop = b.position := congrArg Pattern.Place.position place
      refine Match.capture_eq before reads ?_
      rw [Match.span?, if_pos rfl, start, stops]
    have first : isWordRun xs = true := by
      obtain ⟨c, xs, rfl⟩ := List.exists_cons_of_ne_nil some
      exact same c List.mem_cons_self
    refine ⟨m :: ms, .hit here (place ▸ scans), ?_⟩
    rw [List.filterMap_cons_some capture, List.map_cons, found, Text.runs_append some same stop,
      List.filter_cons_of_pos first]
  | other xs ys some same stop ih =>
    intro u a before text
    obtain ⟨b, reads, rest⟩ := Pattern.Place.exists_reads text
    obtain ⟨ms, scans, found⟩ := ih (u ++ xs) b (before.trans reads) rest
    have first : ¬isWordRun xs = true := by
      obtain ⟨c, xs, rfl⟩ := List.exists_cons_of_ne_nil some
      simp [isWordRun, Text.isWord?, same c List.mem_cons_self]
    refine ⟨ms, .skip_all reads (fun v d inside proper reads => ?_) scans, ?_⟩
    · obtain ⟨w, left, rfl, rest⟩ := exists_left_of_prefix inside proper reads text
      refine matchAt?_someWord_of_other fun c hc => same c ?_
      rw [rest, List.head?_append_of_ne_nil _ left] at hc
      exact List.mem_append_right _ (List.mem_of_mem_head? hc)
    · rw [found, Text.runs_append some same stop, List.filter_cons_of_neg first]

/-- How often `\w+` finds a word. -/
theorem count_captures_someWord {word : List Char} (kind : isWordRun word = true) :
    ((someWord.captures 0 cs).map (·.2)).count word = (Text.runs cs).count word := by
  rw [captures_someWord, List.count_filter kind]

end SomeWord

end LiveLint.CSource
