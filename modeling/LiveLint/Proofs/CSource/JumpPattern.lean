import LiveLint.Proofs.CSource.Jumps
import LiveLint.Proofs.CSource.WordPatterns

/-!
# Words before jumps as a pattern

A word with a jump behind it is written as one pattern: the word, which is group 1, blanks, one of
the words that start a jump, and the boundary of a word. A match goes over three runs, whole ones,
since blanks end the word and the boundary ends the jump, and the next one is looked for behind
them. So its matches are the pairs that `wordsBeforeJumps` finds (`captures_jumpPattern`).
-/

namespace LiveLint.CSource

open Pattern (Trail Way Scans Match)
open LiveLint.Language
open Text (IsWordText)

/-- A word and a jump behind it. Group 1 is the word. -/
def jumpPattern : Pattern :=
  .seq (.seq (.seq (.group 1 someWord) someBlanks) (wordChoice jumpWords)) .boundary

theorem ofText_jumpPattern :
    Pattern.ofText "(\\w+)\\s+(?:return|break|continue|goto)\\b".toList = .ok jumpPattern := by
  rw [String.toList_ofList]
  decide +kernel

section Way

variable {a d e b : Pattern.Place} {m : Match} {word gap jump : List Char} {t : Trail}
  {rest : List (List Char)}

/-- The three words that a way reads, one after the other. -/
structure JumpWay (a d b : Pattern.Place) (word gap jump : List Char) : Prop where
  isWord : IsWordText word
  some : gap ≠ []
  pair : IsPair gap jump
  before : a.Reads word d
  behind : d.Reads (gap ++ jump) b
  bound : Text.isBoundary b.before b.rest.head? = true

/-- A word ends at a boundary just if no word character stands behind it. -/
theorem isBoundary_behind_iff {front : List Char} (isWord : IsWordText word)
    (reads : a.Reads (front ++ word) b) : Text.isBoundary b.before b.rest.head? = true ↔
      ∀ c ∈ b.rest.head?, Text.isWord c = false := by
  obtain ⟨e, ends⟩ := Option.isSome_iff_exists.mp (List.getLast?_isSome.mpr isWord.some)
  have before : b.before = some e := by
    rw [reads.before, List.getLast?_append_of_ne_nil _ isWord.some, ends]
    rfl
  have letter : Text.isWord e = true := isWord.letters e (List.mem_of_getLast? ends)
  rw [before, Text.isBoundary]
  cases b.rest.head? with
  | none => simp [Text.isWord?, letter]
  | some c => simp [Text.isWord?, letter]

theorem exists_jumpWay (way : Way jumpPattern ⟨a, []⟩ t) : ∃ word gap jump d,
    JumpWay a d t.place word gap jump ∧ t.spans = [⟨1, a.position, d.position⟩] := by
  cases way with
  | seq head last =>
    obtain ⟨bound, rfl⟩ := Pattern.way_boundary_iff.mp last
    cases head with
    | seq head jumps =>
      cases head with
      | seq grouped blanks =>
        obtain ⟨c, inner, rfl⟩ := Pattern.way_group_iff.mp grouped
        obtain ⟨word, ⟨there, letters⟩, before⟩ := way_someWord_iff.mp inner
        obtain ⟨gap, some, blank, further⟩ := way_someBlanks_iff.mp blanks
        obtain ⟨jump, isJump, reads⟩ := (way_wordChoice_iff (by decide)).mp jumps
        have jumps : String.ofList jump.toList ∈ jumpWords := by rwa [String.ofList_toList]
        refine ⟨word, gap, jump.toList, c.place, ⟨⟨there, letters⟩, some, ⟨blank, jumps⟩,
          before.place, (further.trans reads).place, bound⟩, ?_⟩
        rw [reads.spans, further.spans, before.spans]

theorem JumpWay.exists_way (h : JumpWay a d b word gap jump) :
    ∃ t, Way jumpPattern ⟨a, []⟩ t ∧ t.place = b := by
  obtain ⟨e, further, reads⟩ := h.behind.exists_between
  let spans : List Pattern.Span := [⟨1, a.position, d.position⟩]
  have inner : Way someWord ⟨a, []⟩ ⟨d, []⟩ :=
    way_someWord_iff.mpr ⟨word, ⟨h.isWord.some, h.isWord.letters⟩, h.before, rfl⟩
  have blanks : Way someBlanks ⟨d, spans⟩ ⟨e, spans⟩ :=
    way_someBlanks_iff.mpr ⟨gap, h.some, h.pair.blank, further, rfl⟩
  have jumps : Way (wordChoice jumpWords) ⟨e, spans⟩ ⟨b, spans⟩ := by
    refine (way_wordChoice_iff (by decide)).mpr ⟨String.ofList jump, h.pair.jumps, ?_, rfl⟩
    rwa [String.toList_ofList]
  exact ⟨⟨b, spans⟩, .seq (.seq (.seq (.group inner) blanks) jumps) (.boundary h.bound), rfl⟩

/-- The words are the first runs of the text, whole. -/
theorem JumpWay.runs_eq (h : JumpWay a d b word gap jump) :
    Text.runs a.rest = word :: gap :: jump :: Text.runs b.rest := by
  have isWord := isWordText_of_jump h.pair.jumps
  have gaps : ∀ c ∈ gap, Text.isWord c = false := fun c hc =>
    Text.isWord_of_isBlank (List.all_eq_true.mp h.pair.blank c hc)
  have first : ∀ c ∈ (gap ++ (jump ++ b.rest)).head?, Text.isWord c = false := by
    intro c hc
    rw [List.head?_append_of_ne_nil _ h.some] at hc
    exact gaps c (List.mem_of_mem_head? hc)
  have second : ∀ c ∈ (jump ++ b.rest).head?, Text.isWord c = true := by
    intro c hc
    rw [List.head?_append_of_ne_nil _ isWord.some] at hc
    exact isWord.letters c (List.mem_of_mem_head? hc)
  have last : ∀ c ∈ b.rest.head?, Text.isWord c = false :=
    (isBoundary_behind_iff isWord h.behind).mp h.bound
  rw [h.before.rest, h.behind.rest, List.append_assoc,
    Text.runs_append h.isWord.some h.isWord.letters first, Text.runs_append h.some gaps second,
    Text.runs_append isWord.some isWord.letters last]

/-- Where a word, blanks and a jump are the first runs, there is a way over them. -/
theorem exists_jumpWay_of_runs (runs : Text.runs a.rest = word :: gap :: jump :: rest)
    (pair : IsPair gap jump) : ∃ d b, JumpWay a d b word gap jump ∧ Text.runs b.rest = rest := by
  have isWord := isWordText_of_jump pair.jumps
  have there : gap ∈ Text.runs a.rest := by simp [runs]
  have first : Text.runs a.rest = [] ++ word :: gap :: jump :: rest := runs
  have three : Text.runs a.rest = [word, gap, jump] ++ rest := runs
  obtain ⟨-, later, apart⟩ := Text.runs_flatten_of_append three
  have text : a.rest = word ++ ((gap ++ jump) ++ rest.flatten) := by
    rw [← Text.flatten_runs a.rest, runs]
    simp
  obtain ⟨d, before, left⟩ := Pattern.Place.exists_reads text
  obtain ⟨b, behind, left'⟩ := Pattern.Place.exists_reads left
  have last : ∀ c ∈ b.rest.head?, Text.isWord c = false := by
    rw [List.flatten_cons, List.flatten_cons, List.flatten_singleton, ← List.append_assoc,
      isWord.apart_iff_ends, ← left'] at apart
    exact apart
  exact ⟨d, b, ⟨Text.isWordText_of_gap first pair.blank, Text.ne_nil_of_mem_runs there, pair,
    before, behind, (isBoundary_behind_iff isWord behind).mpr last⟩, by rw [left', later]⟩

end Way

/-! ## All pairs -/

section Pairs

variable {a : Pattern.Place} {m : Match} {cs u word gap jump : List Char}
  {rest : List (List Char)}

/-- A match goes over the first three runs, which are a pair. -/
theorem exists_of_matchAt?_jumpPattern (before : (Pattern.Place.start cs).Reads u a)
    (here : jumpPattern.matchAt? a = some m) : ∃ word gap jump, IsPair gap jump ∧
      Text.runs a.rest = word :: gap :: jump :: Text.runs m.final.place.rest ∧
      m.capture cs 1 = some (a.position, word) := by
  obtain ⟨word, gap, jump, d, way, spans⟩ := exists_jumpWay (Pattern.way_of_matchAt? here).2
  refine ⟨word, gap, jump, way.pair, way.runs_eq, Match.capture_eq before way.before ?_⟩
  have spans' : m.final.spans = [⟨1, a.position, d.position⟩] := spans
  rw [Match.span?, if_neg Nat.one_ne_zero, spans']
  rfl

theorem exists_matchAt?_jumpPattern (runs : Text.runs a.rest = word :: gap :: jump :: rest)
    (pair : IsPair gap jump) : ∃ m, jumpPattern.matchAt? a = some m := by
  obtain ⟨d, b, way, -⟩ := exists_jumpWay_of_runs runs pair
  obtain ⟨t, way, -⟩ := way.exists_way
  exact Pattern.exists_matchAt? (by decide +kernel) way

/-- Where the first run begins no pair, no match starts in it. -/
theorem matchAt?_jumpPattern_of_unpaired {xs ys v : List Char} {d : Pattern.Place} {kind : Bool}
    (text : a.rest = xs ++ ys) (same : ∀ c ∈ xs, Text.isWord c = kind)
    (other : ∀ c ∈ ys.head?, Text.isWord c = !kind)
    (unpaired : ∀ gap jump later, Text.runs ys = gap :: jump :: later → ¬IsPair gap jump)
    (inside : v <+: xs) (proper : v ≠ xs) (reads : a.Reads v d) :
    jumpPattern.matchAt? d = none := by
  refine Option.eq_none_iff_forall_ne_some.mpr fun m here => ?_
  obtain ⟨word, gap, jump, e, way, -⟩ := exists_jumpWay (Pattern.way_of_matchAt? here).2
  obtain ⟨w, left, rfl, rest⟩ := exists_left_of_prefix inside proper reads text
  have parts := way.runs_eq
  rw [rest, Text.runs_append left (fun c hc => same c (List.mem_append_right v hc)) other,
    List.cons.injEq] at parts
  exact unpaired gap jump _ parts.2 way.pair

theorem wordsBeforeJumps_pair (pair : IsPair gap jump) :
    wordsBeforeJumps (word :: gap :: jump :: rest) =
      String.ofList word :: wordsBeforeJumps rest := by
  rw [wordsBeforeJumps, if_pos (by rw [pair.blank, decide_eq_true pair.jumps]; rfl)]

theorem wordsBeforeJumps_unpaired {run : List Char}
    (unpaired : ∀ gap jump later, rest = gap :: jump :: later → ¬IsPair gap jump) :
    wordsBeforeJumps (run :: rest) = wordsBeforeJumps rest := by
  rcases rest with _ | ⟨gap, _ | ⟨jump, later⟩⟩
  · rfl
  · rfl
  · rw [wordsBeforeJumps, if_neg]
    intro pair
    obtain ⟨blank, jumps⟩ := Bool.and_eq_true_iff.mp pair
    exact unpaired gap jump later rfl ⟨blank, of_decide_eq_true jumps⟩

/-- **What the pattern finds** are the words before jumps. -/
theorem captures_jumpPattern (cs : List Char) :
    (jumpPattern.captures 1 cs).map (String.ofList ·.2) = wordsBeforeJumps (Text.runs cs) := by
  have scanned : ∃ ms, Scans jumpPattern (.start cs) ms ∧
      (ms.filterMap (Match.capture cs 1)).map (String.ofList ·.2) =
        wordsBeforeJumps (Text.runs cs) := by
    refine Pattern.exists_scans (Q := fun _ => True) (P := fun a ms =>
      (ms.filterMap (Match.capture cs 1)).map (String.ofList ·.2) =
        wordsBeforeJumps (Text.runs a.rest)) rfl ?_ ?_ ?_ trivial
    · intro a u _ last
      rw [last]
      rfl
    · intro a u m before _ here
      obtain ⟨word, gap, jump, pair, parts, capture⟩ := exists_of_matchAt?_jumpPattern before here
      refine ⟨trivial, fun ms words => ?_⟩
      rw [List.filterMap_cons_some capture, List.map_cons, words, parts,
        wordsBeforeJumps_pair pair]
    · intro a u c r before _ text here
      obtain ⟨xs, ys, whole, some, same, other, runs⟩ := exists_first_run c r
      obtain ⟨b, reads, rest⟩ := Pattern.Place.exists_reads (text.trans whole)
      have unpaired : ∀ gap jump later, Text.runs ys = gap :: jump :: later →
          ¬IsPair gap jump := by
        intro gap jump later behind pair
        obtain ⟨m, found⟩ := exists_matchAt?_jumpPattern (by rw [text, runs, behind]) pair
        rw [here] at found
        cases found
      refine ⟨xs, b, some, reads, trivial, fun v d inside proper reads' => ?_,
        fun ms _ words => ?_⟩
      · exact matchAt?_jumpPattern_of_unpaired (text.trans whole) same other unpaired inside
          proper reads'
      · rw [words, text, rest, runs, wordsBeforeJumps_unpaired unpaired]
  obtain ⟨ms, scans, found⟩ := scanned
  rw [Pattern.captures_eq_of_scans rfl scans, found]

end Pairs

end LiveLint.CSource
