import LiveLint.Pattern.Reader
import LiveLint.Proofs.Buildconf.LineGrammar
import LiveLint.Proofs.Language.Rules
import LiveLint.Proofs.Pattern.Anchored

/-!
# Patterns of lines

A line can be read with four patterns in place of the scans of `LineKind.ofLine`: one for the
openers, one for the directives, one for the valid header, and one for names. They look at the
whole line, blanks included, and what they find has to be trimmed. `LineKind.ofPatterns` reads so.

The patterns for openers and directives are alike: behind the indentation a sign and a name, then
perhaps blanks and an argument (`labelled`). The ways through them are put together from what
their parts spell.
-/

namespace LiveLint.Buildconf

open Pattern LiveLint.Language

/-! ## The patterns -/

/-- The pattern that a text writes. -/
def readPattern (source : String) : Pattern :=
  (Pattern.ofText source.toList).toOption.getD .empty

/-- An opener. Group 1 is its tag, group 2 what stands between the blanks behind the tag and the
bracket. -/
def openTag : Pattern :=
  readPattern "^\\s*\\[([A-Za-z0-9_-]+)(?:\\s+([^\\]]+))?\\]"

/-- A directive. Group 1 is its name, group 2 what stands behind the blanks after the name. -/
def directiveLine : Pattern :=
  readPattern "^\\s*\\.([A-Za-z_][A-Za-z0-9_-]*)(?:\\s+(.*))?$"

/-- The header that asks for version 4. -/
def validHeader : Pattern :=
  readPattern "^\\s*!muf\\s+4\\s*$"

/-- A plain identifier. -/
def plainName : Pattern :=
  readPattern "^[A-Za-z0-9_-]+$"

/-- What a match of `openTag` says. -/
def asOpener (raw : List Char) (m : Match) : Option LineKind :=
  (m.text? raw 1).map fun tag =>
    let name := ((m.text? raw 2).map Text.trim).filter fun n => (plainName.find? (.start n)).isSome
    .opener (String.ofList tag) (name.map String.ofList)

/-- What a match of `directiveLine` says. -/
def asDirective (raw : List Char) (m : Match) : Option LineKind :=
  (m.text? raw 1).map fun name =>
    .directive (String.ofList name) (String.ofList (((m.text? raw 2).map Text.trimEnd).getD []))

/-- What a line is, read with patterns. -/
def LineKind.ofPatterns (raw : List Char) : LineKind :=
  let t := Text.trim raw
  if t.isEmpty then .blank
  else if [';', ';'].isPrefixOf t then .comment
  else if ['!', 'm', 'u', 'f'].isPrefixOf t then .header (validHeader.find? (.start raw)).isSome
  else if t = ['.', '.'] then .closer
  else
    (((openTag.find? (.start raw)).bind (asOpener raw)).orElse fun _ =>
      (directiveLine.find? (.start raw)).bind (asDirective raw)).getD .text

/-! ## What they are made of -/

/-- The parts of the class of identifiers. -/
def identItems : List ClassItem :=
  [.range 'A' 'Z', .range 'a' 'z', .range '0' '9', .single '_', .single '-']

/-- The parts of the class that directives start with. -/
def nameStartItems : List ClassItem :=
  [.range 'A' 'Z', .range 'a' 'z', .single '_']

/-- The name of a directive. -/
def directiveWord : Pattern :=
  .seq (oneOf nameStartItems) (.star true (oneOf identItems))

/-- Behind the indentation a sign and a name, which is group 1. -/
def label (sign : Char) (name : Pattern) : List Pattern :=
  [.start, blanks, .one (charClass sign), .group 1 name]

/-- Blanks and an argument, which is group 2, or nothing. -/
def behindBlanks (argument : Pattern) : Pattern :=
  .opt true (.seq someBlanks (.group 2 argument))

/-- A label, perhaps an argument, and the last part. -/
def labelled (sign : Char) (name argument last : Pattern) : Pattern :=
  seqOf (label sign name ++ [behindBlanks argument, last])

theorem openTag_eq : openTag =
    labelled '[' (.plus true (oneOf identItems)) (.plus true (oneBut [']']))
      (.one (charClass ']')) := by
  rw [openTag, readPattern, String.toList_ofList]
  decide +kernel

theorem directiveLine_eq : directiveLine = labelled '.' directiveWord restOfLine .stop := by
  rw [directiveLine, readPattern, String.toList_ofList]
  decide +kernel

theorem validHeader_eq : validHeader =
    seqOf ([.start, blanks] ++ chars "!muf" ++ [someBlanks] ++ chars "4" ++ [blanks, .stop]) := by
  rw [validHeader, readPattern, chars, chars, String.toList_ofList, String.toList_ofList,
    String.toList_ofList]
  decide +kernel

theorem plainName_eq : plainName = seqOf [.start, .plus true (oneOf identItems), .stop] := by
  rw [plainName, readPattern, String.toList_ofList]
  decide +kernel

theorem anchored_openTag : Anchored openTag := by
  rw [openTag_eq]
  exact anchored_seqOf rfl

theorem anchored_directiveLine : Anchored directiveLine := by
  rw [directiveLine_eq]
  exact anchored_seqOf rfl

theorem anchored_validHeader : Anchored validHeader := by
  rw [validHeader_eq, chars, chars, String.toList_ofList, String.toList_ofList]
  exact anchored_seqOf rfl

theorem anchored_plainName : Anchored plainName := by
  rw [plainName_eq]
  exact anchored_seqOf rfl

theorem ident_holds (c : Char) : CharClass.holds ⟨false, identItems⟩ c = isIdentChar c := by
  simp only [CharClass.holds, identItems, List.any_cons, List.any_nil, ClassItem.holds,
    Bool.or_false, Bool.bne_false, isIdentChar, Char.isAlphanum, Text.isAlpha_eq, Text.isUpper_eq,
    Text.isLower_eq, Bool.or_assoc, Bool.beq_comm (b := c)]
  rfl

theorem nameStart_holds (c : Char) :
    CharClass.holds ⟨false, nameStartItems⟩ c = isNameStart c := by
  simp only [CharClass.holds, nameStartItems, List.any_cons, List.any_nil, ClassItem.holds,
    Bool.or_false, Bool.bne_false, isNameStart, Text.isAlpha_eq, Text.isUpper_eq, Text.isLower_eq,
    Bool.or_assoc, Bool.beq_comm (b := c)]

/-! ## The ways through them -/

section Ways

variable {cs gap w after : List Char} {sign : Char} {name argument last p : Pattern} {a b m : Trail}
  {N Q : List Char → Prop}

theorem spells_identRun :
    Spells (.plus true (oneOf identItems)) fun w => w ≠ [] ∧ ∀ c ∈ w, isIdentChar c = true := by
  intro a b
  rw [oneOf, way_plus_one_iff]
  simp only [ident_holds, and_assoc]

theorem spells_inside : Spells (.plus true (oneBut [']'])) fun w => w ≠ [] ∧ ']' ∉ w := by
  intro a b
  rw [oneBut, way_plus_one_iff]
  simp only [oneBut_holds_iff, and_assoc]
  refine exists_congr fun w => and_congr_right fun _ => and_congr_left fun _ => ?_
  exact ⟨fun all mem => all _ mem (List.mem_singleton.mpr rfl),
    fun none c hc same => none (List.mem_singleton.mp same ▸ hc)⟩

theorem spells_directiveWord :
    Spells directiveWord fun w =>
      ∃ c r, w = c :: r ∧ isNameStart c = true ∧ ∀ d ∈ r, isIdentChar d = true := by
  intro a b
  constructor
  · intro way
    cases way with
    | seq head tail =>
      obtain ⟨c, holds, reads⟩ := way_one_iff.mp head
      obtain ⟨r, all, further⟩ := way_star_one_iff.mp tail
      rw [nameStart_holds] at holds
      simp only [ident_holds] at all
      exact ⟨c :: r, ⟨c, r, rfl, holds, all⟩, reads.trans further⟩
  · rintro ⟨_, ⟨c, r, rfl, holds, all⟩, reads⟩
    obtain ⟨m, first, further⟩ := Trail.Reads.exists_between (w := [c]) reads
    rw [← nameStart_holds] at holds
    simp only [← ident_holds] at all
    exact .seq (way_one_iff.mpr ⟨c, holds, first⟩) (way_star_one_iff.mpr ⟨r, all, further⟩)

theorem spells_restOfLine : Spells restOfLine fun w => '\n' ∉ w :=
  fun _ _ => way_restOfLine_iff

theorem exists_of_ways_label (spells : name.Spells N)
    (ways : Ways (label sign name) ⟨.start cs, []⟩ m) :
    ∃ gap w, Text.isAllBlank gap = true ∧ N w ∧ (Place.start cs).Reads (gap ++ sign :: w) m.place ∧
      m.text? cs 1 = some w ∧ m.text? cs 2 = none := by
  obtain ⟨_, starts, i, indents, j, signed, grouped⟩ := ways
  obtain ⟨-, rfl⟩ := way_start_iff.mp starts
  obtain ⟨gap, blank, reads⟩ := way_blanks_iff.mp indents
  obtain ⟨d, holds, reads'⟩ := way_one_iff.mp signed
  cases charClass_holds_iff.mp holds
  have before := reads.trans reads'
  obtain ⟨w, isName, further, text, others⟩ :=
    exists_text_of_way_group spells before.place (ways_singleton_iff.mp grouped)
  refine ⟨gap, w, blank, isName, ?_, text, ?_⟩
  · have whole := before.place.trans further
    rw [List.append_assoc] at whole
    exact whole
  · rw [others 2 (by decide), Trail.text?, before.spans]
    rfl

theorem exists_ways_label (spells : name.Spells N) (blank : Text.isAllBlank gap = true)
    (isName : N w) (text : cs = gap ++ sign :: (w ++ after)) :
    ∃ m, Ways (label sign name) ⟨.start cs, []⟩ m ∧ m.place.rest = after := by
  obtain ⟨i, reads, rest⟩ := Trail.exists_reads (a := ⟨.start cs, []⟩) text
  have signed : i.place.rest = [sign] ++ (w ++ after) := rest
  obtain ⟨j, reads', rest'⟩ := Trail.exists_reads signed
  obtain ⟨k, reads'', rest''⟩ := Trail.exists_reads rest'
  obtain ⟨m, grouped, place⟩ :=
    exists_way_group 1 spells isName (a := j) reads''.place
  have signs : Way (.one (charClass sign)) i j :=
    way_one_iff.mpr ⟨sign, charClass_holds_iff.mpr rfl, reads'⟩
  refine ⟨m, ⟨_, way_start_iff.mpr ⟨rfl, rfl⟩, i, way_blanks_iff.mpr ⟨gap, blank, reads⟩, j, signs,
    ways_singleton_iff.mpr grouped⟩, ?_⟩
  rw [place, rest'']

theorem way_labelled_iff :
    Way (labelled sign name argument last) a b ↔
      ∃ m, Ways (label sign name) a m ∧
        ∃ v, Way (behindBlanks argument) m v ∧ Way last v b := by
  rw [labelled, way_seqOf_iff, ways_append_iff]
  simp only [Ways, exists_eq_right']

theorem way_behindBlanks_iff :
    Way (behindBlanks argument) a b ↔
      b = a ∨ ∃ gap m, gap ≠ [] ∧ Text.isAllBlank gap = true ∧ a.Reads gap m ∧
        Way (.group 2 argument) m b := by
  rw [behindBlanks, way_opt_iff]
  refine or_congr_right ⟨?_, ?_⟩
  · intro way
    cases way with
    | seq head tail =>
      obtain ⟨gap, some, blank, reads⟩ := way_someBlanks_iff.mp head
      exact ⟨gap, _, some, blank, reads, tail⟩
  · rintro ⟨gap, m, some, blank, reads, tail⟩
    exact .seq (way_someBlanks_iff.mpr ⟨gap, some, blank, reads⟩) tail

/-- On the way over an argument, it is what group 2 stands for. -/
theorem exists_of_way_behindBlanks {u : List Char} (spells : argument.Spells Q)
    (before : (Place.start cs).Reads u a.place)
    (way : Way (behindBlanks argument) a b) :
    b = a ∨ ∃ gap w, gap ≠ [] ∧ Text.isAllBlank gap = true ∧ Q w ∧
      a.place.Reads (gap ++ w) b.place ∧ b.text? cs 1 = a.text? cs 1 ∧ b.text? cs 2 = some w := by
  refine (way_behindBlanks_iff.mp way).imp_right ?_
  rintro ⟨gap, m, some, blank, reads, grouped⟩
  obtain ⟨w, isArgument, further, text, others⟩ :=
    exists_text_of_way_group spells (before.trans reads.place) grouped
  refine ⟨gap, w, some, blank, isArgument, reads.place.trans further, ?_, text⟩
  rw [others 1 (by decide), Trail.text?, reads.spans, Trail.text?]

theorem exists_way_behindBlanks (spells : argument.Spells Q) (some : gap ≠ [])
    (blank : Text.isAllBlank gap = true) (isArgument : Q w)
    (text : a.place.rest = gap ++ (w ++ after)) :
    ∃ b, Way (behindBlanks argument) a b ∧ b.place.rest = after := by
  obtain ⟨m, reads, rest⟩ := Trail.exists_reads text
  obtain ⟨n, further, rest'⟩ := Trail.exists_reads rest
  obtain ⟨b, grouped, place⟩ := exists_way_group 2 spells isArgument further.place
  refine ⟨b, way_behindBlanks_iff.mpr (.inr ⟨gap, m, some, blank, reads, grouped⟩), ?_⟩
  rw [place, rest']

end Ways

end LiveLint.Buildconf
