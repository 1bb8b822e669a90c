import LiveLint.Proofs.Pattern.Anchored
import LiveLint.Proofs.Pattern.Apart

/-!
# Looking for matches one after the other

Where every match of a pattern takes something, all matches of a text can be told by going through
it: at each place there is a match, and the next ones are looked for behind it, or there is none,
and the next character is tried (`Scans`). `allMatches_eq_of_scans` says that this is what
`allMatches` does, without its care for empty matches and its fuel, and `exists_scans` is the
induction by which a scan of a text is compared with another one.
-/

namespace LiveLint.Pattern

variable {p : Pattern} {place : Place} {m : Match} {ms : List Match}

/-! ## Matches that take something -/

/-- What cannot match without taking a character moves on. -/
theorem Way.lt {a b : Trail} (h : Way p a b) (solid : p.mayTakeNothing = false) :
    a.place.position < b.place.position := by
  induction h with
  | empty | start | stop | boundary | optNone | optSome | starNone | starMore => cases solid
  | one _ reads =>
    rw [reads.position]
    exact Nat.lt_succ_self _
  | altLeft _ ih => exact ih (Bool.or_eq_false_iff.mp solid).1
  | altRight _ ih => exact ih (Bool.or_eq_false_iff.mp solid).2
  | plusOnce _ ih | group _ ih => exact ih solid
  | plusMore turns _ ih ih' => exact Nat.lt_trans (ih solid) (ih' solid)
  | seq head tail ih ih' =>
    rcases Bool.and_eq_false_iff.mp solid with first | second
    · exact Nat.lt_of_lt_of_le (ih first) tail.le
    · exact Nat.lt_of_le_of_lt head.le (ih' second)

theorem start_lt_stop (solid : p.mayTakeNothing = false) (h : p.matchAt? place = some m) :
    m.start < m.stop := by
  obtain ⟨start, way⟩ := way_of_matchAt? h
  rw [start]
  exact way.lt solid

theorem length_rest_lt (solid : p.mayTakeNothing = false) (h : p.matchAt? place = some m) :
    m.final.place.rest.length < place.rest.length := by
  have way := (way_of_matchAt? h).2
  have further := way.lt solid
  obtain ⟨w, reads⟩ := way.reads
  have position : m.final.place.position = place.position + w.length := reads.position
  have rest : place.rest = w ++ m.final.place.rest := reads.rest
  have more : place.position < m.final.place.position := further
  rw [rest, List.length_append]
  omega

/-- At the end of a text it does not match. -/
theorem matchAt?_eq_none_of_end (solid : p.mayTakeNothing = false) (last : place.rest = []) :
    p.matchAt? place = none := by
  refine Option.eq_none_iff_forall_ne_some.mpr fun m here => ?_
  have shorter := length_rest_lt solid here
  rw [last] at shorter
  exact absurd shorter (Nat.not_lt_zero _)

/-! ## Going through a text -/

/-- From a place on, these are the matches, one after the other. -/
inductive Scans (p : Pattern) : Place → List Match → Prop
  | done {a : Place} (last : a.rest = []) : Scans p a []
  | hit {a : Place} {m : Match} {ms : List Match} (here : p.matchAt? a = some m)
      (later : Scans p m.final.place ms) : Scans p a (m :: ms)
  | skip {a : Place} {c : Char} {r : List Char} {ms : List Match} (none : p.matchAt? a = none)
      (rest : a.rest = c :: r) (later : Scans p ⟨a.position + 1, some c, r⟩ ms) : Scans p a ms

/-- Places without a match are passed over. -/
theorem Scans.skip_all {a b : Place} {w : List Char} (reads : a.Reads w b)
    (none : ∀ v d, v <+: w → v ≠ w → a.Reads v d → p.matchAt? d = none) (later : Scans p b ms) :
    Scans p a ms := by
  induction w generalizing a with
  | nil => rwa [← reads.eq_of_nil]
  | cons c w ih =>
    have rest : a.rest = c :: (w ++ b.rest) := reads.rest
    have here : p.matchAt? a = Option.none :=
      none [] a List.nil_prefix (by simp) (Place.reads_nil _)
    obtain ⟨d, one, further⟩ := Place.Reads.exists_between (w := [c]) reads
    cases (Place.reads_cons rest).eq_of_position one one.position.symm
    refine .skip here rest (ih further fun v d inside proper reads => ?_)
    refine none (c :: v) d ((List.prefix_cons_inj c).mpr inside) ?_ (one.trans reads)
    exact fun same => proper (List.cons.inj same).2

/-- No match starts in front. -/
theorem Scans.le_start (h : Scans p place (m :: ms)) : place.position ≤ m.start := by
  generalize whole : m :: ms = all at h
  induction h with
  | done => cases whole
  | hit here _ _ =>
    cases whole
    exact Nat.le_of_eq (way_of_matchAt? here).1.symm
  | skip _ _ _ ih => exact Nat.le_of_succ_le (ih whole)

section Scans

variable (solid : p.mayTakeNothing = false)
include solid

/-- The first of them is the one that is found. -/
theorem Scans.find?_eq (h : Scans p place ms) : p.find? place = ms.head? := by
  induction h with
  | @done a last =>
    have here := matchAt?_eq_none_of_end solid last
    obtain ⟨position, before, rest⟩ := a
    cases last
    exact here
  | hit here _ _ => exact find?_of_matchAt? here
  | skip none rest _ ih => rw [find?_of_none rest none, ih]

/-- The others lie behind the first. -/
theorem Scans.behind (h : Scans p place (m :: ms)) :
    Scans p m.final.place ms ∧ m.final.place.rest.length < place.rest.length := by
  generalize whole : m :: ms = all at h
  induction h with
  | done => cases whole
  | hit here later _ =>
    cases whole
    exact ⟨later, length_rest_lt solid here⟩
  | skip _ rest _ ih =>
    obtain ⟨later, shorter⟩ := ih whole
    refine ⟨later, Nat.lt_trans shorter ?_⟩
    rw [rest]
    exact Nat.lt_succ_self _

theorem next?_eq : p.next? place = p.find? place := by
  rw [next?]
  cases found : p.find? place with
  | none => rfl
  | some m =>
    obtain ⟨w, a, -, here⟩ := exists_place_of_find? found
    have some : m.isEmpty = false :=
      beq_eq_false_iff_ne.mpr (Nat.ne_of_lt (start_lt_stop solid here))
    simp [some]

theorem Scans.matchesAfter_eq (h : Scans p place ms) {fuel : Nat}
    (enough : place.rest.length < fuel) : p.matchesAfter fuel place = ms := by
  induction fuel generalizing place ms with
  | zero => exact absurd enough (Nat.not_lt_zero _)
  | succ fuel ih =>
    rw [matchesAfter, next?_eq solid, h.find?_eq solid]
    cases ms with
    | nil => rfl
    | cons m ms =>
      obtain ⟨later, shorter⟩ := h.behind solid
      show m :: p.matchesAfter fuel m.final.place = m :: ms
      rw [ih later (by omega)]

/-- **Going through a text** finds all matches of it. -/
theorem allMatches_eq_of_scans {cs : List Char} (h : Scans p (.start cs) ms) :
    p.allMatches cs = ms := by
  rw [allMatches, h.find?_eq solid]
  cases ms with
  | nil => rfl
  | cons m ms =>
    obtain ⟨later, shorter⟩ := h.behind solid
    have less : m.final.place.rest.length < cs.length := shorter
    show m :: p.matchesAfter (cs.length + 1) m.final.place = m :: ms
    rw [later.matchesAfter_eq solid (by omega)]

end Scans

/-- **What holds of all matches of a text**, if it is kept by every match and by all that is passed
over. `Q` is what is known of the places where the search goes on. -/
theorem exists_scans {cs : List Char} {Q : Place → Prop} {P : Place → List Match → Prop}
    (solid : p.mayTakeNothing = false)
    (done : ∀ a u, (Place.start cs).Reads u a → a.rest = [] → P a [])
    (hit : ∀ a u m, (Place.start cs).Reads u a → Q a → p.matchAt? a = some m →
      Q m.final.place ∧ ∀ ms, P m.final.place ms → P a (m :: ms))
    (skip : ∀ a u c r, (Place.start cs).Reads u a → Q a → a.rest = c :: r →
      p.matchAt? a = none → ∃ w b, w ≠ [] ∧ a.Reads w b ∧ Q b ∧
        (∀ v d, v <+: w → v ≠ w → a.Reads v d → p.matchAt? d = none) ∧
        ∀ ms, Scans p b ms → P b ms → P a ms)
    (start : Q (.start cs)) : ∃ ms, Scans p (.start cs) ms ∧ P (.start cs) ms := by
  suffices h : ∀ n a u, a.rest.length = n → (Place.start cs).Reads u a → Q a →
      ∃ ms, Scans p a ms ∧ P a ms from h _ _ [] rfl (Place.reads_nil _) start
  intro n
  induction n using Nat.strongRecOn with
  | _ n ih =>
    intro a u size before known
    cases text : a.rest with
    | nil => exact ⟨[], .done text, done a u before text⟩
    | cons c r =>
      cases here : p.matchAt? a with
      | some m =>
        have shorter : m.final.place.rest.length < n := size ▸ length_rest_lt solid here
        obtain ⟨w, reads⟩ := (way_of_matchAt? here).2.reads
        obtain ⟨known', keeps⟩ := hit a u m before known here
        obtain ⟨ms, scans, told⟩ := ih _ shorter m.final.place _ rfl (before.trans reads) known'
        exact ⟨m :: ms, .hit here scans, keeps ms told⟩
      | none =>
        obtain ⟨w, b, some, reads, known', free, keeps⟩ := skip a u c r before known text here
        have shorter : b.rest.length < n := by
          have := List.length_pos_iff.mpr some
          rw [← size, reads.rest, List.length_append]
          omega
        obtain ⟨ms, scans, told⟩ := ih _ shorter b _ rfl (before.trans reads) known'
        exact ⟨ms, .skip_all reads free scans, keeps ms scans told⟩

/-! ## What groups stand for in all matches -/

/-- Where a group starts that the match has closed, and what it stands for. -/
def Match.capture (cs : List Char) (group : Nat) (m : Match) : Option (Nat × List Char) :=
  (m.span? group).map fun (start, stop) => (start, slice cs start stop)

/-- What stands between two places of a text is what is read between them. -/
theorem Match.capture_eq {cs u w : List Char} {a b : Place} {group : Nat}
    (before : (Place.start cs).Reads u a) (reads : a.Reads w b)
    (h : m.span? group = some (a.position, b.position)) :
    m.capture cs group = some (a.position, w) := by
  rw [capture, h, Option.map_some]
  exact congrArg (fun text => some (a.position, text)) (before.slice reads)

/-- Where a group starts in the matches of a text, and what it stands for, one after the other;
group 0 is the whole match. -/
def captures (p : Pattern) (group : Nat) (cs : List Char) : List (Nat × List Char) :=
  (p.allMatches cs).filterMap (Match.capture cs group)

theorem captures_eq_of_scans (solid : p.mayTakeNothing = false) {cs : List Char} {group : Nat}
    (h : Scans p (.start cs) ms) : p.captures group cs = ms.filterMap (Match.capture cs group) := by
  rw [captures, allMatches_eq_of_scans solid h]

end LiveLint.Pattern
