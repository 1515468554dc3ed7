import StreamFraming.Proofs.Http.Alone
import StreamFraming.Proofs.Steps
import StreamFraming.Proofs.Targets

/-!
# Lanes that are given up

A lane is given up for a gap, from outside, or by a contest that no scanner survives
(`Field.pursue_given_up`). From then on it answers nothing and asks nobody, until it is set up again
(`Engine.stepAll_aborted`).
-/

namespace StreamFraming

variable {α μ : Type}

/-! ### How a pursuit gives a lane up -/

namespace Field

variable {q : Inquiry α μ} {idx : UInt32} {data : List UInt8} {f g : Field α μ} {m : Move}
  {cut? : Option Cut}

/-- A contest gives a lane up when no scanner is left in it. -/
theorem contest_given_up (alive : f.lane.status ≠ .abort) (h : contest q idx data f = (m, g))
    (aborted : g.lane.status = .abort) :
    ∃ v r, race q ⟨f.lane.origin + idx, data⟩ f.lane.eligible.ids .search f = (v, r) ∧
      r.lane.eligible.isEmpty = true ∧
      g = { r with lane := { r.lane.abort with target := Length.add r.lane.target idx } } ∧
      m = if g.lane.target ≤ q.total then .again g.lane.target else .wait := by
  have kept := status_race (q := q) (f := f) ⟨f.lane.origin + idx, data⟩ f.lane.eligible.ids .search
  cases raced : race q ⟨f.lane.origin + idx, data⟩ f.lane.eligible.ids .search f with
  | mk v r =>
    rw [raced] at kept
    cases left : r.lane.eligible.isEmpty with
    | true =>
      rw [contest_of_empty raced left] at h
      cases h
      exact ⟨v, r, rfl, left, rfl, rfl⟩
    | false =>
      rw [contest_of_race raced left] at h
      cases v with
      | search | flush | skip =>
        cases h
        cases aborted
      | abort =>
        cases h
        exact absurd (kept.symm.trans aborted) alive

/-- A move is a contest about an end of the bytes at hand, or else changes the status at most. If
the bytes at hand end the queue, so do those that the contest is about. Only a lane that is not in
use ends with an abort. -/
theorem move_cases (inside : idx ≤ q.total) (h : move q idx data f = (m, g)) :
    (g = f ∧ (∀ next, m ≠ .again next) ∧
      (m = .cut .abort → f.lane.status = .start ∨ f.lane.status = .abort)) ∨
      (g = { f with lane := { f.lane with status := .search } } ∧ m = .cut .boundary) ∨
      ∃ place bytes, place ≤ q.total ∧ contest q place bytes f = (m, g) ∧ bytes <:+ data ∧
        ((f.lane.status = .skip → idx ≤ f.lane.target) →
          idx.toNat + data.length = q.total.toNat →
          place.toNat + bytes.length = q.total.toNat) := by
  have cuts (kind : Cut) (next : UInt32) : Move.cut kind ≠ .again next := Move.noConfusion
  have waits (next : UInt32) : Move.wait ≠ .again next := Move.noConfusion
  cases before : f.lane.status with
  | start =>
    simp only [move, before] at h
    cases h
    exact .inl ⟨rfl, cuts _, fun _ => .inl rfl⟩
  | abort =>
    simp only [move, before] at h
    cases h
    exact .inl ⟨rfl, cuts _, fun _ => .inr rfl⟩
  | search =>
    simp only [move, before] at h
    split at h
    · exact .inr (.inr ⟨idx, data, inside, h, List.suffix_rfl, fun _ size => size⟩)
    · cases h
      exact .inl ⟨rfl, waits, Move.noConfusion⟩
  | flush =>
    simp only [move, before] at h
    split at h
    · cases h
      exact .inr (.inl ⟨rfl, rfl⟩)
    · split at h
      · cases h
        exact .inl ⟨rfl, cuts _, fun same => (by cases same)⟩
      · cases h
        exact .inl ⟨rfl, waits, Move.noConfusion⟩
  | skip =>
    rcases move_skip q idx data before with ⟨moved, -⟩ | ⟨behind, bytes, asks, about⟩
    · rw [moved] at h
      cases h
      exact .inl ⟨rfl, waits, Move.noConfusion⟩
    · refine .inr (.inr ⟨f.lane.target, bytes, UInt32.le_of_lt behind, asks ▸ h, ?_⟩)
      rw [UInt32.lt_iff_toNat_lt] at behind
      rcases about with ⟨passed, rfl⟩ | ⟨-, rfl⟩
      · refine ⟨List.suffix_rfl, fun ahead size => ?_⟩
        rw [UInt32.le_antisymm passed (ahead rfl)]
        exact size
      · refine ⟨List.drop_suffix _ data, fun ahead size => ?_⟩
        have ahead := ahead rfl
        rw [List.length_drop, UInt32.toNat_sub_of_le _ _ ahead]
        rw [UInt32.le_iff_toNat_le] at ahead
        omega

theorem contest_of_again {next : UInt32} (inside : idx ≤ q.total)
    (h : move q idx data f = (.again next, g)) :
    ∃ place bytes, place ≤ q.total ∧ contest q place bytes f = (.again next, g) := by
  rcases move_cases inside h with ⟨-, stays, -⟩ | ⟨-, cuts⟩ | ⟨place, bytes, within, asks, -⟩
  · exact absurd rfl (stays next)
  · cases cuts
  · exact ⟨place, bytes, within, asks⟩

/-- A move that gives a lane up is a contest. -/
theorem move_given_up (alive : f.lane.status ≠ .abort) (inside : idx ≤ q.total)
    (h : move q idx data f = (m, g)) (aborted : g.lane.status = .abort) :
    ∃ place bytes, place ≤ q.total ∧ contest q place bytes f = (m, g) := by
  rcases move_cases inside h with ⟨rfl, -⟩ | ⟨rfl, -⟩ | ⟨place, bytes, within, asks, -⟩
  · exact absurd aborted alive
  · cases aborted
  · exact ⟨place, bytes, within, asks⟩

section Surviving

variable {I : Field α μ → Prop}
  (raced : ∀ idx data f, I f → (contest q idx data f).2.lane.status ≠ .abort →
    I (contest q idx data f).2)

include raced

/-- A pursuit gives a lane up in the last contest, behind contests that somebody survived. Inside
the queue it then comes to the cut that gives up, and else it waits. -/
theorem pursue_given_up (alive : f.lane.status ≠ .abort) (inside : idx ≤ q.total) (kept : I f)
    (h : pursue q idx data f = (cut?, g)) (aborted : g.lane.status = .abort) :
    ∃ place bytes f' m, I f' ∧ f'.lane.status ≠ .abort ∧ place ≤ q.total ∧
      contest q place bytes f' = (m, g) ∧ cut? = if m = .wait then none else some .abort := by
  fun_induction pursue q idx data f with
  | case1 idx data f kind r moved =>
    cases h
    obtain ⟨place, bytes, -, asks⟩ := move_given_up alive inside moved aborted
    exact absurd asks contest_ne_cut
  | case2 idx data f r moved =>
    cases h
    obtain ⟨place, bytes, within, asks⟩ := move_given_up alive inside moved aborted
    exact ⟨place, bytes, f, .wait, kept, alive, within, asks, rfl⟩
  | case4 idx data f next r moved _ stuck =>
    cases h
    rw [stuck.2] at aborted
    cases aborted
  | case3 idx data f next r moved _ _ ih | case5 idx data f next r moved _ _ _ ih =>
    obtain ⟨place, bytes, within, asks⟩ := contest_of_again inside moved
    by_cases gone : r.lane.status = .abort
    · rw [pursue_of_aborted gone] at h
      cases h
      exact ⟨place, bytes, f, .again next, kept, alive, within, asks, rfl⟩
    · have survived := raced place bytes f kept
      rw [asks] at survived
      exact ih gone (move_again moved).1 (survived gone) h

/-- What the contests that somebody survives keep is kept by a pursuit that somebody survives. -/
theorem pursue_survived
    (sought : ∀ f, I f → I { f with lane := { f.lane with status := .search } })
    (inside : idx ≤ q.total) (kept : I f) (h : pursue q idx data f = (cut?, g))
    (survived : g.lane.status ≠ .abort) : I g := by
  have moved {idx : UInt32} {data : List UInt8} {f r : Field α μ} {m : Move} (kept : I f)
      (inside : idx ≤ q.total) (h : move q idx data f = (m, r))
      (survived : r.lane.status ≠ .abort) :
      I r := by
    rcases move_cases inside h with ⟨rfl, -⟩ | ⟨rfl, -⟩ | ⟨place, bytes, -, asks, -⟩
    · exact kept
    · exact sought f kept
    · have later := raced place bytes f kept
      rw [asks] at later
      exact later survived
  fun_induction pursue q idx data f with
  | case1 idx data f kind r h' | case2 idx data f r h' | case4 idx data f next r h' _ _ =>
    cases h
    exact moved kept inside h' survived
  | case3 idx data f next r h' _ _ ih | case5 idx data f next r h' _ _ _ ih =>
    refine ih (move_again h').1 (moved kept inside h' fun gone => survived ?_) h
    rw [pursue_of_aborted gone] at h
    cases h
    exact gone

end Surviving

end Field

/-! ### Checks of a lane that was given up -/

/-- The segment neither begins nor ends behind a place. -/
def Segment.isStale (segment : Segment) (place : UInt32) : Bool :=
  Serial.atOrBefore segment.seq place &&
    Serial.atOrBefore (segment.seq + Length.ofNat segment.data.length) place

/-- Only a lane that has no place yet is changed by a segment that arrives. -/
theorem Lane.arrival_started {l : Lane α} (started : l.status ≠ .start) (segment : Segment) :
    l.arrival segment.seq segment.data = .stale ∧ segment.isStale l.expected = true ∨
      segment.isStale l.expected = false ∧
        (l.arrival segment.seq segment.data = .gap ∨
          ∃ data, l.arrival segment.seq segment.data = .fresh l data) := by
  unfold arrival Segment.isStale Serial.after
  rw [if_neg started]
  cases Serial.atOrBefore segment.seq l.expected with
  | false => exact .inr ⟨rfl, .inl rfl⟩
  | true =>
    cases Serial.atOrBefore (segment.seq + Length.ofNat segment.data.length) l.expected with
    | true => exact .inl ⟨rfl, rfl⟩
    | false =>
      refine .inr ⟨rfl, .inr ?_⟩
      cases Serial.before segment.seq l.expected with
      | true => exact ⟨_, rfl⟩
      | false => exact ⟨_, rfl⟩

theorem Segment.offset_le (segment : Segment) (n : UInt32) :
    Length.sub segment.queued n ≤ segment.queued := by
  rw [UInt32.le_iff_toNat_le, Length.toNat_sub]
  omega

namespace Engine

variable {e : Engine α μ} {s : Session α} {d : Direction}

/-- A check that gives a lane up leaves nothing in its cells. -/
theorem slots_given_up (e : Engine α μ) (s : Session α) (d : Direction) (segment : Segment)
    (alive : (s.lane d).status ≠ .abort)
    (aborted : ((e.check s d segment).session.lane d).status = .abort) :
    ((e.check s d segment).session.lane d).slots = .empty := by
  unfold check at aborted ⊢
  cases arrived : (s.lane d).arrival segment.seq segment.data with
  | gap =>
    simp only [Session.lane_setLane_self]
    rfl
  | stale =>
    rw [arrived] at aborted
    exact absurd aborted alive
  | fresh lane data =>
    rw [arrived] at aborted
    simp only at aborted ⊢
    rw [lane_evaluate] at aborted ⊢
    rw [Lane.status_cutIf] at aborted
    rw [(Lane.cutIf_keeps ..).2]
    have alive : lane.status ≠ .abort := by
      rw [Lane.arrival_fresh arrived]
      exact fun gone => alive (Status.eq_of_begun gone nofun)
    obtain ⟨place, bytes, f, m, -, alive, -, contested, -⟩ := Field.pursue_given_up
      (I := fun _ => True) (fun _ _ _ _ _ => trivial) alive (segment.offset_le _) trivial rfl
      aborted
    obtain ⟨v, r, -, -, last, -⟩ := Field.contest_given_up alive contested aborted
    exact congrArg (fun f => f.lane.slots) last

/-- Behind that, a gap empties them once more, and nothing else that arrives touches them. -/
theorem slots_check_aborted (e : Engine α μ) (aborted : (s.lane d).status = .abort)
    (segment : Segment) :
    let slots := ((e.check s d segment).session.lane d).slots
    ((s.lane d).arrival segment.seq segment.data = .gap → slots = .empty) ∧
      ((s.lane d).arrival segment.seq segment.data ≠ .gap → slots = (s.lane d).slots) := by
  unfold check
  have started : (s.lane d).status ≠ .start := by
    rw [aborted]
    nofun
  rcases Lane.arrival_started started segment with ⟨arrived, -⟩ | ⟨-, arrived | ⟨data, arrived⟩⟩
  · rw [arrived]
    exact ⟨nofun, fun _ => rfl⟩
  · rw [arrived, Session.lane_setLane_self]
    exact ⟨fun _ => rfl, fun other => absurd rfl other⟩
  · rw [arrived]
    refine ⟨nofun, fun _ => ?_⟩
    have pursued : e.pursuit s d (s.lane d) data segment =
        (some .abort, e.opening s d (s.lane d) data.length) := Field.pursue_of_aborted aborted
    simp only
    rw [lane_evaluate, (Lane.cutIf_keeps ..).2, pursued]
    rfl

theorem check_aborted (e : Engine α μ) (aborted : (s.lane d).status = .abort)
    (segment : Segment) :
    let r := e.check s d segment
    (r.session.lane d).status = .abort ∧ r.length = 0 ∧ r.calls = [] ∧
      r.engine.memories = e.memories ∧ r.session.raised = s.raised ∧
      r.session.lane d.opposite = s.lane d.opposite ∧
      r.marks = if segment.isStale (s.lane d).expected then segment.marks else .none := by
  have started : (s.lane d).status ≠ .start := by
    rw [aborted]
    nofun
  unfold check
  rcases Lane.arrival_started started segment with
    ⟨arrived, stale⟩ | ⟨news, arrived | ⟨data, arrived⟩⟩
  · rw [arrived, stale]
    exact ⟨aborted, rfl, rfl, rfl, rfl, rfl, rfl⟩
  · rw [arrived, news]
    refine ⟨?_, rfl, rfl, rfl, s.raised_setLane d _, s.lane_setLane_opposite d _, rfl⟩
    rw [Session.lane_setLane_self]
    rfl
  · have pursued : e.pursuit s d (s.lane d) data segment =
        (some .abort, e.opening s d (s.lane d) data.length) := Field.pursue_of_aborted aborted
    have evaluated := e.evaluate_eq s d (s.lane d) data segment
    rw [pursued] at evaluated
    rw [arrived, news]
    refine ⟨?_, congrArg Reply.length evaluated, congrArg Reply.calls evaluated,
      congrArg (fun r => r.engine.memories) evaluated, ?_, ?_, congrArg Reply.marks evaluated⟩
    · show ((e.evaluate s d (s.lane d) data segment).session.lane d).status = .abort
      rw [lane_evaluate, Lane.status_cutIf, pursued]
      exact aborted
    · show (e.evaluate s d (s.lane d) data segment).session.raised = s.raised
      rw [raised_evaluate, pursued]
      exact List.append_nil _
    · show (e.evaluate s d (s.lane d) data segment).session.lane d.opposite = s.lane d.opposite
      rw [opposite_evaluate, pursued]
      rfl

/-- Once a lane is given up it stays so, whatever is done with the session but for setting the lane
up: no check of the lane cuts anything, asks a scanner, raises an anomaly or touches the opposite
lane, and the marks of a segment are kept only if it brings nothing that was not read. -/
theorem stepAll_aborted (e : Engine α μ) (s : Session α) (d : Direction)
    (aborted : (s.lane d).status = .abort) (steps : List Step)
    (kept : ∀ x ∈ steps, x.setsUp d = false) :
    let left := e.stepAll s steps
    (left.2.lane d).status = .abort ∧ ∀ segment,
      let r := left.1.check left.2 d segment
      (r.session.lane d).status = .abort ∧ r.length = 0 ∧ r.calls = [] ∧
        r.engine.memories = left.1.memories ∧ r.session.raised = left.2.raised ∧
        r.session.lane d.opposite = left.2.lane d.opposite ∧
        r.marks = if segment.isStale (left.2.lane d).expected then segment.marks else .none := by
  intro left
  have given_up : (left.2.lane d).status = .abort := by
    refine stepAll_keeps (I := fun l => l.status = .abort) (fun _ _ kept => kept)
      (fun _ _ => rfl) ?_ ?_ aborted
    · intro x listed setsUp
      rw [kept x listed] at setsUp
      cases setsUp
    · intro e' _ s segment aborted
      exact (e'.check_aborted aborted segment).1
  exact ⟨given_up, fun segment => left.1.check_aborted given_up segment⟩

/-- Behind a gap, a HEAD request on the opposite lane leaves something in the cells of the lane, but
neither the bytes that were missing nor those that came before are looked at. -/
theorem stepAll_aborted_gap :
    let e : Engine Memo Tally := .ofRegistry (Registry.httpOn 80)
    let segment (d : Direction) (text : String) (queued seq : UInt32) : Segment :=
      { data := text.toUTF8.toList, queued, seq, marks := .ofDirection d }
    let gap := [Step.check .toClient (segment .toClient "HTTP" 4 0),
      .check .toClient (segment .toClient ".1" 7 5)]
    let steps := [Step.check .toServer (segment .toServer "HEAD / HTTP/1.1\r\n\r\n" 19 0),
      .clear .toServer]
    let opened := e.stepAll (e.openSession 1 80) gap
    let left := opened.1.stepAll opened.2 steps
    let missing := left.1.check left.2 .toClient (segment .toClient "/1.1" 8 4)
    let again := left.1.check left.2 .toClient (segment .toClient "HTTP" 8 0)
    (opened.2.lane .toClient).status = .abort ∧ (∀ x ∈ steps, x.setsUp .toClient = false) ∧
      (left.2.lane .toClient).slots ≠ .empty ∧
      missing.length = 0 ∧ missing.calls = [] ∧ missing.marks = .none ∧
      again.length = 0 ∧ again.calls = [] ∧ again.marks = { fromServer := true } := by
  intro e segment gap steps opened left missing again
  have aborted : (opened.2.lane .toClient).status = .abort := by decide +kernel
  have kept : ∀ x ∈ steps, x.setsUp .toClient = false := by decide
  obtain ⟨-, checked⟩ := stepAll_aborted opened.1 opened.2 .toClient aborted steps kept
  obtain ⟨-, length, calls, -, -, -, marks⟩ := checked (segment .toClient "/1.1" 8 4)
  obtain ⟨-, length', calls', -, -, -, marks'⟩ := checked (segment .toClient "HTTP" 8 0)
  refine ⟨aborted, kept, by decide +kernel, length, calls, marks.trans ?_, length', calls',
    marks'.trans ?_⟩
  · exact if_neg (by decide +kernel)
  · exact if_pos (by decide +kernel)

end Engine

end StreamFraming
