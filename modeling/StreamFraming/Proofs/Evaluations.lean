import Mathlib.Algebra.Group.Nat.Defs
import StreamFraming.Engine
import StreamFraming.Proofs.Pursuits

/-!
# Evaluations

An evaluation is a pursuit of the new bytes, and then a cut if one is due (`evaluate_eq`). It cuts
no more than is queued, and leaves the lane in its place or moves it past the cut
(`Engine.evaluate_place`). The opposite lane keeps all but its cells (`Engine.opposite_evaluate`).
-/

namespace StreamFraming

/-- The status of a lane that a segment has reached. -/
def Status.begun : Status → Status
  | .start => .search
  | s => s

theorem Status.begun_ne_start (s : Status) : s.begun ≠ .start := by
  cases s <;> nofun

theorem Status.begun_of_ne_start {s : Status} (h : s ≠ .start) : s.begun = s := by
  cases s
  · exact absurd rfl h
  all_goals rfl

theorem Status.eq_of_begun {s t : Status} (h : s.begun = t) (other : t ≠ .search) : s = t := by
  cases s
  · exact absurd h.symm other
  all_goals exact h

variable {α μ : Type}

namespace Lane

def cutIf (l : Lane α) (cut? : Option Cut) (total : UInt32) (marks : Marks) :
    UInt32 × Marks × Lane α :=
  match cut? with
  | some kind => l.cut kind total marks
  | none => (0, marks, l)

theorem min_longestCut_eq_zero {n : UInt32} (h : min n longestCut = 0) : n = 0 := by
  have cut : (if n ≤ longestCut then n else longestCut) = 0 := h
  split at cut
  · exact cut
  · cases cut

theorem min_longestCut_le (n : UInt32) : min n longestCut ≤ n := by
  show (if n ≤ longestCut then n else longestCut) ≤ n
  split
  · exact UInt32.le_refl n
  · rename_i long
    rw [UInt32.le_iff_toNat_le] at long ⊢
    omega

theorem min_longestCut {n : UInt32} (short : n.toNat < 2 ^ 31) : min n longestCut = n := by
  have longest : longestCut.toNat = 2 ^ 31 - 1 := rfl
  show (if n ≤ longestCut then n else longestCut) = n
  rw [if_pos (UInt32.le_iff_toNat_le.mpr (by omega))]

theorem cut_boundary {l : Lane α} {total : UInt32} (marks : Marks) (positive : l.target ≠ 0)
    (nonempty : total ≠ 0) (short : l.target.toNat < 2 ^ 31) :
    l.cut .boundary total marks =
      (l.target, { marks with head := l.carried == 0, tail := true },
        { l with
          carried := 0
          origin := l.origin + l.target
          expected := l.origin + l.target }) := by
  simp only [cut, min_longestCut short]
  rw [if_neg (by simp [positive, nonempty])]

theorem cut_bound {l : Lane α} {total : UInt32} (marks : Marks) (nonempty : total ≠ 0)
    (short : total.toNat < 2 ^ 31) :
    l.cut .bound total marks =
      (total, { marks with head := l.carried == 0, tail := false },
        { l with
          target := Length.sub l.target total
          carried := Length.add l.carried total
          origin := l.origin + total
          expected := l.origin + total }) := by
  simp only [cut, min_longestCut short]
  rw [if_neg nonempty]

/-- A cut takes nothing and leaves the lane as it is, or takes what lies in front of a boundary, or
what the queue holds. -/
theorem cutIf_cases (l : Lane α) (cut? : Option Cut) (total : UInt32) (marks : Marks) :
    let r := l.cutIf cut? total marks
    (r.1 = 0 ∧ r.2.2 = l) ∨
      (r.1 ≠ 0 ∧ cut? = some .boundary ∧
        r = (min l.target longestCut, { marks with head := l.carried == 0, tail := true },
          { l with carried := 0, origin := l.origin + r.1, expected := l.origin + r.1 })) ∨
      (r.1 ≠ 0 ∧ cut? = some .bound ∧
        r = (min total longestCut, { marks with head := l.carried == 0, tail := false },
          { l with
            target := Length.sub l.target total
            carried := Length.add l.carried r.1
            origin := l.origin + r.1
            expected := l.origin + r.1 })) := by
  cases cut? with
  | none => exact .inl ⟨rfl, rfl⟩
  | some kind =>
    cases kind with
    | abort => exact .inl ⟨rfl, rfl⟩
    | boundary =>
      simp only [cutIf, cut]
      split
      · exact .inl ⟨rfl, rfl⟩
      · rename_i due
        refine .inr (.inl ⟨fun nothing => ?_, trivial, rfl⟩)
        exact due (.inl (min_longestCut_eq_zero nothing))
    | bound =>
      simp only [cutIf, cut]
      split
      · rename_i empty
        have kept : Length.sub l.target total = l.target := by
          apply UInt32.toNat_inj.mp
          rw [Length.toNat_sub, empty, UInt32.toNat_zero, Nat.sub_zero]
        exact .inl ⟨rfl, by rw [kept]⟩
      · rename_i due
        refine .inr (.inr ⟨fun nothing => ?_, trivial, rfl⟩)
        exact due (min_longestCut_eq_zero nothing)

@[simp] theorem status_cutIf (l : Lane α) (cut? : Option Cut) (total : UInt32) (marks : Marks) :
    (l.cutIf cut? total marks).2.2.status = l.status := by
  rcases l.cutIf_cases cut? total marks with ⟨-, left⟩ | ⟨-, -, r⟩ | ⟨-, -, r⟩
  · rw [left]
  · rw [r]
  · rw [r]

theorem cutIf_keeps (l : Lane α) (cut? : Option Cut) (total : UInt32) (marks : Marks) :
    (l.cutIf cut? total marks).2.2.eligible = l.eligible ∧
      (l.cutIf cut? total marks).2.2.slots = l.slots := by
  rcases l.cutIf_cases cut? total marks with ⟨-, left⟩ | ⟨-, -, r⟩ | ⟨-, -, r⟩
  · rw [left]
    exact ⟨rfl, rfl⟩
  · rw [r]
    exact ⟨rfl, rfl⟩
  · rw [r]
    exact ⟨rfl, rfl⟩

theorem arrival_fresh {l l' : Lane α} {seq : UInt32} {data data' : List UInt8}
    (h : l.arrival seq data = .fresh l' data') :
    l' = { l with
      status := l.status.begun, expected := l'.expected, origin := l'.origin } := by
  unfold arrival at h
  split at h
  · rename_i start
    cases h
    rw [start]
    rfl
  · rename_i started
    rw [Status.begun_of_ne_start started]
    split at h
    · cases h
    · split at h
      · cases h
      · split at h <;> cases h <;> rfl

theorem cutIf_le {l : Lane α} {cut? : Option Cut} {total : UInt32}
    (inside : cut? = some .boundary → l.target ≤ total) (marks : Marks) :
    (l.cutIf cut? total marks).1 ≤ total := by
  rcases l.cutIf_cases cut? total marks with ⟨nothing, -⟩ | ⟨-, boundary, r⟩ | ⟨-, -, r⟩
  · rw [nothing, UInt32.le_iff_toNat_le]
    exact Nat.zero_le _
  · rw [r]
    exact UInt32.le_trans (min_longestCut_le _) (inside boundary)
  · rw [r]
    exact min_longestCut_le _

/-- A cut moves the lane past the bytes it takes, and no further. -/
theorem place_cutIf (l : Lane α) (cut? : Option Cut) (total : UInt32) (marks : Marks) :
    let r := l.cutIf cut? total marks
    (r.1 = 0 → r.2.2.origin = l.origin ∧ r.2.2.expected = l.expected) ∧
      (r.1 ≠ 0 → r.2.2.origin = l.origin + r.1 ∧ r.2.2.expected = l.origin + r.1) := by
  intro r
  rcases l.cutIf_cases cut? total marks with ⟨nothing, left⟩ | ⟨taken, -, cut⟩ | ⟨taken, -, cut⟩
  · refine ⟨fun _ => ?_, fun taken => absurd nothing taken⟩
    rw [show r.2.2 = l from left]
    exact ⟨rfl, rfl⟩
  · have lane := congrArg (·.2.2) cut
    exact ⟨fun nothing => absurd nothing taken, fun _ =>
      ⟨congrArg Lane.origin lane, congrArg Lane.expected lane⟩⟩
  · have lane := congrArg (·.2.2) cut
    exact ⟨fun nothing => absurd nothing taken, fun _ =>
      ⟨congrArg Lane.origin lane, congrArg Lane.expected lane⟩⟩

end Lane

namespace Engine

/-- What stays the same while a segment is evaluated. -/
def inquiry (e : Engine α μ) (d : Direction) (segment : Segment) : Inquiry α μ where
  registry := e.registry
  marks := segment.marks.withDirection d
  total := segment.queued
  limit := Length.add e.registry.maxFlushPoint segment.slack

/-- The field that the evaluation of `n` new bytes begins with. -/
def opening (e : Engine α μ) (s : Session α) (d : Direction) (lane : Lane α) (n : Nat) :
    Field α μ where
  lane := lane.read n
  peer := (s.lane d.opposite).slots
  memories := e.memories

def pursuit (e : Engine α μ) (s : Session α) (d : Direction) (lane : Lane α) (data : List UInt8)
    (segment : Segment) : Option Cut × Field α μ :=
  Field.pursue (e.inquiry d segment) (Length.sub segment.queued data.length.toUInt32) data
    (e.opening s d lane data.length)

def due (q : Inquiry α μ) (result : Option Cut × Field α μ) : Option Cut :=
  match result.1 with
  | some kind => some kind
  | none => if result.2.lane.status ≠ .flush ∧ q.limit < q.total then some .bound else none

variable (e : Engine α μ) (s : Session α) (d : Direction) (lane : Lane α) (data : List UInt8)
  (segment : Segment)

theorem evaluate_eq :
    e.evaluate s d lane data segment =
      let result := e.pursuit s d lane data segment
      let cut := result.2.lane.cutIf (due (e.inquiry d segment) result) segment.queued
        segment.marks
      { engine :=
          { e with memories := result.2.memories, stats := e.stats.count data.length }
        session :=
          { (s.setLane d cut.2.2).setLane d.opposite
              { s.lane d.opposite with slots := result.2.peer } with
            raised := s.raised ++ result.2.raised }
        length := cut.1
        marks := cut.2.1
        calls := result.2.calls.reverse } := rfl

theorem lane_evaluate :
    let result := e.pursuit s d lane data segment
    (e.evaluate s d lane data segment).session.lane d =
      (result.2.lane.cutIf (due (e.inquiry d segment) result) segment.queued
        segment.marks).2.2 := by
  cases d <;> rfl

theorem opposite_evaluate :
    (e.evaluate s d lane data segment).session.lane d.opposite =
      { s.lane d.opposite with slots := (e.pursuit s d lane data segment).2.peer } := by
  cases d <;> rfl

theorem raised_evaluate :
    (e.evaluate s d lane data segment).session.raised =
      s.raised ++ (e.pursuit s d lane data segment).2.raised := rfl

theorem boundary_of_due {q : Inquiry α μ} {result : Option Cut × Field α μ}
    (h : due q result = some .boundary) : result.1 = some .boundary := by
  unfold due at h
  split at h
  · rename_i kind found
    cases h
    exact found
  · split at h <;> cases h

theorem inside_of_due
    (h : due (e.inquiry d segment) (e.pursuit s d lane data segment) = some .boundary) :
    (e.pursuit s d lane data segment).2.lane.target ≤ segment.queued :=
  Field.target_of_boundary (boundary_of_due h)

theorem length_evaluate : (e.evaluate s d lane data segment).length ≤ segment.queued :=
  Lane.cutIf_le (e.inside_of_due s d lane data segment) segment.marks

variable {lane}

theorem status_evaluate (started : lane.status ≠ .start) :
    ((e.evaluate s d lane data segment).session.lane d).status ≠ .start := by
  rw [lane_evaluate, Lane.status_cutIf]
  exact Field.started_pursue started _ _

variable (lane)

/-- New bytes and cuts move a lane as they move the queue. -/
theorem evaluate_place :
    let r := e.evaluate s d lane data segment
    (r.length = 0 → (r.session.lane d).origin = lane.origin ∧
      (r.session.lane d).expected = lane.expected + data.length.toUInt32) ∧
    (r.length ≠ 0 → (r.session.lane d).origin = lane.origin + r.length ∧
      (r.session.lane d).expected = lane.origin + r.length) := by
  have kept := Field.extends_pursue (e.inquiry d segment)
    (Length.sub segment.queued data.length.toUInt32) data (e.opening s d lane data.length)
  have moved := Lane.place_cutIf (e.pursuit s d lane data segment).2.lane
    (due (e.inquiry d segment) (e.pursuit s d lane data segment)) segment.queued segment.marks
  have origin : (e.pursuit s d lane data segment).2.lane.origin = lane.origin := kept.origin
  have expected : (e.pursuit s d lane data segment).2.lane.expected =
      lane.expected + data.length.toUInt32 := kept.expected
  intro r
  have landed : r.session.lane d = _ := e.lane_evaluate s d lane data segment
  rw [landed]
  simp only at moved
  rw [origin, expected] at moved
  exact moved

/-! ### What a check leaves alone -/

/-- A check takes part in the opposite lane only through its cells. -/
theorem check_keeps (segment : Segment) :
    let r := e.check s d segment
    r.engine.registry = e.registry ∧ r.session.key = s.key ∧ r.session.port = s.port ∧
      ∃ slots, r.session.lane d.opposite = { s.lane d.opposite with slots } := by
  unfold check
  cases (s.lane d).arrival segment.seq segment.data with
  | gap => exact ⟨rfl, s.key_setLane d _, s.port_setLane d _, _, s.lane_setLane_opposite d _⟩
  | stale => exact ⟨rfl, rfl, rfl, _, rfl⟩
  | fresh lane data =>
    refine ⟨rfl, ?_, ?_, _, opposite_evaluate ..⟩
    · simp only [evaluate_eq, Session.key_setLane]
    · simp only [evaluate_eq, Session.port_setLane]

/-- What every race keeps, of a lane's race and cells, of the cells of the opposite lane and of the
scans so far, is kept by a check. -/
theorem check_invariant {G : Lane α → Slots α → List (Call α μ) → Prop}
    (calls : List (Call α μ))
    (same : ∀ {l l' peer calls}, l'.eligible = l.eligible → l'.slots = l.slots →
      G l peer calls → G l' peer calls)
    (given_up : ∀ {l peer calls}, G l peer calls → G l.abort peer calls)
    (contested : ∀ idx data (f : Field α μ), G f.lane f.peer (calls ++ f.calls.reverse) →
      let g := (Field.contest (e.inquiry d segment) idx data f).2
      G g.lane g.peer (calls ++ g.calls.reverse))
    (h : G (s.lane d) (s.lane d.opposite).slots calls) :
    let r := e.check s d segment
    G (r.session.lane d) (r.session.lane d.opposite).slots (calls ++ r.calls) := by
  unfold check
  cases arrived : (s.lane d).arrival segment.seq segment.data with
  | gap =>
    simp only [Session.lane_setLane_self, Session.lane_setLane_opposite, List.append_nil]
    exact given_up h
  | stale =>
    simp only [List.append_nil]
    exact h
  | fresh lane data =>
    have eligible : lane.eligible = (s.lane d).eligible := by
      rw [Lane.arrival_fresh arrived]
    have slots : lane.slots = (s.lane d).slots := by
      rw [Lane.arrival_fresh arrived]
    let opened := e.opening s d lane data.length
    have opens : G opened.lane opened.peer (calls ++ opened.calls.reverse) := by
      rw [show calls ++ opened.calls.reverse = calls from List.append_nil calls]
      exact same eligible slots h
    have pursued : let f := (e.pursuit s d lane data segment).2
        G f.lane f.peer (calls ++ f.calls.reverse) :=
      Field.pursue_keeps (I := fun f => G f.lane f.peer (calls ++ f.calls.reverse)) contested
        (fun f kept => same (l := f.lane) rfl rfl kept) opens
    simp only
    rw [lane_evaluate, opposite_evaluate]
    obtain ⟨eligible, slots⟩ := Lane.cutIf_keeps (e.pursuit s d lane data segment).2.lane
      (due (e.inquiry d segment) (e.pursuit s d lane data segment)) segment.queued segment.marks
    exact same eligible slots pursued

end Engine

end StreamFraming
