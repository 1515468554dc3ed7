import StreamFraming.Proofs.Lockstep

/-!
# Runs of checks

A session under checks that need not come from a host: each is made on what the one before it left.
A check is faithful when it brings the next bytes of its lane and counts all that are queued
(`Segment.FaithfulTo`); such a check is evaluated as a whole.
-/

namespace StreamFraming

variable {α μ : Type}

/-- The segment brings the next bytes of a lane, and its count is that of the bytes from the lane's
origin on; the first segment of a lane may begin anywhere. -/
structure Segment.FaithfulTo (segment : Segment) (l : Lane α) : Prop where
  nonempty : segment.data ≠ []
  next : l.status ≠ .start → segment.seq = l.expected
  queued : segment.queued = segment.seq + segment.data.length.toUInt32 -
    (if l.status = .start then segment.seq else l.origin)
  short : segment.data.length < 2 ^ 31
  few : segment.queued.toNat < 2 ^ 31

namespace Lane

def queued (l : Lane α) : Nat := (l.expected - l.origin).toNat

def placed (l : Lane α) (origin expected : UInt32) : Lane α :=
  { l with status := l.status.begun, origin, expected }

theorem InStep.queued_eq {l : Lane α} {n : Nat} {base : UInt32} (inStep : l.InStep n base)
    (started : l.status ≠ .start) (few : n < 2 ^ 32) : l.queued = n := by
  have back : base + n.toUInt32 - base = n.toUInt32 := by grind
  rw [queued, inStep.expected started, inStep.origin started, back, Length.toNat_toUInt32 few]

end Lane

/-! ### What a faithful check evaluates -/

/-- The segment brings the bytes behind the `n` that a lane has queued from `base` on. -/
structure Segment.Appends (segment : Segment) (l : Lane α) (n : Nat) (base : UInt32) : Prop where
  inStep : l.InStep n base
  seq : segment.seq = base + n.toUInt32
  queued : segment.queued.toNat = n + segment.data.length
  few : segment.queued.toNat < 2 ^ 31
  nonempty : segment.data ≠ []

theorem Segment.FaithfulTo.appends {segment : Segment} {l : Lane α}
    (faithful : segment.FaithfulTo l) (few : l.status ≠ .start → l.queued < 2 ^ 31) :
    ∃ n base, segment.Appends l n base ∧ (l.status ≠ .start → l.queued = n) := by
  have counted := faithful.queued
  have short := faithful.short
  have length := Length.toNat_toUInt32 (show segment.data.length < 2 ^ 32 by omega)
  by_cases start : l.status = .start
  · have nothing : (0 : Nat).toUInt32 = 0 := rfl
    have all : segment.seq + segment.data.length.toUInt32 - segment.seq =
        segment.data.length.toUInt32 := by grind
    rw [if_pos start, all] at counted
    refine ⟨0, segment.seq, ⟨⟨fun _ => rfl, fun h => absurd start h, fun h => absurd start h⟩,
      ?_, ?_, faithful.few, faithful.nonempty⟩, fun h => absurd start h⟩
    · rw [nothing, UInt32.add_zero]
    · rw [counted, length, Nat.zero_add]
  · have few := few start
    have place : l.expected = l.origin + l.queued.toUInt32 := by
      have same : l.queued.toUInt32 = l.expected - l.origin :=
        UInt32.toNat_inj.mp (Length.toNat_toUInt32 (show l.queued < 2 ^ 32 by omega))
      rw [same]
      grind
    have all : l.expected + segment.data.length.toUInt32 - l.origin =
        l.expected - l.origin + segment.data.length.toUInt32 := by grind
    rw [if_neg start, faithful.next start, all] at counted
    refine ⟨l.queued, l.origin, ⟨⟨fun h => absurd h start, fun _ => rfl, fun _ => place⟩,
      (faithful.next start).trans place, ?_, faithful.few, faithful.nonempty⟩, fun _ => rfl⟩
    rw [counted, UInt32.toNat_add, length]
    show (l.queued + _) % 2 ^ 32 = _
    omega

namespace Segment.Appends

variable {e : Engine α μ} {s : Session α} {d : Direction} {segment : Segment} {n : Nat}
  {base : UInt32} (appends : segment.Appends (s.lane d) n base)

include appends

theorem positive : 0 < segment.data.length := List.length_pos_iff.mpr appends.nonempty

theorem queued_ne_zero : segment.queued ≠ 0 := by
  have counted := appends.queued
  have positive := appends.positive
  rw [ne_eq, ← UInt32.toNat_inj, UInt32.toNat_zero]
  omega

theorem check_eq : e.check s d segment =
    e.evaluate s d ((s.lane d).placed base segment.seq) segment.data segment := by
  have counted := appends.queued
  have few := appends.few
  rw [Engine.check]
  simp only [appends.seq, appends.inStep.arrival_eq appends.nonempty (by omega)]
  rfl

theorem reply_of_pursuit {cut? : Option Cut} {g : Field α μ}
    (pursued : e.pursuit s d ((s.lane d).placed base segment.seq) segment.data segment =
      (cut?, g)) :
    let cut := g.lane.cutIf (Engine.due (e.inquiry d segment) (cut?, g)) segment.queued
      segment.marks
    (e.check s d segment).length = cut.1 ∧ (e.check s d segment).session.lane d = cut.2.2 ∧
      (e.check s d segment).calls = g.calls.reverse := by
  rw [appends.check_eq, Engine.lane_evaluate, Engine.evaluate_eq, pursued]
  exact ⟨rfl, rfl, rfl⟩

theorem toNat_length : segment.data.length.toUInt32.toNat = segment.data.length := by
  have counted := appends.queued
  have few := appends.few
  exact Length.toNat_toUInt32 (by omega)

theorem toNat_offset :
    (Length.sub segment.queued segment.data.length.toUInt32).toNat = n := by
  rw [Length.toNat_sub, appends.queued, appends.toNat_length]
  omega

theorem offset_lt : Length.sub segment.queued segment.data.length.toUInt32 < segment.queued := by
  have counted := appends.queued
  have positive := appends.positive
  rw [UInt32.lt_iff_toNat_lt, appends.toNat_offset]
  omega

theorem started_check : ((e.check s d segment).session.lane d).status ≠ .start := by
  rw [appends.check_eq]
  exact Engine.status_evaluate _ _ _ _ _ (Status.begun_ne_start _)

/-- Without a cut there are more bytes queued, and behind a cut there are none. -/
theorem inStep_check : let r := e.check s d segment
    (r.length = 0 → (r.session.lane d).InStep (n + segment.data.length) base) ∧
      (r.length ≠ 0 → (r.session.lane d).InStep 0 (base + r.length)) := by
  have started := appends.started_check (e := e)
  have counted := appends.queued
  have few := appends.few
  intro r
  obtain ⟨held, cut⟩ := e.evaluate_place s d ((s.lane d).placed base segment.seq) segment.data
    segment
  rw [← appends.check_eq] at held cut
  refine ⟨fun nothing => ?_, fun found => ?_⟩
  · obtain ⟨origin, expected⟩ := held nothing
    refine .of_place origin (expected.trans ?_) started
    show segment.seq + _ = _
    have sum : (n + segment.data.length).toUInt32 =
        n.toUInt32 + segment.data.length.toUInt32 := UInt32.ofNat_add ..
    rw [appends.seq, sum, UInt32.add_assoc]
  · obtain ⟨origin, expected⟩ := cut found
    exact .of_place origin (expected.trans (UInt32.add_zero _).symm) started

end Segment.Appends

namespace Engine

/-- The replies to a run of checks, in order. -/
def checkAll (e : Engine α μ) (s : Session α) : List (Direction × Segment) → List (Reply α μ)
  | [] => []
  | x :: run =>
    let r := e.check s x.1 x.2
    r :: r.engine.checkAll r.session run

/-- The engine and the session that a run of checks leaves. -/
def afterAll (e : Engine α μ) (s : Session α) :
    List (Direction × Segment) → Engine α μ × Session α
  | [] => (e, s)
  | x :: run =>
    let r := e.check s x.1 x.2
    r.engine.afterAll r.session run

def Faithful (e : Engine α μ) (s : Session α) : List (Direction × Segment) → Prop
  | [] => True
  | x :: run =>
    x.2.FaithfulTo (s.lane x.1) ∧
      let r := e.check s x.1 x.2
      r.engine.Faithful r.session run

theorem faithful_append {e : Engine α μ} {s : Session α} {a b : List (Direction × Segment)} :
    e.Faithful s (a ++ b) ↔
      e.Faithful s a ∧ (e.afterAll s a).1.Faithful (e.afterAll s a).2 b := by
  induction a generalizing e s with
  | nil => simp [Faithful, afterAll]
  | cons x a ih => simp [Faithful, afterAll, ih, and_assoc]

end Engine

end StreamFraming
