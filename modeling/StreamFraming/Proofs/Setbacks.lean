import StreamFraming.Catalogue
import StreamFraming.Proofs.Checks
import StreamFraming.Proofs.Targets

/-!
# Setbacks

A faithful check never moves a lane back, with one exception. A scanner that skips nothing, and then
nothing again, ends the pursuit, and the end of what it skipped stays in front of bytes that were
read. If the scanner finds a boundary in front of the last of them as soon as it is asked again, the
cut moves the lane back to it (`Engine.check_setback_iff`).
-/

namespace StreamFraming

variable {α μ : Type}

theorem Serial.before_add_left (a : UInt32) {m n : UInt32} (hm : m.toNat < 2 ^ 31)
    (hn : n.toNat < 2 ^ 31) : before (a + m) (a + n) = decide (m.toNat < n.toNat) := by
  have half : halfCircle.toNat = 2 ^ 31 := rfl
  rw [UInt32.add_comm a m, UInt32.add_comm a n, before, sub_add_right]
  simp only [decide_eq_decide, UInt32.le_iff_toNat_le, UInt32.toNat_sub, half]
  omega

namespace Lane

/-- What holds of a lane between faithful checks: a boundary that is awaited lies behind the queued
bytes, and a scanner that has decided has the lane to itself. -/
structure Settled (l : Lane α) : Prop where
  few : l.status ≠ .start → l.queued < 2 ^ 31
  narrowed : l.IsNarrowed
  flush : l.status = .flush → l.queued < l.target.toNat

theorem settled_of_untouched {l : Lane α} (untouched : l.status = .start) : l.Settled where
  few started := absurd untouched started
  narrowed := by
    rw [IsNarrowed, untouched]
    nofun
  flush := by
    rw [untouched]
    nofun

/-- The end of the skipped bytes lies where no byte was read. -/
def SkipsAhead (l : Lane α) : Prop := l.status = .skip → l.queued ≤ l.target.toNat

variable {l : Lane α} {cut? : Option Cut} {total : UInt32}

/-- What cuts off less than there is, cuts at a boundary. -/
theorem boundary_of_cutIf (few : total.toNat < 2 ^ 31)
    (inside : cut? = some .boundary → l.target ≤ total) {marks : Marks}
    (taken : (l.cutIf cut? total marks).1 ≠ 0) :
    (l.cutIf cut? total marks).1 = total ∨
      cut? = some .boundary ∧ (l.cutIf cut? total marks).1 = l.target := by
  rcases l.cutIf_cases cut? total marks with ⟨nothing, -⟩ | ⟨-, boundary, cut⟩ | ⟨-, -, cut⟩
  · exact absurd nothing taken
  · have inside := UInt32.le_iff_toNat_le.mp (inside boundary)
    rw [cut]
    exact .inr ⟨boundary, min_longestCut (by omega)⟩
  · rw [cut]
    exact .inl (min_longestCut few)

/-- Unless it ends a message, what is cut off is taken off the target. -/
theorem target_cutIf (other : cut? ≠ some .boundary) (total : UInt32) (marks : Marks) :
    ((l.cutIf cut? total marks).1 = 0 ∧ (l.cutIf cut? total marks).2.2.target = l.target) ∨
      ((l.cutIf cut? total marks).1 ≠ 0 ∧
        (l.cutIf cut? total marks).2.2.target = Length.sub l.target total) := by
  rcases l.cutIf_cases cut? total marks with ⟨nothing, left⟩ | ⟨-, boundary, -⟩ | ⟨taken, -, cut⟩
  · exact .inl ⟨nothing, congrArg target left⟩
  · exact absurd boundary other
  · exact .inr ⟨taken, congrArg (·.2.2.target) cut⟩

end Lane

/-! ### One check -/

theorem Lane.Settled.narrowed_opening {s : Session α} {d : Direction}
    (settled : (s.lane d).Settled) {e : Engine α μ} {origin expected : UInt32} {n : Nat} :
    (e.opening s d ((s.lane d).placed origin expected) n).lane.IsNarrowed := by
  intro decided
  refine settled.narrowed ?_
  rcases decided with flush | skip
  · exact .inl (Status.eq_of_begun flush nofun)
  · exact .inr (Status.eq_of_begun skip nofun)

namespace Segment.Appends

variable {e : Engine α μ} {s : Session α} {d : Direction} {segment : Segment} {n : Nat}
  {base : UInt32} (appends : segment.Appends (s.lane d) n base)

include appends

/-- A check moves a lane back where it cuts off less than was read before. -/
theorem before_iff :
    Serial.before ((e.check s d segment).session.lane d).expected segment.seq = true ↔
      (e.check s d segment).length ≠ 0 ∧ (e.check s d segment).length.toNat < n := by
  have counted := appends.queued
  have few := appends.few
  have positive := appends.positive
  have offset : n.toUInt32.toNat = n := Length.toNat_toUInt32 (by omega)
  have started := appends.started_check (e := e)
  have inside : (e.check s d segment).length ≤ segment.queued := by
    rw [appends.check_eq]
    exact Engine.length_evaluate ..
  obtain ⟨held, cut⟩ := appends.inStep_check (e := e)
  generalize e.check s d segment = r at started inside held cut
  by_cases nothing : r.length = 0
  · have length : (n + segment.data.length).toUInt32.toNat = n + segment.data.length :=
      Length.toNat_toUInt32 (by omega)
    rw [(held nothing).expected started, appends.seq,
      Serial.before_add_left _ (by omega) (by omega), decide_eq_true_eq]
    simp only [nothing, ne_eq, not_true_eq_false, false_and, iff_false]
    omega
  · rw [UInt32.le_iff_toNat_le] at inside
    have nought : (0 : Nat).toUInt32 = 0 := rfl
    rw [(cut nothing).expected started, nought, UInt32.add_zero, appends.seq,
      Serial.before_add_left _ (by omega) (by omega), decide_eq_true_eq, offset]
    simp [nothing]

/-- A check that moves a lane back cuts at a boundary. -/
theorem boundary_of_setback {cut? : Option Cut} {g : Field α μ}
    (pursued : e.pursuit s d ((s.lane d).placed base segment.seq) segment.data segment =
      (cut?, g))
    (found : (e.check s d segment).length ≠ 0)
    (less : (e.check s d segment).length.toNat < n) :
    cut? = some .boundary ∧ (e.check s d segment).length = g.lane.target := by
  have counted := appends.queued
  obtain ⟨length, -, -⟩ := appends.reply_of_pursuit pursued
  have inside := e.inside_of_due s d ((s.lane d).placed base segment.seq) segment.data segment
  rw [pursued] at inside
  rw [length] at found less ⊢
  rcases Lane.boundary_of_cutIf appends.few inside found with whole | ⟨due, target⟩
  · rw [whole] at less
    omega
  · exact ⟨Engine.boundary_of_due due, target⟩

/-- Where a check leaves a target: behind the bytes that are queued then. -/
theorem queued_check {cut? : Option Cut} {g : Field α μ}
    (pursued : e.pursuit s d ((s.lane d).placed base segment.seq) segment.data segment =
      (cut?, g)) (ongoing : g.lane.status = .flush ∨ g.lane.status = .skip) :
    let l := (e.check s d segment).session.lane d
    l.queued = segment.queued.toNat ∧ l.target = g.lane.target ∨
      l.queued = 0 ∧ l.target = Length.sub g.lane.target segment.queued := by
  have counted := appends.queued
  have few := appends.few
  have started := appends.started_check (e := e)
  obtain ⟨held, cut⟩ := appends.inStep_check (e := e)
  obtain ⟨length, lane, -⟩ := appends.reply_of_pursuit pursued
  have other : Engine.due (e.inquiry d segment) (cut?, g) ≠ some .boundary := by
    intro due
    have boundary : cut? = some .boundary := Engine.boundary_of_due due
    subst boundary
    rw [Field.search_of_boundary pursued] at ongoing
    rcases ongoing with ongoing | ongoing <;> cases ongoing
  simp only
  rcases Lane.target_cutIf (l := g.lane) other segment.queued segment.marks with
    ⟨nothing, target⟩ | ⟨found, target⟩
  · rw [← length] at nothing
    rw [← lane] at target
    rw [(held nothing).queued_eq started (by omega)]
    exact .inl ⟨counted.symm, target⟩
  · rw [← length] at found
    rw [← lane] at target
    rw [(cut found).queued_eq started (by omega)]
    exact .inr ⟨rfl, target⟩

variable (settled : (s.lane d).Settled)

include settled

/-- A boundary in front of bytes that were read is found by a scanner that has skipped to a place
further in front. -/
theorem skipped_of_setback (started : (s.lane d).status ≠ .start → (s.lane d).queued = n)
    (found : (e.check s d segment).length ≠ 0)
    (less : (e.check s d segment).length.toNat < n) :
    (s.lane d).status = .skip ∧
      ∃ c, (e.check s d segment).calls.head? = some c ∧ c.report.verdict = .flush ∧
        (e.check s d segment).length.toNat =
          (s.lane d).target.toNat + c.report.point.toNat := by
  have counted := appends.queued
  have few := appends.few
  have offset := appends.toNat_offset
  cases pursued : e.pursuit s d ((s.lane d).placed base segment.seq) segment.data segment with
  | mk cut? g =>
    obtain ⟨-, -, calls⟩ := appends.reply_of_pursuit pursued
    obtain ⟨rfl, length⟩ := appends.boundary_of_setback pursued found less
    rw [length] at found less ⊢
    rcases Field.boundary_of_pursue pursued with
      ahead | ⟨flush, same⟩ | ⟨skipping, bytes, f, asks, flush, same⟩
    · rw [UInt32.le_iff_toNat_le, offset] at ahead
      omega
    · have flush : (s.lane d).status = .flush := Status.eq_of_begun flush nofun
      have behind := settled.flush flush
      have same : g.lane.target = (s.lane d).target := same
      rw [started (by rw [flush]; nofun), ← same] at behind
      omega
    · have skip : (s.lane d).status = .skip := Status.eq_of_begun skipping nofun
      refine ⟨skip, ?_⟩
      rcases Field.contest_narrowed settled.narrowed_opening (.inr skipping) asks with
        ⟨-, aborted⟩ | ⟨c, called, status, target⟩
      · rw [aborted] at flush
        cases flush
      · have verdict : c.report.verdict = .flush :=
          Verdict.status_inj (w := .flush) (status.symm.trans flush)
        have point := (target (by rw [verdict]; rfl)).1
        rw [Field.target_of_contest asks] at point
        refine ⟨c, ?_, verdict, ?_⟩
        · rw [calls, same, called]
          rfl
        · have sum := congrArg UInt32.toNat point
          rw [Length.toNat_add] at sum
          have same : (e.opening s d ((s.lane d).placed base segment.seq)
            segment.data.length).lane.target = (s.lane d).target := rfl
          rw [same] at sum
          omega

/-- Such a boundary is cut at. -/
theorem setback_of_skipped (skip : (s.lane d).status = .skip) {c : Call α μ}
    (first : (e.check s d segment).calls.head? = some c) (flush : c.report.verdict = .flush)
    (positive : 0 < (s.lane d).target.toNat + c.report.point.toNat)
    (less : (s.lane d).target.toNat + c.report.point.toNat < n) :
    (e.check s d segment).length.toNat =
      (s.lane d).target.toNat + c.report.point.toNat := by
  have counted := appends.queued
  have few := appends.few
  have offset := appends.toNat_offset
  have skipping : (s.lane d).status.begun = .skip := by
    rw [skip]
    rfl
  obtain ⟨-, -, calls⟩ := appends.reply_of_pursuit (e := e) rfl
  obtain ⟨g, pursued, target⟩ := Field.pursue_of_found (q := e.inquiry d segment)
    (f := e.opening s d ((s.lane d).placed base segment.seq) segment.data.length)
    settled.narrowed_opening skipping
    (Length.sub segment.queued segment.data.length.toUInt32)
    (UInt32.le_iff_toNat_le.mpr (show _ ≤ segment.queued.toNat by omega)) segment.data rfl
    ((congrArg List.head? calls).symm.trans first) flush (by rw [offset]; exact less)
  have target : g.lane.target.toNat = (s.lane d).target.toNat + c.report.point.toNat := target
  have found : g.lane.target ≠ 0 := by
    rw [ne_eq, ← UInt32.toNat_inj, UInt32.toNat_zero]
    omega
  have cut := Lane.cut_boundary (l := g.lane) segment.marks found appends.queued_ne_zero (by omega)
  obtain ⟨length, -, -⟩ := appends.reply_of_pursuit pursued
  rw [length.trans (congrArg Prod.fst cut)]
  exact target

theorem settled_check : ((e.check s d segment).session.lane d).Settled := by
  have counted := appends.queued
  have few := appends.few
  have started := appends.started_check (e := e)
  obtain ⟨held, cut⟩ := appends.inStep_check (e := e)
  cases pursued : e.pursuit s d ((s.lane d).placed base segment.seq) segment.data segment with
  | mk cut? g =>
    have narrowed : g.lane.IsNarrowed :=
      Field.narrowed_pursue settled.narrowed_opening pursued
    obtain ⟨-, lane, -⟩ := appends.reply_of_pursuit pursued
    have same : ((e.check s d segment).session.lane d).status = g.lane.status := by
      rw [lane, Lane.status_cutIf]
    refine ⟨fun _ => ?_, fun decided => ?_, fun flush => ?_⟩
    · by_cases nothing : (e.check s d segment).length = 0
      · rw [(held nothing).queued_eq started (by omega)]
        omega
      · rw [(cut nothing).queued_eq started (by omega)]
        omega
    · rw [same] at decided
      rw [lane, (Lane.cutIf_keeps ..).1]
      exact narrowed decided
    · rw [same] at flush
      have outside : segment.queued < g.lane.target :=
        Field.total_lt_target settled.narrowed_opening pursued flush
      rw [UInt32.lt_iff_toNat_lt] at outside
      rcases appends.queued_check pursued (.inl flush) with
        ⟨queued, target⟩ | ⟨queued, target⟩
      · rw [queued, target]
        exact outside
      · rw [queued, target, Length.toNat_sub]
        omega

/-- Without scanners that skip nothing, a lane that skips goes on doing so. -/
theorem skipsAhead_check (started : (s.lane d).status ≠ .start → (s.lane d).queued = n)
    (ahead : (s.lane d).SkipsAhead)
    (advancing : ∀ c ∈ (e.check s d segment).calls,
      c.report.verdict = .skip → c.report.point ≠ 0) :
    ((e.check s d segment).session.lane d).SkipsAhead := by
  have counted := appends.queued
  have offset := appends.toNat_offset
  cases pursued : e.pursuit s d ((s.lane d).placed base segment.seq) segment.data segment with
  | mk cut? g =>
    obtain ⟨-, lane, calls⟩ := appends.reply_of_pursuit pursued
    intro skip
    rw [lane, Lane.status_cutIf] at skip
    have outside : segment.queued ≤ g.lane.target := by
      refine Field.total_le_target settled.narrowed_opening (fun skipping => ?_) ?_ pursued
        (fun c called => advancing c ?_) skip
      · have skipping : (s.lane d).status = .skip := Status.eq_of_begun skipping nofun
        rw [UInt32.le_iff_toNat_le, offset, ← started (by rw [skipping]; nofun)]
        exact ahead skipping
      · rw [offset]
        exact counted.symm
      · rw [calls]
        exact List.mem_reverse.mpr called
    rw [UInt32.le_iff_toNat_le] at outside
    rcases appends.queued_check pursued (.inr skip) with
      ⟨queued, target⟩ | ⟨queued, target⟩
    · rw [queued, target]
      exact outside
    · rw [queued]
      exact Nat.zero_le _

end Segment.Appends

/-- A faithful check of a settled lane moves it back exactly when the lane skips bytes up to a place
in front of the last byte that was read, and its scanner's first answer is a boundary in front of
that byte too. -/
theorem Segment.FaithfulTo.setback_iff {e : Engine α μ} {s : Session α} {d : Direction}
    {segment : Segment} (faithful : segment.FaithfulTo (s.lane d))
    (settled : (s.lane d).Settled) :
    Serial.before ((e.check s d segment).session.lane d).expected segment.seq = true ↔
      (s.lane d).status = .skip ∧ ∃ c, (e.check s d segment).calls.head? = some c ∧
        c.report.verdict = .flush ∧ 0 < (s.lane d).target.toNat + c.report.point.toNat ∧
        (s.lane d).target.toNat + c.report.point.toNat < (s.lane d).queued := by
  obtain ⟨n, base, appends, started⟩ := faithful.appends settled.few
  rw [appends.before_iff]
  constructor
  · rintro ⟨found, less⟩
    obtain ⟨skip, c, first, flush, length⟩ :=
      appends.skipped_of_setback settled started found less
    have positive : (e.check s d segment).length.toNat ≠ 0 :=
      fun zero => found (UInt32.toNat_inj.mp zero)
    have queued := started (by rw [skip]; nofun)
    exact ⟨skip, c, first, flush, by omega, by omega⟩
  · rintro ⟨skip, c, first, flush, positive, less⟩
    have queued := started (by rw [skip]; nofun)
    have length := appends.setback_of_skipped settled skip first flush positive (by omega)
    refine ⟨fun zero => ?_, by omega⟩
    rw [zero, UInt32.toNat_zero] at length
    omega

/-! ### Runs -/

namespace Engine

variable {e : Engine α μ} {s : Session α} {run : List (Direction × Segment)}

/-- Of the opposite lane a check changes no more than the cells. -/
theorem lanes_check {I : Lane α → Prop} (cells : ∀ l slots, I l → I { l with slots })
    (lanes : ∀ d, I (s.lane d)) {d : Direction} {segment : Segment}
    (checked : I ((e.check s d segment).session.lane d)) (d' : Direction) :
    I ((e.check s d segment).session.lane d') := by
  by_cases same : d' = d
  · rw [same]
    exact checked
  · obtain ⟨-, -, -, slots, opposite⟩ := e.check_keeps s d segment
    rw [Direction.eq_opposite_of_ne same, opposite]
    exact cells _ slots (lanes _)

theorem settled_afterAll (settled : ∀ d, (s.lane d).Settled) (faithful : e.Faithful s run) :
    ∀ d, ((e.afterAll s run).2.lane d).Settled := by
  induction run generalizing e s with
  | nil => exact settled
  | cons x run ih =>
    obtain ⟨first, later⟩ := faithful
    obtain ⟨n, base, appends, -⟩ := first.appends (settled x.1).few
    exact ih (lanes_check (fun _ _ kept => ⟨kept.few, kept.narrowed, kept.flush⟩) settled
      (appends.settled_check (settled x.1))) later

theorem skipsAhead_afterAll (settled : ∀ d, (s.lane d).Settled)
    (ahead : ∀ d, (s.lane d).SkipsAhead) (faithful : e.Faithful s run)
    (advancing : ∀ r ∈ e.checkAll s run, ∀ c ∈ r.calls,
      c.report.verdict = .skip → c.report.point ≠ 0) :
    ∀ d, ((e.afterAll s run).2.lane d).SkipsAhead := by
  induction run generalizing e s with
  | nil => exact ahead
  | cons x run ih =>
    obtain ⟨first, later⟩ := faithful
    obtain ⟨n, base, appends, started⟩ := first.appends (settled x.1).few
    refine ih (lanes_check (fun _ _ kept => ⟨kept.few, kept.narrowed, kept.flush⟩) settled
      (appends.settled_check (settled x.1))) (lanes_check (fun _ _ kept => kept) ahead ?_) later
      fun r made => advancing r (List.mem_cons_of_mem _ made)
    exact appends.skipsAhead_check (settled x.1) started (ahead x.1)
      (advancing _ List.mem_cons_self)

/-- From a fresh session on, a faithful check moves its lane back exactly when the lane skips bytes
up to a place in front of the last byte that was read, and the scanner's first answer is a boundary
in front of that byte too. Unless a scanner has skipped nothing, this does not happen. -/
theorem check_setback_iff (e : Engine α μ) (s : Session α)
    (untouched : ∀ d, (s.lane d).status = .start) (run : List (Direction × Segment))
    (d : Direction) (segment : Segment) (faithful : e.Faithful s (run ++ [(d, segment)])) :
    let left := e.afterAll s run
    let l := left.2.lane d
    let r := left.1.check left.2 d segment
    (Serial.before (r.session.lane d).expected segment.seq = true ↔
      l.status = .skip ∧ ∃ c, r.calls.head? = some c ∧ c.report.verdict = .flush ∧
        0 < l.target.toNat + c.report.point.toNat ∧
        l.target.toNat + c.report.point.toNat < l.queued) ∧
    ((∀ r ∈ e.checkAll s run, ∀ c ∈ r.calls,
        c.report.verdict = .skip → c.report.point ≠ 0) →
      Serial.before (r.session.lane d).expected segment.seq = false) := by
  intro left l r
  obtain ⟨before, last, -⟩ := faithful_append.mp faithful
  have fresh : ∀ d, (s.lane d).Settled := fun d => Lane.settled_of_untouched (untouched d)
  have setback := last.setback_iff (e := left.1) (settled_afterAll fresh before d)
  refine ⟨setback, fun advancing => ?_⟩
  have ahead : l.SkipsAhead := by
    refine skipsAhead_afterAll fresh (fun d skip => ?_) before advancing d
    rw [untouched d] at skip
    cases skip
  rw [Bool.eq_false_iff]
  intro back
  obtain ⟨skip, c, -, -, -, less⟩ := setback.mp back
  have behind : l.queued ≤ l.target.toNat := ahead skip
  exact absurd (Nat.lt_of_le_of_lt (Nat.le_add_right _ _) less) (Nat.not_lt.mpr behind)

/-- A scanner that skips nothing twice while six bytes are read, and then finds a boundary behind
the first of them. -/
theorem check_setback_iff_skippedNothing :
    let script : Script :=
      { steps := [{ verdict := .skip }, { verdict := .skip }, { verdict := .flush, point := 1 }] }
    let registry : Registry Memo Tally :=
      { scanners := [script.scanner "script"]
        bindings := [(⟨80, .toServer⟩, { scanners := .singleton 0 })] }
    let e : Engine Memo Tally := .ofRegistry registry
    let s := e.openSession 1 80
    let segment (text : String) (queued seq : UInt32) : Segment :=
      { data := text.toUTF8.toList, queued, seq, marks := .ofDirection .toServer }
    let run := [(Direction.toServer, segment "abcdef" 6 0)]
    let left := e.afterAll s run
    let r := left.1.check left.2 .toServer (segment "g" 7 6)
    (∀ d, (s.lane d).status = .start) ∧
      e.Faithful s (run ++ [(.toServer, segment "g" 7 6)]) ∧
      (left.2.lane .toServer).expected = 6 ∧ (r.session.lane .toServer).expected = 1 ∧
      Serial.before (r.session.lane .toServer).expected 6 = true := by
  intro script registry e s segment run left r
  have untouched : ∀ d, (s.lane d).status = .start := by
    intro d
    cases d <;> rfl
  have faithful : e.Faithful s (run ++ [(.toServer, segment "g" 7 6)]) := by
    refine ⟨⟨?_, ?_, ?_, ?_, ?_⟩, ⟨?_, ?_, ?_, ?_, ?_⟩, trivial⟩ <;> decide +kernel
  have setback := (e.check_setback_iff s untouched run .toServer (segment "g" 7 6) faithful).1
  refine ⟨untouched, faithful, by decide +kernel, by decide +kernel, setback.mpr ⟨?_, ?_⟩⟩
  · decide +kernel
  · refine ⟨r.calls.head?.get ?_, (Option.some_get _).symm, ?_, ?_, ?_⟩ <;> decide +kernel

end Engine

end StreamFraming
