import StreamFraming.Proofs.Declining
import StreamFraming.Proofs.Interference

/-!
# Transparency

Registering a scanner that declines changes nothing that a host can see (`run_transparent`). Checks
of one segment go alike in two engines that differ by such a scanner, so cuttings of one queue do,
and so do runs.
-/

namespace StreamFraming

variable {α μ : Type} {k : Nat}

/-! ### Checks -/

namespace Lane

variable {r : Registry α μ} {l l' : Lane α}

/-- A segment is sorted by the status and the place of a lane alone. -/
theorem Spares.arrival (h : l.Spares k l') (settled : l.AtRest r k l') (seq : UInt32)
    (data : List UInt8) :
    (l.arrival seq data = .gap ∧ l'.arrival seq data = .gap) ∨
      (l.arrival seq data = .stale ∧ l'.arrival seq data = .stale) ∨
      ∃ m m' fresh, l.arrival seq data = .fresh m fresh ∧ l'.arrival seq data = .fresh m' fresh ∧
        fresh.length ≤ data.length ∧ m.Spares k m' ∧ m.AtRest r k m' := by
  unfold Lane.arrival
  rw [h.status, h.expected]
  split
  · rename_i start
    refine .inr (.inr ⟨_, _, data, rfl, rfl, le_rfl,
      ⟨rfl, rfl, rfl, h.carried, h.eligible, h.slots⟩,
      ⟨fun _ nobody => ?_, fun listed => ⟨.inr rfl, (settled.late listed).2⟩, settled.known⟩⟩)
    exact settled.aimed (by rw [start]; nofun) fun _ => nobody (.inr rfl)
  · split
    · exact .inl ⟨rfl, rfl⟩
    · split
      · exact .inr (.inl ⟨rfl, rfl⟩)
      · split
        · refine .inr (.inr ⟨l, l', _, rfl, rfl, ?_, h, settled⟩)
          rw [List.length_drop]
          exact Nat.sub_le _ _
        · exact .inr (.inr ⟨l, l', data, rfl, rfl, le_rfl, h, settled⟩)

theorem Spares.cutIf (h : l.Spares k l') (settled : l.AtRest r k l') (cut? : Option Cut)
    (target : cut? = some .boundary → l'.target = l.target) (total : UInt32) (marks : Marks) :
    let c := l.cutIf cut? total marks
    let c' := l'.cutIf cut? total marks
    c'.1 = c.1 ∧ c'.2.1 = c.2.1 ∧ c.2.2.Spares k c'.2.2 ∧ c.2.2.AtRest r k c'.2.2 := by
  cases cut? with
  | none => exact ⟨rfl, rfl, h, settled⟩
  | some kind =>
    cases kind with
    | abort => exact ⟨rfl, rfl, h, settled⟩
    | boundary =>
      have same := target rfl
      simp only [Lane.cutIf, Lane.cut, same]
      split
      · exact ⟨rfl, rfl, h, settled⟩
      · refine ⟨rfl, by rw [h.carried], ⟨h.status, ?_, ?_, rfl, h.eligible, h.slots⟩,
          ⟨fun _ _ => rfl, settled.late, settled.known⟩⟩
        · rw [h.origin]
        · rw [h.origin]
    | bound =>
      have aimed (alive : l.status ≠ .abort)
          (nobody : l.status.IsSeeking → l.eligible.isEmpty = true) :
          Length.sub l'.target total = Length.sub l.target total :=
        congrArg (Length.sub · total) (settled.aimed alive nobody)
      simp only [Lane.cutIf, Lane.cut]
      split
      · exact ⟨rfl, rfl, { h with status := h.status }, ⟨aimed, settled.late, settled.known⟩⟩
      · refine ⟨rfl, by rw [h.carried], ⟨h.status, ?_, ?_, ?_, h.eligible, h.slots⟩,
          ⟨aimed, settled.late, settled.known⟩⟩
        · rw [h.origin]
        · rw [h.origin]
        · rw [h.carried]

end Lane

/-- Engines that differ by a scanner that declines. -/
structure Engine.AddsDecliner (k : Nat) (e e' : Engine α μ) : Prop where
  registry : e.registry.AddsDecliner k e'.registry
  memories : ∀ i, e'.memories.get? (bump k i) = e.memories.get? i

/-- Sessions that differ in the new scanner, as engines with these registries leave them. -/
structure Session.Spares (r : Registry α μ) (k : Nat) (s s' : Session α) : Prop where
  raised : s'.raised = s.raised
  lane : ∀ d, (s.lane d).Spares k (s'.lane d)
  settled : ∀ d, (s.lane d).AtRest r k (s'.lane d)

theorem Session.Spares.of_lanes {r : Registry α μ} {s s' : Session α}
    (raised : s'.raised = s.raised) (d : Direction)
    (here : (s.lane d).Spares k (s'.lane d) ∧ (s.lane d).AtRest r k (s'.lane d))
    (there : (s.lane d.opposite).Spares k (s'.lane d.opposite) ∧
      (s.lane d.opposite).AtRest r k (s'.lane d.opposite)) : s.Spares r k s' := by
  have both (x : Direction) : (s.lane x).Spares k (s'.lane x) ∧
      (s.lane x).AtRest r k (s'.lane x) := by
    by_cases own : x = d
    · exact own ▸ here
    · exact Direction.eq_opposite_of_ne own ▸ there
  exact ⟨raised, fun x => (both x).1, fun x => (both x).2⟩

namespace Engine

variable {e e' : Engine α μ} {s s' : Session α}

/-- Replies that cut alike, with engines and sessions that differ in the new scanner. -/
structure RepliesSpare (k : Nat) (r : Registry α μ) (reply reply' : Reply α μ) : Prop where
  length : reply'.length = reply.length
  marks : reply'.marks = reply.marks
  engine : reply.engine.AddsDecliner k reply'.engine
  session : reply.session.Spares r k reply'.session

theorem evaluate_spares (adds : e.AddsDecliner k e') (h : s.Spares e.registry k s') (d : Direction)
    {l l' : Lane α} (lane : l.Spares k l') (settled : l.AtRest e.registry k l')
    {data : List UInt8} {segment : Segment} (room : data.length ≤ segment.queued.toNat) :
    RepliesSpare k e.registry (e.evaluate s d l data segment)
      (e'.evaluate s' d l' data segment) := by
  have inquiries : (e.inquiry d segment).AddsDecliner k (e'.inquiry d segment) :=
    ⟨adds.registry, rfl, rfl, congrArg (Length.add · segment.slack) adds.registry.bound⟩
  have opened : (e.opening s d l data.length).Spares k (e'.opening s' d l' data.length) :=
    ⟨⟨lane.status, congrArg (· + _) lane.expected, lane.origin, lane.carried, lane.eligible,
      lane.slots⟩, (h.lane d.opposite).slots, adds.memories, rfl⟩
  have small := segment.queued.toNat_lt
  have within : (Length.sub segment.queued data.length.toUInt32).toNat + data.length ≤
      (e.inquiry d segment).total.toNat := by
    rw [Length.toNat_sub, Length.toNat_toUInt32 (by omega)]
    show segment.queued.toNat - data.length + data.length ≤ segment.queued.toNat
    omega
  obtain ⟨cut, spares, after, target⟩ := Field.pursue_spares inquiries opened
    ⟨settled.aimed, settled.late, settled.known⟩ within
  change (e'.pursuit s' d l' data segment).1 = (e.pursuit s d l data segment).1 at cut
  change (e.pursuit s d l data segment).2.Spares k (e'.pursuit s' d l' data segment).2 at spares
  have due : due (e'.inquiry d segment) (e'.pursuit s' d l' data segment) =
      due (e.inquiry d segment) (e.pursuit s d l data segment) := by
    rw [Engine.due, Engine.due, cut, spares.lane.status, inquiries.limit, inquiries.total]
  obtain ⟨length, marks, lane, settled⟩ := spares.lane.cutIf after
    (Engine.due (e.inquiry d segment) (e.pursuit s d l data segment))
    (fun boundary => target (boundary_of_due boundary)) segment.queued segment.marks
  refine ⟨?_, ?_, ⟨adds.registry, spares.memories⟩, .of_lanes ?_ d ?_ ?_⟩
  · simp only [evaluate_eq, due]
    exact length
  · simp only [evaluate_eq, due]
    exact marks
  · rw [raised_evaluate, raised_evaluate, h.raised, spares.raised]
  · rw [lane_evaluate, lane_evaluate, due]
    exact ⟨lane, settled⟩
  · rw [opposite_evaluate, opposite_evaluate]
    have kept := h.settled d.opposite
    exact ⟨{ h.lane d.opposite with slots := spares.peer }, kept.aimed, kept.late, kept.known⟩

/-- Checks of one segment go alike. -/
theorem check_spares (adds : e.AddsDecliner k e') (h : s.Spares e.registry k s') (d : Direction)
    {segment : Segment} (room : segment.data.length ≤ segment.queued.toNat) :
    RepliesSpare k e.registry (e.check s d segment) (e'.check s' d segment) := by
  unfold check
  obtain ⟨gap, gap'⟩ | ⟨stale, stale'⟩ | ⟨m, m', fresh, arrived, arrived', fewer, lane, settled⟩ :=
    (h.lane d).arrival (h.settled d) segment.seq segment.data
  · rw [gap, gap']
    refine ⟨rfl, rfl, adds, .of_lanes ?_ d ?_ ?_⟩
    · simp only [Session.raised_setLane, h.raised]
    · simp only [Session.lane_setLane_self]
      exact ⟨(h.lane d).abort, .of_empty rfl rfl rfl⟩
    · simp only [Session.lane_setLane_opposite]
      exact ⟨h.lane d.opposite, h.settled d.opposite⟩
  · rw [stale, stale']
    exact ⟨rfl, rfl, adds, h⟩
  · rw [arrived, arrived']
    exact evaluate_spares adds h d lane settled (fewer.trans room)

/-- A lane that begins with a race which leaves nobody is cut only where the last scanner points
behind the queue and the queue is past its bound. -/
theorem length_of_lost {e : Engine α μ} {s : Session α} {d : Direction} {segment : Segment}
    (begun : (s.lane d).status = .start) (nonempty : 0 < segment.queued)
    (whole : Length.sub segment.queued segment.data.length.toUInt32 = 0)
    {v : Verdict} {g : Field α μ} (nobody : g.lane.eligible.isEmpty = true) :
    let placed : Lane α :=
      { s.lane d with status := .search, expected := segment.seq, origin := segment.seq }
    Field.race (e.inquiry d segment) ⟨segment.seq + 0, segment.data⟩ placed.eligible.ids .search
        (e.opening s d placed segment.data.length) = (v, g) →
      ((e.check s d segment).length = 0 ↔ g.lane.target ≤ segment.queued ∨
        segment.queued ≤ Length.add e.registry.maxFlushPoint segment.slack) := by
  intro placed raced
  have arrived : (s.lane d).arrival segment.seq segment.data = .fresh placed segment.data :=
    if_pos begun
  let f := e.opening s d placed segment.data.length
  have contested : Field.contest (e.inquiry d segment) 0 segment.data f = _ :=
    Field.contest_of_empty raced nobody
  have here : Length.add g.lane.target 0 = g.lane.target := by
    apply UInt32.toNat_inj.mp
    have bound := g.lane.target.toNat_lt
    rw [Length.toNat_add, UInt32.toNat_zero]
    omega
  let lost : Field α μ := { g with lane := { g.lane.abort with target := g.lane.target } }
  have moved : Field.move (e.inquiry d segment) 0 segment.data f =
      (if g.lane.target ≤ segment.queued then .again g.lane.target else .wait, lost) := by
    rw [here] at contested
    exact (if_pos nonempty).trans contested
  rw [check, arrived]
  simp only [evaluate_eq, pursuit, whole]
  by_cases inside : g.lane.target ≤ segment.queued
  · rw [Field.pursue_of_again_abort (moved.trans (congrArg (·, lost) (if_pos inside))) rfl]
    exact iff_of_true rfl (.inl inside)
  · rw [Field.pursue_of_wait (moved.trans (congrArg (·, lost) (if_neg inside)))]
    have queued : segment.queued ≠ 0 := UInt32.pos_iff_ne_zero.mp nonempty
    by_cases past : Length.add e.registry.maxFlushPoint segment.slack < segment.queued
    · refine iff_of_false ?_ (not_or.mpr ⟨inside, UInt32.not_le.mpr past⟩)
      have overdue : due (e.inquiry d segment) (none, lost) = some .bound := if_pos ⟨Status.noConfusion, past⟩
      rw [overdue]
      simp only [Lane.cutIf, Lane.cut, if_neg queued]
      exact fun zero => queued (Lane.min_longestCut_eq_zero zero)
    · refine iff_of_true ?_ (.inr (UInt32.not_lt.mp past))
      have early : due (e.inquiry d segment) (none, lost) = none := if_neg fun both => past both.2
      rw [early]
      rfl

end Engine

/-! ### Runs -/

namespace Presentation

/-- Presentations of the same bytes, to engines that differ by a scanner that declines. -/
structure Spares (k : Nat) (p p' : Presentation α μ) : Prop where
  engine : p.engine.AddsDecliner k p'.engine
  session : p.session.Spares p.engine.registry k p'.session
  queue : p'.queue = p.queue
  fresh : p'.fresh = p.fresh

/-- Cuttings that differ in the new scanner alone. -/
structure CuttingsSpare (k : Nat) (r : Registry α μ) (c c' : Cutting α μ) : Prop where
  engine : c.engine.AddsDecliner k c'.engine
  session : c.session.Spares r k c'.session
  queue : c'.queue = c.queue
  pieces : c'.pieces = c.pieces

variable {p p' : Presentation α μ} {d : Direction}

theorem Spares.size (h : p.Spares k p') : p'.size = p.size := by
  rw [Presentation.size, Presentation.size, h.queue, h.fresh]

theorem Spares.bytes (h : p.Spares k p') : p'.bytes = p.bytes := by
  rw [Presentation.bytes, Presentation.bytes, h.queue, h.fresh]

theorem Spares.reply (h : p.Spares k p') (small : p.size < 2 ^ 32) :
    Engine.RepliesSpare k p.engine.registry (p.reply d) (p'.reply d) := by
  have segment : p'.segment d = p.segment d := by
    rw [Presentation.segment, Presentation.segment, h.size, h.queue, h.fresh]
  rw [Presentation.reply, Presentation.reply, segment]
  refine Engine.check_spares h.engine h.session d ?_
  show p.fresh.length ≤ p.size.toUInt32.toNat
  rw [Length.toNat_toUInt32 small]
  exact Nat.le_add_left _ _

theorem Spares.cut_eq (h : p.Spares k p') (small : p.size < 2 ^ 32) : p'.cut d = p.cut d := by
  rw [Presentation.cut, Presentation.cut, (h.reply small).length, h.size]

theorem Spares.next (h : p.Spares k p') (small : p.size < 2 ^ 32) :
    (p.next d).Spares k (p'.next d) := by
  have replies := h.reply (d := d) small
  refine ⟨replies.engine, ?_, ?_, ?_⟩
  · rw [show (p.next d).engine = (p.reply d).engine from rfl, registry_reply]
    exact replies.session
  · simp only [Presentation.next, h.cut_eq small, h.queue]
  · simp only [Presentation.next, h.cut_eq small, h.bytes]

theorem Spares.cutting (h : p.Spares k p') (small : p.size < 2 ^ 32) :
    CuttingsSpare k p.engine.registry (p.cutting d) (p'.cutting d) := by
  revert p'
  refine cut_induction (d := d)
    (C := fun p => p.size < 2 ^ 32 → ∀ {p'}, p.Spares k p' →
      CuttingsSpare k p.engine.registry (p.cutting d) (p'.cutting d))
    (fun p nothing _ p' h => ?_) (fun p more nothing small p' h => ?_)
    (fun p more found ih small p' h => ?_) p small
  · rw [cutting_of_empty nothing, cutting_of_empty (h.fresh ▸ nothing)]
    exact ⟨h.engine, h.session, h.queue, rfl⟩
  · have replies := h.reply (d := d) small
    rw [cutting_of_held more nothing,
      cutting_of_held (h.fresh ▸ more) (replies.length.trans nothing)]
    exact ⟨replies.engine, replies.session, by simp only [h.queue, h.fresh], rfl⟩
  · have replies := h.reply (d := d) small
    have later := ih ((size_next more found).trans small) (h.next small)
    rw [show (p.next d).engine = (p.reply d).engine from rfl, registry_reply] at later
    rw [cutting_of_cut more found,
      cutting_of_cut (h.fresh ▸ more) (fun zero => found (replies.length.symm.trans zero))]
    refine ⟨later.engine, later.session, later.queue, ?_⟩
    simp only [h.cut_eq small, h.bytes, replies.marks, later.pieces]

theorem pieces_cutting_eq_nil_iff (nonempty : p.fresh ≠ []) :
    (p.cutting d).pieces = [] ↔ (p.reply d).length = 0 := by
  by_cases nothing : (p.reply d).length = 0
  · simp only [cutting_of_held nonempty nothing, nothing]
  · simp only [cutting_of_cut nonempty nothing, nothing, reduceCtorEq]

end Presentation

namespace Run

/-- Runs that differ in the new scanner alone. -/
structure Spares (k : Nat) (r r' : Run α μ) : Prop where
  engine : r.host.engine.AddsDecliner k r'.host.engine
  session : r.host.session.Spares r.host.engine.registry k r'.host.session
  queue : ∀ d, r'.host.queue d = r.host.queue d
  pieces : r'.pieces = r.pieces

/-- No queue comes to hold more bytes than the word can count in which a host states its size. -/
def FitsWords (r : Run α μ) : List (Direction × List UInt8) → Prop
  | [] => True
  | x :: sends =>
    (r.host.queue x.1).size + x.2.length < 2 ^ 32 ∧ (r.send x.1 x.2).FitsWords sends

variable {r r' : Run α μ}

theorem Spares.send (h : r.Spares k r') {d : Direction} {bytes : List UInt8}
    (small : (r.host.queue d).size + bytes.length < 2 ^ 32) :
    (r.send d bytes).Spares k (r'.send d bytes) := by
  have presented : (r.host.presentation d bytes).Spares k (r'.host.presentation d bytes) :=
    ⟨h.engine, h.session, h.queue d, rfl⟩
  have cuttings := presented.cutting (d := d) small
  obtain ⟨engine, session, queue, other, pieces, pieces', -⟩ := r.send_eq d bytes
  obtain ⟨engine', session', queue', other', morePieces, morePieces', -⟩ := r'.send_eq d bytes
  refine ⟨?_, ?_, fun x => ?_, funext fun x => ?_⟩
  · rw [engine, engine']
    exact cuttings.engine
  · rw [session, session', r.registry_send d bytes]
    exact cuttings.session
  · by_cases own : x = d
    · rw [own, queue, queue', cuttings.queue]
    · rw [Direction.eq_opposite_of_ne own, other, other', h.queue]
  · by_cases own : x = d
    · rw [own, pieces, morePieces, h.pieces, cuttings.pieces]
    · rw [Direction.eq_opposite_of_ne own, pieces', morePieces', h.pieces]

theorem Spares.sendAll (h : r.Spares k r') {sends : List (Direction × List UInt8)}
    (fits : r.FitsWords sends) : (r.sendAll sends).Spares k (r'.sendAll sends) := by
  induction sends generalizing r r' with
  | nil => exact h
  | cons x sends ih => exact ih (h.send fits.1) fits.2

end Run

/-- In each direction in which a scanner was asked it has left the race. -/
def Session.Barred (k : Nat) (s : Session α) (calls : List (Call α μ)) : Prop :=
  ∀ d, (∃ c ∈ calls, c.sight.id = k ∧ c.sight.marks = .ofDirection d) →
    (s.lane d).eligible.contains k = false

theorem Marks.withDirection_ofDirection (d : Direction) :
    (Marks.ofDirection d).withDirection d = .ofDirection d := by
  cases d <;> rfl

theorem Marks.ofDirection_inj {d d' : Direction} (h : ofDirection d = ofDirection d') : d = d' := by
  cases d <;> cases d' <;> first | rfl | cases h

theorem Engine.check_barred {e : Engine α μ} {scanner : Scanner α μ}
    (added : e.registry.scanner? k = some scanner) (declines : scanner.Declines) {s : Session α}
    {calls : List (Call α μ)} (h : s.Barred k calls) {d : Direction} {segment : Segment}
    (marks : segment.marks = .ofDirection d) :
    let r := e.check s d segment
    r.session.Barred k (calls ++ r.calls) := by
  intro r x own
  by_cases same : x = d
  · subst same
    refine check_invariant e s x segment calls
      (G := fun l _ calls => (∃ c ∈ calls, c.sight.id = k ∧ c.sight.marks = .ofDirection x) →
        l.eligible.contains k = false) ?_ ?_ ?_ (h x) own
    · exact fun eligible _ barred own => eligible ▸ barred own
    · exact fun _ _ => ScannerSet.contains_empty k
    · exact fun idx data f _ _ => (Field.contest_declined (q := e.inquiry x segment) added declines
        idx data).1
  · obtain rfl := Direction.eq_opposite_of_ne same
    obtain ⟨slots, kept⟩ := (e.check_keeps s d segment).2.2.2
    have barred : (s.lane d.opposite).eligible.contains k = false := by
      refine h _ ?_
      obtain ⟨c, made, id, direction⟩ := own
      refine ⟨c, (List.mem_append.mp made).resolve_right fun new => ?_, id, direction⟩
      have here := e.marks_check s d segment c new
      rw [marks, Marks.withDirection_ofDirection, direction] at here
      exact d.opposite_ne (Marks.ofDirection_inj here)
    rw [show r.session.lane d.opposite = _ from kept]
    exact barred

theorem Run.barred_sendAll {r : Run α μ} {scanner : Scanner α μ}
    (added : r.host.engine.registry.scanner? k = some scanner) (declines : scanner.Declines)
    (h : r.host.session.Barred k r.calls) (sends : List (Direction × List UInt8)) :
    (r.sendAll sends).host.session.Barred k (r.sendAll sends).calls := by
  induction sends generalizing r with
  | nil => exact h
  | cons x sends ih =>
    refine ih (by rw [r.registry_send x.1 x.2]; exact added) ?_
    obtain ⟨-, session, -, -, -, -, calls⟩ := r.send_eq x.1 x.2
    rw [session, calls]
    exact (Presentation.cutting_invariant (d := x.1)
      (J := fun e s calls => e.registry = r.host.engine.registry ∧ s.Barred k calls)
      (fun e s segment calls marks ⟨same, barred⟩ =>
        ⟨(e.check_keeps s x.1 segment).1.trans same,
          e.check_barred (same ▸ added) declines barred marks⟩)
      (r.host.presentation x.1 x.2) ⟨rfl, h⟩).2

/-- Freshly opened sessions differ in the new scanner alone. -/
theorem Run.spares_openOn {r r' : Registry α μ} (adds : r.AddsDecliner k r') (port : UInt16) :
    ({ host := .openOn (.ofRegistry r) port } : Run α μ).Spares k
      { host := .openOn (.ofRegistry r') port } where
  engine := ⟨adds, fun _ => rfl⟩
  session := by
    have lane (d : Direction) :
        ((Engine.ofRegistry r).freshLane port d).Spares k
          ((Engine.ofRegistry r').freshLane port d) :=
      ⟨rfl, rfl, rfl, rfl, adds.masks _, .empty⟩
    have settled (d : Direction) :
        ((Engine.ofRegistry r).freshLane port d).AtRest r k
          ((Engine.ofRegistry r').freshLane port d) :=
      ⟨fun _ _ => rfl, fun listed => ⟨.inl rfl, adds.joined _ listed⟩, adds.known _⟩
    exact ⟨rfl, fun d => by cases d <;> exact lane _, fun d => by cases d <;> exact settled _⟩
  queue d := by cases d <;> rfl
  pieces := rfl

theorem Delimiter.ignoresId_scanner (name : String) (delimiter : UInt8) (memory : μ) :
    (Delimiter.scanner name delimiter memory : Scanner α μ).IgnoresId := by
  intro memory sight _ window
  simp only [Delimiter.scanner, Report.plain]

/-- A scanner for delimited messages never gives up. -/
theorem Delimiter.abortsInside_scanner (name : String) (delimiter : UInt8) (memory : μ) :
    (Delimiter.scanner name delimiter memory : Scanner α μ).AbortsInside := by
  intro memory sight window
  simp only [Delimiter.scanner]
  cases Delimiter.lengthTo? delimiter window with
  | none | some n => exact fun wrong => by cases wrong

theorem Counted.ignoresId_scanner [Holds α Counted.Part] (name : String) (memory : μ) :
    (Counted.scanner name memory : Scanner α μ).IgnoresId := by
  intro memory sight _ window
  simp only [Counted.scanner, Report.plain]

/-- A scanner for counted records gives up at the start of its window only. -/
theorem Counted.abortsInside_scanner [Holds α Counted.Part] (name : String) (memory : μ) :
    (Counted.scanner name memory : Scanner α μ).AbortsInside := by
  intro memory sight window
  simp only [Counted.scanner, Counted.outcome]
  cases Holds.claim Counted.Part.digit sight.own with
  | none => exact fun _ => Nat.zero_le _
  | some part =>
    cases part with
    | digit =>
      cases window with
      | nil => exact fun wrong => by cases wrong
      | cons c window =>
        cases digit : Http.Digit.decimal? c with
        | none => simp [digit, Report.plain]
        | some n => simp [digit, Report.plain]
    | body =>
      cases found : window.findIdx? (· == Counted.semicolon) with
      | none => simp [found, Report.plain]
      | some i => simp [found, Report.plain]

/-- A scanner that declines is transparent. It may be registered at any place among scanners that do
not go by their ids and give up inside their windows only, wherever one of these is registered:
whatever a host is sent, as long as it can state the size of its queues, the pieces it cuts off, its
queues, the anomalies and the states of the lanes are those that it comes to without the scanner.
Behind the first contest in which the scanner is asked, it is out of the race and has no cell. -/
theorem run_transparent (bound : UInt32) {calls : List (Registration α μ)} {n : String}
    (named : n ∈ calls.map (·.name))
    (room : (calls.map (·.name)).toFinset.card ≤ ScannerSet.capacity)
    (declines : ∀ x ∈ calls, x.name = n → x.scanner.Declines)
    (others : ∀ x ∈ calls, x.name ≠ n → x.scanner.IgnoresId ∧ x.scanner.AbortsInside)
    (joined : ∀ x ∈ calls, x.name = n → ∃ y ∈ calls, y.name ≠ n ∧ y.endpoint = x.endpoint)
    (port : UInt16) {sends : List (Direction × List UInt8)}
    (fits : ({ host := .openOn (.ofRegistry (.ofCalls bound (calls.filter (·.name != n)))) port } :
      Run α μ).FitsWords sends) :
    let without := calls.filter (·.name != n)
    let r := (Host.openOn (.ofRegistry (.ofCalls bound without)) port).run sends
    let r' := (Host.openOn (.ofRegistry (.ofCalls bound calls)) port).run sends
    r'.pieces = r.pieces ∧ (∀ d, r'.host.queue d = r.host.queue d) ∧
      r'.host.session.raised = r.host.session.raised ∧
      (∀ d, (r'.host.session.lane d).status = (r.host.session.lane d).status) ∧
      ∃ k, (Registry.ofCalls bound calls).idOf? n = some k ∧
        (∀ d, (∃ c ∈ r'.calls, c.sight.id = k ∧ c.sight.marks = .ofDirection d) →
          (r'.host.session.lane d).eligible.contains k = false ∧
            (r'.host.session.lane d).slots.get? k = none) ∧
        ∀ (q : Inquiry α μ) (f : Field α μ) (idx : UInt32) (data : List UInt8),
          q.registry = .ofCalls bound calls →
            let g := (Field.contest q idx data f).2
            g.lane.eligible.contains k = false ∧
              ∀ asked, g.calls = asked ++ f.calls → (∃ c ∈ asked, c.sight.id = k) →
                g.lane.slots.get? k = none := by
  have whole : (Registry.ofCalls bound calls).Records calls := Registry.records_ofCalls room
  have without : (Registry.ofCalls bound (calls.filter (·.name != n))).Records _ :=
    Registry.records_ofCalls (Registry.room_without room n)
  obtain ⟨x, inside, same⟩ := List.mem_map.mp named
  obtain ⟨k, known⟩ := whole.known_of_mem inside
  rw [same] at known
  have asked (i : Nat) (s : Scanner α μ)
      (found : (Registry.ofCalls bound (calls.filter (·.name != n))).scanner? i = some s) :
      s.IgnoresId ∧ s.AbortsInside := by
    obtain ⟨y, listed, rfl⟩ := without.exists_call found
    rw [List.mem_filter, bne_iff_ne] at listed
    exact others y listed.1 listed.2
  have adds : (Registry.ofCalls bound (calls.filter (·.name != n))).AddsDecliner k
      (.ofCalls bound calls) :=
    { Registry.adds_ofCalls room known joined with
      declines := fun s found => by
        obtain ⟨y, listed, rfl⟩ := whole.exists_call found
        exact declines y listed (whole.name_eq known found)
      ignores := fun i s found => (asked i s found).1
      inside := fun i s found => (asked i s found).2 }
  obtain ⟨scanner, added⟩ := Option.isSome_iff_exists.mp adds.added
  intro _ r r'
  have spares : r.Spares k r' := (Run.spares_openOn adds port).sendAll fits
  have barred : r'.host.session.Barred k r'.calls :=
    Run.barred_sendAll (r := { host := .openOn (.ofRegistry (.ofCalls bound calls)) port }) added
      (adds.declines scanner added) (fun _ ⟨_, made, _⟩ => (List.not_mem_nil made).elim) sends
  refine ⟨spares.pieces, spares.queue, spares.session.raised,
    fun d => (spares.session.lane d).status, k, known,
    fun d own => ⟨barred d own, (spares.session.lane d).slots.spare⟩, fun q f idx data same => ?_⟩
  exact Field.contest_declined (same ▸ added) (adds.declines scanner added) idx data

/-- A scanner that counts its calls in its cell and gives up, registered between one for counted
records, which gives up on text, and one for lines. -/
theorem run_transparent_quitter :
    let quitter : Scanner Memo Tally :=
      Script.scanner "quitter" { rest := { verdict := .abort, own := some .count } }
    let calls : List (Registration Memo Tally) :=
      [{ endpoint := ⟨7, .toServer⟩, scanner := Counted.scanner "records" {} },
        { endpoint := ⟨7, .toServer⟩, scanner := quitter, auto := true },
        { endpoint := ⟨7, .toServer⟩, scanner := Delimiter.scanner "lines" 0x0a {} }]
    let sends := [(Direction.toServer, "a\nb".toUTF8.toList), (.toServer, "c\n".toUTF8.toList)]
    let without := calls.filter (·.name != "quitter")
    let r := (Host.openOn (.ofRegistry (.ofCalls 0 without)) 7).run sends
    let r' := (Host.openOn (.ofRegistry (.ofCalls 0 calls)) 7).run sends
    (r'.calls.map (·.sight.id)).take 3 = [0, 1, 2] ∧ r'.pieces = r.pieces ∧
      (r.pieces .toServer).map Piece.bytes = ["a\n".toUTF8.toList, "bc\n".toUTF8.toList] ∧
      (r'.host.session.lane .toServer).eligible.contains 1 = false ∧
      (r'.host.session.lane .toServer).slots.get? 1 = none := by
  intro quitter calls sends without r r'
  have gives_up : quitter.Declines := fun _ _ _ => ⟨rfl, rfl, rfl, rfl⟩
  have records : (Counted.scanner "records" {} : Scanner Memo Tally).IgnoresId ∧
      (Counted.scanner "records" {} : Scanner Memo Tally).AbortsInside :=
    ⟨Counted.ignoresId_scanner _ _, Counted.abortsInside_scanner _ _⟩
  have lines : (Delimiter.scanner "lines" 0x0a {} : Scanner Memo Tally).IgnoresId ∧
      (Delimiter.scanner "lines" 0x0a {} : Scanner Memo Tally).AbortsInside :=
    ⟨Delimiter.ignoresId_scanner _ _ _, Delimiter.abortsInside_scanner _ _ _⟩
  have others : ∀ x ∈ calls, x.name ≠ "quitter" →
      x.scanner.IgnoresId ∧ x.scanner.AbortsInside := by
    simp only [calls, List.forall_mem_cons]
    exact ⟨fun _ => records, fun other => absurd rfl other, fun _ => lines,
      List.forall_mem_nil _⟩
  have declines : ∀ x ∈ calls, x.name = "quitter" → x.scanner.Declines := by
    simp only [calls, List.forall_mem_cons]
    exact ⟨fun same => absurd same (by decide), fun _ => gives_up,
      fun same => absurd same (by decide), List.forall_mem_nil _⟩
  have joined : ∀ x ∈ calls, x.name = "quitter" →
      ∃ y ∈ calls, y.name ≠ "quitter" ∧ y.endpoint = x.endpoint := by
    simp only [calls, List.forall_mem_cons]
    have first := List.mem_cons_self (a := calls.head (by decide)) (l := calls.tail)
    exact ⟨fun _ => ⟨_, first, by decide, rfl⟩, fun _ => ⟨_, first, by decide, rfl⟩,
      fun _ => ⟨_, first, by decide, rfl⟩, List.forall_mem_nil _⟩
  have fits : ({ host := .openOn (.ofRegistry (.ofCalls 0 without)) 7 } :
      Run Memo Tally).FitsWords sends := by
    refine ⟨?_, ?_, trivial⟩ <;> decide +kernel
  obtain ⟨pieces, -, -, -, k, known, barred, -⟩ :=
    run_transparent 0 (by decide) (by decide) declines others joined 7 fits
  obtain rfl : 1 = k := Option.some.inj (Eq.trans (by decide +kernel) known)
  obtain ⟨out, cleared⟩ := barred .toServer (by decide +kernel)
  exact ⟨by decide +kernel, pieces, by decide +kernel, out, cleared⟩

/-- A scanner that declines is seen where there is no room for it: where a queue grows longer than
its size can be stated, so that a scanner gives up inside its window and yet behind the stated end,
and where it takes the last id from another scanner. -/
theorem run_opaque_without_room :
    let quitter : Scanner Memo Tally := Script.scanner "quitter" { rest := { verdict := .abort } }
    let late : Scanner Memo Tally :=
      { name := "late"
        memory := {}
        scan := fun memory sight window =>
          match window with
          | _ :: _ :: _ :: _ => .plain memory sight .abort 3
          | _ => .plain memory sight .search 0 }
    let lines : Scanner Memo Tally := Delimiter.scanner "lines" 0x0a {}
    let idle := ["1", "2", "3", "4", "5", "6", "7"].map (Script.scanner · {})
    let pieces (bound : UInt32) (scanners : List (Scanner Memo Tally)) (bytes : List UInt8) :=
      let calls := scanners.map fun scanner => { endpoint := ⟨7, .toServer⟩, scanner }
      ((Host.openOn (.ofRegistry (.ofCalls bound calls)) 7).run [(.toServer, bytes)]).pieces
        .toServer
    let bytes := List.replicate (2 ^ 32 + 2) 0
    let line := "a\n".toUTF8.toList
    quitter.Declines ∧ (∀ s ∈ late :: lines :: idle, s.IgnoresId ∧ s.AbortsInside) ∧
      pieces 1 [late, quitter] bytes ≠ pieces 1 [late] bytes ∧
      pieces 0 (quitter :: (idle ++ [lines])) line ≠ pieces 0 (idle ++ [lines]) line := by
  intro quitter late lines idle pieces bytes line
  have declines : quitter.Declines := fun _ _ _ => ⟨rfl, rfl, rfl, rfl⟩
  have others : ∀ s ∈ late :: lines :: idle, s.IgnoresId ∧ s.AbortsInside := by
    have silent (name : String) : (Script.scanner name {} : Scanner Memo Tally).IgnoresId ∧
        (Script.scanner name {} : Scanner Memo Tally).AbortsInside :=
      ⟨fun _ _ _ _ => rfl, fun _ _ _ wrong => by cases wrong⟩
    refine List.forall_mem_cons.mpr ⟨⟨fun _ _ _ window => ?_, fun _ _ window => ?_⟩, ?_⟩
    · match window with
      | [] | [_] | [_, _] | _ :: _ :: _ :: _ => rfl
    · match window with
      | [] | [_] | [_, _] => exact fun wrong => by cases wrong
      | _ :: _ :: _ :: rest => exact fun _ => Nat.le_add_left 3 rest.length
    · refine List.forall_mem_cons.mpr
        ⟨⟨Delimiter.ignoresId_scanner _ _ _, Delimiter.abortsInside_scanner _ _ _⟩, ?_⟩
      exact List.forall_mem_map.mpr fun name _ => silent name
  refine ⟨declines, others, ?_, by decide +kernel⟩
  -- The bytes stay opaque from here on: only their number and the first three count.
  have long : bytes.length = 2 ^ 32 + 2 := List.length_replicate
  clear_value bytes
  obtain ⟨a, b, c, rest, rfl⟩ : ∃ a b c rest, bytes = a :: b :: c :: rest := by
    match bytes, long with
    | a :: b :: c :: rest, _ => exact ⟨a, b, c, rest, rfl⟩
  have stated : (a :: b :: c :: rest).length.toUInt32 = 2 := by rw [long]; decide
  let host (scanners : List (Scanner Memo Tally)) : Host Memo Tally :=
    .openOn (.ofRegistry (.ofCalls 1
      (scanners.map fun scanner => { endpoint := ⟨7, .toServer⟩, scanner }))) 7
  let segment : Segment :=
    { data := a :: b :: c :: rest, queued := 2, seq := 0, marks := .ofDirection .toServer }
  have uncut (scanners : List (Scanner Memo Tally)) :
      pieces 1 scanners (a :: b :: c :: rest) = [] ↔
        ((host scanners).engine.check (host scanners).session .toServer segment).length = 0 := by
    let p := (host scanners).presentation .toServer (a :: b :: c :: rest)
    have presented : p.segment .toServer = segment := by
      have total : (0 + (a :: b :: c :: rest).length).toUInt32 = 2 := by rw [Nat.zero_add, stated]
      exact congrArg (fun queued => { segment with queued }) total
    rw [← presented]
    exact p.pieces_cutting_eq_nil_iff (List.cons_ne_nil _ _)
  have queued : 0 < segment.queued := by show (0 : UInt32) < 2; decide
  have whole : Length.sub segment.queued segment.data.length.toUInt32 = 0 := by
    show Length.sub 2 (a :: b :: c :: rest).length.toUInt32 = 0
    rw [stated]
    decide
  let opening (scanners : List (Scanner Memo Tally)) : Field Memo Tally :=
    (host scanners).engine.opening (host scanners).session .toServer
      { (host scanners).session.lane .toServer with status := .search } segment.data.length
  let inquiry (scanners : List (Scanner Memo Tally)) : Inquiry Memo Tally :=
    (host scanners).engine.inquiry .toServer segment
  have cut : pieces 1 [late] (a :: b :: c :: rest) ≠ [] := by
    let eligible := ((host [late]).session.lane .toServer).eligible
    have ids : eligible.ids = [0] := by decide
    have nobody : (eligible.erase 0).isEmpty = true := by decide
    have raced : Field.race (inquiry [late]) ⟨0, segment.data⟩ [0] .search (opening [late]) = _ :=
      Field.race_of_abort (s := late) rfl rfl
    rw [ne_eq, uncut, Engine.length_of_lost rfl queued whole nobody (ids.symm ▸ raced)]
    show ¬ ((3 : UInt32) ≤ 2 ∨ (2 : UInt32) ≤ Length.add 1 0)
    decide
  have held : pieces 1 [late, quitter] (a :: b :: c :: rest) = [] := by
    let eligible := ((host [late, quitter]).session.lane .toServer).eligible
    have ids : eligible.ids = [0, 1] := by decide
    have nobody : ((eligible.erase 0).erase 1).isEmpty = true := by decide
    have first : Field.race (inquiry [late, quitter]) ⟨0, segment.data⟩ [0, 1] .search
        (opening [late, quitter]) = _ := Field.race_of_abort (s := late) rfl rfl
    have raced := first.trans (Field.race_of_abort (s := quitter) rfl rfl)
    rw [uncut, Engine.length_of_lost rfl queued whole nobody (ids.symm ▸ raced)]
    exact .inl (by show (0 : UInt32) ≤ 2; decide)
  rw [held]
  exact cut.symm

end StreamFraming
