import StreamFraming.Catalogue
import StreamFraming.Proofs.Evaluations
import StreamFraming.Proofs.Run

/-!
# Host and engine in lockstep

A host presents the bytes of a direction in order and without gaps, and its engine knows at any time
which of them are queued (`Lane.InStep`). So a segment is never taken for one that leaves a gap or
comes again, a cut never asks for more than there is, and no byte is lost (`run_inStep`). This holds
for scanners that answer as they like.
-/

namespace StreamFraming

namespace Serial

theorem after_self (a : UInt32) : after a a = false := by
  simp [after, atOrBefore]

theorem before_self (a : UInt32) : before a a = false := by
  rw [before, UInt32.sub_self]
  decide

theorem atOrBefore_ahead (a : UInt32) {n : UInt32} (positive : n ≠ 0) (near : n.toNat < 2 ^ 31) :
    atOrBefore (a + n) a = false := by
  have moved : (a + n == a) = false := by
    rw [beq_eq_false_iff_ne]
    intro same
    apply positive
    have cancelled : a + n = a + 0 := by rw [same, UInt32.add_zero]
    exact (UInt32.add_right_inj a).mp cancelled
  have forward : before (a + n) a = false := by
    have step : a + n - a = n := by
      have shifted := sub_add_right n 0 a
      rw [UInt32.zero_add, UInt32.sub_zero, UInt32.add_comm] at shifted
      exact shifted
    rw [before, step]
    simp only [decide_eq_false_iff_not, UInt32.le_iff_toNat_le, halfCircle]
    have half : (0x80000000 : UInt32).toNat = 2 ^ 31 := rfl
    omega
  rw [atOrBefore, moved, forward]
  rfl

end Serial

namespace Lane

variable {α : Type}

/-- The lane knows that `size` bytes are queued from `seq` on. -/
structure InStep (l : Lane α) (size : Nat) (seq : UInt32) : Prop where
  untouched : l.status = .start → size = 0
  origin : l.status ≠ .start → l.origin = seq
  expected : l.status ≠ .start → l.expected = seq + size.toUInt32

variable {l : Lane α} {size : Nat} {seq : UInt32}

theorem InStep.of_place (origin : l.origin = seq) (expected : l.expected = seq + size.toUInt32)
    (started : l.status ≠ .start) : l.InStep size seq :=
  ⟨fun start => absurd start started, fun _ => origin, fun _ => expected⟩

theorem InStep.in_order (inStep : l.InStep size seq) (ongoing : l.status ≠ .start)
    {data : List UInt8} (nonempty : data ≠ []) (small : data.length < 2 ^ 31) :
    Serial.after (seq + size.toUInt32) l.expected = false ∧
      Serial.atOrBefore (seq + size.toUInt32 + Length.ofNat data.length) l.expected = false ∧
      Serial.before (seq + size.toUInt32) l.expected = false := by
  have positive : 0 < data.length := List.length_pos_iff.mpr nonempty
  have length : (Length.ofNat data.length).toNat = data.length := by
    rw [Length.toNat_ofNat]
    omega
  have few : Length.ofNat data.length ≠ 0 := by
    intro zero
    rw [zero] at length
    have nought : (0 : UInt32).toNat = 0 := rfl
    omega
  rw [inStep.expected ongoing]
  exact ⟨Serial.after_self _, Serial.atOrBefore_ahead _ few (by omega), Serial.before_self _⟩

theorem InStep.arrival_eq (inStep : l.InStep size seq) {data : List UInt8} (nonempty : data ≠ [])
    (small : data.length < 2 ^ 31) :
    l.arrival (seq + size.toUInt32) data =
      .fresh { l with
        status := l.status.begun, origin := seq, expected := seq + size.toUInt32 } data := by
  by_cases start : l.status = .start
  · have nothing : seq + (0 : Nat).toUInt32 = seq := UInt32.add_zero seq
    rw [inStep.untouched start, nothing, arrival, if_pos start, start]
    rfl
  · obtain ⟨noGap, notStale, noOverlap⟩ := inStep.in_order start nonempty small
    have place : { l with
        status := l.status.begun, origin := seq, expected := seq + size.toUInt32 } = l := by
      rw [Status.begun_of_ne_start start, ← inStep.expected start, ← inStep.origin start]
    rw [place, arrival, if_neg start, noGap, notStale, noOverlap]
    rfl

end Lane

/-! ### The checks that a host makes -/

/-- A check as a host makes it: the bytes `fresh` behind those that wait in the queue. -/
structure Presentation (α μ : Type) where
  engine : Engine α μ
  session : Session α
  queue : Queue
  fresh : List UInt8

namespace Presentation

variable {α μ : Type} (d : Direction) (p : Presentation α μ)

def size : Nat := p.queue.size + p.fresh.length

def bytes : List UInt8 := p.queue.bytes ++ p.fresh

@[simp] theorem length_bytes : p.bytes.length = p.size := by
  simp [bytes, size]

def segment : Segment where
  data := p.fresh
  queued := p.size.toUInt32
  seq := p.queue.seq + p.queue.size.toUInt32
  marks := .ofDirection d

def reply : Reply α μ := p.engine.check p.session d (p.segment d)

/-- The lane that takes the bytes, right behind those that are queued. -/
def arrived : Lane α :=
  { p.session.lane d with
    status := (p.session.lane d).status.begun
    origin := p.queue.seq
    expected := p.queue.seq + p.queue.size.toUInt32 }

def opened : Field α μ := p.engine.opening p.session d (p.arrived d) p.fresh.length

def pursuit : Option Cut × Field α μ :=
  Field.pursue (p.engine.inquiry d (p.segment d))
    (Length.sub p.size.toUInt32 p.fresh.length.toUInt32) p.fresh (p.opened d)

def cut : Nat := min (p.reply d).length.toNat p.size

/-- What is presented behind a cut. -/
def next : Presentation α μ where
  engine := (p.reply d).engine
  session := (p.reply d).session
  queue := .empty (p.queue.seq + (p.cut d).toUInt32)
  fresh := p.bytes.drop (p.cut d)

def piece? : Option Piece :=
  if (p.reply d).length = 0 then none
  else some { bytes := p.bytes.take (p.cut d), marks := (p.reply d).marks }

def cutting : Cutting α μ := Host.cutQueue d p.engine p.session p.queue p.fresh

variable {d p}

theorem size_next (more : p.fresh ≠ []) (found : (p.reply d).length ≠ 0) :
    (p.next d).size < p.size := by
  have positive : 0 < p.fresh.length := List.length_pos_iff.mpr more
  have taken : 0 < (p.reply d).length.toNat :=
    Nat.pos_of_ne_zero fun zero => found (UInt32.toNat_inj.mp zero)
  show 0 + (p.bytes.drop (p.cut d)).length < p.size
  rw [List.length_drop, length_bytes, cut]
  have inside : p.size = p.queue.size + p.fresh.length := rfl
  omega

theorem opposite_reply (p : Presentation α μ) (d : Direction) :
    ∃ slots, (p.reply d).session.lane d.opposite =
      { p.session.lane d.opposite with slots } := by
  obtain ⟨-, -, -, kept⟩ := p.engine.check_keeps p.session d (p.segment d)
  exact kept

/-- The checks that cutting the queue makes, in order. -/
def checks (d : Direction) (p : Presentation α μ) : List (Presentation α μ) :=
  if _ : p.fresh = [] then []
  else if _ : (p.reply d).length = 0 then [p]
  else p :: checks d (p.next d)
termination_by p.size
decreasing_by exact size_next ‹_› ‹_›

theorem checks_of_empty (empty : p.fresh = []) : p.checks d = [] := by
  rw [checks, dif_pos empty]

theorem checks_of_held (more : p.fresh ≠ []) (nothing : (p.reply d).length = 0) :
    p.checks d = [p] := by
  rw [checks, dif_neg more, dif_pos nothing]

theorem checks_of_cut (more : p.fresh ≠ []) (found : (p.reply d).length ≠ 0) :
    p.checks d = p :: (p.next d).checks d := by
  rw [checks, dif_neg more, dif_neg found]

theorem cutting_of_empty (empty : p.fresh = []) :
    p.cutting d = { engine := p.engine, session := p.session, queue := p.queue } := by
  rw [cutting, empty]
  unfold Host.cutQueue
  rfl

theorem cutting_of_held (more : p.fresh ≠ []) (nothing : (p.reply d).length = 0) :
    p.cutting d =
      { engine := (p.reply d).engine
        session := (p.reply d).session
        queue := p.queue.hold p.fresh
        calls := (p.reply d).calls } := by
  have nonempty : ¬ p.fresh.isEmpty = true := by simpa using more
  rw [cutting, Host.cutQueue, dif_neg nonempty]
  exact dif_pos nothing

theorem cutting_of_cut (more : p.fresh ≠ []) (found : (p.reply d).length ≠ 0) :
    p.cutting d =
      { (p.next d).cutting d with
        pieces := { bytes := p.bytes.take (p.cut d), marks := (p.reply d).marks } ::
          ((p.next d).cutting d).pieces
        calls := (p.reply d).calls ++ ((p.next d).cutting d).calls } := by
  have nonempty : ¬ p.fresh.isEmpty = true := by simpa using more
  rw [cutting, Host.cutQueue, dif_neg nonempty]
  exact dif_neg found

/-- What holds where nothing is presented and where nothing is cut, and before a cut if it holds
behind it, holds of every presentation. -/
theorem cut_induction {C : Presentation α μ → Prop} (empty : ∀ p, p.fresh = [] → C p)
    (held : ∀ p, p.fresh ≠ [] → (p.reply d).length = 0 → C p)
    (cut : ∀ p, p.fresh ≠ [] → (p.reply d).length ≠ 0 → C (p.next d) → C p)
    (p : Presentation α μ) : C p := by
  fun_induction checks d p with
  | case1 p nothing => exact empty p nothing
  | case2 p more nothing => exact held p more nothing
  | case3 p more found ih => exact cut p more found ih

/-- The checks account for all that cutting a queue does. -/
theorem cutting_eq_checks (p : Presentation α μ) :
    (p.cutting d).pieces = (p.checks d).filterMap (piece? d) ∧
      (p.cutting d).calls = (p.checks d).flatMap fun x => (x.reply d).calls := by
  refine cut_induction (d := d) (C := fun p =>
    (p.cutting d).pieces = (p.checks d).filterMap (piece? d) ∧
      (p.cutting d).calls = (p.checks d).flatMap fun x => (x.reply d).calls)
    (fun p nothing => ?_) (fun p more nothing => ?_) (fun p more found ih => ?_) p
  · rw [cutting_of_empty nothing, checks_of_empty nothing]
    exact ⟨rfl, rfl⟩
  · rw [cutting_of_held more nothing, checks_of_held more nothing]
    simp [piece?, nothing]
  · rw [cutting_of_cut more found, checks_of_cut more found]
    simp [piece?, found, ih.1, ih.2]

/-- What every check keeps, of the engine, the session and the scans so far, is kept. -/
theorem cutting_invariant {J : Engine α μ → Session α → List (Call α μ) → Prop}
    (checked : ∀ e s segment calls, segment.marks = .ofDirection d → J e s calls →
      let r := e.check s d segment
      J r.engine r.session (calls ++ r.calls))
    (p : Presentation α μ) {calls : List (Call α μ)} (h : J p.engine p.session calls) :
    J (p.cutting d).engine (p.cutting d).session (calls ++ (p.cutting d).calls) := by
  revert calls
  refine cut_induction (d := d) (C := fun p => ∀ {calls}, J p.engine p.session calls →
    J (p.cutting d).engine (p.cutting d).session (calls ++ (p.cutting d).calls))
    (fun p nothing calls h => ?_) (fun p more nothing calls h => ?_)
    (fun p more found ih calls h => ?_) p
  · rw [cutting_of_empty nothing, List.append_nil]
    exact h
  · rw [cutting_of_held more nothing]
    exact checked _ _ (p.segment d) _ rfl h
  · rw [cutting_of_cut more found, ← List.append_assoc]
    exact ih (checked _ _ (p.segment d) _ rfl h)

/-- No byte is lost. -/
theorem bytes_cutting (p : Presentation α μ) :
    (p.cutting d).pieces.flatMap Piece.bytes ++ (p.cutting d).queue.bytes = p.bytes := by
  refine cut_induction (d := d)
    (C := fun p => (p.cutting d).pieces.flatMap Piece.bytes ++ (p.cutting d).queue.bytes = p.bytes)
    (fun p nothing => ?_) (fun p more nothing => ?_) (fun p more found ih => ?_) p
  · rw [cutting_of_empty nothing, bytes, nothing, List.append_nil]
    rfl
  · rw [cutting_of_held more nothing]
    simp [bytes]
  · rw [cutting_of_cut more found]
    simp only [List.flatMap_cons, List.append_assoc, ih]
    exact List.take_append_drop (p.cut d) p.bytes

/-! ### Lockstep -/

/-- The check takes none of the ways for a gap, for bytes that were read before and for bytes that
overlap those. -/
def Continues (p : Presentation α μ) (d : Direction) : Prop :=
  let lane := p.session.lane d
  let segment := p.segment d
  lane.status = .start ∨
    Serial.after segment.seq lane.expected = false ∧
      Serial.atOrBefore (segment.seq + Length.ofNat p.fresh.length) lane.expected = false ∧
      Serial.before segment.seq lane.expected = false

/-- The lane knows which bytes are queued, and they are few enough to be counted. -/
structure InStep (p : Presentation α μ) (d : Direction) : Prop where
  lane : (p.session.lane d).InStep p.queue.size p.queue.seq
  small : p.size < 2 ^ 31

namespace InStep

variable (inStep : p.InStep d)

include inStep

theorem continues (more : p.fresh ≠ []) : p.Continues d := by
  have small := inStep.small
  have whole : p.size = p.queue.size + p.fresh.length := rfl
  by_cases start : (p.session.lane d).status = .start
  · exact .inl start
  · exact .inr (inStep.lane.in_order start more (by omega))

/-- The check evaluates all bytes that are presented. -/
theorem reply_eq (more : p.fresh ≠ []) :
    p.reply d = p.engine.evaluate p.session d (p.arrived d) p.fresh (p.segment d) := by
  have small := inStep.small
  have whole : p.size = p.queue.size + p.fresh.length := rfl
  rw [reply, Engine.check]
  simp only [segment, inStep.lane.arrival_eq more (show p.fresh.length < 2 ^ 31 by omega)]
  rfl

theorem toNat_size : p.size.toUInt32.toNat = p.size := by
  have small := inStep.small
  simp only [Nat.toUInt32_eq, UInt32.toNat_ofNat']
  omega

theorem toNat_offset :
    (Length.sub p.size.toUInt32 p.fresh.length.toUInt32).toNat = p.queue.size := by
  have small := inStep.small
  have whole : p.size = p.queue.size + p.fresh.length := rfl
  simp only [Length.toNat_sub, Nat.toUInt32_eq, UInt32.toNat_ofNat']
  omega

theorem offset_lt_size (more : p.fresh ≠ []) :
    Length.sub p.size.toUInt32 p.fresh.length.toUInt32 < p.size.toUInt32 := by
  have positive : 0 < p.fresh.length := List.length_pos_iff.mpr more
  have whole : p.size = p.queue.size + p.fresh.length := rfl
  rw [UInt32.lt_iff_toNat_lt, inStep.toNat_offset, inStep.toNat_size]
  omega

theorem reply_of_pursuit (more : p.fresh ≠ []) {cut? : Option Cut} {g : Field α μ}
    (pursued : p.pursuit d = (cut?, g)) :
    let cut := g.lane.cutIf (Engine.due (p.engine.inquiry d (p.segment d)) (cut?, g))
      p.size.toUInt32 (.ofDirection d)
    (p.reply d).length = cut.1 ∧ (p.reply d).marks = cut.2.1 ∧
      (p.reply d).session.lane d = cut.2.2 ∧
      (p.reply d).session.lane d.opposite = { p.session.lane d.opposite with slots := g.peer } ∧
      (p.reply d).session.raised = p.session.raised ++ g.raised := by
  have pursued : p.engine.pursuit p.session d (p.arrived d) p.fresh (p.segment d) = (cut?, g) :=
    pursued
  rw [inStep.reply_eq more, Engine.lane_evaluate, Engine.opposite_evaluate,
    Engine.raised_evaluate, Engine.evaluate_eq, pursued]
  exact ⟨rfl, rfl, rfl, rfl, rfl⟩

theorem reply_of_wait (more : p.fresh ≠ []) {g : Field α μ} (pursued : p.pursuit d = (none, g))
    (below : p.size ≤ p.engine.registry.maxFlushPoint.toNat) : (p.reply d).length = 0 := by
  have within : ¬ (p.engine.inquiry d (p.segment d)).limit < p.size.toUInt32 := by
    have limit : (p.engine.inquiry d (p.segment d)).limit =
        Length.add p.engine.registry.maxFlushPoint 0 := rfl
    have bound := p.engine.registry.maxFlushPoint.toNat_lt
    rw [UInt32.lt_iff_toNat_lt, limit, Length.toNat_add, inStep.toNat_size, UInt32.toNat_zero]
    omega
  have undue : Engine.due (p.engine.inquiry d (p.segment d)) (none, g) = none :=
    if_neg fun long => within long.2
  rw [(inStep.reply_of_pursuit more pursued).1, undue]
  rfl

theorem reply_of_abort (more : p.fresh ≠ []) {g : Field α μ}
    (pursued : p.pursuit d = (some .abort, g)) : (p.reply d).length = 0 :=
  (inStep.reply_of_pursuit more pursued).1

/-- A message that ends with the queue is cut off as a whole. -/
theorem reply_of_boundary (more : p.fresh ≠ []) {g : Field α μ}
    (pursued : p.pursuit d = (some .boundary, g)) (target : g.lane.target = p.size.toUInt32) :
    (p.reply d).length = p.size.toUInt32 ∧ (p.reply d).marks.tail = true := by
  have positive : 0 < p.fresh.length := List.length_pos_iff.mpr more
  have whole : p.size = p.queue.size + p.fresh.length := rfl
  have small := inStep.small
  have total := inStep.toNat_size
  have nonempty : p.size.toUInt32 ≠ 0 := by
    rw [ne_eq, ← UInt32.toNat_inj, total, UInt32.toNat_zero]
    omega
  have cut := Lane.cut_boundary (l := g.lane) (.ofDirection d) (target ▸ nonempty) nonempty
    (by rw [target, total]; exact small)
  obtain ⟨length, marks, -⟩ := inStep.reply_of_pursuit more pursued
  rw [show Engine.due _ (some .boundary, g) = some .boundary from rfl, Lane.cutIf] at length marks
  simp only [cut] at length marks
  exact ⟨length.trans target, by rw [marks]⟩

theorem cutting_of_whole (more : p.fresh ≠ []) (length : (p.reply d).length = p.size.toUInt32) :
    p.cutting d =
      { engine := (p.reply d).engine
        session := (p.reply d).session
        queue := .empty (p.queue.seq + p.size.toUInt32)
        pieces := [{ bytes := p.bytes, marks := (p.reply d).marks }]
        calls := (p.reply d).calls } := by
  have positive : 0 < p.fresh.length := List.length_pos_iff.mpr more
  have whole : p.size = p.queue.size + p.fresh.length := rfl
  have total := inStep.toNat_size
  have found : (p.reply d).length ≠ 0 := by
    rw [length, ne_eq, ← UInt32.toNat_inj, total, UInt32.toNat_zero]
    omega
  have everything : p.cut d = p.size := by
    rw [Presentation.cut, length, total, Nat.min_self]
  have rest : (p.next d).fresh = [] := by
    show p.bytes.drop (p.cut d) = []
    rw [everything, ← length_bytes, List.drop_length]
  rw [cutting_of_cut more found, cutting_of_empty rest]
  simp only [Presentation.next, everything, List.append_nil]
  rw [← length_bytes, List.take_length]

theorem length_reply (more : p.fresh ≠ []) : (p.reply d).length.toNat ≤ p.size := by
  have inside : (p.reply d).length ≤ p.size.toUInt32 := by
    rw [inStep.reply_eq more]
    exact Engine.length_evaluate ..
  rwa [UInt32.le_iff_toNat_le, inStep.toNat_size] at inside

theorem status_reply (more : p.fresh ≠ []) : ((p.reply d).session.lane d).status ≠ .start := by
  rw [inStep.reply_eq more]
  exact Engine.status_evaluate _ _ _ _ _ (Status.begun_ne_start _)

theorem held (more : p.fresh ≠ []) (nothing : (p.reply d).length = 0) :
    ((p.reply d).session.lane d).InStep (p.queue.hold p.fresh).size (p.queue.hold p.fresh).seq := by
  have small := inStep.small
  have whole : p.size = p.queue.size + p.fresh.length := rfl
  have started := inStep.status_reply more
  rw [inStep.reply_eq more] at nothing started ⊢
  obtain ⟨origin, expected⟩ := (Engine.evaluate_place p.engine p.session d _ p.fresh _).1 nothing
  refine .of_place origin (expected.trans ?_) started
  show p.queue.seq + p.queue.size.toUInt32 + _ = p.queue.seq + (p.queue.size + _).toUInt32
  rw [UInt32.add_assoc]
  congr 1
  apply UInt32.toNat_inj.mp
  simp only [UInt32.toNat_add, Nat.toUInt32_eq, UInt32.toNat_ofNat']
  omega

theorem next (more : p.fresh ≠ []) (found : (p.reply d).length ≠ 0) : (p.next d).InStep d := by
  have small := inStep.small
  have inside := inStep.length_reply more
  have started := inStep.status_reply more
  have cut : (p.cut d).toUInt32 = (p.reply d).length := by
    apply UInt32.toNat_inj.mp
    simp only [Presentation.cut, Nat.toUInt32_eq, UInt32.toNat_ofNat']
    omega
  refine ⟨?_, Nat.lt_trans (size_next more found) small⟩
  show ((p.reply d).session.lane d).InStep 0 (p.queue.seq + (p.cut d).toUInt32)
  rw [cut]
  have reply := inStep.reply_eq more
  rw [reply] at found
  have place := (Engine.evaluate_place p.engine p.session d _ p.fresh _).2 found
  rw [← reply] at place
  exact .of_place place.1 (place.2.trans (UInt32.add_zero _).symm) started

omit inStep

theorem checks (inStep : p.InStep d) :
    ∀ x ∈ p.checks d, (x.reply d).length.toNat ≤ x.size ∧ x.Continues d := by
  have first {p : Presentation α μ} (inStep : p.InStep d) (more : p.fresh ≠ []) :=
    And.intro (inStep.length_reply more) (inStep.continues more)
  revert inStep
  refine cut_induction (d := d) (C := fun p => p.InStep d →
    ∀ x ∈ p.checks d, (x.reply d).length.toNat ≤ x.size ∧ x.Continues d)
    (fun p nothing _ => ?_) (fun p more nothing inStep => ?_)
    (fun p more found ih inStep => ?_) p
  · rw [checks_of_empty nothing]
    nofun
  · rw [checks_of_held more nothing]
    exact List.forall_mem_singleton.mpr (first inStep more)
  · rw [checks_of_cut more found]
    exact List.forall_mem_cons.mpr ⟨first inStep more, ih (inStep.next more found)⟩

/-- Cutting a queue leaves its lane in step, and of the opposite lane all but the cells. -/
theorem cutting (inStep : p.InStep d) :
    let c := p.cutting d
    (c.session.lane d).InStep c.queue.size c.queue.seq ∧
      ((p.session.lane d).status ≠ .start ∨ p.fresh ≠ [] →
        (c.session.lane d).status ≠ .start) ∧
      ∃ slots, c.session.lane d.opposite = { p.session.lane d.opposite with slots } := by
  revert inStep
  refine cut_induction (d := d) (C := fun p => p.InStep d →
    let c := p.cutting d
    (c.session.lane d).InStep c.queue.size c.queue.seq ∧
      ((p.session.lane d).status ≠ .start ∨ p.fresh ≠ [] →
        (c.session.lane d).status ≠ .start) ∧
      ∃ slots, c.session.lane d.opposite = { p.session.lane d.opposite with slots })
    (fun p nothing inStep => ?_) (fun p more nothing inStep => ?_)
    (fun p more found ih inStep => ?_) p
  · rw [cutting_of_empty nothing]
    refine ⟨inStep.lane, fun started => ?_, _, rfl⟩
    exact started.resolve_right fun more => more nothing
  · rw [cutting_of_held more nothing]
    exact ⟨inStep.held more nothing, fun _ => inStep.status_reply more,
      p.opposite_reply d⟩
  · rw [cutting_of_cut more found]
    obtain ⟨lane, started, slots, opposite⟩ := ih (inStep.next more found)
    obtain ⟨_, first⟩ := p.opposite_reply d
    refine ⟨lane, fun _ => started (.inl (inStep.status_reply more)), slots, ?_⟩
    rw [opposite]
    show { (p.reply d).session.lane d.opposite with slots } = _
    rw [first]

end InStep

end Presentation

namespace Host

variable {α μ : Type}

/-- The first check that sending bytes makes, if there are any. -/
def presentation (h : Host α μ) (d : Direction) (bytes : List UInt8) : Presentation α μ where
  engine := h.engine
  session := h.session
  queue := h.queue d
  fresh := bytes

/-- The checks that sending bytes makes, in order. -/
def checks (h : Host α μ) (d : Direction) (bytes : List UInt8) : List (Presentation α μ) :=
  (h.presentation d bytes).checks d

end Host

/-! ### Runs -/

namespace Run

variable {α μ : Type}

/-- No queue comes to hold `2 ^ 31` bytes. -/
def Fits (r : Run α μ) : List (Direction × List UInt8) → Prop
  | [] => True
  | x :: sends => (r.host.queue x.1).size + x.2.length < 2 ^ 31 ∧ (r.send x.1 x.2).Fits sends

theorem fits_append {r : Run α μ} {a b : List (Direction × List UInt8)} :
    r.Fits (a ++ b) ↔ r.Fits a ∧ (r.sendAll a).Fits b := by
  induction a generalizing r with
  | nil => simp [Fits]
  | cons x a ih => simp [Fits, ih, and_assoc]

theorem send_eq (r : Run α μ) (d : Direction) (bytes : List UInt8) :
    let c := (r.host.presentation d bytes).cutting d
    (r.send d bytes).host.engine = c.engine ∧ (r.send d bytes).host.session = c.session ∧
      (r.send d bytes).host.queue d = c.queue ∧
      (r.send d bytes).host.queue d.opposite = r.host.queue d.opposite ∧
      (r.send d bytes).pieces d = r.pieces d ++ c.pieces ∧
      (r.send d bytes).pieces d.opposite = r.pieces d.opposite ∧
      (r.send d bytes).calls = r.calls ++ c.calls := by
  cases d <;> exact ⟨rfl, rfl, rfl, rfl, rfl, rfl, rfl⟩

theorem send_nil (r : Run α μ) (d : Direction) : r.send d [] = r := by
  have nothing : Host.cutQueue d r.host.engine r.host.session (r.host.queue d) [] =
      { engine := r.host.engine, session := r.host.session, queue := r.host.queue d } :=
    Presentation.cutting_of_empty (p := r.host.presentation d []) rfl
  rw [send, Host.send, nothing]
  cases d <;> simp [Host.setQueue, Host.queue]

theorem registry_send (r : Run α μ) (d : Direction) (bytes : List UInt8) :
    (r.send d bytes).host.engine.registry = r.host.engine.registry := by
  rw [(r.send_eq d bytes).1]
  exact @Presentation.cutting_invariant α μ d
    (fun e _ _ => e.registry = r.host.engine.registry)
    (fun e s segment _ _ kept => (e.check_keeps s d segment).1.trans kept)
    (r.host.presentation d bytes) [] rfl

theorem registry_sendAll (r : Run α μ) (sends : List (Direction × List UInt8)) :
    (r.sendAll sends).host.engine.registry = r.host.engine.registry := by
  induction sends generalizing r with
  | nil => rfl
  | cons x sends ih => exact (ih _).trans (r.registry_send x.1 x.2)

theorem lane_send {r : Run α μ} {d : Direction} {bytes : List UInt8}
    (lane : (r.host.session.lane d).InStep (r.host.queue d).size (r.host.queue d).seq)
    (small : (r.host.queue d).size + bytes.length < 2 ^ 31) :
    ((r.send d bytes).host.session.lane d).InStep ((r.send d bytes).host.queue d).size
      ((r.send d bytes).host.queue d).seq := by
  have inStep : (r.host.presentation d bytes).InStep d := ⟨lane, small⟩
  obtain ⟨-, session, queue, -⟩ := r.send_eq d bytes
  rw [session, queue]
  exact inStep.cutting.1

/-- What a run was sent is in its pieces and queues, and its lanes know of it. -/
structure InStep (r : Run α μ) (sent : List (Direction × List UInt8)) : Prop where
  bytes : ∀ d, (r.pieces d).flatMap Piece.bytes ++ (r.host.queue d).bytes = stream sent d
  lane : ∀ d, (r.host.session.lane d).InStep (r.host.queue d).size (r.host.queue d).seq
  started : ∀ d, stream sent d ≠ [] → (r.host.session.lane d).status ≠ .start

variable {r : Run α μ} {sent : List (Direction × List UInt8)} {d : Direction} {bytes : List UInt8}

theorem InStep.presentation (inStep : r.InStep sent)
    (small : (r.host.queue d).size + bytes.length < 2 ^ 31) :
    (r.host.presentation d bytes).InStep d :=
  ⟨inStep.lane d, small⟩

theorem InStep.send (inStep : r.InStep sent)
    (small : (r.host.queue d).size + bytes.length < 2 ^ 31) :
    (r.send d bytes).InStep (sent ++ [(d, bytes)]) := by
  have kept := Presentation.bytes_cutting (d := d) (r.host.presentation d bytes)
  obtain ⟨lane, started, slots, opposite⟩ := (inStep.presentation small).cutting
  have sent_self : stream (sent ++ [(d, bytes)]) d = stream sent d ++ bytes := by
    simp [stream]
  have sent_opposite : stream (sent ++ [(d, bytes)]) d.opposite = stream sent d.opposite := by
    simp [stream, (Direction.opposite_ne d).symm]
  obtain ⟨-, session, queue, other, pieces, pieces', -⟩ := r.send_eq d bytes
  have both {P : Direction → Prop} (one : P d) (two : P d.opposite) (e : Direction) : P e := by
    by_cases same : e = d
    · rwa [same]
    · rwa [Direction.eq_opposite_of_ne same]
  refine ⟨both ?_ ?_, both ?_ ?_, both ?_ ?_⟩
  · rw [pieces, queue, sent_self, ← inStep.bytes d, List.flatMap_append, List.append_assoc,
      List.append_assoc, kept]
    rfl
  · rw [pieces', other, sent_opposite]
    exact inStep.bytes d.opposite
  · rw [session, queue]
    exact lane
  · rw [session, other, opposite]
    have before := inStep.lane d.opposite
    exact ⟨before.untouched, before.origin, before.expected⟩
  · rw [session, sent_self]
    intro nonempty
    apply started
    by_cases first : stream sent d = []
    · rw [first, List.nil_append] at nonempty
      exact .inr nonempty
    · exact .inl (inStep.started d first)
  · rw [session, sent_opposite, opposite]
    exact inStep.started d.opposite

theorem InStep.sendAll (inStep : r.InStep sent) {sends : List (Direction × List UInt8)}
    (fits : r.Fits sends) : (r.sendAll sends).InStep (sent ++ sends) := by
  induction sends generalizing r sent with
  | nil => simpa using inStep
  | cons x sends ih =>
    have later := ih (inStep.send fits.1) fits.2
    rw [List.append_assoc] at later
    exact later

/-- Streams below `2 ^ 31` bytes fit. -/
theorem InStep.fits (inStep : r.InStep sent) {sends : List (Direction × List UInt8)}
    (short : ∀ d, (stream (sent ++ sends) d).length < 2 ^ 31) : r.Fits sends := by
  induction sends generalizing r sent with
  | nil => trivial
  | cons x sends ih =>
    have kept := congrArg List.length (inStep.bytes x.1)
    have whole := short x.1
    rw [List.length_append, Queue.length_bytes] at kept
    rw [stream_append, stream_cons, if_pos rfl, List.length_append, List.length_append] at whole
    have small : (r.host.queue x.1).size + x.2.length < 2 ^ 31 := by omega
    refine ⟨small, ih (inStep.send small) fun d => ?_⟩
    rw [List.append_assoc]
    exact short d

theorem inStep_openOn (e : Engine α μ) (port : UInt16) :
    ({ host := .openOn e port } : Run α μ).InStep [] := by
  refine ⟨fun d => ?_, fun d => ?_, fun _ nonempty => absurd rfl nonempty⟩
  · cases d <;> rfl
  · refine ⟨fun _ => ?_, fun started => ?_, fun started => ?_⟩
    · cases d <;> rfl
    · cases d <;> exact absurd rfl started
    · cases d <;> exact absurd rfl started

end Run

/-- Whatever the scanners answer, no byte is lost, and the engine knows at any time which bytes are
queued. What sending bytes cuts off and which scans it makes are those of the checks that it makes
in turn (`Host.checks`), and each of them continues where the last one ended and cuts no more than
there is. -/
theorem run_inStep {α μ : Type} (e : Engine α μ) (port : UInt16)
    (sends : List (Direction × List UInt8))
    (fits : ({ host := .openOn e port } : Run α μ).Fits sends) :
    (∀ before, before <+: sends →
      let r := (Host.openOn e port).run before
      ∀ d, (r.pieces d).flatMap Piece.bytes ++ (r.host.queue d).bytes = stream before d ∧
        (stream before d ≠ [] →
          (r.host.session.lane d).origin = (r.host.queue d).seq ∧
            (r.host.session.lane d).expected =
              (r.host.queue d).seq + (r.host.queue d).size.toUInt32)) ∧
    ∀ before d bytes, before ++ [(d, bytes)] <+: sends →
      let h := ((Host.openOn e port).run before).host
      (h.send d bytes).1.pieces = (h.checks d bytes).filterMap (·.piece? d) ∧
        (h.send d bytes).1.calls = (h.checks d bytes).flatMap (fun p => (p.reply d).calls) ∧
        ∀ p ∈ h.checks d bytes, (p.reply d).length.toNat ≤ p.size ∧ p.Continues d := by
  have reached {before : List (Direction × List UInt8)} (first : before <+: sends) :
      ((Host.openOn e port).run before).InStep before := by
    obtain ⟨after, rfl⟩ := first
    exact (Run.inStep_openOn e port).sendAll (Run.fits_append.mp fits).1
  constructor
  · intro before first r d
    have inStep := reached first
    refine ⟨inStep.bytes d, fun sent => ?_⟩
    have started := inStep.started d sent
    exact ⟨(inStep.lane d).origin started, (inStep.lane d).expected started⟩
  · intro before d bytes first h
    have inStep := reached ((List.prefix_append before _).trans first)
    obtain ⟨after, rfl⟩ := first
    have small := (Run.fits_append.mp (Run.fits_append.mp fits).1).2.1
    obtain ⟨pieces, calls⟩ := (h.presentation d bytes).cutting_eq_checks
    exact ⟨pieces, calls, (inStep.presentation small).checks⟩

/-- A line, and a line that grows past a bound of four bytes before it ends. The second send makes
one check, which cuts off what the first send left with what the second one brought. -/
theorem run_inStep_lines :
    let lines : Scanner Memo Tally := Delimiter.scanner "lines" 0x0a {}
    let registry : Registry Memo Tally :=
      { scanners := [lines]
        bindings := [(⟨7, .toServer⟩, { scanners := .singleton 0 })]
        maxFlushPoint := 4 }
    let first := (Direction.toServer, "a\nbcd".toUTF8.toList)
    let sends := [first, (.toServer, "efg".toUTF8.toList), (.toServer, "h".toUTF8.toList)]
    let start : Host Memo Tally := .openOn (.ofRegistry registry) 7
    let r := start.run sends
    let h := (start.run [first]).host
    let checks := h.checks .toServer "efg".toUTF8.toList
    (r.pieces .toServer).map Piece.bytes = ["a\n".toUTF8.toList, "bcdefg".toUTF8.toList] ∧
      (r.pieces .toServer).flatMap Piece.bytes ++ (r.host.queue .toServer).bytes =
        stream sends .toServer ∧
      (r.host.session.lane .toServer).origin = (r.host.queue .toServer).seq ∧
      (r.host.session.lane .toServer).expected = (r.host.queue .toServer).seq + 1 ∧
      checks.map (fun p => ((p.reply .toServer).length, p.size)) = [(6, 6)] ∧
      (h.send .toServer "efg".toUTF8.toList).1.pieces = checks.filterMap (·.piece? .toServer) ∧
      ∀ p ∈ checks, (p.reply .toServer).length.toNat ≤ p.size ∧ p.Continues .toServer := by
  intro lines registry first sends start r h checks
  have fits : ({ host := start } : Run Memo Tally).Fits sends := by
    refine ⟨?_, ?_, ?_, trivial⟩ <;> decide +kernel
  obtain ⟨inStep, checked⟩ := run_inStep (.ofRegistry registry) 7 sends fits
  obtain ⟨bytes, place⟩ := inStep sends (List.prefix_refl _) .toServer
  obtain ⟨origin, expected⟩ := place (by decide +kernel)
  have held : (r.host.queue .toServer).size.toUInt32 = 1 := by decide +kernel
  obtain ⟨pieces, -, each⟩ := checked [first] .toServer "efg".toUTF8.toList ⟨_, rfl⟩
  refine ⟨by decide +kernel, bytes, origin, ?_, by decide +kernel, pieces, each⟩
  rw [← held]
  exact expected

end StreamFraming
