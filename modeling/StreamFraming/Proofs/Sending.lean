import StreamFraming.Proofs.Following
import StreamFraming.Proofs.Lockstep

/-!
# Sending through a host

A host keeps in step with the exchange of the bytes it is sent (`Host.Follows`), whatever the
segments and the size bound: what it has cut off and what it still queues are the messages and the
unfinished bytes of the exchange (`Run.Follows.send`). Once a message cannot be framed the two part;
by then a scan has said so, and the messages of the exchange are those the host began with.
-/

namespace StreamFraming

open Http

variable {α : Type} [Holds α Progress] {listens : Direction → Bool} {d : Direction}

/-- The lane is in step with an exchange, with `size` bytes queued from `seq` on. -/
structure Lane.Follows (listens : Direction → Bool) (d : Direction) (s : Exchange) (size : Nat)
    (seq : UInt32) (l : Lane α) : Prop where
  status : l.status = (s.reader d).status
  heard : (s.reader d).status ≠ .start → (s.reader d).status ≠ .abort → listens d = true
  eligible : (s.reader d).status ≠ .abort →
    l.eligible = if listens d then .singleton 0 else .empty
  own : l.slots = cells (s.reader d).progress
  small : (s.reader d).bytes.length < 2 ^ 31
  queued : size ≤ (s.reader d).bytes.length
  untouched : (s.reader d).status = .start → size = 0
  origin : (s.reader d).status ≠ .start → l.origin = seq
  expected : (s.reader d).status ≠ .start → l.expected = seq + size.toUInt32
  target : (s.reader d).status = .flush ∨ (s.reader d).status = .skip →
    min l.target.toNat (size + (s.reader d).room) =
      size + min (s.reader d).left (s.reader d).room

theorem Lane.Follows.inStep {s : Exchange} {size : Nat} {seq : UInt32} {l : Lane α}
    (follows : l.Follows listens d s size seq) : l.InStep size seq := by
  refine ⟨?_, ?_, ?_⟩ <;> rw [follows.status]
  · exact follows.untouched
  · exact follows.origin
  · exact follows.expected

/-- The other lane only learns whether a response has a body. -/
theorem Lane.Follows.opposite {s : Exchange} {size : Nat} {seq : UInt32} {l : Lane α}
    (follows : l.Follows listens d.opposite s size seq) {cs : List UInt8} {slots : Slots α}
    (own : slots = cells ((s.takeAll listens d cs).reader d.opposite).progress) :
    Lane.Follows listens d.opposite (s.takeAll listens d cs) size seq { l with slots } := by
  obtain ⟨status, left, messages, unfinished⟩ :=
    Exchange.opposite_takeAll listens d s cs
  have bytes : ((s.takeAll listens d cs).reader d.opposite).bytes =
      (s.reader d.opposite).bytes := by
    rw [Reader.bytes, messages, unfinished, Reader.bytes]
  have room : ((s.takeAll listens d cs).reader d.opposite).room =
      (s.reader d.opposite).room := by
    rw [Reader.room, bytes, Reader.room]
  refine ⟨?_, ?_, ?_, own, ?_, ?_, ?_, ?_, ?_, ?_⟩ <;> simp only [status, left, bytes, room]
  · exact follows.status
  · exact follows.heard
  · exact follows.eligible
  · exact follows.small
  · exact follows.queued
  · exact follows.untouched
  · exact follows.origin
  · exact follows.expected
  · exact follows.target

theorem Field.Follows.toLane {s : Exchange} {room i size : Nat} {before : List Anomaly}
    {f : Field α Tally} {seq : UInt32} {l : Lane α}
    (follows : f.Follows listens d s room i before) (ongoing : (s.reader d).status ≠ .start)
    (status : l.status = f.lane.status) (eligible : l.eligible = f.lane.eligible)
    (slots : l.slots = f.lane.slots) (small : (s.reader d).bytes.length < 2 ^ 31)
    (queued : size ≤ (s.reader d).bytes.length) (origin : l.origin = seq)
    (expected : l.expected = seq + size.toUInt32)
    (target : (s.reader d).status = .flush ∨ (s.reader d).status = .skip →
      min l.target.toNat (size + (s.reader d).room) =
        size + min (s.reader d).left (s.reader d).room) :
    l.Follows listens d s size seq := by
  refine ⟨by rw [status, follows.status, Status.begun_of_ne_start ongoing],
    fun _ => follows.heard, fun active => ?_, by rw [slots, follows.own], small, queued,
    fun start => absurd start ongoing, fun _ => origin, fun _ => expected, target⟩
  rw [eligible, follows.eligible active, follows.heard active]
  rfl

/-- The host is in step with an exchange. -/
structure Host.Follows (listens : Direction → Bool) (s : Exchange) (h : Host α Tally) : Prop where
  http : h.engine.registry.IsHttp
  running : s.failed = false
  sound : s.Sound
  raised : h.session.raised = s.raised
  lane : ∀ d, (h.session.lane d).Follows listens d s (h.queue d).size (h.queue d).seq

namespace Host

/-- The host once an evaluation is over. -/
def replied (h : Host α Tally) (reply : Reply α Tally) (d : Direction) (q : Queue) :
    Host α Tally :=
  { h with engine := reply.engine, session := reply.session }.setQueue d q

/-- The segment that a host presents. -/
def segment (h : Host α Tally) (d : Direction) (data : List UInt8) : Segment where
  data
  queued := ((h.queue d).size + data.length).toUInt32
  seq := (h.queue d).seq + (h.queue d).size.toUInt32
  marks := .ofDirection d

/-- What the evaluation of new bytes comes to. -/
inductive Replied (listens : Direction → Bool) (d : Direction) (s : Exchange) (h : Host α Tally)
    (data : List UInt8) (reply : Reply α Tally) : Prop where
  | boundary {k : Nat} (positive : 0 < k) (inside : k ≤ data.length)
      (length : reply.length.toNat = (h.queue d).size + k) (tail : reply.marks.tail = true)
      (follows : (h.replied reply d
        (.empty ((h.queue d).seq + ((h.queue d).size + k).toUInt32))).Follows listens
          (s.takeAll listens d (data.take k)))
      (messages : ((s.takeAll listens d (data.take k)).reader d).messages =
        (s.reader d).messages ++ [(s.reader d).unfinished ++ data.take k])
      (unfinished : ((s.takeAll listens d (data.take k)).reader d).unfinished = [])
  | held (nothing : reply.length = 0)
      (follows : (h.replied reply d ((h.queue d).hold data)).Follows listens
        (s.takeAll listens d data))
      (messages : ((s.takeAll listens d data).reader d).messages = (s.reader d).messages)
      (unfinished : ((s.takeAll listens d data).reader d).unfinished =
        (s.reader d).unfinished ++ data)
  | forced (length : reply.length.toNat = (h.queue d).size + data.length)
      (untailed : reply.marks.tail = false)
      (follows : (h.replied reply d
        (.empty ((h.queue d).seq + ((h.queue d).size + data.length).toUInt32))).Follows listens
          (s.takeAll listens d data))
      (messages : ((s.takeAll listens d data).reader d).messages = (s.reader d).messages)
      (unfinished : ((s.takeAll listens d data).reader d).unfinished =
        (s.reader d).unfinished ++ data)
  | failed {call : Call α Tally} (failed : (s.takeAll listens d data).failed = true)
      (messages : ((s.takeAll listens d data).reader d).messages = (s.reader d).messages)
      (made : call ∈ reply.calls) (error : setsError call = true)

/-- The field that an evaluation begins with. -/
def opening (h : Host α Tally) (d : Direction) (n : Nat) : Field α Tally where
  lane := Lane.read { h.session.lane d with
    status := (h.session.lane d).status.begun
    origin := (h.queue d).seq
    expected := (h.queue d).seq + (h.queue d).size.toUInt32 } n
  peer := (h.session.lane d.opposite).slots
  memories := h.engine.memories

/-- What does not change during an evaluation. -/
def inquiry (h : Host α Tally) (d : Direction) (n : Nat) : Inquiry α Tally where
  registry := h.engine.registry
  marks := (Marks.ofDirection d).withDirection d
  total := ((h.queue d).size + n).toUInt32
  limit := Length.add h.engine.registry.maxFlushPoint 0

/-- The reply that cuts `length` bytes off and leaves the lane `l`. -/
def reply (h : Host α Tally) (d : Direction) (n : Nat) (f : Field α Tally)
    (cut : UInt32 × Marks × Lane α) : Reply α Tally where
  engine := { h.engine with memories := f.memories, stats := h.engine.stats.count n }
  session :=
    { (h.session.setLane d cut.2.2).setLane d.opposite
        { h.session.lane d.opposite with slots := f.peer } with
      raised := h.session.raised ++ f.raised }
  length := cut.1
  marks := cut.2.1
  calls := f.calls.reverse

/-- The reply once the pursuit of the new bytes is over. -/
def answer (h : Host α Tally) (d : Direction) (data : List UInt8)
    (result : Option Cut × Field α Tally) : Reply α Tally :=
  let (cut?, f) := result
  let segment := h.segment d data
  let limit := Length.add h.engine.registry.maxFlushPoint segment.slack
  let cut? :=
    match cut? with
    | some kind => some kind
    | none => if f.lane.status ≠ .flush ∧ limit < segment.queued then some .bound else none
  h.reply d data.length f
    (match cut? with
    | some kind => f.lane.cut kind segment.queued segment.marks
    | none => (0, segment.marks, f.lane))

omit [Holds α Progress] in
theorem lane_reply (h : Host α Tally) (d : Direction) (n : Nat) (f : Field α Tally)
    (cut : UInt32 × Marks × Lane α) : (h.reply d n f cut).session.lane d = cut.2.2 := by
  cases d <;> rfl

omit [Holds α Progress] in
theorem opposite_lane_reply (h : Host α Tally) (d : Direction) (n : Nat) (f : Field α Tally)
    (cut : UInt32 × Marks × Lane α) :
    (h.reply d n f cut).session.lane d.opposite =
      { h.session.lane d.opposite with slots := f.peer } := by
  cases d <;> rfl

theorem Follows.opening_pursued {s : Exchange} {h : Host α Tally}
    (follows : h.Follows listens s) {data : List UInt8} (nonempty : data ≠ [])
    (within : data.length < (s.reader d).room) :
    let f := h.opening d data.length
    let idx := Length.sub ((h.queue d).size + data.length).toUInt32 data.length.toUInt32
    let result := Field.pursue (h.inquiry d data.length) idx data f
    Field.Pursued listens d s (s.reader d).room (h.queue d).size h.session.raised data result.1
      result.2 := by
  have lane := follows.lane d
  have small := lane.small
  have queued := lane.queued
  have room : (s.reader d).room = 2 ^ 31 - (s.reader d).bytes.length := rfl
  intro f idx result
  have side : (h.inquiry d data.length).marks.fromClient = (d == Direction.toServer) := by
    cases d <;> rfl
  have total : (h.inquiry d data.length).total.toNat = (h.queue d).size + data.length := by
    simp only [inquiry, Nat.toUInt32_eq, UInt32.toNat_ofNat']
    omega
  have place : idx.toNat = (h.queue d).size := by
    simp only [idx, Length.toNat_sub, Nat.toUInt32_eq, UInt32.toNat_ofNat']
    omega
  have status : f.lane.status = (s.reader d).status.begun := by
    show (h.session.lane d).status.begun = _
    rw [lane.status]
  have raised : s.raised = h.session.raised ++ f.raised := by
    show s.raised = h.session.raised ++ []
    rw [List.append_nil, follows.raised]
  have peer : f.peer = cells (s.reader d.opposite).progress := (follows.lane d.opposite).own
  by_cases deaf : (s.reader d).status = .start ∧ listens d = false
  · have nobody : f.lane.eligible = .empty := by
      show (h.session.lane d).eligible = _
      rw [lane.eligible (by rw [deaf.1]; decide), deaf.2]
      rfl
    exact Field.pursue_deaf follows.running follows.sound deaf.1 deaf.2
      (by rw [status, deaf.1]; rfl) nobody peer raised (by omega) place total within nonempty
  · have heard (active : (s.reader d).status ≠ .abort) : listens d = true := by
      by_cases start : (s.reader d).status = .start
      · cases hears : listens d with
        | true => rfl
        | false => exact absurd ⟨start, hears⟩ deaf
      · exact lane.heard start active
    have eligible (active : (s.reader d).status ≠ .abort) : f.lane.eligible = .singleton 0 := by
      show (h.session.lane d).eligible = _
      rw [lane.eligible active, heard active]
      rfl
    exact Field.pursue_follows follows.http side
      ⟨follows.running, follows.sound, status, heard, eligible, lane.own, peer, raised, by omega,
        lane.target⟩ place total within

theorem Follows.check_eq {s : Exchange} {h : Host α Tally} (follows : h.Follows listens s)
    {data : List UInt8} (nonempty : data ≠ []) (within : data.length < (s.reader d).room) :
    h.engine.check h.session d (h.segment d data) =
      h.engine.evaluate h.session d { h.session.lane d with
        status := (h.session.lane d).status.begun
        origin := (h.queue d).seq
        expected := (h.queue d).seq + (h.queue d).size.toUInt32 } data (h.segment d data) := by
  have room : (s.reader d).room = 2 ^ 31 - (s.reader d).bytes.length := rfl
  rw [Engine.check]
  simp only [segment, (follows.lane d).inStep.arrival_eq nonempty (by omega)]

theorem Follows.replied {s : Exchange} {h : Host α Tally} (follows : h.Follows listens s)
    {cs : List UInt8} {room i : Nat} {f : Field α Tally} {q : Queue} {reply : Reply α Tally}
    (fresh : f.Follows listens d (s.takeAll listens d cs) room i h.session.raised)
    (registry : reply.engine.registry = h.engine.registry)
    (raised : reply.session.raised = h.session.raised ++ f.raised)
    (own : (reply.session.lane d).Follows listens d (s.takeAll listens d cs) q.size q.seq)
    (opposite : reply.session.lane d.opposite =
      { h.session.lane d.opposite with slots := f.peer }) :
    (h.replied reply d q).Follows listens (s.takeAll listens d cs) := by
  have queues : (h.replied reply d q).queue d = q ∧
      (h.replied reply d q).queue d.opposite = h.queue d.opposite := by
    cases d <;> exact ⟨rfl, rfl⟩
  have kept : (h.replied reply d q).engine = reply.engine ∧
      (h.replied reply d q).session = reply.session := by
    cases d <;> exact ⟨rfl, rfl⟩
  refine ⟨?_, fresh.running, fresh.sound, ?_, fun e => ?_⟩
  · rw [kept.1, registry]
    exact follows.http
  · rw [kept.2, raised, fresh.raised]
  · rw [kept.2]
    by_cases same : e = d
    · rw [same, queues.1]
      exact own
    · rw [Direction.eq_opposite_of_ne same, queues.2, opposite]
      exact (follows.lane d.opposite).opposite fresh.peer

theorem Follows.reply_follows {s : Exchange} {h : Host α Tally} (follows : h.Follows listens s)
    {cs : List UInt8} {room i n : Nat} {f : Field α Tally} {q : Queue}
    {cut : UInt32 × Marks × Lane α}
    (fresh : f.Follows listens d (s.takeAll listens d cs) room i h.session.raised)
    (own : cut.2.2.Follows listens d (s.takeAll listens d cs) q.size q.seq) :
    (h.replied (h.reply d n f cut) d q).Follows listens (s.takeAll listens d cs) :=
  follows.replied fresh rfl rfl (by rw [lane_reply]; exact own) (opposite_lane_reply ..)

/-! ### What the evaluation of new bytes comes to -/

section Evaluated

variable {s : Exchange} {h : Host α Tally} {data : List UInt8} {f : Field α Tally}

omit [Holds α Progress] in
theorem toNat_queued (few : (h.queue d).size + data.length < 2 ^ 31) :
    (h.segment d data).queued.toNat = (h.queue d).size + data.length := by
  simp only [segment, Nat.toUInt32_eq, UInt32.toNat_ofNat']
  omega

omit [Holds α Progress] in
theorem queued_ne_zero (nonempty : data ≠ []) (few : (h.queue d).size + data.length < 2 ^ 31) :
    (h.segment d data).queued ≠ 0 := by
  have positive : 0 < data.length := List.length_pos_iff.mpr nonempty
  have total := toNat_queued few
  intro zero
  rw [zero] at total
  have nought : (0 : UInt32).toNat = 0 := rfl
  omega

theorem Follows.few (follows : h.Follows listens s) (within : data.length < (s.reader d).room) :
    (h.queue d).size + data.length < 2 ^ 31 := by
  have queued := (follows.lane d).queued
  have room : (s.reader d).room = 2 ^ 31 - (s.reader d).bytes.length := rfl
  omega

omit [Holds α Progress] in
theorem length_bytes_takeAll (within : data.length < (s.reader d).room)
    (running : (s.takeAll listens d data).failed = false) :
    ((s.takeAll listens d data).reader d).bytes.length =
        (s.reader d).bytes.length + data.length ∧
      ((s.takeAll listens d data).reader d).bytes.length < 2 ^ 31 ∧
      ((s.takeAll listens d data).reader d).room = (s.reader d).room - data.length := by
  have bytes := Exchange.bytes_takeAll running
  have room : (s.reader d).room = 2 ^ 31 - (s.reader d).bytes.length := rfl
  rw [Reader.room, bytes, List.length_append]
  omega

theorem Follows.boundary_replied (follows : h.Follows listens s) (nonempty : data ≠ [])
    (within : data.length < (s.reader d).room) {k : Nat} (positive : 0 < k)
    (inside : k ≤ data.length) (target : f.lane.target.toNat = (h.queue d).size + k)
    (origin : f.lane.origin = (h.queue d).seq)
    (fresh : f.Follows listens d (s.takeAll listens d (data.take k)) ((s.reader d).room - k)
      ((h.queue d).size + k) h.session.raised)
    (searching : ((s.takeAll listens d (data.take k)).reader d).status = .search)
    (messages : ((s.takeAll listens d (data.take k)).reader d).messages =
      (s.reader d).messages ++ [(s.reader d).unfinished ++ data.take k])
    (unfinished : ((s.takeAll listens d (data.take k)).reader d).unfinished = []) :
    Replied listens d s h data (h.answer d data (some .boundary, f)) := by
  have few := follows.few within
  have taken : (data.take k).length = k := List.length_take_of_le inside
  have small := (length_bytes_takeAll (by omega) fresh.running).2.1
  have goal_ne : f.lane.target ≠ 0 := by
    intro zero
    rw [zero] at target
    have nought : (0 : UInt32).toNat = 0 := rfl
    omega
  have word : f.lane.target = ((h.queue d).size + k).toUInt32 := by
    apply UInt32.toNat_inj.mp
    simp only [target, Nat.toUInt32_eq, UInt32.toNat_ofNat']
    omega
  have ongoing : ((s.takeAll listens d (data.take k)).reader d).status ≠ .start := by
    rw [searching]
    decide
  have cut := Lane.cut_boundary (l := f.lane) (h.segment d data).marks goal_ne
    (queued_ne_zero nonempty few) (by omega)
  have answered : h.answer d data (some .boundary, f) = h.reply d data.length f
      (f.lane.cut .boundary (h.segment d data).queued (h.segment d data).marks) := rfl
  rw [answered, cut]
  refine .boundary positive inside target rfl ?_ messages unfinished
  refine follows.reply_follows fresh
    (fresh.toLane ongoing rfl rfl rfl small (Nat.zero_le _) ?_ ?_ ?_)
  · rw [origin, word]
    rfl
  · rw [origin, word]
    exact (UInt32.add_zero _).symm
  · rw [searching]
    rintro (wrong | wrong) <;> cases wrong

theorem Follows.held_replied (follows : h.Follows listens s) (nonempty : data ≠ [])
    (within : data.length < (s.reader d).room)
    (origin : f.lane.origin = (h.queue d).seq)
    (expected : f.lane.expected =
      (h.queue d).seq + (h.queue d).size.toUInt32 + data.length.toUInt32)
    (fresh : f.Follows listens d (s.takeAll listens d data) ((s.reader d).room - data.length)
      ((h.queue d).size + data.length) h.session.raised)
    (messages : ((s.takeAll listens d data).reader d).messages = (s.reader d).messages)
    (unfinished : ((s.takeAll listens d data).reader d).unfinished =
      (s.reader d).unfinished ++ data) (marks : Marks) :
    Replied listens d s h data (h.reply d data.length f (0, marks, f.lane)) := by
  obtain ⟨length, small, room⟩ := length_bytes_takeAll within fresh.running
  have ongoing := Exchange.status_takeAll nonempty fresh.running
  have queued := (follows.lane d).queued
  refine .held rfl ?_ messages unfinished
  refine follows.reply_follows fresh (fresh.toLane ongoing rfl rfl rfl small ?_ origin ?_ ?_)
  · rw [length]
    exact Nat.add_le_add_right queued _
  · rw [expected, UInt32.add_assoc]
    show _ = (h.queue d).seq + ((h.queue d).size + data.length).toUInt32
    congr 1
    apply UInt32.toNat_inj.mp
    simp only [UInt32.toNat_add, Nat.toUInt32_eq, UInt32.toNat_ofNat']
    omega
  · rw [room]
    exact fresh.target

theorem Follows.forced_replied (follows : h.Follows listens s) (nonempty : data ≠ [])
    (within : data.length < (s.reader d).room)
    (origin : f.lane.origin = (h.queue d).seq)
    (fresh : f.Follows listens d (s.takeAll listens d data) ((s.reader d).room - data.length)
      ((h.queue d).size + data.length) h.session.raised)
    (messages : ((s.takeAll listens d data).reader d).messages = (s.reader d).messages)
    (unfinished : ((s.takeAll listens d data).reader d).unfinished =
      (s.reader d).unfinished ++ data) :
    Replied listens d s h data (h.reply d data.length f
      (f.lane.cut .bound (h.segment d data).queued (h.segment d data).marks)) := by
  obtain ⟨length, small, room⟩ := length_bytes_takeAll within fresh.running
  have ongoing := Exchange.status_takeAll nonempty fresh.running
  have few := follows.few within
  have total := toNat_queued few
  have cut := Lane.cut_bound (l := f.lane) (h.segment d data).marks
    (queued_ne_zero nonempty few) (by omega)
  rw [cut]
  refine .forced total rfl ?_ messages unfinished
  refine follows.reply_follows fresh
    (fresh.toLane ongoing rfl rfl rfl small (Nat.zero_le _) ?_ ?_ ?_)
  · rw [origin]
    rfl
  · rw [origin]
    exact (UInt32.add_zero _).symm
  · intro waiting
    have target := fresh.target waiting
    rw [room]
    simp only [Length.toNat_sub, total, Queue.size_empty] at target ⊢
    omega

theorem Follows.check_replied (follows : h.Follows listens s) (nonempty : data ≠ [])
    (within : data.length < (s.reader d).room) :
    Replied listens d s h data (h.engine.check h.session d (h.segment d data)) := by
  have pursued := follows.opening_pursued nonempty within
  have kept := Field.extends_pursue (h.inquiry d data.length)
    (Length.sub ((h.queue d).size + data.length).toUInt32 data.length.toUInt32) data
    (h.opening d data.length)
  have opened : Engine.evaluate h.engine h.session d { h.session.lane d with
        status := (h.session.lane d).status.begun
        origin := (h.queue d).seq
        expected := (h.queue d).seq + (h.queue d).size.toUInt32 } data (h.segment d data) =
      h.answer d data (Field.pursue (h.inquiry d data.length)
        (Length.sub ((h.queue d).size + data.length).toUInt32 data.length.toUInt32) data
        (h.opening d data.length)) := rfl
  rw [follows.check_eq nonempty within, opened]
  simp only at pursued
  generalize Field.pursue (h.inquiry d data.length)
    (Length.sub ((h.queue d).size + data.length).toUInt32 data.length.toUInt32) data
    (h.opening d data.length) = result at *
  obtain ⟨cut?, f⟩ := result
  have origin : f.lane.origin = (h.queue d).seq := kept.origin
  have expected : f.lane.expected =
      (h.queue d).seq + (h.queue d).size.toUInt32 + data.length.toUInt32 := kept.expected
  cases pursued with
  | failed failed messages made error =>
    exact .failed failed messages (List.mem_reverse.mpr made) error
  | boundary positive inside target fresh searching messages unfinished =>
    exact follows.boundary_replied nonempty within positive inside target origin fresh searching
      messages unfinished
  | rest untailed fresh messages unfinished =>
    have held := follows.held_replied nonempty within origin expected fresh messages unfinished
    have forced := follows.forced_replied nonempty within origin fresh messages unfinished
    cases cut? with
    | none =>
      by_cases grown : f.lane.status ≠ .flush ∧
          Length.add h.engine.registry.maxFlushPoint (h.segment d data).slack <
            (h.segment d data).queued
      · have answered : h.answer d data (none, f) = h.reply d data.length f
            (f.lane.cut .bound (h.segment d data).queued (h.segment d data).marks) := by
          simp only [answer, if_pos grown]
        rw [answered]
        exact forced
      · have answered : h.answer d data (none, f) = h.reply d data.length f
            (0, (h.segment d data).marks, f.lane) := by
          simp only [answer, if_neg grown]
        rw [answered]
        exact held _
    | some kind =>
      cases kind with
      | abort => exact held .none
      | boundary => exact absurd rfl untailed
      | bound => exact forced

end Evaluated

/-! ### Cutting a queue -/

def cutBy (h : Host α Tally) (d : Direction) (c : Cutting α Tally) : Host α Tally :=
  { h with engine := c.engine, session := c.session }.setQueue d c.queue

omit [Holds α Progress] in
theorem cutQueue_nil (d : Direction) (e : Engine α Tally) (s : Session α) (q : Queue) :
    cutQueue d e s q [] = { engine := e, session := s, queue := q } := by
  unfold cutQueue
  rfl

/-- How cutting goes on from the reply to the new bytes. -/
def resume (h : Host α Tally) (d : Direction) (data : List UInt8) (reply : Reply α Tally) :
    Cutting α Tally :=
  if reply.length = 0 then
    { engine := reply.engine, session := reply.session, queue := (h.queue d).hold data
      calls := reply.calls }
  else
    let length := min reply.length.toNat ((h.queue d).size + data.length)
    let whole := (h.queue d).bytes ++ data
    let next := cutQueue d reply.engine reply.session
      (.empty ((h.queue d).seq + length.toUInt32)) (whole.drop length)
    { next with
      pieces := { bytes := whole.take length, marks := reply.marks } :: next.pieces
      calls := reply.calls ++ next.calls }

omit [Holds α Progress] in
theorem cutQueue_eq (h : Host α Tally) {d : Direction} {data : List UInt8} (more : data ≠ []) :
    cutQueue d h.engine h.session (h.queue d) data =
      h.resume d data (h.engine.check h.session d (h.segment d data)) := by
  have nonempty : ¬ data.isEmpty = true := by simpa using more
  conv => lhs; unfold cutQueue
  rw [dif_neg nonempty]
  rfl

/-- What cutting a queue comes to: the host stays in step, with the pieces on top of the assembly
`a`, or a scan has met a message that cannot be framed. -/
structure CutFollows (listens : Direction → Bool) (d : Direction) (s : Exchange) (h : Host α Tally)
    (a : Assembly) (c : Cutting α Tally) : Prop where
  follows : s.failed = false → (h.cutBy d c).Follows listens s ∧
    (a.addAll c.pieces).messages = (s.reader d).messages ∧
    (a.addAll c.pieces).carried ++ c.queue.bytes = (s.reader d).unfinished
  failed : s.failed = true → (s.reader d).messages <+: (a.addAll c.pieces).messages ∧
    ∃ call ∈ c.calls, setsError call = true

section Resumed

variable {s : Exchange} {h : Host α Tally} {data : List UInt8} {reply : Reply α Tally}
  {a : Assembly}

theorem CutFollows.nil (follows : h.Follows listens s)
    (messages : a.messages = (s.reader d).messages)
    (unfinished : a.carried ++ (h.queue d).bytes = (s.reader d).unfinished) :
    CutFollows listens d s h a (cutQueue d h.engine h.session (h.queue d) []) := by
  rw [cutQueue_nil]
  refine ⟨fun running => ⟨?_, messages, unfinished⟩, fun failed => ?_⟩
  · have same : h.cutBy d { engine := h.engine, session := h.session, queue := h.queue d } =
        h := by
      cases d <;> rfl
    rw [same]
    exact follows
  · rw [follows.running] at failed
    cases failed

omit [Holds α Progress] in
theorem length_ne_zero {n : Nat} (length : reply.length.toNat = n) (positive : 0 < n) :
    reply.length ≠ 0 := by
  intro zero
  rw [zero] at length
  have nought : (0 : UInt32).toNat = 0 := rfl
  omega

theorem CutFollows.of_failed {call : Call α Tally}
    (failed : (s.takeAll listens d data).failed = true)
    (messages' : ((s.takeAll listens d data).reader d).messages = (s.reader d).messages)
    (made : call ∈ reply.calls) (error : setsError call = true)
    (messages : a.messages = (s.reader d).messages) :
    CutFollows listens d (s.takeAll listens d data) h a (h.resume d data reply) := by
  refine ⟨fun running => absurd running (by rw [failed]; decide), fun _ => ⟨?_, call, ?_, error⟩⟩
  · rw [messages', ← messages]
    exact Assembly.messages_addAll _ _
  · rw [resume]
    split
    · exact made
    · exact List.mem_append_left _ made

theorem CutFollows.of_held (nothing : reply.length = 0)
    (fresh : (h.replied reply d ((h.queue d).hold data)).Follows listens
      (s.takeAll listens d data))
    (messages' : ((s.takeAll listens d data).reader d).messages = (s.reader d).messages)
    (unfinished' : ((s.takeAll listens d data).reader d).unfinished =
      (s.reader d).unfinished ++ data)
    (messages : a.messages = (s.reader d).messages)
    (unfinished : a.carried ++ (h.queue d).bytes = (s.reader d).unfinished) :
    CutFollows listens d (s.takeAll listens d data) h a (h.resume d data reply) := by
  rw [resume, if_pos nothing]
  refine ⟨fun running => ⟨fresh, ?_, ?_⟩, fun failed => ?_⟩
  · rw [messages']
    exact messages
  · rw [unfinished', ← unfinished, List.append_assoc]
    simp
  · rw [fresh.running] at failed
    cases failed

theorem CutFollows.of_forced (nonempty : data ≠ [])
    (length : reply.length.toNat = (h.queue d).size + data.length)
    (untailed : reply.marks.tail = false)
    (fresh : (h.replied reply d
      (.empty ((h.queue d).seq + ((h.queue d).size + data.length).toUInt32))).Follows listens
        (s.takeAll listens d data))
    (messages' : ((s.takeAll listens d data).reader d).messages = (s.reader d).messages)
    (unfinished' : ((s.takeAll listens d data).reader d).unfinished =
      (s.reader d).unfinished ++ data)
    (messages : a.messages = (s.reader d).messages)
    (unfinished : a.carried ++ (h.queue d).bytes = (s.reader d).unfinished) :
    CutFollows listens d (s.takeAll listens d data) h a (h.resume d data reply) := by
  have positive : 0 < data.length := List.length_pos_iff.mpr nonempty
  have whole : ((h.queue d).bytes ++ data).length = (h.queue d).size + data.length := by
    simp
  have added : a.add { bytes := (h.queue d).bytes ++ data, marks := reply.marks } =
      { a with carried := a.carried ++ ((h.queue d).bytes ++ data) } := by
    rw [Assembly.add, untailed]
    rfl
  rw [resume, if_neg (length_ne_zero length (by omega)), length, Nat.min_self]
  simp only [List.drop_of_length_le whole.le, List.take_of_length_le whole.le, cutQueue_nil]
  refine ⟨fun running => ⟨fresh, ?_, ?_⟩, fun failed => ?_⟩
  · rw [messages', Assembly.addAll_cons, added]
    exact messages
  · rw [unfinished', ← unfinished, Assembly.addAll_cons, added, List.append_assoc]
    exact List.append_nil _
  · rw [fresh.running] at failed
    cases failed

/-- A message that is cut off leaves the queue to the bytes behind it. -/
theorem CutFollows.of_boundary {k : Nat} (positive : 0 < k) (inside : k ≤ data.length)
    (length : reply.length.toNat = (h.queue d).size + k) (tail : reply.marks.tail = true)
    (later :
      let next := h.replied reply d (.empty ((h.queue d).seq + ((h.queue d).size + k).toUInt32))
      CutFollows listens d (s.takeAll listens d data) next
        { messages := a.messages ++ [a.carried ++ ((h.queue d).bytes ++ data.take k)] }
        (cutQueue d next.engine next.session (next.queue d) (data.drop k))) :
    CutFollows listens d (s.takeAll listens d data) h a (h.resume d data reply) := by
  have size : (h.queue d).bytes.length = (h.queue d).size := Queue.length_bytes _
  have front : ((h.queue d).bytes ++ data).take ((h.queue d).size + k) =
      (h.queue d).bytes ++ data.take k := by
    rw [← size, List.take_length_add_append]
  have back : ((h.queue d).bytes ++ data).drop ((h.queue d).size + k) = data.drop k := by
    rw [← size, List.drop_length_add_append]
  have added : a.add { bytes := (h.queue d).bytes ++ data.take k, marks := reply.marks } =
      { messages := a.messages ++ [a.carried ++ ((h.queue d).bytes ++ data.take k)] } := by
    rw [Assembly.add, tail]
    rfl
  have parts : (h.replied reply d
        (.empty ((h.queue d).seq + ((h.queue d).size + k).toUInt32))).engine = reply.engine ∧
      (h.replied reply d
        (.empty ((h.queue d).seq + ((h.queue d).size + k).toUInt32))).session =
          reply.session := by
    cases d <;> exact ⟨rfl, rfl⟩
  simp only at later
  rw [parts.1, parts.2, Host.replied, queue_setQueue_self, ← added] at later
  rw [resume, if_neg (length_ne_zero length (by omega)), length, Nat.min_eq_left (by omega)]
  simp only [front, back]
  generalize cutQueue d reply.engine reply.session
    (.empty ((h.queue d).seq + ((h.queue d).size + k).toUInt32)) (data.drop k) = next at later
  refine ⟨fun running => ?_, fun failed => ?_⟩
  · obtain ⟨kept, messages, unfinished⟩ := later.follows running
    refine ⟨?_, messages, unfinished⟩
    cases d <;> exact kept
  · obtain ⟨messages, call, made, error⟩ := later.failed failed
    exact ⟨messages, call, List.mem_append_right _ made, error⟩

end Resumed

theorem Follows.cutQueue_follows {s : Exchange} {h : Host α Tally} (follows : h.Follows listens s)
    {data : List UInt8} (within : data.length < (s.reader d).room) {a : Assembly}
    (messages : a.messages = (s.reader d).messages)
    (unfinished : a.carried ++ (h.queue d).bytes = (s.reader d).unfinished) :
    CutFollows listens d (s.takeAll listens d data) h a
      (cutQueue d h.engine h.session (h.queue d) data) := by
  induction hn : data.length using Nat.strongRecOn generalizing data s h a with
  | _ n ih =>
    subst hn
    by_cases empty : data = []
    · subst empty
      rw [Exchange.takeAll_nil]
      exact .nil follows messages unfinished
    · have replied := follows.check_replied empty within
      rw [cutQueue_eq h empty]
      generalize h.engine.check h.session d (h.segment d data) = reply at replied
      cases replied with
      | failed failed messages' made error =>
        exact .of_failed failed messages' made error messages
      | held nothing fresh messages' unfinished' =>
        exact .of_held nothing fresh messages' unfinished' messages unfinished
      | forced length untailed fresh messages' unfinished' =>
        exact .of_forced empty length untailed fresh messages' unfinished' messages unfinished
      | @boundary k positive inside length tail fresh messages' unfinished' =>
        have shorter : (data.drop k).length = data.length - k := List.length_drop
        have few : (data.take k).length = k := List.length_take_of_le inside
        have within' : (data.drop k).length <
            ((s.takeAll listens d (data.take k)).reader d).room := by
          rw [(length_bytes_takeAll (by omega) fresh.running).2.2]
          omega
        have later := ih _ (by omega) fresh within'
          (a := { messages := a.messages ++ [a.carried ++ ((h.queue d).bytes ++ data.take k)] })
          (by rw [messages', messages, ← unfinished, List.append_assoc])
          (by rw [unfinished', Host.replied, queue_setQueue_self]; rfl) rfl
        rw [← Exchange.takeAll_append, List.take_append_drop] at later
        exact .of_boundary positive inside length tail later

theorem follows_openOn {e : Engine α Tally} (http : e.registry.IsHttp) (port : UInt16) :
    (openOn e port).Follows (e.registry.listens port) {} := by
  refine ⟨http, rfl, fun d => ?_, rfl, fun d => ?_⟩
  · cases d <;> exact Reader.sound_empty
  · have lane : (openOn e port).session.lane d =
        .ofScanners (if e.registry.listens port d then .singleton 0 else .empty) := by
      rw [← http.eligible]
      cases d <;> rfl
    have queue : (openOn e port).queue d = {} := by cases d <;> rfl
    rw [lane, queue]
    have fresh : (({} : Exchange).reader d) = {} := by cases d <;> rfl
    refine ⟨?_, ?_, ?_, ?_, ?_, ?_, ?_, ?_, ?_, ?_⟩ <;> rw [fresh]
    · rfl
    · exact fun wrong => absurd rfl wrong
    · exact fun _ => rfl
    · exact cells_none.symm
    · decide
    · exact Nat.zero_le _
    · exact fun _ => rfl
    · exact fun wrong => absurd rfl wrong
    · exact fun wrong => absurd rfl wrong
    · rintro (wrong | wrong) <;> cases wrong

end Host

/-! ### Runs -/

namespace Run

/-- The run is in step with an exchange. -/
structure Follows (listens : Direction → Bool) (s : Exchange) (r : Run α Tally) : Prop where
  host : r.host.Follows listens s
  messages : ∀ d, r.messages d = (s.reader d).messages
  unfinished : ∀ d, r.unfinished d = (s.reader d).unfinished

/-- The run has met a message that cannot be framed. -/
structure Fails (s : Exchange) (r : Run α Tally) : Prop where
  messages : ∀ d, (s.reader d).messages <+: r.messages d
  error : ∃ call ∈ r.calls, setsError call = true

theorem Follows.send {s : Exchange} {r : Run α Tally} (follows : r.Follows listens s)
    {data : List UInt8} (within : data.length < (s.reader d).room) :
    ((s.takeAll listens d data).failed = false →
      (r.send d data).Follows listens (s.takeAll listens d data)) ∧
    ((s.takeAll listens d data).failed = true →
      (r.send d data).Fails (s.takeAll listens d data)) := by
  have cut := follows.host.cutQueue_follows within (a := r.assembly d) (follows.messages d)
    (follows.unfinished d)
  obtain ⟨-, -, messages, unfinished⟩ :=
    Exchange.opposite_takeAll listens d s data
  have sent : (r.send d data).assembly d = (r.assembly d).addAll
      (Host.cutQueue d r.host.engine r.host.session (r.host.queue d) data).pieces := by
    simp only [assembly, Run.send, if_true, Assembly.ofPieces, Assembly.addAll_append]
    rfl
  have other : (r.send d data).assembly d.opposite = r.assembly d.opposite := by
    simp only [assembly, Run.send, if_neg (Direction.opposite_ne d)]
  have queues : (r.send d data).host.queue d =
        (Host.cutQueue d r.host.engine r.host.session (r.host.queue d) data).queue ∧
      (r.send d data).host.queue d.opposite = r.host.queue d.opposite := by
    cases d <;> exact ⟨rfl, rfl⟩
  refine ⟨fun running => ?_, fun failed => ?_⟩
  · obtain ⟨host, messages', unfinished'⟩ := cut.follows running
    refine ⟨host, fun e => ?_, fun e => ?_⟩
    · by_cases same : e = d
      · rw [same, Run.messages, sent, messages']
      · rw [Direction.eq_opposite_of_ne same, Run.messages, other, messages]
        exact follows.messages _
    · by_cases same : e = d
      · rw [same, Run.unfinished, sent, queues.1, unfinished']
      · rw [Direction.eq_opposite_of_ne same, Run.unfinished, other, queues.2, unfinished]
        exact follows.unfinished _
  · obtain ⟨messages', call, made, error⟩ := cut.failed failed
    refine ⟨fun e => ?_, call, List.mem_append_right _ made, error⟩
    by_cases same : e = d
    · rw [same, Run.messages, sent]
      exact messages'
    · rw [Direction.eq_opposite_of_ne same, Run.messages, other, messages]
      exact (follows.messages _) ▸ List.prefix_refl _

theorem Fails.sendAll {s : Exchange} {r : Run α Tally} (fails : r.Fails s)
    (sends : List (Direction × List UInt8)) : (r.sendAll sends).Fails s := by
  obtain ⟨messages, call, made, error⟩ := fails
  exact ⟨fun d => (messages d).trans (r.messages_sendAll d sends), call,
    (r.calls_sendAll sends).subset made, error⟩

theorem Follows.sendAll {s : Exchange} {r : Run α Tally} (follows : r.Follows listens s)
    {sends : List (Direction × List UInt8)}
    (within : ∀ d, (s.reader d).bytes.length + (stream sends d).length < 2 ^ 31) :
    ((s.run listens sends).failed = false →
      (r.sendAll sends).Follows listens (s.run listens sends)) ∧
    ((s.run listens sends).failed = true →
      (r.sendAll sends).Fails (s.run listens sends)) := by
  induction sends generalizing s r with
  | nil =>
    refine ⟨fun _ => follows, fun failed => ?_⟩
    rw [show s.run listens [] = s from rfl, follows.host.running] at failed
    cases failed
  | cons x sends ih =>
    obtain ⟨d, data⟩ := x
    have ahead (e : Direction) : stream ((d, data) :: sends) e =
        (if d = e then data else []) ++ stream sends e := stream_cons (d, data) sends e
    have room : data.length < (s.reader d).room := by
      have := within d
      rw [ahead, if_pos rfl, List.length_append] at this
      rw [Reader.room]
      omega
    have run : s.run listens ((d, data) :: sends) =
        (s.takeAll listens d data).run listens sends := rfl
    obtain ⟨kept, fails⟩ := follows.send room
    rw [run, sendAll_cons]
    cases failed : (s.takeAll listens d data).failed with
    | true =>
      rw [Exchange.run_of_failed failed, failed]
      exact ⟨nofun, fun _ => (fails failed).sendAll sends⟩
    | false =>
      refine ih (kept failed) fun e => ?_
      have whole := within e
      rw [ahead, List.length_append] at whole
      by_cases same : e = d
      · subst same
        rw [if_pos rfl] at whole
        rw [Exchange.bytes_takeAll failed, List.length_append]
        omega
      · obtain ⟨-, -, messages, unfinished⟩ :=
          Exchange.opposite_takeAll listens d s data
        rw [Direction.eq_opposite_of_ne same, Reader.bytes, messages, unfinished]
        rw [if_neg (fun h => same h.symm), Direction.eq_opposite_of_ne same] at whole
        rw [Reader.bytes] at whole
        simpa using whole

theorem Follows.status {s : Exchange} {r : Run α Tally} (follows : r.Follows listens s)
    (d : Direction) : (r.host.session.lane d).status = (s.reader d).status :=
  (follows.host.lane d).status

theorem Follows.progress? {s : Exchange} {r : Run α Tally} (follows : r.Follows listens s)
    (d : Direction) : Http.progress? r.host.session d = (s.reader d).progress := by
  rw [Http.progress?, (follows.host.lane d).own, first?_cells]

end Run

theorem Host.run_follows {e : Engine α Tally} (http : e.registry.IsHttp) (port : UInt16)
    {sends : List (Direction × List UInt8)} (small : ∀ d, (stream sends d).length < 2 ^ 31) :
    let listens := e.registry.listens port
    let s := ({} : Exchange).run listens sends
    (s.failed = false → ((openOn e port).run sends).Follows listens s) ∧
    (s.failed = true → ((openOn e port).run sends).Fails s) := by
  have opened : ({ host := openOn e port } : Run α Tally).Follows (e.registry.listens port) {} := by
    refine ⟨follows_openOn http port, fun d => ?_, fun d => ?_⟩
    · cases d <;> rfl
    · cases d <;> rfl
  refine opened.sendAll fun d => ?_
  have nothing : (({} : Exchange).reader d).bytes.length = 0 := by cases d <;> rfl
  rw [nothing, Nat.zero_add]
  exact small d

/-- Framed or not, the messages of the exchange come out first. -/
theorem Host.messages_run {e : Engine α Tally} (http : e.registry.IsHttp) (port : UInt16)
    {sends : List (Direction × List UInt8)} (small : ∀ d, (stream sends d).length < 2 ^ 31)
    (d : Direction) :
    ((({} : Exchange).run (e.registry.listens port) sends).reader d).messages <+:
      ((openOn e port).run sends).messages d := by
  obtain ⟨kept, fails⟩ := Host.run_follows http port small
  cases failed : (({} : Exchange).run (e.registry.listens port) sends).failed with
  | false => exact ((kept failed).messages d) ▸ List.prefix_refl _
  | true => exact (fails failed).messages d

end StreamFraming
