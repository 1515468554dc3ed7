import StreamFraming.Engine.Pursuit
import StreamFraming.Session

/-!
# The engine

The engine answers, for each segment that arrives on a lane, how many of the queued bytes are to be
cut off: a whole message, a piece of one that grew past the size bound, or nothing yet. It holds the
registry, which never changes, and what changes across sessions: the scanners' memories and the
counts of its own work.
-/

namespace StreamFraming

structure Segment where
  data : List UInt8
  /-- The number of bytes queued for the direction, those of the segment included. -/
  queued : UInt32
  seq : UInt32
  marks : Marks
  slack : UInt32 := 0
  deriving DecidableEq, Repr

structure Engine (α μ : Type) where
  registry : Registry α μ
  memories : Slots μ := .empty
  stats : Tally := {}

structure Reply (α μ : Type) where
  engine : Engine α μ
  session : Session α
  length : UInt32
  marks : Marks
  calls : List (Call α μ)

namespace Engine

variable {α μ : Type}

def ofRegistry (registry : Registry α μ) : Engine α μ := { registry }

def isEnabled (e : Engine α μ) (x : Endpoint) (asked : Bool) : Bool :=
  e.registry.isEnabled x asked

def freshLane (e : Engine α μ) (port : UInt16) (d : Direction) : Lane α :=
  .ofScanners (e.registry.binding ⟨port, d⟩).scanners

def setup (e : Engine α μ) (s : Session α) (d : Direction) (port : UInt16) : Session α :=
  s.setLane d (e.freshLane port d)

def resetSession (e : Engine α μ) (s : Session α) : Session α :=
  { s with
    toServer := e.freshLane s.port .toServer
    toClient := e.freshLane s.port .toClient }

def openSession (e : Engine α μ) (key : UInt64) (port : UInt16) : Session α :=
  { key, port,
    toServer := e.freshLane port .toServer
    toClient := e.freshLane port .toClient }

/-- Run a lane's scanners over the new bytes `data` that end its queue, and cut the queue as they
say, or because it has grown past the size bound while no boundary is known. -/
def evaluate (e : Engine α μ) (s : Session α) (d : Direction) (lane : Lane α)
    (data : List UInt8) (segment : Segment) : Reply α μ :=
  let limit := Length.add e.registry.maxFlushPoint segment.slack
  let q : Inquiry α μ :=
    { registry := e.registry, marks := segment.marks.withDirection d, total := segment.queued,
      limit }
  let idx := Length.sub segment.queued data.length.toUInt32
  let (cut?, f) := Field.pursue q idx data
    { lane := lane.read data.length, peer := (s.lane d.opposite).slots, memories := e.memories }
  let cut? :=
    match cut? with
    | some kind => some kind
    | none => if f.lane.status ≠ .flush ∧ limit < segment.queued then some .bound else none
  let (length, marks, lane) :=
    match cut? with
    | some kind => f.lane.cut kind segment.queued segment.marks
    | none => (0, segment.marks, f.lane)
  { engine := { e with memories := f.memories, stats := e.stats.count data.length }
    session :=
      { (s.setLane d lane).setLane d.opposite { s.lane d.opposite with slots := f.peer } with
        raised := s.raised ++ f.raised }
    length, marks
    calls := f.calls.reverse }

/-- Evaluate a segment. A gap in front of it gives the lane up, and a segment that was read before
changes nothing. -/
def check (e : Engine α μ) (s : Session α) (d : Direction) (segment : Segment) : Reply α μ :=
  match (s.lane d).arrival segment.seq segment.data with
  | .gap =>
    { engine := e, session := s.setLane d (s.lane d).abort, length := 0, marks := .none,
      calls := [] }
  | .stale => { engine := e, session := s, length := 0, marks := segment.marks, calls := [] }
  | .fresh lane data => e.evaluate s d lane data segment

def describe (e : Engine α μ) : String :=
  Text.Listing.record "FlushPointEngine"
    [("registry", e.registry.describe),
      ("stats", Text.Listing.record "EngineStats"
        [("calls", toString e.stats.calls.toNat), ("bytes", toString e.stats.bytes.toNat)])]

end Engine

end StreamFraming
