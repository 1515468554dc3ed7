import StreamFraming.Length
import StreamFraming.Marks
import StreamFraming.ScannerSet
import StreamFraming.Serial
import StreamFraming.Slots

/-!
# Lanes

A lane is what is known about one direction of a session: how far its stream has been read, which
scanners still compete for it, and where the message in progress ends as far as that is known.
Sequence numbers are counted on the circle of `Serial`; offsets are counted from the first queued
byte.
-/

namespace StreamFraming

inductive Status where
  | start
  | search
  | flush
  | skip
  | abort
  deriving DecidableEq, Repr

structure Lane (α : Type) where
  status : Status := .start
  eligible : ScannerSet := .empty
  expected : UInt32 := 0
  origin : UInt32 := 0
  target : UInt32 := 0
  /-- Bytes of the message in progress that were cut off already. -/
  carried : UInt32 := 0
  slots : Slots α := .empty
  deriving DecidableEq

inductive Arrival (α : Type) where
  | gap
  | stale
  | fresh (lane : Lane α) (data : List UInt8)
  deriving DecidableEq

namespace Lane

variable {α : Type}

def isInitialized (l : Lane α) : Bool := l.status != .start

def isActive (l : Lane α) : Bool := l.status != .abort && !l.eligible.isEmpty

def ofScanners (eligible : ScannerSet) : Lane α := { eligible }

def abort (l : Lane α) : Lane α :=
  { l with status := .abort, eligible := .empty, slots := .empty }

/-- Give the lane up from outside; the scanners are not struck from the race. -/
def clear (l : Lane α) : Lane α := { l with status := .abort, slots := .empty }

def dismiss (l : Lane α) (id : Nat) : Lane α :=
  { l with eligible := l.eligible.erase id, slots := l.slots.erase id }

/-- Sort a segment by its sequence number. The first segment sets the lane's position; a later one
may leave no gap, and gives only the bytes that were not read before. -/
def arrival (l : Lane α) (seq : UInt32) (data : List UInt8) : Arrival α :=
  if l.status = .start then
    .fresh { l with status := .search, expected := seq, origin := seq } data
  else if Serial.after seq l.expected then .gap
  else if Serial.atOrBefore (seq + Length.ofNat data.length) l.expected then .stale
  else if Serial.before seq l.expected then .fresh l (data.drop (l.expected - seq).toNat)
  else .fresh l data

def read (l : Lane α) (n : Nat) : Lane α := { l with expected := l.expected + n.toUInt32 }

end Lane

end StreamFraming
