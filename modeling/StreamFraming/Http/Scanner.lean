import StreamFraming.Holds
import StreamFraming.Http.Progress
import StreamFraming.Session

/-!
# The HTTP scanner

The scanner keeps the progress of each direction in its cells. When a HEAD request ends it tells the
opposite direction that the next response has no body. It gives a direction up whose message could
not be framed, and any direction once it has taken more bytes than its cap allows.
-/

namespace StreamFraming.Http

open Holds

variable {α : Type} [Holds α Progress]

/-- The cell of the response side once it knows of a HEAD request; a value of another kind is left
alone. -/
def expectNoBody (cell : Option α) : Option α :=
  match claim Progress.response cell with
  | some p => some (keep (p.mark fun f => { f with noBody := true }))
  | none => cell

/-- Scan a window. Calls that give up at once are not counted. A cap of zero is no cap. -/
def scan (byteCap : UInt32) (memory : Tally) (sight : Sight α) (window : List UInt8) :
    Report α Tally :=
  let fromClient := sight.marks.fromClient
  match claim (Progress.fresh fromClient) sight.own with
  | none => .plain memory sight .abort 0
  | some p =>
    if p.flags.error || (byteCap != 0 && decide (byteCap.toUInt64 < memory.bytes)) then
      .plain memory { sight with own := some (keep p) } .abort 0
    else
      let s := p.scan fromClient window
      { verdict := s.verdict
        point := s.point
        own := some (keep s.progress)
        peer := if s.headDone then expectNoBody sight.peer else sight.peer
        memory := memory.count s.consumed
        raised := s.raised }

def scannerName : String := "http"

def scanner (byteCap : UInt32) : Scanner α Tally :=
  { name := scannerName, memory := {}, scan := scan byteCap }

def scanner? (byteCap : UInt32) : Except Token.TableError (Scanner α Tally) :=
  (Token.table.validate).map fun _ => scanner byteCap

theorem scanner?_eq (byteCap : UInt32) :
    (scanner? byteCap : Except Token.TableError (Scanner α Tally)) = .ok (scanner byteCap) := by
  rw [scanner?, Token.validate_table]
  rfl

def describe (byteCap : UInt32) (memory : Tally) : String :=
  Text.Listing.record "HttpScanner"
    [("byte_cap", toString byteCap.toNat),
      ("stats", Text.Listing.record "ScannerStats"
        [("calls", toString memory.calls.toNat), ("bytes", toString memory.bytes.toNat)])]

def progress? (s : Session α) (d : Direction) : Option Progress :=
  (s.lane d).slots.first? Progress

def isSimpleRequest (s : Session α) : Bool := (progress? s .toServer).any Progress.isSimple

end StreamFraming.Http
