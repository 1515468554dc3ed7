import StreamFraming.Marks
import StreamFraming.Anomaly
import StreamFraming.Slots

/-!
# Scanners

A scanner looks at the unscanned bytes of one direction and says where the message in them ends. It
is shared by all sessions, and what it remembers across them is its memory. What it keeps for one
session lies in two cells that it alone may use, one for the direction it scans and one for the
opposite direction. A scan is a function: from memory, cells and bytes to a verdict and to the
memory and cells that replace them.

Memories have type `μ` and cells hold values of type `α`; all scanners that work side by side share
both types.
-/

namespace StreamFraming

inductive Verdict where
  | search
  | flush
  | skip
  | abort
  deriving DecidableEq, Repr

def Verdict.isDecisive : Verdict → Bool
  | flush | skip => true
  | search | abort => false

structure Sight (α : Type) where
  id : Nat
  marks : Marks
  own : Option α
  peer : Option α
  deriving DecidableEq

structure Report (α μ : Type) where
  verdict : Verdict
  /-- Counted from the start of the window. -/
  point : UInt32
  own : Option α
  peer : Option α
  memory : μ
  raised : List Anomaly
  deriving DecidableEq

/-- A scanner. Two scanners of one name count as the same scanner. -/
structure Scanner (α μ : Type) where
  name : String
  memory : μ
  scan : μ → Sight α → List UInt8 → Report α μ

def Report.plain {α μ : Type} (memory : μ) (sight : Sight α) (verdict : Verdict)
    (point : UInt32) : Report α μ :=
  { verdict, point, own := sight.own, peer := sight.peer, memory, raised := [] }

structure Window where
  seq : UInt32
  bytes : List UInt8
  deriving DecidableEq, Repr

structure Call (α μ : Type) where
  sight : Sight α
  window : Window
  memory : μ
  report : Report α μ
  deriving DecidableEq

def Scanner.look {α μ : Type} (s : Scanner α μ) (memory : μ) (id : Nat) (marks : Marks)
    (own peer : Slots α) (window : Window) : Call α μ :=
  let sight : Sight α := { id, marks, own := own.get? id, peer := peer.get? id }
  { sight, window, memory, report := s.scan memory sight window.bytes }

def Call.storeOwn {α μ : Type} (c : Call α μ) (own : Slots α) : Slots α :=
  own.update c.sight.id c.report.own

def Call.storePeer {α μ : Type} (c : Call α μ) (peer : Slots α) : Slots α :=
  peer.update c.sight.id c.report.peer

structure Tally where
  calls : UInt64 := 0
  bytes : UInt64 := 0
  deriving DecidableEq, Repr

def Tally.count (t : Tally) (n : Nat) : Tally :=
  { calls := t.calls + 1, bytes := t.bytes + n.toUInt64 }

end StreamFraming
