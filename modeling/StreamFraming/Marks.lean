import StreamFraming.Direction

/-!
# Segment marks

A segment carries marks: which side sent it, and, once it is cut, whether the cut opens or closes a
message. Marks combine as sets do; `bits` is their packed form.
-/

namespace StreamFraming

structure Marks where
  fromServer : Bool := false
  fromClient : Bool := false
  head : Bool := false
  tail : Bool := false
  deriving DecidableEq, Repr

namespace Marks

def none : Marks := {}

def zipWith (f : Bool → Bool → Bool) (a b : Marks) : Marks where
  fromServer := f a.fromServer b.fromServer
  fromClient := f a.fromClient b.fromClient
  head := f a.head b.head
  tail := f a.tail b.tail

def union (a b : Marks) : Marks := zipWith (· || ·) a b

def diff (a b : Marks) : Marks := zipWith (fun x y => x && !y) a b

def contains (a b : Marks) : Bool := union a b == a

def ofDirection : Direction → Marks
  | .toServer => { fromClient := true }
  | .toClient => { fromServer := true }

/-- The marks with the sender's set by the direction, whatever it was. -/
def withDirection (m : Marks) (d : Direction) : Marks :=
  { m with fromServer := d == .toClient, fromClient := d == .toServer }

def bits (m : Marks) : Nat :=
  (if m.fromServer then 0x40 else 0) + (if m.fromClient then 0x80 else 0) +
    (if m.head then 0x100 else 0) + (if m.tail then 0x200 else 0)

end Marks

end StreamFraming
