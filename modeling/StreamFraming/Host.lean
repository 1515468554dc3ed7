import StreamFraming.Engine

/-!
# The host

A minimal reassembler: it queues what arrives in order in each direction, asks the engine where to
cut, and presents what remains after a cut again from its new start. It stops asking when nothing is
to be cut or when no bytes are left; each cut makes the queue shorter.
-/

namespace StreamFraming

structure Piece where
  bytes : List UInt8
  marks : Marks
  deriving DecidableEq, Repr

structure Queue where
  /-- The bytes, latest first, so that those of a new segment go on top. -/
  held : List UInt8 := []
  size : Nat := held.length
  size_eq : size = held.length := by rfl
  seq : UInt32 := 0
  deriving DecidableEq, Repr

namespace Queue

def bytes (q : Queue) : List UInt8 := q.held.reverse

def empty (seq : UInt32) : Queue := { seq }

@[simp] theorem size_empty (seq : UInt32) : (empty seq).size = 0 := rfl

@[simp] theorem seq_empty (seq : UInt32) : (empty seq).seq = seq := rfl

def hold (q : Queue) (fresh : List UInt8) : Queue where
  held := fresh.reverse ++ q.held
  size := q.size + fresh.length
  size_eq := by rw [q.size_eq, List.length_append, List.length_reverse, Nat.add_comm]
  seq := q.seq

@[simp] theorem length_bytes (q : Queue) : q.bytes.length = q.size := by
  rw [bytes, List.length_reverse, q.size_eq]

@[simp] theorem bytes_hold (q : Queue) (fresh : List UInt8) :
    (q.hold fresh).bytes = q.bytes ++ fresh := by
  simp [bytes, hold]

@[simp] theorem seq_hold (q : Queue) (fresh : List UInt8) : (q.hold fresh).seq = q.seq := rfl

@[ext] theorem ext {q r : Queue} (bytes : q.bytes = r.bytes) (seq : q.seq = r.seq) : q = r := by
  obtain ⟨held, size, size_eq, _⟩ := q
  obtain ⟨held', size', size_eq', _⟩ := r
  have : held = held' := List.reverse_inj.mp bytes
  subst this size_eq size_eq' seq
  rfl

end Queue

structure Host (α μ : Type) where
  engine : Engine α μ
  session : Session α
  toServer : Queue := {}
  toClient : Queue := {}

structure Cutting (α μ : Type) where
  engine : Engine α μ
  session : Session α
  queue : Queue
  pieces : List Piece := []
  calls : List (Call α μ) := []

namespace Host

variable {α μ : Type}

def openOn (e : Engine α μ) (port : UInt16) : Host α μ :=
  { engine := e, session := e.openSession 1 port }

def queue (h : Host α μ) : Direction → Queue
  | .toServer => h.toServer
  | .toClient => h.toClient

def setQueue (h : Host α μ) (d : Direction) (q : Queue) : Host α μ :=
  match d with
  | .toServer => { h with toServer := q }
  | .toClient => { h with toClient := q }

/-- Present the bytes `fresh` behind those that wait, and cut for as long as the engine finds
something to cut. What a cut leaves is fresh again, with nothing in front of it. -/
def cutQueue (d : Direction) (e : Engine α μ) (s : Session α) (q : Queue) (fresh : List UInt8) :
    Cutting α μ :=
  if empty : fresh.isEmpty then { engine := e, session := s, queue := q }
  else
    let size := q.size + fresh.length
    let reply := e.check s d
      { data := fresh
        queued := size.toUInt32
        seq := q.seq + q.size.toUInt32
        marks := .ofDirection d }
    if found : reply.length = 0 then
      { engine := reply.engine, session := reply.session, queue := q.hold fresh
        calls := reply.calls }
    else
      let length := min reply.length.toNat size
      let whole := q.bytes ++ fresh
      have : whole.length - length < q.size + fresh.length := by
        have : reply.length.toNat ≠ 0 := fun h => found (UInt32.toNat_inj.mp h)
        have : 0 < fresh.length := List.length_pos_iff.mpr (by simpa using empty)
        simp only [whole, length, size, List.length_append, Queue.length_bytes]
        omega
      let next := cutQueue d reply.engine reply.session
        { seq := q.seq + length.toUInt32 } (whole.drop length)
      { next with
        pieces := { bytes := whole.take length, marks := reply.marks } :: next.pieces
        calls := reply.calls ++ next.calls }
termination_by q.size + fresh.length
decreasing_by simpa only [List.length_drop, List.length_nil, Nat.zero_add] using this

def send (h : Host α μ) (d : Direction) (bytes : List UInt8) : Cutting α μ × Host α μ :=
  let c := cutQueue d h.engine h.session (h.queue d) bytes
  (c, { h with engine := c.engine, session := c.session }.setQueue d c.queue)

end Host

end StreamFraming
