import StreamFraming.Host

/-!
# Runs of a host

What a host has cut off the queues of a session, sent segment by segment, and what the pieces of one
direction come to: the messages that are complete, and the bytes that were cut off behind the last
of them.
-/

namespace StreamFraming

structure Assembly where
  messages : List (List UInt8) := []
  /-- The bytes behind the last complete message. -/
  carried : List UInt8 := []
  deriving DecidableEq, Repr

namespace Assembly

def add (a : Assembly) (p : Piece) : Assembly :=
  if p.marks.tail then { messages := a.messages ++ [a.carried ++ p.bytes] }
  else { a with carried := a.carried ++ p.bytes }

def addAll (a : Assembly) (ps : List Piece) : Assembly := ps.foldl add a

def ofPieces (ps : List Piece) : Assembly := ({} : Assembly).addAll ps

@[simp] theorem addAll_nil (a : Assembly) : a.addAll [] = a := rfl

@[simp] theorem addAll_cons (a : Assembly) (p : Piece) (ps : List Piece) :
    a.addAll (p :: ps) = (a.add p).addAll ps := rfl

theorem addAll_append (a : Assembly) (ps qs : List Piece) :
    a.addAll (ps ++ qs) = (a.addAll ps).addAll qs :=
  List.foldl_append

theorem messages_addAll (a : Assembly) (ps : List Piece) :
    a.messages <+: (a.addAll ps).messages := by
  induction ps generalizing a with
  | nil => exact List.prefix_refl _
  | cons p ps ih =>
    have first : a.messages <+: (a.add p).messages := by
      unfold add
      split
      · exact List.prefix_append _ _
      · exact List.prefix_refl _
    exact first.trans (ih _)

end Assembly

def stream (sends : List (Direction × List UInt8)) (d : Direction) : List UInt8 :=
  (sends.filter (·.1 = d)).flatMap (·.2)

@[simp] theorem stream_nil (d : Direction) : stream [] d = [] := rfl

theorem stream_cons (x : Direction × List UInt8) (sends : List (Direction × List UInt8))
    (d : Direction) :
    stream (x :: sends) d = (if x.1 = d then x.2 else []) ++ stream sends d := by
  unfold stream
  by_cases h : x.1 = d
  · rw [List.filter_cons_of_pos (by simpa using h), List.flatMap_cons, if_pos h]
  · rw [List.filter_cons_of_neg (by simpa using h), if_neg h, List.nil_append]

theorem stream_append (a b : List (Direction × List UInt8)) (d : Direction) :
    stream (a ++ b) d = stream a d ++ stream b d := by
  simp [stream]

theorem stream_same (d e : Direction) (segments : List (List UInt8)) :
    stream (segments.map fun segment => (d, segment)) e =
      if d = e then segments.flatten else [] := by
  induction segments with
  | nil => simp
  | cons segment segments ih =>
    rw [List.map_cons, stream_cons, ih]
    split <;> simp

theorem stream_same_lt (d : Direction) {segments : List (List UInt8)} {n : Nat}
    (small : segments.flatten.length < n) (e : Direction) :
    (stream (segments.map fun segment => (d, segment)) e).length < n := by
  rw [stream_same]
  split
  · exact small
  · exact Nat.lt_of_le_of_lt (Nat.zero_le _) small

/-- A host, the pieces it has cut off in each direction, and the scans that took place. -/
structure Run (α μ : Type) where
  host : Host α μ
  pieces : Direction → List Piece := fun _ => []
  calls : List (Call α μ) := []

namespace Run

variable {α μ : Type}

def send (r : Run α μ) (d : Direction) (bytes : List UInt8) : Run α μ :=
  let (c, host) := r.host.send d bytes
  { host
    pieces := fun e => if e = d then r.pieces e ++ c.pieces else r.pieces e
    calls := r.calls ++ c.calls }

def sendAll (r : Run α μ) (sends : List (Direction × List UInt8)) : Run α μ :=
  sends.foldl (fun r x => r.send x.1 x.2) r

@[simp] theorem sendAll_nil (r : Run α μ) : r.sendAll [] = r := rfl

@[simp] theorem sendAll_cons (r : Run α μ) (x : Direction × List UInt8)
    (sends : List (Direction × List UInt8)) :
    r.sendAll (x :: sends) = (r.send x.1 x.2).sendAll sends := rfl

theorem calls_sendAll (r : Run α μ) (sends : List (Direction × List UInt8)) :
    r.calls <+: (r.sendAll sends).calls := by
  induction sends generalizing r with
  | nil => exact List.prefix_refl _
  | cons x sends ih =>
    have first : r.calls <+: (r.send x.1 x.2).calls := List.prefix_append _ _
    exact first.trans (ih _)

def assembly (r : Run α μ) (d : Direction) : Assembly := .ofPieces (r.pieces d)

/-- The complete messages of a direction. -/
def messages (r : Run α μ) (d : Direction) : List (List UInt8) := (r.assembly d).messages

/-- The bytes of a direction that make no complete message yet. -/
def unfinished (r : Run α μ) (d : Direction) : List UInt8 :=
  (r.assembly d).carried ++ (r.host.queue d).bytes

theorem messages_send (r : Run α μ) (d e : Direction) (bytes : List UInt8) :
    r.messages e <+: (r.send d bytes).messages e := by
  unfold messages assembly send
  simp only
  split
  · rw [Assembly.ofPieces, Assembly.ofPieces, Assembly.addAll_append]
    exact Assembly.messages_addAll _ _
  · exact List.prefix_refl _

theorem messages_sendAll (r : Run α μ) (e : Direction) (sends : List (Direction × List UInt8)) :
    r.messages e <+: (r.sendAll sends).messages e := by
  induction sends generalizing r with
  | nil => exact List.prefix_refl _
  | cons x sends ih => exact (r.messages_send x.1 e x.2).trans (ih _)

end Run

namespace Host

variable {α μ : Type}

def run (h : Host α μ) (sends : List (Direction × List UInt8)) : Run α μ :=
  ({ host := h } : Run α μ).sendAll sends

@[simp] theorem queue_setQueue_self (h : Host α μ) (d : Direction) (q : Queue) :
    (h.setQueue d q).queue d = q := by
  cases d <;> rfl

end Host

end StreamFraming
