import StreamFraming.Anomaly
import StreamFraming.Lane

/-!
# Sessions

A session is a key, the server port it was opened on, one lane for each direction, and the anomalies
raised since they were last taken away.
-/

namespace StreamFraming

structure Session (α : Type) where
  key : UInt64
  port : UInt16
  toServer : Lane α
  toClient : Lane α
  raised : List Anomaly := []
  deriving DecidableEq

namespace Session

variable {α : Type}

def lane (s : Session α) : Direction → Lane α
  | .toServer => s.toServer
  | .toClient => s.toClient

def setLane (s : Session α) (d : Direction) (l : Lane α) : Session α :=
  match d with
  | .toServer => { s with toServer := l }
  | .toClient => { s with toClient := l }

@[simp] theorem lane_setLane_self (s : Session α) (d : Direction) (l : Lane α) :
    (s.setLane d l).lane d = l := by
  cases d <;> rfl

@[simp] theorem lane_setLane_opposite (s : Session α) (d : Direction) (l : Lane α) :
    (s.setLane d l).lane d.opposite = s.lane d.opposite := by
  cases d <;> rfl

@[simp] theorem raised_setLane (s : Session α) (d : Direction) (l : Lane α) :
    (s.setLane d l).raised = s.raised := by
  cases d <;> rfl

@[simp] theorem key_setLane (s : Session α) (d : Direction) (l : Lane α) :
    (s.setLane d l).key = s.key := by
  cases d <;> rfl

@[simp] theorem port_setLane (s : Session α) (d : Direction) (l : Lane α) :
    (s.setLane d l).port = s.port := by
  cases d <;> rfl

/-- Give one lane up from outside. -/
def clear (s : Session α) (d : Direction) : Session α := s.setLane d (s.lane d).clear

def drain (s : Session α) : List Anomaly × Session α := (s.raised, { s with raised := [] })

end Session

end StreamFraming
