/-!
# Directions

A session carries two byte streams: requests run towards the server, responses towards the client.
-/

namespace StreamFraming

inductive Direction where
  | toServer
  | toClient
  deriving DecidableEq, Repr

namespace Direction

def opposite : Direction → Direction
  | toServer => toClient
  | toClient => toServer

@[simp] theorem opposite_opposite (d : Direction) : d.opposite.opposite = d := by
  cases d <;> rfl

theorem opposite_ne (d : Direction) : d.opposite ≠ d := by
  cases d <;> decide

theorem eq_opposite_of_ne {d e : Direction} (h : e ≠ d) : e = d.opposite := by
  cases d <;> cases e <;> simp_all [opposite]

end Direction

end StreamFraming
