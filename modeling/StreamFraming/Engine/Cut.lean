import StreamFraming.Lane
import StreamFraming.Settings

/-!
# Cuts

A lane's queue is cut where a message ends, or as a whole when it has grown too long. The first cut
of a message bears the head mark and the last one the tail mark; what lies between them is counted
in the lane.
-/

namespace StreamFraming

inductive Cut where
  | abort
  | boundary
  | bound
  deriving DecidableEq, Repr

namespace Lane

variable {α : Type}

/-- Cut a queue of `total` bytes. The lane's position moves past the bytes cut off; those that
remain are presented again. A cut that does not end the message takes what it asked for off the
target, and a cut of no bytes moves nothing. -/
def cut (l : Lane α) (kind : Cut) (total : UInt32) (marks : Marks) : UInt32 × Marks × Lane α :=
  match kind with
  | .abort => (0, .none, l)
  | .boundary =>
    let marks := { marks with head := false, tail := true }
    if l.target = 0 ∨ total = 0 then (0, marks, l)
    else
      let length := min l.target longestCut
      (length, { marks with head := l.carried == 0 },
        { l with carried := 0, origin := l.origin + length, expected := l.origin + length })
  | .bound =>
    let marks := { marks with head := false, tail := false }
    let l := { l with target := Length.sub l.target total }
    if total = 0 then (0, marks, l)
    else
      let length := min total longestCut
      (length, { marks with head := l.carried == 0 },
        { l with
          carried := Length.add l.carried length
          origin := l.origin + length
          expected := l.origin + length })

end Lane

end StreamFraming
