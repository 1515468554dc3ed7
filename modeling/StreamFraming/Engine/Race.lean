import StreamFraming.Lane
import StreamFraming.Registry

/-!
# The race for a boundary

The scanners of a lane look at the same bytes in the order of their ids, up to the first one that is
decisive. That one keeps the lane for itself; one that gives up is struck from the race. The last
answer decides what the lane does next, and a lane without scanners is given up.
-/

namespace StreamFraming

structure Field (α μ : Type) where
  lane : Lane α
  peer : Slots α
  memories : Slots μ
  raised : List Anomaly := []
  calls : List (Call α μ) := []

structure Inquiry (α μ : Type) where
  registry : Registry α μ
  marks : Marks
  total : UInt32
  limit : UInt32

namespace Field

variable {α μ : Type}

def consult (q : Inquiry α μ) (w : Window) (id : Nat) (s : Scanner α μ) (f : Field α μ) :
    Verdict × Field α μ :=
  let memory := (f.memories.get? id).getD s.memory
  let call := s.look memory id q.marks f.lane.slots f.peer w
  (call.report.verdict,
    { lane := { f.lane with slots := call.storeOwn f.lane.slots, target := call.report.point }
      peer := call.storePeer f.peer
      memories := f.memories.set id call.report.memory
      raised := f.raised ++ call.report.raised
      calls := call :: f.calls })

def dismiss (f : Field α μ) (id : Nat) : Field α μ := { f with lane := f.lane.dismiss id }

def award (f : Field α μ) (id : Nat) : Field α μ :=
  { f with lane := { f.lane with eligible := .singleton id } }

/-- Let the given scanners look at a window in turn. The result is the last answer, or `v` when
there was none. -/
def race (q : Inquiry α μ) (w : Window) :
    List Nat → Verdict → Field α μ → Verdict × Field α μ
  | [], v, f => (v, f)
  | id :: ids, v, f =>
    match q.registry.scanner? id with
    | none => race q w ids v (f.dismiss id)
    | some s =>
      match f.consult q w id s with
      | (.search, f) => race q w ids .search f
      | (.abort, f) => race q w ids .abort (f.dismiss id)
      | (v, f) => (v, f.award id)

end Field

def Lane.conclude {α : Type} (l : Lane α) (v : Verdict) : Lane α :=
  if l.eligible.isEmpty then l.abort
  else
    match v with
    | .search => { l with status := .search }
    | .flush => { l with status := .flush }
    | .skip => { l with status := .skip }
    | .abort => l

end StreamFraming
