import StreamFraming.Engine.Cut
import StreamFraming.Engine.Race

/-!
# Following a lane through its queue

A race is run where the unscanned bytes begin. When it is decided inside the queue the lane goes on
from there: after a skip with another race, after a flush with the cut. `pursue` repeats such moves
until a cut is due or more bytes are needed. It ends because a decided race never leaves the lane
searching, and a skip either makes way through the queue or ends the pursuit; `remaining` is the
bound on the moves left.
-/

namespace StreamFraming

inductive Move where
  | again (idx : UInt32)
  | wait
  | cut (kind : Cut)
  deriving DecidableEq, Repr

namespace Field

variable {α μ : Type}

/-- Run a race over the bytes at an offset. A decided race sets the lane's target; one inside the
queue lets the lane go on there. -/
def contest (q : Inquiry α μ) (idx : UInt32) (data : List UInt8) (f : Field α μ) :
    Move × Field α μ :=
  let (v, f) := race q ⟨f.lane.origin + idx, data⟩ f.lane.eligible.ids .search f
  let lane := f.lane.conclude v
  if v.isDecisive || lane.eligible.isEmpty then
    let target := Length.add lane.target idx
    (if target ≤ q.total then .again target else .wait, { f with lane := { lane with target } })
  else
    (.wait, { f with lane })

def move (q : Inquiry α μ) (idx : UInt32) (data : List UInt8) (f : Field α μ) :
    Move × Field α μ :=
  match f.lane.status with
  | .search => if idx < q.total then contest q idx data f else (.wait, f)
  | .flush =>
    if f.lane.target ≤ q.total then
      (.cut .boundary, { f with lane := { f.lane with status := .search } })
    else if q.limit ≤ q.total then (.cut .bound, f)
    else (.wait, f)
  | .skip =>
    let passed := (f.lane.target - idx).toNat
    if q.total ≤ f.lane.target then (.wait, f)
    else if f.lane.target ≤ idx then contest q f.lane.target data f
    else if data.length < passed then (.wait, f)
    else contest q f.lane.target (data.drop passed) f
  | .start | .abort => (.cut .abort, f)

theorem contest_again {q : Inquiry α μ} {idx next : UInt32} {data : List UInt8} {f g : Field α μ}
    (h : contest q idx data f = (.again next, g)) :
    idx ≤ next ∧ next ≤ q.total ∧
      (g.lane.status = .flush ∨ g.lane.status = .skip ∨ g.lane.status = .abort) := by
  unfold contest at h
  generalize race q ⟨f.lane.origin + idx, data⟩ f.lane.eligible.ids .search f = r at h
  obtain ⟨v, r⟩ := r
  simp only at h
  split at h
  · rename_i decided
    simp only [Prod.mk.injEq] at h
    obtain ⟨hm, rfl⟩ := h
    split at hm
    · rename_i inside
      cases hm
      refine ⟨?_, inside, ?_⟩
      · rw [UInt32.le_iff_toNat_le, Length.toNat_add]
        have := idx.toNat_lt
        omega
      · simp only [Lane.conclude] at decided ⊢
        by_cases e : r.lane.eligible.isEmpty = true
        · simp [e, Lane.abort]
        · cases v <;> simp_all [Verdict.isDecisive]
    · cases hm
  · simp at h

theorem move_again {q : Inquiry α μ} {idx next : UInt32} {data : List UInt8} {f g : Field α μ}
    (h : move q idx data f = (.again next, g)) :
    next ≤ q.total ∧ (g.lane.status = .flush ∨ g.lane.status = .skip ∨ g.lane.status = .abort) ∧
      (f.lane.status = .search ∧ idx ≤ next ∨ f.lane.status = .skip) := by
  unfold move at h
  cases hs : f.lane.status <;> simp only [hs] at h
  · simp at h
  · split at h
    · have ⟨a, b, c⟩ := contest_again h
      exact ⟨b, c, .inl ⟨rfl, a⟩⟩
    · simp at h
  · split at h
    · simp at h
    · split at h <;> simp at h
  · split at h
    · simp at h
    · split at h
      · have ⟨_, b, c⟩ := contest_again h
        exact ⟨b, c, .inr rfl⟩
      · split at h
        · simp at h
        · have ⟨_, b, c⟩ := contest_again h
          exact ⟨b, c, .inr rfl⟩
  · simp at h

/-- A bound on the moves left: none once a race is won for good, and else one for each queued byte
ahead, a lane that searches having one more than a lane that skips. -/
def remaining (total idx : UInt32) : Status → Nat
  | .start | .flush | .abort => 0
  | .skip => 1 + (total.toNat - idx.toNat)
  | .search => 2 + (total.toNat - idx.toNat)

theorem remaining_lt {q : Inquiry α μ} {idx next : UInt32} {data : List UInt8} {f g : Field α μ}
    (h : move q idx data f = (.again next, g))
    (progress : idx < next ∨ ¬(f.lane.status = .skip ∧ g.lane.status = .skip)) :
    remaining q.total next g.lane.status < remaining q.total idx f.lane.status := by
  obtain ⟨inside, after, before⟩ := move_again h
  rw [UInt32.le_iff_toNat_le] at inside
  rw [UInt32.lt_iff_toNat_lt] at progress
  rcases before with ⟨before, ahead⟩ | before
  · rw [UInt32.le_iff_toNat_le] at ahead
    rcases after with after | after | after <;> simp only [before, after, remaining] <;> omega
  · rcases after with after | after | after
    · simp only [before, after, remaining]; omega
    · simp only [before, after, remaining]
      simp only [before, after, and_self, not_true_eq_false, or_false] at progress
      omega
    · simp only [before, after, remaining]; omega

/-- Repeat moves until a cut is due, or until more bytes are needed (`none`). A scanner that skips
nothing twice in a row ends the pursuit. -/
def pursue (q : Inquiry α μ) (idx : UInt32) (data : List UInt8) (f : Field α μ) :
    Option Cut × Field α μ :=
  match h : move q idx data f with
  | (.cut kind, g) => (some kind, g)
  | (.wait, g) => (none, g)
  | (.again next, g) =>
    if ahead : idx < next then
      have := remaining_lt h (.inl ahead)
      pursue q next (data.drop (next - idx).toNat) g
    else if stuck : f.lane.status = .skip ∧ g.lane.status = .skip then (none, g)
    else
      have := remaining_lt h (.inr stuck)
      pursue q next data g
termination_by remaining q.total idx f.lane.status

end Field

end StreamFraming
