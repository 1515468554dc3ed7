import StreamFraming.Holds

/-!
# Cells in a vector

How the cells of one direction are kept: in a vector, each at the index that is its id. A vector is
made longer when an id behind its end is claimed, and the cells in between stay vacant; taking a
value away leaves a vacant cell; only a release makes the vector shorter. It is taken to find room
for every id. Each operation is described by what `get?` finds after it: `get?_claim`,
`get?_assign`, `get?_erase`.
-/

namespace StreamFraming

structure Cells (α : Type) where
  cells : Array (Option α)

namespace Cells

open Holds

variable {α τ : Type} [Holds α τ]

def empty : Cells α := ⟨#[]⟩

def get? (c : Cells α) (id : Nat) : Option α := c.cells[id]?.join

theorem get?_of_size_le {c : Cells α} {id : Nat} (behind : c.cells.size ≤ id) :
    c.get? id = none := by
  rw [get?, Array.getElem?_eq_none behind]
  rfl

/-- Vacant cells behind the end, until there is one for the id. -/
def reach (c : Cells α) (id : Nat) : Cells α :=
  if c.cells.size ≤ id then ⟨c.cells ++ Array.replicate (id + 1 - c.cells.size) none⟩ else c

theorem lt_size_reach (c : Cells α) (id : Nat) : id < (c.reach id).cells.size := by
  unfold reach
  split
  · rw [Array.size_append, Array.size_replicate]
    omega
  · omega

def getAs? (τ : Type) [Holds α τ] (c : Cells α) (id : Nat) : Option τ :=
  (c.get? id).bind kept?

/-- The value under an id after a vacant cell was filled; none, and no change, where the cell holds
another kind. -/
def claim (c : Cells α) (id : Nat) (fresh : τ) : Cells α × Option τ :=
  have inside := c.lt_size_reach id
  match (c.reach id).cells[id] with
  | some a => (c.reach id, kept? a)
  | none => (⟨(c.reach id).cells.set id (some (keep fresh))⟩, some fresh)

def assign (c : Cells α) (id : Nat) (x : τ) : Cells α :=
  if (c.getAs? τ id).isSome then ⟨c.cells.setIfInBounds id (some (keep x))⟩ else c

def erase (c : Cells α) (id : Nat) : Cells α := ⟨c.cells.setIfInBounds id none⟩

def first? (τ : Type) [Holds α τ] (c : Cells α) : Option τ :=
  (c.cells.toList.filterMap fun cell => cell).findSome? kept?

def isEmpty (c : Cells α) : Bool := c.cells.all Option.isNone

def ids (c : Cells α) : List Nat := (c.cells.toList.zipIdx.filter (·.1.isSome)).map (·.2)

def describe (c : Cells α) : String :=
  Text.Listing.record "ScannerSlots" [("used", Text.Listing.list (c.ids.map toString))]

/-! ### Look-ups -/

@[simp] theorem get?_reach (c : Cells α) (id x : Nat) : (c.reach id).get? x = c.get? x := by
  unfold reach
  split
  · by_cases inside : x < c.cells.size
    · simp only [get?, Array.getElem?_append_left inside]
    · rw [get?_of_size_le (Nat.le_of_not_lt inside)]
      simp only [get?, Array.getElem?_append, if_neg inside, Array.getElem?_replicate]
      split <;> rfl
  · rfl

theorem get?_reach_self (c : Cells α) (id : Nat) (inside : id < (c.reach id).cells.size) :
    (c.reach id).cells[id] = c.get? id := by
  rw [← c.get?_reach id id, get?, Array.getElem?_eq_getElem inside, Option.join_some]

theorem get?_set (c : Cells α) (id x : Nat) (inside : id < c.cells.size) (a : α) :
    (Cells.mk (c.cells.set id (some a))).get? x = if id = x then some a else c.get? x := by
  simp only [get?, Array.getElem?_set]
  split <;> rfl

theorem claim_of_vacant {c : Cells α} {id : Nat} (h : c.get? id = none) (fresh : τ) :
    c.claim id fresh =
      (⟨(c.reach id).cells.set id (some (keep fresh)) (c.lt_size_reach id)⟩, some fresh) := by
  simp only [claim, get?_reach_self, h]

theorem claim_of_used {c : Cells α} {id : Nat} {a : α} (h : c.get? id = some a) (fresh : τ) :
    c.claim id fresh = (c.reach id, kept? a) := by
  simp only [claim, get?_reach_self, h]

theorem get?_claim (c : Cells α) (id x : Nat) (fresh : τ) :
    (c.claim id fresh).1.get? x =
      if id = x then some ((c.get? id).getD (keep fresh)) else c.get? x := by
  cases held : c.get? id with
  | none =>
    rw [claim_of_vacant held, get?_set, get?_reach]
    rfl
  | some a =>
    rw [claim_of_used held, get?_reach]
    split
    · rename_i same
      rw [← same, held]
      rfl
    · rfl

theorem claim_answer (c : Cells α) (id : Nat) (fresh : τ) :
    (c.claim id fresh).2 = Holds.claim fresh (c.get? id) := by
  cases held : c.get? id with
  | none => rw [claim_of_vacant held]; rfl
  | some a => rw [claim_of_used held]; rfl

theorem get?_assign (c : Cells α) (id x : Nat) (y : τ) :
    (c.assign id y).get? x =
      if id = x ∧ (c.getAs? τ id).isSome then some (keep y) else c.get? x := by
  unfold assign
  by_cases kind : (c.getAs? τ id).isSome = true
  · have inside : id < c.cells.size := by
      apply Nat.lt_of_not_le
      intro behind
      simp [getAs?, get?_of_size_le behind] at kind
    simp only [get?, kind, and_true, if_true, Array.getElem?_setIfInBounds, if_pos inside]
    split <;> rfl
  · rw [if_neg kind, if_neg fun h => kind h.2]

theorem get?_erase (c : Cells α) (id x : Nat) :
    (c.erase id).get? x = if id = x then none else c.get? x := by
  simp only [erase, get?, Array.getElem?_setIfInBounds]
  split
  · split <;> rfl
  · rfl

end Cells

end StreamFraming
