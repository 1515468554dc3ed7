import StreamFraming.Slots

/-!
# Values of several kinds in one table

A cell may hold values of more than one kind. `Holds α τ` says that cells of type `α` can hold a
`τ` and that it can be told from values of other kinds. Access by kind finds a value only where one
of that kind is (`getAs?_eq_some_iff`), and never disturbs a value of another kind (`get?_claim`,
`get?_assign`).
-/

namespace StreamFraming

class Holds (α τ : Type) where
  keep : τ → α
  kept? : α → Option τ
  kept?_eq_some_iff : ∀ {a x}, kept? a = some x ↔ a = keep x

namespace Holds

instance (τ : Type) : Holds τ τ where
  keep := id
  kept? := some
  kept?_eq_some_iff := by simp

variable {α τ : Type} [Holds α τ]

@[simp] theorem kept?_keep (x : τ) : kept? (keep x : α) = some x :=
  kept?_eq_some_iff.mpr rfl

def claim (fresh : τ) : Option α → Option τ
  | some a => kept? a
  | none => some fresh

theorem claim_eq_some_iff {fresh x : τ} {cell : Option α} :
    claim fresh cell = some x ↔ cell = some (keep x) ∨ cell = none ∧ x = fresh := by
  cases cell with
  | none => simp [claim, eq_comm]
  | some a => simp [claim, kept?_eq_some_iff]

end Holds

namespace Slots

open Holds

variable {α τ : Type} [Holds α τ]

def getAs? (τ : Type) [Holds α τ] (s : Slots α) (id : Nat) : Option τ :=
  (s.get? id).bind kept?

/-- The value under an id after an empty cell was filled; none, and no change, where the cell holds
another kind. -/
def claim (s : Slots α) (id : Nat) (fresh : τ) : Slots α × Option τ :=
  match s.get? id with
  | some a => (s, kept? a)
  | none => (s.set id (keep fresh), some fresh)

def assign (s : Slots α) (id : Nat) (x : τ) : Slots α :=
  if (s.getAs? τ id).isSome then s.set id (keep x) else s

def first? (τ : Type) [Holds α τ] (s : Slots α) : Option τ :=
  s.entries.findSome? fun e => kept? e.2

theorem getAs?_eq_some_iff {s : Slots α} {id : Nat} {x : τ} :
    s.getAs? τ id = some x ↔ s.get? id = some (keep x) := by
  simp [getAs?, Option.bind_eq_some_iff, kept?_eq_some_iff]

theorem claim_of_vacant {s : Slots α} {id : Nat} (h : s.get? id = none) (fresh : τ) :
    s.claim id fresh = (s.set id (keep fresh), some fresh) := by
  simp [claim, h]

theorem get?_claim (s : Slots α) (id x : Nat) (fresh : τ) :
    (s.claim id fresh).1.get? x =
      if id = x then some ((s.get? id).getD (keep fresh)) else s.get? x := by
  cases held : s.get? id with
  | none =>
    rw [claim_of_vacant held, get?_set]
    rfl
  | some a =>
    simp only [claim, held, Option.getD_some]
    split
    · rename_i same
      rw [← same, held]
    · rfl

theorem claim_answer (s : Slots α) (id : Nat) (fresh : τ) :
    (s.claim id fresh).2 = Holds.claim fresh (s.get? id) := by
  cases held : s.get? id with
  | none => rw [claim_of_vacant held]; rfl
  | some a => simp only [claim, held, Holds.claim]

theorem get?_assign (s : Slots α) (id x : Nat) (y : τ) :
    (s.assign id y).get? x =
      if id = x ∧ (s.getAs? τ id).isSome then some (keep y) else s.get? x := by
  unfold assign
  by_cases kind : (s.getAs? τ id).isSome = true
  · simp only [kind, and_true, if_true, get?_set]
  · rw [if_neg kind, if_neg fun h => kind h.2]

theorem getAs?_of_mem {s : Slots α} {id : Nat} {a : α} (mem : (id, a) ∈ s.entries) :
    s.getAs? τ id = kept? a := by
  rw [getAs?, get?, (lookup_eq_some_iff s.increasing).mpr mem, Option.bind_some]

theorem first?_eq_some_iff {s : Slots α} {x : τ} :
    s.first? τ = some x ↔ ∃ id, s.getAs? τ id = some x ∧ ∀ i < id, s.getAs? τ i = none := by
  rw [first?, List.findSome?_eq_some_iff]
  constructor
  · rintro ⟨before, ⟨id, a⟩, after, parts, kept, others⟩
    have sorted := s.increasing
    rw [parts, List.pairwise_append, List.pairwise_cons] at sorted
    refine ⟨id, ?_, fun i smaller => ?_⟩
    · rw [getAs?_of_mem (parts ▸ List.mem_append_right _ List.mem_cons_self)]
      exact kept
    · cases held : s.get? i with
      | none => rw [getAs?, held, Option.bind_none]
      | some b =>
        have mem := (lookup_eq_some_iff s.increasing).mp held
        rw [getAs?_of_mem mem]
        rw [parts, List.mem_append, List.mem_cons] at mem
        obtain mem | same | mem := mem
        · exact others _ mem
        · cases same
          omega
        · have := sorted.2.1.1 _ mem
          simp only at this
          omega
  · rintro ⟨id, found, others⟩
    obtain ⟨a, held, kept⟩ := Option.bind_eq_some_iff.mp found
    obtain ⟨before, after, parts⟩ :=
      List.append_of_mem ((lookup_eq_some_iff s.increasing).mp held)
    have sorted := s.increasing
    rw [parts, List.pairwise_append] at sorted
    refine ⟨before, (id, a), after, parts, kept, fun e mem => ?_⟩
    rw [← getAs?_of_mem (s := s) (parts ▸ List.mem_append_left _ mem)]
    exact others e.1 (sorted.2.2 e mem _ List.mem_cons_self)

end Slots

end StreamFraming
