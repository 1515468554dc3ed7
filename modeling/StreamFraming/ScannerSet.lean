/-!
# Sets of scanners

A scanner is known by a small number, its id. A set of scanners is a byte with one bit per id, so it
holds ids below `capacity` and no others. The view of a set is `contains`, with one lemma per
operation; `mem_ids` ties the listing to it.
-/

namespace StreamFraming

structure ScannerSet where
  bits : BitVec 8
  deriving DecidableEq, Repr

namespace ScannerSet

def capacity : Nat := 8

def empty : ScannerSet := ⟨0⟩

def isEmpty (s : ScannerSet) : Bool := s.bits == 0

def contains (s : ScannerSet) (id : Nat) : Bool := s.bits.getLsbD id

/-- The bit of an id; an id past the capacity has none. -/
def bit (id : Nat) : BitVec 8 := if id < capacity then BitVec.twoPow 8 id else 0

def insert (s : ScannerSet) (id : Nat) : ScannerSet := ⟨s.bits ||| bit id⟩

def erase (s : ScannerSet) (id : Nat) : ScannerSet := ⟨s.bits &&& ~~~(bit id)⟩

def singleton (id : Nat) : ScannerSet := empty.insert id

def ids (s : ScannerSet) : List Nat := (List.range capacity).filter s.contains

theorem contains_lt {s : ScannerSet} {id : Nat} (h : s.contains id = true) : id < capacity :=
  BitVec.lt_of_getLsbD h

@[simp] theorem contains_empty (id : Nat) : empty.contains id = false := by
  simp [empty, contains]

theorem getLsbD_bit (id x : Nat) :
    (bit id).getLsbD x = (x == id && decide (id < capacity)) := by
  unfold bit
  split
  case isTrue h =>
    have : id < 8 := h
    rw [BitVec.getLsbD_twoPow]
    grind
  case isFalse h => simp [h]

theorem contains_insert (s : ScannerSet) (id x : Nat) :
    (s.insert id).contains x = (s.contains x || (x == id && decide (id < capacity))) := by
  simp only [contains, insert, BitVec.getLsbD_or, getLsbD_bit]

theorem contains_erase (s : ScannerSet) (id x : Nat) :
    (s.erase id).contains x = (s.contains x && x != id) := by
  simp only [contains, erase, BitVec.getLsbD_and, BitVec.getLsbD_not, getLsbD_bit, capacity]
  by_cases hx : x < 8
  · grind
  · simp [BitVec.getLsbD_of_ge s.bits x (by omega)]

theorem contains_singleton (id x : Nat) :
    (singleton id).contains x = (x == id && decide (id < capacity)) := by
  simp [singleton, contains_insert]

@[ext] theorem ext {s t : ScannerSet} (h : ∀ id, s.contains id = t.contains id) : s = t := by
  cases s; cases t
  congr 1
  exact BitVec.eq_of_getLsbD_eq (fun i _ => h i)

theorem isEmpty_iff {s : ScannerSet} : s.isEmpty = true ↔ ∀ id, s.contains id = false := by
  constructor
  · intro h id
    simp only [isEmpty, beq_iff_eq] at h
    simp [contains, h]
  · intro h
    have : s = empty := ext (by simpa using h)
    simp [this, isEmpty, empty]

theorem mem_ids {s : ScannerSet} {id : Nat} : id ∈ s.ids ↔ s.contains id = true := by
  simp only [ids, List.mem_filter, List.mem_range, and_iff_right_iff_imp]
  exact contains_lt

theorem pairwise_ids (s : ScannerSet) : s.ids.Pairwise (· < ·) :=
  List.pairwise_lt_range.sublist List.filter_sublist

end ScannerSet

end StreamFraming
