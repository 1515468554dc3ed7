import Mathlib.Logic.Function.Basic
import StreamFraming.Catalogue
import StreamFraming.Cells

/-!
# What a vector of cells shows

`Cells.table` is what a vector stands for: the values in it by their ids, without the vacant cells.
Each operation on a vector does to its table what the operation of that name on `Slots` does, and
tables are what the lanes keep.

An `Access` is one thing that is done with a table of values of several kinds, and a `Finding` is
all that is seen of the table by it. A vector shows what its table shows at each access of a run
(`accessAll_table`), so neither its length nor its vacant cells are ever seen. What the table holds
is told by the accesses alone: `filed` is the map from ids to values that they leave, and
`Cells.Implements` says that a vector shows that map and nothing else.
-/

namespace StreamFraming

open Holds

variable {α τ : Type} [Holds α τ]

namespace Cells

/-! ### The table of a vector -/

def entries (cells : List (Option α)) : List (Nat × α) :=
  cells.zipIdx.filterMap fun p => p.1.map (p.2, ·)

theorem mem_entries {cells : List (Option α)} {id : Nat} {a : α} :
    (id, a) ∈ entries cells ↔ cells[id]?.join = some a := by
  simp only [entries, List.mem_filterMap, Option.map_eq_some_iff, Option.join_eq_some_iff]
  constructor
  · rintro ⟨⟨cell, i⟩, mem, b, rfl, same⟩
    cases same
    exact List.mem_zipIdx_iff_getElem?.mp mem
  · intro found
    exact ⟨(some a, id), List.mem_zipIdx_iff_getElem?.mpr found, a, rfl, rfl⟩

theorem pairwise_entries (cells : List (Option α)) :
    (entries cells).Pairwise (fun a b => a.1 < b.1) := by
  have indexes : cells.zipIdx.Pairwise (fun p q => p.2 < q.2) := by
    rw [← List.pairwise_map (f := Prod.snd) (R := (· < ·)), List.zipIdx_map_snd]
    exact List.pairwise_lt_range'
  apply indexes.filterMap
  intro p q lt a ha b hb
  obtain ⟨_, _, rfl⟩ := Option.map_eq_some_iff.mp ha
  obtain ⟨_, _, rfl⟩ := Option.map_eq_some_iff.mp hb
  exact lt

def table (c : Cells α) : Slots α := ⟨entries c.cells.toList, pairwise_entries _⟩

@[simp] theorem get?_table (c : Cells α) (id : Nat) : c.table.get? id = c.get? id := by
  apply Option.ext
  intro a
  rw [Slots.get?, Slots.lookup_eq_some_iff c.table.increasing, table, mem_entries,
    Array.getElem?_toList, get?]

@[simp] theorem table_empty : (empty : Cells α).table = .empty := rfl

@[simp] theorem getAs?_table (c : Cells α) (id : Nat) : c.table.getAs? τ id = c.getAs? τ id := by
  rw [Slots.getAs?, getAs?, get?_table]

theorem claim_table (c : Cells α) (id : Nat) (fresh : τ) :
    (c.table.claim id fresh).2 = (c.claim id fresh).2 := by
  rw [Slots.claim_answer, claim_answer, get?_table]

theorem table_claim (c : Cells α) (id : Nat) (fresh : τ) :
    (c.claim id fresh).1.table = (c.table.claim id fresh).1 := by
  apply Slots.ext_get?
  intro x
  rw [get?_table, get?_claim, Slots.get?_claim, get?_table, get?_table]

theorem table_assign (c : Cells α) (id : Nat) (x : τ) :
    (c.assign id x).table = c.table.assign id x := by
  apply Slots.ext_get?
  intro i
  rw [get?_table, get?_assign, Slots.get?_assign, get?_table, getAs?_table]

theorem table_erase (c : Cells α) (id : Nat) : (c.erase id).table = c.table.erase id := by
  apply Slots.ext_get?
  intro x
  rw [get?_table, get?_erase, Slots.get?_erase, get?_table]

/-! ### What a vector shows -/

theorem map_snd_entries (cells : List (Option α)) :
    (entries cells).map (·.2) = cells.filterMap fun cell => cell := by
  have values (p : Option α × Nat) : (p.1.map (p.2, ·)).map (·.2) = p.1 := by
    cases p.1 <;> rfl
  calc (entries cells).map (·.2)
    _ = cells.zipIdx.filterMap fun p => p.1 := by
      simp only [entries, List.map_filterMap, values]
    _ = (cells.zipIdx.map Prod.fst).filterMap fun cell => cell := by
      rw [List.filterMap_map]
      rfl
    _ = cells.filterMap fun cell => cell := by rw [List.zipIdx_map_fst]

theorem map_fst_entries (cells : List (Option α)) :
    (entries cells).map (·.1) = (cells.zipIdx.filter (·.1.isSome)).map (·.2) := by
  rw [entries, List.map_filterMap, ← List.filterMap_eq_map, List.filterMap_filter]
  congr 1
  funext p
  cases p.1 <;> rfl

@[simp] theorem first?_table (c : Cells α) : c.table.first? τ = c.first? τ := by
  rw [first?, ← map_snd_entries, List.findSome?_map]
  rfl

theorem isEmpty_iff {c : Cells α} : c.isEmpty = true ↔ ∀ id, c.get? id = none := by
  rw [isEmpty, Array.all_eq_true]
  constructor
  · intro vacant id
    by_cases inside : id < c.cells.size
    · rw [get?, Array.getElem?_eq_getElem inside, Option.isNone_iff_eq_none.mp (vacant id inside)]
      rfl
    · exact get?_of_size_le (Nat.le_of_not_lt inside)
  · intro none_there id inside
    have vacant := none_there id
    rw [get?, Array.getElem?_eq_getElem inside] at vacant
    exact Option.isNone_iff_eq_none.mpr vacant

@[simp] theorem isEmpty_table (c : Cells α) : c.table.isEmpty = c.isEmpty := by
  rw [Bool.eq_iff_iff, Slots.isEmpty_iff, isEmpty_iff]
  simp only [get?_table]

@[simp] theorem ids_table (c : Cells α) : c.table.ids = c.ids := map_fst_entries c.cells.toList

@[simp] theorem describe_table (c : Cells α) : c.table.describe = c.describe := by
  rw [Slots.describe, ids_table, describe]

end Cells

/-! ### Runs of accesses -/

/-- What can be done with a table. A write through what a claim came back with is an `assign` of the
same id. -/
inductive Access (α : Type) : Type 1 where
  | claim (τ : Type) [Holds α τ] (id : Nat) (fresh : τ)
  | get (τ : Type) [Holds α τ] (id : Nat)
  | assign (τ : Type) [Holds α τ] (id : Nat) (x : τ)
  | first (τ : Type) [Holds α τ]
  | isEmpty
  | describe
  | erase (id : Nat)
  | release

/-- What is seen of a table. A value is shown the way a cell holds it. -/
inductive Finding (α : Type) where
  | value (a : Option α)
  | flag (b : Bool)
  | text (s : String)
  | nothing

/-- What is seen by an access, and the vector it leaves. An assignment shows the value it finds. -/
def Cells.access (c : Cells α) : Access α → Finding α × Cells α
  | @Access.claim _ _ _ id fresh => (.value ((c.claim id fresh).2.map keep), (c.claim id fresh).1)
  | @Access.get _ τ _ id => (.value ((c.getAs? τ id).map keep), c)
  | @Access.assign _ τ _ id x => (.value ((c.getAs? τ id).map keep), c.assign id x)
  | @Access.first _ τ _ => (.value ((c.first? τ).map keep), c)
  | .isEmpty => (.flag c.isEmpty, c)
  | .describe => (.text c.describe, c)
  | .erase id => (.nothing, c.erase id)
  | .release => (.nothing, .empty)

def Slots.access (s : Slots α) : Access α → Finding α × Slots α
  | @Access.claim _ _ _ id fresh => (.value ((s.claim id fresh).2.map keep), (s.claim id fresh).1)
  | @Access.get _ τ _ id => (.value ((s.getAs? τ id).map keep), s)
  | @Access.assign _ τ _ id x => (.value ((s.getAs? τ id).map keep), s.assign id x)
  | @Access.first _ τ _ => (.value ((s.first? τ).map keep), s)
  | .isEmpty => (.flag s.isEmpty, s)
  | .describe => (.text s.describe, s)
  | .erase id => (.nothing, s.erase id)
  | .release => (.nothing, .empty)

def accessAll {T : Type} (access : T → Access α → Finding α × T) (t : T) :
    List (Access α) → List (Finding α) × T
  | [] => ([], t)
  | a :: rest =>
    let later := accessAll access (access t a).2 rest
    ((access t a).1 :: later.1, later.2)

/-! ### The map that accesses leave -/

/-- What an access makes of a map from ids to values. -/
def Access.file (m : Nat → Option α) : Access α → Nat → Option α
  | @Access.claim _ _ _ id fresh =>
    match m id with
    | none => Function.update m id (some (keep fresh))
    | some _ => m
  | @Access.assign _ τ _ id x =>
    match ((m id).bind kept? : Option τ) with
    | some _ => Function.update m id (some (keep x))
    | none => m
  | .erase id => Function.update m id none
  | .release => fun _ => none
  | _ => m

def filed (run : List (Access α)) : Nat → Option α := run.foldl Access.file fun _ => none

/-- A vector shows a map: its values by id and kind, what a claim comes back with, the value of a
kind with the smallest id, whether there is any value, and the ids in use in increasing order. -/
structure Cells.Implements (c : Cells α) (m : Nat → Option α) : Prop where
  found : ∀ (τ : Type) [Holds α τ] (id : Nat) (x : τ),
    c.getAs? τ id = some x ↔ m id = some (keep x)
  claimed : ∀ (τ : Type) [Holds α τ] (id : Nat) (fresh x : τ),
    (c.claim id fresh).2 = some x ↔ m id = some (keep x) ∨ m id = none ∧ x = fresh
  first : ∀ (τ : Type) [Holds α τ] (x : τ),
    c.first? τ = some x ↔
      ∃ id, m id = some (keep x) ∧ ∀ i < id, ∀ y : τ, m i ≠ some (keep y)
  vacant : c.isEmpty = true ↔ ∀ id, m id = none
  used : ∃ ids : List Nat, ids.Pairwise (· < ·) ∧ (∀ id, id ∈ ids ↔ (m id).isSome = true) ∧
    c.describe = Text.Listing.record "ScannerSlots" [("used", Text.Listing.list (ids.map toString))]

namespace Cells

theorem access_table (c : Cells α) (a : Access α) :
    c.table.access a = ((c.access a).1, (c.access a).2.table) := by
  cases a with
  | claim τ id fresh => simp only [access, Slots.access, table_claim, claim_table]
  | get τ id => simp only [access, Slots.access, getAs?_table]
  | assign τ id x => simp only [access, Slots.access, table_assign, getAs?_table]
  | first τ => simp only [access, Slots.access, first?_table]
  | isEmpty => simp only [access, Slots.access, isEmpty_table]
  | describe => simp only [access, Slots.access, describe_table]
  | erase id => simp only [access, Slots.access, table_erase]
  | release => rfl

theorem accessAll_table (c : Cells α) (run : List (Access α)) :
    accessAll Slots.access c.table run =
      ((accessAll access c run).1, (accessAll access c run).2.table) := by
  induction run generalizing c with
  | nil => rfl
  | cons a run ih => simp only [accessAll, access_table, ih]

/-! ### A vector and the map of its run -/

theorem get?_access (c : Cells α) (a : Access α) : (c.access a).2.get? = a.file c.get? := by
  funext x
  cases a with
  | claim τ id fresh =>
    rw [access, get?_claim, Access.file]
    cases held : c.get? id with
    | none => simp only [Option.getD_none, Function.update_apply, eq_comm]
    | some a =>
      simp only [Option.getD_some]
      split
      · rename_i same
        rw [← same, held]
      · rfl
  | assign τ id y =>
    rw [access, get?_assign, Access.file, ← getAs?]
    cases kind : c.getAs? τ id with
    | none => simp only [Option.isSome_none, Bool.false_eq_true, and_false, if_false]
    | some z => simp only [Option.isSome_some, and_true, Function.update_apply, eq_comm]
  | erase id => simp only [access, Access.file, get?_erase, Function.update_apply, eq_comm]
  | release => rfl
  | get | first | isEmpty | describe => rfl

theorem get?_accessAll (c : Cells α) (run : List (Access α)) :
    (accessAll access c run).2.get? = run.foldl Access.file c.get? := by
  induction run generalizing c with
  | nil => rfl
  | cons a run ih => rw [accessAll, ih, get?_access, List.foldl_cons]

/-- A vector shows its own look-ups. -/
theorem implements_get? (c : Cells α) : c.Implements c.get? where
  found τ _ id x := by
    rw [← getAs?_table, Slots.getAs?_eq_some_iff, get?_table]
  claimed τ _ id fresh x := by
    rw [claim_answer, claim_eq_some_iff]
  first τ _ x := by
    rw [← first?_table, Slots.first?_eq_some_iff]
    simp only [Slots.getAs?_eq_some_iff, Option.eq_none_iff_forall_ne_some, ne_eq, get?_table]
  vacant := isEmpty_iff
  used := by
    refine ⟨c.ids, ?_, ?_, rfl⟩
    · rw [← ids_table]
      exact c.table.pairwise_ids
    · intro id
      rw [← ids_table, Slots.mem_ids, get?_table]

/-- Whatever is done with a vector, of any kinds and in any order, each access shows what it shows
of the table from ids to values that is used alike, and the vector that is left shows the map that
the accesses file. -/
theorem accessAll_implements (run : List (Access α)) :
    (accessAll access .empty run).1 = (accessAll Slots.access .empty run).1 ∧
      (accessAll access .empty run).2.Implements (filed run) := by
  constructor
  · rw [← table_empty, accessAll_table]
  · have held : (accessAll access .empty run).2.get? = filed run := get?_accessAll .empty run
    rw [← held]
    exact implements_get? _

/-- Cells 0 and 1 are made on the way to 2 and stay vacant, a claim of another kind finds nothing,
and what was erased can be claimed anew. -/
example :
    (accessAll access (.empty : Cells Memo)
      [.claim UInt32 2 7, .claim String 2 "", .get UInt32 1, .first UInt32, .erase 2, .isEmpty,
        .claim String 2 "", .release, .first String]).1 =
      [.value (some (.number 7)), .value none, .value none, .value (some (.number 7)), .nothing,
        .flag true, .value (some (.text "")), .nothing, .value none] := by
  cbv

end Cells

end StreamFraming
