import StreamFraming.Text.Listing

/-!
# Slots

A table from ids to values, kept in increasing order of the ids with one entry per id. Equal
look-ups mean equal tables (`ext_get?`), and each operation is described by what `get?` finds after
it: `get?_set`, `get?_erase`, `get?_empty`.
-/

namespace StreamFraming

structure Slots (α : Type) where
  entries : List (Nat × α)
  increasing : entries.Pairwise (fun a b => a.1 < b.1)
  deriving DecidableEq

namespace Slots

variable {α : Type}

/-- The value filed under an id in a list of entries. -/
def lookup (id : Nat) : List (Nat × α) → Option α
  | [] => none
  | e :: es => if e.1 = id then some e.2 else lookup id es

/-- File a value under an id, before the first entry with a larger id. -/
def place (id : Nat) (a : α) : List (Nat × α) → List (Nat × α)
  | [] => [(id, a)]
  | e :: es =>
    if id < e.1 then (id, a) :: e :: es
    else if id = e.1 then (id, a) :: es
    else e :: place id a es

theorem lookup_place (id x : Nat) (a : α) (es : List (Nat × α)) :
    lookup x (place id a es) = if id = x then some a else lookup x es := by
  induction es with
  | nil => simp [place, lookup]
  | cons e es ih =>
    unfold place
    split
    · simp [lookup]
    · split
      · rename_i h
        simp only [lookup, ← h]
        split <;> rfl
      · simp only [lookup, ih]
        split
        · split
          · omega
          · rfl
        · rfl

theorem mem_place {id : Nat} {a : α} {es : List (Nat × α)} {p : Nat × α}
    (h : p ∈ place id a es) : p = (id, a) ∨ p ∈ es := by
  induction es with
  | nil => simpa [place] using h
  | cons e es ih =>
    unfold place at h
    split at h
    · simpa using h
    · split at h
      · rcases List.mem_cons.mp h with h | h
        · exact .inl h
        · exact .inr (List.mem_cons_of_mem _ h)
      · rcases List.mem_cons.mp h with h | h
        · exact .inr (h ▸ List.mem_cons_self)
        · exact (ih h).imp_right (List.mem_cons_of_mem _)

theorem pairwise_place (id : Nat) (a : α) {es : List (Nat × α)}
    (h : es.Pairwise (fun a b => a.1 < b.1)) :
    (place id a es).Pairwise (fun a b => a.1 < b.1) := by
  induction es with
  | nil => simp [place]
  | cons e es ih =>
    have ⟨first, rest⟩ := List.pairwise_cons.mp h
    unfold place
    split
    · rename_i lt
      refine List.pairwise_cons.mpr ⟨fun p hp => ?_, h⟩
      rcases List.mem_cons.mp hp with hp | hp
      · exact hp ▸ lt
      · exact Nat.lt_trans lt (first p hp)
    · split
      · rename_i eq
        exact List.pairwise_cons.mpr ⟨fun p hp => eq ▸ first p hp, rest⟩
      · refine List.pairwise_cons.mpr ⟨fun p hp => ?_, ih rest⟩
        rcases mem_place hp with hp | hp
        · subst hp; simp only; omega
        · exact first p hp

theorem lookup_eq_some_iff {es : List (Nat × α)} (h : es.Pairwise (fun a b => a.1 < b.1))
    {id : Nat} {a : α} : lookup id es = some a ↔ (id, a) ∈ es := by
  induction es with
  | nil => simp [lookup]
  | cons e es ih =>
    have ⟨first, rest⟩ := List.pairwise_cons.mp h
    unfold lookup
    split
    · rename_i eq
      constructor
      · intro same
        cases same
        exact eq ▸ List.mem_cons_self
      · intro mem
        rcases List.mem_cons.mp mem with mem | mem
        · simp [← mem]
        · have := first _ mem
          simp only at this
          omega
    · rename_i ne
      rw [ih rest]
      constructor
      · exact List.mem_cons_of_mem _
      · intro mem
        rcases List.mem_cons.mp mem with mem | mem
        · exact absurd (by rw [← mem]) ne
        · exact mem

theorem eq_of_lookup_eq {es fs : List (Nat × α)} (hes : es.Pairwise (fun a b => a.1 < b.1))
    (hfs : fs.Pairwise (fun a b => a.1 < b.1)) (h : ∀ id, lookup id es = lookup id fs) :
    es = fs := by
  induction es generalizing fs with
  | nil =>
    cases fs with
    | nil => rfl
    | cons f fs => simpa [lookup] using h f.1
  | cons e es ih =>
    cases fs with
    | nil => simpa [lookup] using h e.1
    | cons f fs =>
      have ⟨efirst, erest⟩ := List.pairwise_cons.mp hes
      have ⟨ffirst, frest⟩ := List.pairwise_cons.mp hfs
      have he := (lookup_eq_some_iff hfs).mp ((h e.1).symm.trans
        ((lookup_eq_some_iff hes).mpr (List.mem_cons_self (a := e))))
      have hf := (lookup_eq_some_iff hes).mp ((h f.1).trans
        ((lookup_eq_some_iff hfs).mpr (List.mem_cons_self (a := f))))
      have same : e = f := by
        rcases List.mem_cons.mp he with he | he
        · exact he
        · rcases List.mem_cons.mp hf with hf | hf
          · exact hf.symm
          · have := ffirst _ he
            have := efirst _ hf
            simp only at *
            omega
      subst same
      congr 1
      refine ih erest frest fun id => ?_
      by_cases eq : e.1 = id
      · have none_of {gs : List (Nat × α)} (all : ∀ g ∈ gs, e.1 < g.1)
            (sorted : gs.Pairwise (fun a b => a.1 < b.1)) : lookup id gs = none := by
          cases found : lookup id gs with
          | none => rfl
          | some a =>
            have := all _ ((lookup_eq_some_iff sorted).mp found)
            simp only at this
            omega
        rw [none_of efirst erest, none_of ffirst frest]
      · simpa [lookup, eq] using h id

def empty : Slots α := ⟨[], .nil⟩

instance : Inhabited (Slots α) := ⟨empty⟩

def get? (s : Slots α) (id : Nat) : Option α := lookup id s.entries

/-- File a value under an id, in place of any that was there. -/
def set (s : Slots α) (id : Nat) (a : α) : Slots α :=
  ⟨place id a s.entries, pairwise_place id a s.increasing⟩

def erase (s : Slots α) (id : Nat) : Slots α :=
  ⟨s.entries.filter (·.1 != id), s.increasing.sublist List.filter_sublist⟩

/-- File a value, or take the entry away when there is none. -/
def update (s : Slots α) (id : Nat) : Option α → Slots α
  | some a => s.set id a
  | none => s.erase id

def isEmpty (s : Slots α) : Bool := s.entries.isEmpty

def ids (s : Slots α) : List Nat := s.entries.map (·.1)

def describe (s : Slots α) : String :=
  Text.Listing.record "ScannerSlots" [("used", Text.Listing.list (s.ids.map toString))]

@[simp] theorem get?_empty (id : Nat) : (empty : Slots α).get? id = none := rfl

theorem get?_set (s : Slots α) (id x : Nat) (a : α) :
    (s.set id a).get? x = if id = x then some a else s.get? x :=
  lookup_place id x a s.entries

theorem get?_erase (s : Slots α) (id x : Nat) :
    (s.erase id).get? x = if id = x then none else s.get? x := by
  show lookup x (s.entries.filter (·.1 != id)) = if id = x then none else lookup x s.entries
  induction s.entries with
  | nil => simp [lookup]
  | cons e es ih => grind [lookup]

theorem get?_update (s : Slots α) (id x : Nat) (a : Option α) :
    (s.update id a).get? x = if id = x then a else s.get? x := by
  cases a
  · exact get?_erase s id x
  · exact get?_set s id x _

/-- Two tables that answer every look-up alike are the same table. -/
theorem ext_get? {s t : Slots α} (h : ∀ id, s.get? id = t.get? id) : s = t := by
  cases s with
  | mk es hes =>
    cases t with
    | mk fs hfs =>
      have : es = fs := eq_of_lookup_eq hes hfs h
      subst this
      rfl

theorem update_get? (s : Slots α) (id : Nat) : s.update id (s.get? id) = s :=
  ext_get? fun x => by
    rw [get?_update]
    split
    · rename_i h
      rw [h]
    · rfl

theorem mem_ids {s : Slots α} {id : Nat} : id ∈ s.ids ↔ (s.get? id).isSome = true := by
  simp only [ids, List.mem_map, Option.isSome_iff_exists, get?, lookup_eq_some_iff s.increasing]
  constructor
  · rintro ⟨⟨i, a⟩, mem, rfl⟩
    exact ⟨a, mem⟩
  · rintro ⟨a, mem⟩
    exact ⟨_, mem, rfl⟩

theorem pairwise_ids (s : Slots α) : s.ids.Pairwise (· < ·) :=
  List.pairwise_map.mpr s.increasing

theorem isEmpty_iff {s : Slots α} : s.isEmpty = true ↔ ∀ id, s.get? id = none := by
  constructor
  · intro h id
    simp [get?, List.isEmpty_iff.mp h, lookup]
  · intro h
    have : s = empty := ext_get? h
    rw [this]
    rfl

end Slots

end StreamFraming
