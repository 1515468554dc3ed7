import StreamFraming.Proofs.Rounds

/-!
# No faults in the engine

A slice past the end of the bytes, a difference below zero, and an id without a bit are faults. The
operations here have no result then, nor has what is made of them: an engine whose every slice,
every plain difference and every award of a lane is such an operation. It has a result all the same,
which is that of the engine (`Engine.check?_eq`). Neither the lane nor the segment need be
consistent for it; each operation is guarded where it stands.
-/

namespace StreamFraming

/-! ### Operations that may fault -/

/-- The bytes from the `n`-th on; a fault when there are fewer. -/
def slice? (data : List UInt8) (n : Nat) : Option (List UInt8) :=
  if n ≤ data.length then some (data.drop n) else none

def Length.sub? (a b : UInt32) : Option UInt32 := if b ≤ a then some (a - b) else none

def Length.add? (a b : UInt32) : Option UInt32 :=
  if a.toNat + b.toNat < 2 ^ 32 then some (a + b) else none

def Length.mul? (a b : UInt32) : Option UInt32 :=
  if a.toNat * b.toNat < 2 ^ 32 then some (a * b) else none

def Length.shiftLeft? (a n : UInt32) : Option UInt32 :=
  if a.toNat * 2 ^ n.toNat < 2 ^ 32 then some (a <<< n) else none

def ScannerSet.singleton? (id : Nat) : Option ScannerSet :=
  if id < capacity then some (singleton id) else none

theorem slice?_eq {data : List UInt8} {n : Nat} (inside : n ≤ data.length) :
    slice? data n = some (data.drop n) := if_pos inside

example : slice? [1, 2] 3 = none := by decide

/-- A slice that takes no more than there is does not fault. -/
theorem slice?_min (data : List UInt8) (n : Nat) :
    slice? data (min n data.length) = some (data.drop n) := by
  rw [slice?_eq (Nat.min_le_right n data.length)]
  by_cases short : n ≤ data.length
  · rw [Nat.min_eq_left short]
  · rw [Nat.min_eq_right (by omega), List.drop_length, List.drop_eq_nil_of_le (by omega)]

theorem Length.toNat_min (a b : UInt32) : (min a b).toNat = min a.toNat b.toNat := by
  show (if a ≤ b then a else b).toNat = _
  split <;> rename_i order <;> rw [UInt32.le_iff_toNat_le] at order <;> omega

theorem Length.sub?_eq {a b : UInt32} (ordered : b ≤ a) : sub? a b = some (a - b) := if_pos ordered

theorem ScannerSet.singleton?_eq {id : Nat} (small : id < capacity) :
    singleton? id = some (singleton id) := if_pos small

variable {α μ : Type}

/-! ### Arrival -/

namespace Lane

def arrival? (l : Lane α) (seq : UInt32) (data : List UInt8) : Option (Arrival α) :=
  if l.status = .start then
    some (.fresh { l with status := .search, expected := seq, origin := seq } data)
  else if Serial.after seq l.expected then some .gap
  else if Serial.atOrBefore (seq + Length.ofNat data.length) l.expected then some .stale
  else if Serial.before seq l.expected then
    (slice? data (min (l.expected - seq).toNat data.length)).map (.fresh l)
  else some (.fresh l data)

theorem arrival?_eq (l : Lane α) (seq : UInt32) (data : List UInt8) :
    l.arrival? seq data = some (l.arrival seq data) := by
  unfold arrival? arrival
  split
  · rfl
  · split
    · rfl
    · split
      · rfl
      · split
        · rw [slice?_min, Option.map_some]
        · rfl

theorem length_arrival {l l' : Lane α} {seq : UInt32} {data fresh : List UInt8}
    (arrived : l.arrival seq data = .fresh l' fresh) : fresh.length ≤ data.length := by
  unfold arrival at arrived
  split at arrived
  · cases arrived
    exact Nat.le_refl _
  · split at arrived
    · cases arrived
    · split at arrived
      · cases arrived
      · split at arrived <;> cases arrived
        · rw [List.length_drop]
          exact Nat.sub_le _ _
        · exact Nat.le_refl _

end Lane

/-! ### Moves -/

namespace Field

def award? (f : Field α μ) (id : Nat) : Option (Field α μ) :=
  (ScannerSet.singleton? id).map fun eligible => { f with lane := { f.lane with eligible } }

def race? (q : Inquiry α μ) (w : Window) :
    List Nat → Verdict → Field α μ → Option (Verdict × Field α μ)
  | [], v, f => some (v, f)
  | id :: ids, v, f =>
    match q.registry.scanner? id with
    | none => race? q w ids v (f.dismiss id)
    | some s =>
      match f.consult q w id s with
      | (.search, f) => race? q w ids .search f
      | (.abort, f) => race? q w ids .abort (f.dismiss id)
      | (v, f) => (f.award? id).map (v, ·)

def contest? (q : Inquiry α μ) (idx : UInt32) (data : List UInt8) (f : Field α μ) :
    Option (Move × Field α μ) :=
  (race? q ⟨f.lane.origin + idx, data⟩ f.lane.eligible.ids .search f).map fun (v, f) =>
    let lane := f.lane.conclude v
    if v.isDecisive || lane.eligible.isEmpty then
      let target := Length.add lane.target idx
      (if target ≤ q.total then .again target else .wait,
        { f with lane := { lane with target } })
    else (.wait, { f with lane })

def move? (q : Inquiry α μ) (idx : UInt32) (data : List UInt8) (f : Field α μ) :
    Option (Move × Field α μ) :=
  match f.lane.status with
  | .search => if idx < q.total then contest? q idx data f else some (.wait, f)
  | .skip =>
    if q.total ≤ f.lane.target then some (.wait, f)
    else if idx < f.lane.target then do
      let passed ← Length.sub? f.lane.target idx
      if data.length < passed.toNat then some (.wait, f)
      else contest? q f.lane.target (← slice? data passed.toNat) f
    else contest? q f.lane.target data f
  | .start | .flush | .abort => some (move q idx data f)

variable {q : Inquiry α μ}

theorem race?_eq (w : Window) {ids : List Nat} (small : ∀ id ∈ ids, id < ScannerSet.capacity)
    (v : Verdict) (f : Field α μ) : race? q w ids v f = some (race q w ids v f) := by
  induction ids generalizing v f with
  | nil => rfl
  | cons id ids ih =>
    obtain ⟨first, rest⟩ := List.forall_mem_cons.mp small
    have awarded (g : Field α μ) : g.award? id = some (g.award id) := by
      rw [award?, ScannerSet.singleton?_eq first]
      rfl
    unfold race? race
    cases q.registry.scanner? id with
    | none => exact ih rest v _
    | some s =>
      simp only
      generalize f.consult q w id s = answer
      obtain ⟨v, g⟩ := answer
      cases v
      · exact ih rest _ _
      · simp only [awarded, Option.map_some]
      · simp only [awarded, Option.map_some]
      · exact ih rest _ _

theorem contest?_eq (idx : UInt32) (data : List UInt8) (f : Field α μ) :
    contest? q idx data f = some (contest q idx data f) := by
  have small : ∀ id ∈ f.lane.eligible.ids, id < ScannerSet.capacity :=
    fun id listed => ScannerSet.contains_lt (ScannerSet.mem_ids.mp listed)
  rw [contest?, race?_eq _ small, contest]
  simp only [Option.map_some]

theorem move?_eq (idx : UInt32) (data : List UInt8) (f : Field α μ) :
    move? q idx data f = some (move q idx data f) := by
  unfold move?
  cases status : f.lane.status with
  | start | flush | abort => rfl
  | search =>
    simp only [move, status]
    split
    · exact contest?_eq idx data f
    · rfl
  | skip =>
    simp only [move, status]
    by_cases short : q.total ≤ f.lane.target
    · rw [if_pos short, if_pos short]
    · rw [if_neg short, if_neg short]
      by_cases ahead : idx < f.lane.target
      · rw [if_pos ahead, if_neg (UInt32.not_le.mpr ahead),
          Length.sub?_eq (UInt32.le_of_lt ahead)]
        simp only [Option.bind_eq_bind, Option.bind_some]
        split
        · rfl
        · rename_i inside
          rw [slice?_eq (Nat.not_lt.mp inside), Option.bind_some]
          exact contest?_eq _ _ f
      · rw [if_neg ahead, if_pos (UInt32.not_lt.mp ahead)]
        exact contest?_eq _ data f

/-! ### Pursuits -/

def pursue? (q : Inquiry α μ) (idx : UInt32) (data : List UInt8) (f : Field α μ) :
    Option (Option Cut × Field α μ) :=
  match h : move? q idx data f with
  | none => none
  | some (.cut kind, g) => some (some kind, g)
  | some (.wait, g) => some (none, g)
  | some (.again next, g) =>
    have moved : move q idx data f = (.again next, g) := by
      rw [move?_eq] at h
      exact Option.some.inj h
    if ahead : idx < next then
      have := remaining_lt moved (.inl ahead)
      ((Length.sub? next idx).bind fun passed =>
        slice? data (min passed data.length.toUInt32).toNat).bind (pursue? q next · g)
    else if stuck : f.lane.status = .skip ∧ g.lane.status = .skip then some (none, g)
    else
      have := remaining_lt moved (.inr stuck)
      pursue? q next data g
termination_by remaining q.total idx f.lane.status

theorem sliced_eq {idx next : UInt32} (ahead : idx < next) {data : List UInt8}
    (small : data.length < 2 ^ 32) :
    ((Length.sub? next idx).bind fun passed =>
      slice? data (min passed data.length.toUInt32).toNat) =
        some (data.drop (next - idx).toNat) := by
  rw [Length.sub?_eq (UInt32.le_of_lt ahead), Option.bind_some, Length.toNat_min,
    Length.toNat_toUInt32 small, slice?_min]

theorem pursue?_of_move {idx : UInt32} {data : List UInt8} {f g : Field α μ} {m : Move}
    (moved : move q idx data f = (m, g)) :
    pursue? q idx data f =
      match m with
      | .cut kind => some (some kind, g)
      | .wait => some (none, g)
      | .again next =>
        if idx < next then
          ((Length.sub? next idx).bind fun passed =>
            slice? data (min passed data.length.toUInt32).toNat).bind (pursue? q next · g)
        else if f.lane.status = .skip ∧ g.lane.status = .skip then some (none, g)
        else pursue? q next data g := by
  rw [pursue?]
  split <;> rename_i found <;> rw [move?_eq, moved] at found <;> cases found <;> rfl

theorem pursue?_eq {idx : UInt32} {data : List UInt8} {f : Field α μ}
    (small : data.length < 2 ^ 32) : pursue? q idx data f = some (pursue q idx data f) := by
  fun_induction pursue q idx data f with
  | case1 idx data f kind g moved => rw [pursue?_of_move moved]
  | case2 idx data f g moved => rw [pursue?_of_move moved]
  | case3 idx data f next g moved ahead smaller ih =>
    rw [pursue?_of_move moved]
    simp only
    rw [if_pos ahead, sliced_eq ahead small, Option.bind_some]
    refine ih (Nat.lt_of_le_of_lt ?_ small)
    rw [List.length_drop]
    exact Nat.sub_le _ _
  | case4 idx data f next g moved behind stuck =>
    rw [pursue?_of_move moved]
    simp only
    rw [if_neg behind, if_pos stuck]
  | case5 idx data f next g moved behind free smaller ih =>
    rw [pursue?_of_move moved]
    simp only
    rw [if_neg behind, if_neg free]
    exact ih small

end Field

/-! ### Checks -/

namespace Engine

def check? (e : Engine α μ) (s : Session α) (d : Direction) (segment : Segment) :
    Option (Reply α μ) :=
  ((s.lane d).arrival? segment.seq segment.data).bind fun
    | .gap =>
      some { engine := e, session := s.setLane d (s.lane d).abort, length := 0, marks := .none,
             calls := [] }
    | .stale => some { engine := e, session := s, length := 0, marks := segment.marks, calls := [] }
    | .fresh lane data =>
      (Field.pursue? (e.inquiry d segment) (Length.sub segment.queued data.length.toUInt32) data
        (e.opening s d lane data.length)).map (e.conclude s d data segment)

/-- No operation of a check faults, whatever lane and segment it meets. -/
theorem check?_eq (e : Engine α μ) (s : Session α) (d : Direction) {segment : Segment}
    (small : segment.data.length < 2 ^ 32) :
    e.check? s d segment = some (e.check s d segment) := by
  rw [check?, Lane.arrival?_eq, Option.bind_some, check]
  cases arrived : (s.lane d).arrival segment.seq segment.data with
  | gap | stale => rfl
  | fresh lane data =>
    have fewer := Lane.length_arrival arrived
    simp only
    rw [Field.pursue?_eq (by omega), Option.map_some, evaluate_eq]
    rfl

end Engine

end StreamFraming
