import StreamFraming.Proofs.Pursuits

/-!
# Contests and what they leave

A contest that is decided sets the lane's target where the lane goes on, and leaves the race to one
scanner (`Lane.IsNarrowed`). When that scanner is asked again, it alone says what becomes of the
lane (`contest_only`).
-/

namespace StreamFraming

variable {α μ : Type}

namespace ScannerSet

theorem isEmpty_singleton {id : Nat} (small : id < capacity) : (singleton id).isEmpty = false := by
  rw [Bool.eq_false_iff]
  intro empty
  have missing := isEmpty_iff.mp empty id
  simp [contains_singleton, small] at missing

theorem ids_singleton {id : Nat} (small : id < capacity) : (singleton id).ids = [id] := by
  have all : ∀ x < capacity, (singleton x).ids = [x] := by decide
  exact all id small

theorem isEmpty_erase_singleton (id : Nat) : ((singleton id).erase id).isEmpty = true := by
  rw [isEmpty_iff]
  intro x
  rw [contains_erase, contains_singleton]
  by_cases same : x = id <;> simp [same]

end ScannerSet

/-- The status that a verdict leads to. -/
def Verdict.status : Verdict → Status
  | .search => .search
  | .flush => .flush
  | .skip => .skip
  | .abort => .abort

theorem Verdict.status_inj {v w : Verdict} (h : v.status = w.status) : v = w := by
  cases v <;> cases w <;> first | rfl | cases h

/-- A lane with a boundary, or with bytes to skip, is left to one scanner. -/
def Lane.IsNarrowed (l : Lane α) : Prop :=
  l.status = .flush ∨ l.status = .skip →
    ∃ id, id < ScannerSet.capacity ∧ l.eligible = .singleton id

namespace Field

variable {q : Inquiry α μ} {idx next : UInt32} {data : List UInt8} {f g : Field α μ}

/-- A race is decided by the last one who is asked, and won by it. -/
theorem race_decided (q : Inquiry α μ) (f : Field α μ) (w : Window) (ids : List Nat) {v : Verdict}
    (undecided : v.isDecisive = false)
    (decided : (race q w ids v f).1.isDecisive = true) :
    let r := race q w ids v f
    ∃ id ∈ ids, r.2.lane.eligible = .singleton id ∧
      ∃ c calls, r.2.calls = c :: calls ∧ c.window = w ∧ r.1 = c.report.verdict ∧
        r.2.lane.target = c.report.point := by
  induction ids generalizing v f with
  | nil =>
    rw [race, undecided] at decided
    cases decided
  | cons id ids ih =>
    unfold race at decided ⊢
    cases known : q.registry.scanner? id with
    | none =>
      rw [known] at decided
      obtain ⟨x, listed, last⟩ := ih (f.dismiss id) undecided decided
      exact ⟨x, List.mem_cons_of_mem _ listed, last⟩
    | some s =>
      rw [known] at decided
      simp only at decided ⊢
      cases answered : f.consult q w id s with
      | mk u g =>
        rw [answered] at decided
        cases u with
        | search =>
          obtain ⟨x, listed, last⟩ := ih g (v := .search) rfl decided
          exact ⟨x, List.mem_cons_of_mem _ listed, last⟩
        | flush | skip =>
          obtain ⟨verdict, rfl⟩ := Prod.mk.inj answered
          exact ⟨id, List.mem_cons_self, rfl, _, _, rfl, rfl, verdict.symm, rfl⟩
        | abort =>
          obtain ⟨x, listed, last⟩ := ih (g.dismiss id) (v := .abort) rfl decided
          exact ⟨x, List.mem_cons_of_mem _ listed, last⟩

/-- The last scanner to abort takes a lane with it that no other one is left on. -/
theorem race_aborted (narrowed : f.lane.IsNarrowed)
    (left : f.lane.status = .flush ∨ f.lane.status = .skip) {w : Window} {r : Field α μ}
    (raced : race q w f.lane.eligible.ids .search f = (.abort, r)) :
    r.lane.eligible.isEmpty = true := by
  obtain ⟨id, small, eligible⟩ := narrowed left
  rw [eligible, ScannerSet.ids_singleton small] at raced
  unfold race at raced
  cases known : q.registry.scanner? id with
  | none =>
    rw [known] at raced
    cases raced
  | some s =>
    rw [known] at raced
    simp only at raced
    have kept : (f.consult q w id s).2.lane.eligible = .singleton id := eligible
    cases answered : f.consult q w id s with
    | mk u g =>
      rw [answered] at raced kept
      cases u with
      | search | flush | skip => cases raced
      | abort =>
        cases raced
        show (g.lane.eligible.erase id).isEmpty = true
        rw [kept]
        exact ScannerSet.isEmpty_erase_singleton id

section Raced

variable {v : Verdict} {r : Field α μ}
  (raced : race q ⟨f.lane.origin + idx, data⟩ f.lane.eligible.ids .search f = (v, r))

include raced

/-- A contest that no scanner survives gives the lane up. -/
theorem contest_of_empty (empty : r.lane.eligible.isEmpty = true) :
    contest q idx data f =
      let target := Length.add r.lane.target idx
      (if target ≤ q.total then .again target else .wait,
        { r with lane := { r.lane.abort with target } }) := by
  have none_left : ScannerSet.empty.isEmpty = true := rfl
  simp only [contest, raced, Lane.conclude, empty, if_true, Lane.abort, none_left, Bool.or_true]

theorem contest_of_race (contested : r.lane.eligible.isEmpty = false) :
    contest q idx data f =
      let target := Length.add r.lane.target idx
      let move := if target ≤ q.total then Move.again target else .wait
      match v with
      | .search => (.wait, { r with lane := { r.lane with status := .search } })
      | .flush => (move, { r with lane := { r.lane with status := .flush, target } })
      | .skip => (move, { r with lane := { r.lane with status := .skip, target } })
      | .abort => (.wait, r) := by
  cases v <;>
    simp only [contest, raced, Lane.conclude, contested, Verdict.isDecisive, Bool.or_false,
      Bool.false_eq_true, if_false, if_true]

end Raced

/-- A lane that nobody scans is given up unread. -/
theorem contest_deaf (deaf : f.lane.eligible = .empty) (idx : UInt32) (data : List UInt8) :
    contest q idx data f =
      let target := Length.add f.lane.target idx
      (if target ≤ q.total then .again target else .wait,
        { f with lane := { f.lane.abort with target } }) := by
  have ids : f.lane.eligible.ids = [] := by
    rw [deaf]
    decide
  refine contest_of_empty (v := .search) ?_ ?_
  · rw [ids]
    rfl
  · rw [deaf]
    rfl

theorem pursue_of_deaf (deaf : f.lane.eligible = .empty) (searching : f.lane.status = .search)
    (ahead : idx < q.total) (data : List UInt8) :
    ∃ cut?, cut? ≠ some .boundary ∧ pursue q idx data f =
      (cut?, { f with
        lane := { f.lane.abort with target := Length.add f.lane.target idx } }) := by
  have moved : move q idx data f = contest q idx data f := by
    simp only [move, searching, if_pos ahead]
  rw [contest_deaf deaf] at moved
  simp only at moved
  split at moved
  · exact ⟨some .abort, fun same => (by cases same), pursue_of_again_abort moved rfl⟩
  · exact ⟨none, fun same => (by cases same), pursue_of_wait moved⟩

/-- A decided race sets the target to where the lane goes on. -/
theorem target_of_contest (h : contest q idx data f = (.again next, g)) :
    g.lane.target = next := by
  unfold contest at h
  generalize race q ⟨f.lane.origin + idx, data⟩ f.lane.eligible.ids .search f = answer at h
  obtain ⟨v, r⟩ := answer
  simp only at h
  split at h
  · split at h
    · cases h
      rfl
    · cases h
  · cases h

theorem status_race (w : Window) (ids : List Nat) (v : Verdict) :
    (race q w ids v f).2.lane.status = f.lane.status :=
  race_keeps (I := fun g => g.lane.status = f.lane.status) (fun _ _ _ _ _ kept => kept)
    (fun _ _ kept => kept) (fun _ _ kept => kept) w ids v rfl

theorem narrowed_contest (narrowed : f.lane.IsNarrowed) (idx : UInt32) (data : List UInt8) :
    (contest q idx data f).2.lane.IsNarrowed := by
  have last := race_decided q f ⟨f.lane.origin + idx, data⟩ f.lane.eligible.ids
    (v := .search) rfl
  have kept := status_race (q := q) (f := f) ⟨f.lane.origin + idx, data⟩ f.lane.eligible.ids .search
  cases raced : race q ⟨f.lane.origin + idx, data⟩ f.lane.eligible.ids .search f with
  | mk v r =>
    rw [raced] at last kept
    cases left : r.lane.eligible.isEmpty with
    | true =>
      rw [contest_of_empty raced left]
      nofun
    | false =>
      rw [contest_of_race raced left]
      cases v with
      | search => nofun
      | flush | skip =>
        obtain ⟨id, listed, eligible, -⟩ := last rfl
        exact fun _ => ⟨id, ScannerSet.contains_lt (ScannerSet.mem_ids.mp listed), eligible⟩
      | abort =>
        intro decided
        rw [race_aborted narrowed (kept ▸ decided) raced] at left
        cases left

theorem narrowed_pursue (narrowed : f.lane.IsNarrowed) {cut? : Option Cut}
    (h : pursue q idx data f = (cut?, g)) : g.lane.IsNarrowed := by
  have kept : (pursue q idx data f).2.lane.IsNarrowed :=
    pursue_keeps (I := fun f => f.lane.IsNarrowed)
      (fun idx data _ narrowed => narrowed_contest narrowed idx data) (fun _ _ => nofun) narrowed
  rwa [h] at kept

/-! ### A lane with one scanner -/

section Lone

variable {id : Nat} (small : id < ScannerSet.capacity)
  (eligible : f.lane.eligible = .singleton id)

include small eligible

theorem contest_only {s : Scanner α μ} (known : q.registry.scanner? id = some s) (idx : UInt32)
    (data : List UInt8) :
    contest q idx data f =
      let answer := f.consult q ⟨f.lane.origin + idx, data⟩ id s
      let g := answer.2
      let target := Length.add g.lane.target idx
      let move := if target ≤ q.total then Move.again target else .wait
      match answer.1 with
      | .search => (.wait, { g with lane := { g.lane with status := .search } })
      | .flush => (move, { g with lane := { g.lane with status := .flush, target } })
      | .skip => (move, { g with lane := { g.lane with status := .skip, target } })
      | .abort => (move, { g with lane := { g.lane.abort with target } }) := by
  have ids : f.lane.eligible.ids = [id] := by rw [eligible, ScannerSet.ids_singleton small]
  have held := ScannerSet.isEmpty_singleton small
  have kept : (f.consult q ⟨f.lane.origin + idx, data⟩ id s).2.lane.eligible = .singleton id :=
    eligible
  cases answered : f.consult q ⟨f.lane.origin + idx, data⟩ id s with
  | mk v g =>
    rw [answered] at kept
    simp only at kept
    have same : g.award id = g := by
      show { g with lane := { g.lane with eligible := .singleton id } } = g
      rw [← kept]
    cases v with
    | search =>
      rw [contest_of_race (v := .search) (r := g) (by rw [ids]; simp only [race, known, answered])
        (kept ▸ held)]
    | flush =>
      rw [contest_of_race (v := .flush) (r := g)
        (by rw [ids]; simp only [race, known, answered, same]) (kept ▸ held)]
    | skip =>
      rw [contest_of_race (v := .skip) (r := g)
        (by rw [ids]; simp only [race, known, answered, same]) (kept ▸ held)]
    | abort =>
      have struck : (g.dismiss id).lane.eligible.isEmpty = true := by
        show (g.lane.eligible.erase id).isEmpty = true
        rw [kept]
        exact ScannerSet.isEmpty_erase_singleton id
      rw [contest_of_empty (v := .abort) (r := g.dismiss id)
        (by rw [ids]; simp only [race, known, answered]) struck]
      rfl

/-- A lane is given up when its scanner does not exist. -/
theorem contest_unknown (unknown : q.registry.scanner? id = none) (idx : UInt32)
    (data : List UInt8) :
    (contest q idx data f).2.lane.status = .abort ∧ (contest q idx data f).2.calls = f.calls := by
  have ids : f.lane.eligible.ids = [id] := by rw [eligible, ScannerSet.ids_singleton small]
  have struck : (f.dismiss id).lane.eligible.isEmpty = true := by
    show (f.lane.eligible.erase id).isEmpty = true
    rw [eligible]
    exact ScannerSet.isEmpty_erase_singleton id
  rw [contest_of_empty (v := .search) (r := f.dismiss id)
    (by rw [ids]; simp only [race, unknown]) struck]
  exact ⟨rfl, rfl⟩

end Lone

end Field

end StreamFraming
