import StreamFraming.Proofs.Narrowing

/-!
# How long a check goes on

A pursuit repeats moves until a cut is due or more bytes are needed. `pursueWithin` repeats them no
more than so many times, and has no answer when that was too few. Scanners may answer what they
like: each round but the last one takes a lane nearer to its end (`remaining_lt`), and only the
first contest asks more than one scanner. So the queue bounds the rounds of a check and the scans
that it makes (`Engine.check_ends_within`).
-/

namespace StreamFraming

variable {α μ : Type}

theorem ScannerSet.length_ids_le (s : ScannerSet) : s.ids.length ≤ capacity := by
  have all := List.length_filter_le s.contains (List.range capacity)
  rwa [List.length_range] at all

namespace Field

variable {q : Inquiry α μ} {idx next : UInt32} {data : List UInt8} {f g : Field α μ} {m : Move}

/-! ### Rounds -/

/-- A pursuit of no more than `n` rounds; there is no answer if it is not over by then. -/
def pursueWithin (q : Inquiry α μ) :
    Nat → UInt32 → List UInt8 → Field α μ → Option (Option Cut × Field α μ)
  | 0, _, _, _ => none
  | n + 1, idx, data, f =>
    match move q idx data f with
    | (.cut kind, g) => some (some kind, g)
    | (.wait, g) => some (none, g)
    | (.again next, g) =>
      if idx < next then pursueWithin q n next (data.drop (next - idx).toNat) g
      else if f.lane.status = .skip ∧ g.lane.status = .skip then some (none, g)
      else pursueWithin q n next data g

theorem pursueWithin_eq {n : Nat} (enough : remaining q.total idx f.lane.status < n) :
    pursueWithin q n idx data f = some (pursue q idx data f) := by
  -- Each round but the last takes one from what remains, so `n` rounds are never used up.
  induction n generalizing idx data f with
  | zero => exact absurd enough (Nat.not_lt_zero _)
  | succ n ih =>
    unfold pursueWithin
    cases moved : move q idx data f with
    | mk m g =>
      cases m with
      | cut kind => rw [pursue_of_cut moved]
      | wait => rw [pursue_of_wait moved]
      | again next =>
        simp only
        by_cases ahead : idx < next
        · have nearer := remaining_lt moved (.inl ahead)
          rw [if_pos ahead, pursue_of_again moved ahead]
          exact ih (by omega)
        · by_cases stuck : f.lane.status = .skip ∧ g.lane.status = .skip
          · rw [if_neg ahead, if_pos stuck, pursue_of_again_stuck moved ahead stuck]
          · have nearer := remaining_lt moved (.inr stuck)
            rw [if_neg ahead, if_neg stuck, pursue_of_again_here moved ahead stuck]
            exact ih (by omega)

theorem remaining_le (total idx : UInt32) (s : Status) :
    remaining total idx s ≤ total.toNat + 2 := by
  cases s <;> simp only [remaining] <;> omega

/-! ### Scans -/

theorem calls_contest (q : Inquiry α μ) (idx : UInt32) (data : List UInt8) (f : Field α μ) :
    (contest q idx data f).2.calls.length ≤ f.calls.length + f.lane.eligible.ids.length := by
  obtain ⟨⟨asked, calls, pass⟩, -⟩ := contest_pass q idx data f
  have order := pass.order.length_le
  have present : (q.registry.present f.lane.eligible).length ≤ f.lane.eligible.ids.length :=
    List.length_filter_le _ _
  rw [List.length_map] at order
  rw [calls, List.length_append, List.length_reverse]
  omega

/-- The scanners of a lane are asked once in a move, and only while there are moves left. -/
theorem calls_move (h : move q idx data f = (m, g)) :
    g.calls = f.calls ∨ 0 < remaining q.total idx f.lane.status ∧
      g.calls.length ≤ f.calls.length + f.lane.eligible.ids.length := by
  have contested {place : UInt32} {bytes : List UInt8} (asks : contest q place bytes f = (m, g)) :
      g.calls.length ≤ f.calls.length + f.lane.eligible.ids.length := by
    have calls := calls_contest q place bytes f
    rwa [asks] at calls
  unfold move at h
  cases before : f.lane.status <;> simp only [before] at h
  case start | abort =>
    cases h
    exact .inl rfl
  case flush =>
    split at h
    · cases h
      exact .inl rfl
    · split at h <;> cases h <;> exact .inl rfl
  case search =>
    split at h
    · exact .inr ⟨by simp only [remaining]; omega, contested h⟩
    · cases h
      exact .inl rfl
  case skip =>
    have left : 0 < remaining q.total idx .skip := by simp only [remaining]; omega
    split at h
    · cases h
      exact .inl rfl
    · split at h
      · exact .inr ⟨left, contested h⟩
      · split at h
        · cases h
          exact .inl rfl
        · exact .inr ⟨left, contested h⟩

/-- A contest behind which the lane goes on leaves no more than one scanner. -/
theorem alone_contest (h : contest q idx data f = (.again next, g)) :
    g.lane.eligible.ids.length ≤ 1 := by
  have last := race_decided q f ⟨f.lane.origin + idx, data⟩ f.lane.eligible.ids
    (v := .search) rfl
  cases raced : race q ⟨f.lane.origin + idx, data⟩ f.lane.eligible.ids .search f with
  | mk v r =>
    rw [raced] at last
    cases gone : r.lane.eligible.isEmpty with
    | true =>
      rw [contest_of_empty raced gone] at h
      cases (Prod.mk.inj h).2
      show ScannerSet.empty.ids.length ≤ 1
      decide
    | false =>
      rw [contest_of_race raced gone] at h
      cases v with
      | search | abort => cases h
      | flush | skip =>
        obtain ⟨id, listed, eligible, -⟩ := last rfl
        cases (Prod.mk.inj h).2
        have ids := ScannerSet.ids_singleton (ScannerSet.contains_lt (ScannerSet.mem_ids.mp listed))
        rw [← eligible] at ids
        exact ids ▸ Nat.le_refl 1

theorem alone_move (inside : idx ≤ q.total) (h : move q idx data f = (.again next, g)) :
    g.lane.eligible.ids.length ≤ 1 := by
  rcases move_cases inside h with ⟨-, never, -⟩ | ⟨-, cut⟩ | ⟨place, bytes, -, asks, -⟩
  · exact absurd rfl (never next)
  · cases cut
  · exact alone_contest asks

theorem calls_pursue (inside : idx ≤ q.total) :
    (pursue q idx data f).2.calls.length ≤
      f.calls.length + (f.lane.eligible.ids.length - 1) + remaining q.total idx f.lane.status := by
  have once {idx : UInt32} {data : List UInt8} {f g : Field α μ} {m : Move}
      (h : move q idx data f = (m, g)) :
      g.calls.length ≤ f.calls.length + (f.lane.eligible.ids.length - 1) + 1 ∧
        g.calls.length ≤ f.calls.length + (f.lane.eligible.ids.length - 1) +
          remaining q.total idx f.lane.status := by
    rcases calls_move h with same | ⟨left, asked⟩
    · rw [same]
      omega
    · omega
  -- The first contest asks the whole lane and leaves one scanner, which later ones ask alone.
  fun_induction pursue q idx data f with
  | case1 idx data f kind g moved | case2 idx data f g moved | case4 idx data f next g moved _ _ =>
    exact (once moved).2
  | case3 idx data f next g moved _ nearer ih | case5 idx data f next g moved _ _ nearer ih =>
    have first := (once moved).1
    have alone := alone_move inside moved
    have later := ih (move_again moved).1
    omega

end Field

/-! ### Checks -/

namespace Engine

/-- What an evaluation comes to once its pursuit is over. -/
def conclude (e : Engine α μ) (s : Session α) (d : Direction) (data : List UInt8)
    (segment : Segment) (result : Option Cut × Field α μ) : Reply α μ :=
  let cut := result.2.lane.cutIf (due (e.inquiry d segment) result) segment.queued segment.marks
  { engine := { e with memories := result.2.memories, stats := e.stats.count data.length }
    session :=
      { (s.setLane d cut.2.2).setLane d.opposite
          { s.lane d.opposite with slots := result.2.peer } with
        raised := s.raised ++ result.2.raised }
    length := cut.1
    marks := cut.2.1
    calls := result.2.calls.reverse }

/-- A check that goes round no more than `n` times; there is no reply if it is not over by then. -/
def checkWithin (e : Engine α μ) (n : Nat) (s : Session α) (d : Direction) (segment : Segment) :
    Option (Reply α μ) :=
  match (s.lane d).arrival segment.seq segment.data with
  | .gap =>
    some { engine := e, session := s.setLane d (s.lane d).abort, length := 0, marks := .none,
           calls := [] }
  | .stale => some { engine := e, session := s, length := 0, marks := segment.marks, calls := [] }
  | .fresh lane data =>
    (Field.pursueWithin (e.inquiry d segment) n
      (Length.sub segment.queued data.length.toUInt32) data (e.opening s d lane data.length)).map
      (e.conclude s d data segment)

/-- A check comes to an end, whatever its scanners answer and however its lane stands. No more than
three rounds are needed beside one for each queued byte, and no more than one scan for each of them
beside the scans of the first contest. -/
theorem check_ends_within (e : Engine α μ) (s : Session α) (d : Direction) (segment : Segment) :
    e.checkWithin (segment.queued.toNat + 3) s d segment = some (e.check s d segment) ∧
      (e.check s d segment).calls.length ≤ ScannerSet.capacity + segment.queued.toNat + 1 := by
  unfold checkWithin check
  cases (s.lane d).arrival segment.seq segment.data with
  | gap | stale => exact ⟨rfl, Nat.zero_le _⟩
  | fresh lane data =>
    have left := Field.remaining_le segment.queued
      (Length.sub segment.queued data.length.toUInt32) (e.opening s d lane data.length).lane.status
    refine ⟨?_, ?_⟩
    · simp only
      rw [Field.pursueWithin_eq (Nat.lt_succ_of_le left), evaluate_eq]
      rfl
    · have calls : (e.pursuit s d lane data segment).2.calls.length ≤ _ :=
        Field.calls_pursue (segment.offset_le _)
      have all := (e.opening s d lane data.length).lane.eligible.length_ids_le
      have uncalled : (e.opening s d lane data.length).calls.length = 0 := rfl
      have total : (e.inquiry d segment).total = segment.queued := rfl
      simp only [evaluate_eq, List.length_reverse]
      rw [total, uncalled] at calls
      unfold ScannerSet.capacity at all ⊢
      omega

end Engine

end StreamFraming
