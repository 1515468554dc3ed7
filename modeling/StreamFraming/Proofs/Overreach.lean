import StreamFraming.Proofs.GivenUp

/-!
# Scanners that give up behind the queue

A check that gives a lane up cuts nothing and clears the marks, with one exception. The target of a
scanner that gives up is reckoned like that of a boundary. If it lies behind the queue the lane
waits for it, so the check keeps the marks, and a queue past its bound is cut once more
(`Engine.check_overreach`).
-/

namespace StreamFraming

variable {α μ : Type}

/-- The last of some scans gave up, and pointed behind a queue of `total` bytes that begins at
`origin`. -/
def Call.Overreach (calls : List (Call α μ)) (origin total : UInt32) : Prop :=
  ∃ c, calls.getLast? = some c ∧ c.report.verdict = .abort ∧
    total < Length.add c.report.point (c.window.seq - origin)

instance (calls : List (Call α μ)) (origin total : UInt32) :
    Decidable (Call.Overreach calls origin total) :=
  inferInstanceAs (Decidable (∃ c ∈ calls.getLast?, c.report.verdict = .abort ∧
    total < Length.add c.report.point (c.window.seq - origin)))

theorem Call.not_overreach_nil (origin total : UInt32) :
    ¬ Overreach ([] : List (Call α μ)) origin total := by
  rintro ⟨c, last, -⟩
  cases last

/-- Somebody is left in the race, and everybody who is left can be asked. -/
def Lane.HasScanner (l : Lane α) (r : Registry α μ) : Prop :=
  l.eligible.isEmpty = false ∧
    ∀ id, l.eligible.contains id = true → ∃ s, r.scanner? id = some s

namespace Field

variable {q : Inquiry α μ} {idx : UInt32} {data : List UInt8} {f g : Field α μ}
  {cut? : Option Cut}

/-! ### Who is left, and who was asked last -/

/-- Nobody whom the registry does not know is left behind a race. -/
theorem race_known (w : Window) (ids : List Nat) (v : Verdict)
    (waiting : ∀ id, f.lane.eligible.contains id = true →
      id ∈ ids ∨ ∃ s, q.registry.scanner? id = some s) :
    ∀ id, (race q w ids v f).2.lane.eligible.contains id = true →
      ∃ s, q.registry.scanner? id = some s := by
  induction ids generalizing v f with
  | nil =>
    intro id left
    rcases waiting id left with listed | known
    · cases listed
    · exact known
  | cons x ids ih =>
    have passed (known : ∃ s, q.registry.scanner? x = some s) {id : Nat}
        (left : f.lane.eligible.contains id = true) :
        id ∈ ids ∨ ∃ s, q.registry.scanner? id = some s := by
      rcases waiting id left with listed | known
      · rcases List.mem_cons.mp listed with rfl | listed
        · exact .inr known
        · exact .inl listed
      · exact .inr known
    unfold race
    cases known : q.registry.scanner? x with
    | none =>
      refine ih v fun id left => ?_
      have left : (f.lane.eligible.erase x).contains id = true := left
      rw [ScannerSet.contains_erase, Bool.and_eq_true, bne_iff_ne] at left
      rcases waiting id left.1 with listed | known
      · exact .inl ((List.mem_cons.mp listed).resolve_left left.2)
      · exact .inr known
    | some s =>
      have same : (f.consult q w x s).2.lane.eligible = f.lane.eligible := rfl
      simp only
      generalize f.consult q w x s = answer at same
      obtain ⟨u, r⟩ := answer
      cases u with
      | search => exact ih _ fun id left => passed ⟨s, known⟩ (same ▸ left)
      | flush | skip =>
        intro id left
        have left : (ScannerSet.singleton x).contains id = true := left
        rw [ScannerSet.contains_singleton, Bool.and_eq_true, beq_iff_eq] at left
        exact left.1 ▸ ⟨s, known⟩
      | abort =>
        refine ih _ fun id left => passed ⟨s, known⟩ ?_
        have left : (r.lane.eligible.erase x).contains id = true := left
        rw [ScannerSet.contains_erase, Bool.and_eq_true] at left
        exact same ▸ left.1

/-- The scanners that a race asks answer one after the other, and the last answer is the one that
counts. Whoever searched then is still in the race. -/
theorem race_answer (w : Window) (ids : List Nat) (v : Verdict) (apart : ids.Nodup)
    (eligible : ∀ id ∈ ids, f.lane.eligible.contains id = true) :
    let r := race q w ids v f
    (r.1 = v ∧ r.2.calls = f.calls ∧ r.2.lane.target = f.lane.target ∧
        (∀ id ∈ ids, q.registry.scanner? id = none) ∧
        ∀ id, f.lane.eligible.contains id = true → id ∉ ids →
          r.2.lane.eligible.contains id = true) ∨
      ∃ c calls, r.2.calls = c :: calls ∧ c.window = w ∧ r.1 = c.report.verdict ∧
        r.2.lane.target = c.report.point ∧
        (c.report.verdict = .search → r.2.lane.eligible.contains c.sight.id = true) := by
  induction ids generalizing v f with
  | nil => exact .inl ⟨rfl, rfl, rfl, List.forall_mem_nil _, fun _ left _ => left⟩
  | cons x ids ih =>
    obtain ⟨new, apart⟩ := List.nodup_cons.mp apart
    have eligible' : ∀ id ∈ ids, (f.lane.eligible.erase x).contains id = true := by
      intro id listed
      rw [ScannerSet.contains_erase, eligible id (List.mem_cons_of_mem _ listed), Bool.true_and,
        bne_iff_ne]
      exact fun same => new (same ▸ listed)
    unfold race
    cases known : q.registry.scanner? x with
    | none =>
      rcases ih (f := f.dismiss x) v apart eligible' with
        ⟨verdict, calls, target, unknown, left⟩ | answered
      · refine .inl ⟨verdict, calls, target, List.forall_mem_cons.mpr ⟨known, unknown⟩, ?_⟩
        intro id member other
        refine left id ?_ fun listed => other (List.mem_cons_of_mem _ listed)
        show (f.lane.eligible.erase x).contains id = true
        rw [ScannerSet.contains_erase, member, Bool.true_and, bne_iff_ne]
        exact fun same => other (same ▸ List.mem_cons_self)
      · exact .inr answered
    | some s =>
      simp only
      cases answered : f.consult q w x s with
      | mk u r =>
        obtain ⟨verdict, rfl⟩ := Prod.mk.inj answered
        cases u with
        | search =>
          rcases ih (f := (f.consult q w x s).2) (v := .search) apart
            (fun id listed => eligible id (List.mem_cons_of_mem _ listed)) with
            ⟨last, calls, target, -, left⟩ | later
          · refine .inr ⟨_, _, calls, rfl, last.trans verdict.symm, target, fun _ => ?_⟩
            exact left x (eligible x List.mem_cons_self) new
          · exact .inr later
        | flush | skip => exact .inr ⟨_, _, rfl, rfl, verdict.symm, rfl, by rw [verdict]; nofun⟩
        | abort =>
          rcases ih (f := (f.consult q w x s).2.dismiss x) (v := .abort) apart eligible' with
            ⟨last, calls, target, -, -⟩ | later
          · refine .inr ⟨_, _, calls, rfl, last.trans verdict.symm, target, fun searched => ?_⟩
            rw [verdict] at searched
            cases searched
          · exact .inr later

/-- Where a race leaves nobody, nobody was asked or the last answer gave up. -/
theorem race_lost {w : Window} {v : Verdict} {r : Field α μ}
    (raced : race q w f.lane.eligible.ids .search f = (v, r))
    (empty : r.lane.eligible.isEmpty = true) :
    (r.calls = f.calls ∧ r.lane.target = f.lane.target ∧ ¬ f.lane.HasScanner q.registry) ∨
      ∃ c calls, r.calls = c :: calls ∧ c.window = w ∧ c.report.verdict = .abort ∧
        r.lane.target = c.report.point := by
  have apart : f.lane.eligible.ids.Nodup :=
    f.lane.eligible.pairwise_ids.imp fun before => Nat.ne_of_lt before
  have answer := race_answer (q := q) (f := f) w f.lane.eligible.ids .search apart
    fun id listed => ScannerSet.mem_ids.mp listed
  have decided := race_decided q f w f.lane.eligible.ids (v := .search) rfl
  rw [raced] at answer decided
  rcases answer with ⟨-, calls, target, unknown, -⟩ | ⟨c, calls, called, window, last, target, left⟩
  · refine .inl ⟨calls, target, ?_⟩
    rintro ⟨contested, known⟩
    rw [Bool.eq_false_iff, ne_eq, ScannerSet.isEmpty_iff] at contested
    push Not at contested
    obtain ⟨id, member⟩ := contested
    have member : f.lane.eligible.contains id = true := by simpa using member
    obtain ⟨s, found⟩ := known id member
    rw [unknown id (ScannerSet.mem_ids.mpr member)] at found
    cases found
  · refine .inr ⟨c, calls, called, window, ?_, target⟩
    cases verdict : c.report.verdict with
    | search =>
      have gone := ScannerSet.isEmpty_iff.mp empty c.sight.id
      rw [left verdict] at gone
      cases gone
    | flush | skip =>
      have decisive : v.isDecisive = true := by
        rw [show v = c.report.verdict from last, verdict]
        rfl
      obtain ⟨id, listed, single, -⟩ := decided decisive
      have small := ScannerSet.contains_lt (ScannerSet.mem_ids.mp listed)
      have alone := ScannerSet.isEmpty_singleton small
      rw [show r.lane.eligible = .singleton id from single, alone] at empty
      cases empty
    | abort => rfl

/-- Somebody survives a contest who can be asked again. -/
theorem contest_hasScanner (idx : UInt32) (data : List UInt8)
    (survived : (contest q idx data f).2.lane.status ≠ .abort) :
    (contest q idx data f).2.lane.HasScanner q.registry := by
  have known := race_known (q := q) (f := f) ⟨f.lane.origin + idx, data⟩ f.lane.eligible.ids .search
    fun id left => .inl (ScannerSet.mem_ids.mpr left)
  cases raced : race q ⟨f.lane.origin + idx, data⟩ f.lane.eligible.ids .search f with
  | mk v r =>
    rw [raced] at known
    cases left : r.lane.eligible.isEmpty with
    | true =>
      rw [contest_of_empty raced left] at survived
      exact absurd rfl survived
    | false =>
      rw [contest_of_race raced left]
      cases v <;> exact ⟨left, known⟩

/-! ### Pursuits -/

/-- A pursuit that gives a lane up comes to the cut that does so, but waits if the last scanner
points behind the queue. -/
theorem pursue_overreach (alive : f.lane.status ≠ .abort) (inside : idx ≤ q.total)
    (asked : f.lane.target = 0 ∨ f.lane.HasScanner q.registry) (uncalled : f.calls = [])
    (h : pursue q idx data f = (cut?, g)) (aborted : g.lane.status = .abort) :
    (cut? = some .abort ∧ ¬ Call.Overreach g.calls.reverse f.lane.origin q.total) ∨
      (cut? = none ∧ Call.Overreach g.calls.reverse f.lane.origin q.total) := by
  -- until somebody has survived a contest nobody was asked, and the target is as it was
  let I (f' : Field α μ) : Prop :=
    (f'.lane.target = 0 ∧ f'.calls = [] ∨ f'.lane.HasScanner q.registry) ∧
      f'.lane.origin = f.lane.origin
  have raced (idx : UInt32) (data : List UInt8) (f' : Field α μ) (kept : I f')
      (survived : (contest q idx data f').2.lane.status ≠ .abort) : I (contest q idx data f').2 :=
    ⟨.inr (contest_hasScanner idx data survived),
      (extends_contest q idx data f').origin.trans kept.2⟩
  obtain ⟨place, bytes, f', m, ⟨asked, origin⟩, alive, within, contested, cut⟩ :=
    pursue_given_up (I := I) raced alive inside ⟨asked.imp_left fun zero => ⟨zero, uncalled⟩, rfl⟩
      h aborted
  obtain ⟨v, r, raced, empty, rfl, moved⟩ := contest_given_up alive contested aborted
  have moved : m = if Length.add r.lane.target place ≤ q.total then
      .again (Length.add r.lane.target place) else .wait := moved
  rcases race_lost raced empty with
    ⟨calls, target, nobody⟩ | ⟨c, calls, called, window, verdict, target⟩
  · obtain ⟨zero, fresh⟩ := asked.resolve_right nobody
    have here : Length.add r.lane.target place = place := by
      apply UInt32.toNat_inj.mp
      have bound := place.toNat_lt
      rw [Length.toNat_add, target, zero, UInt32.toNat_zero]
      omega
    rw [here, if_pos within] at moved
    rw [moved, if_neg nofun] at cut
    refine .inl ⟨cut, ?_⟩
    rw [show r.calls = [] from calls.trans fresh]
    exact Call.not_overreach_nil _ _
  · have offset : c.window.seq - f.lane.origin = place := by
      rw [window, ← origin]
      grind
    have last : r.calls.reverse.getLast? = some c := by
      rw [List.getLast?_reverse, called]
      rfl
    rw [target] at moved
    by_cases reached : Length.add c.report.point place ≤ q.total
    · rw [if_pos reached] at moved
      rw [moved, if_neg nofun] at cut
      refine .inl ⟨cut, ?_⟩
      rintro ⟨c', last', -, behind⟩
      rw [last] at last'
      cases last'
      rw [offset] at behind
      exact absurd reached (UInt32.not_le.mpr behind)
    · rw [if_neg reached] at moved
      rw [moved, if_pos rfl] at cut
      refine .inr ⟨cut, c, last, verdict, ?_⟩
      rw [offset]
      exact UInt32.not_le.mp reached

end Field

/-! ### Checks -/

namespace Lane

/-- The first queued byte, once a segment has arrived. -/
def originFor (l : Lane α) (segment : Segment) : UInt32 :=
  if l.status = .start then segment.seq else l.origin

theorem cutIf_zero {l : Lane α} (zero : l.target = 0) (cut? : Option Cut) (total : UInt32)
    (marks : Marks) : (l.cutIf cut? total marks).2.2.target = 0 := by
  rcases l.cutIf_cases cut? total marks with ⟨-, left⟩ | ⟨taken, -, cut⟩ | ⟨-, -, cut⟩
  · rw [left]
    exact zero
  · refine absurd ?_ taken
    rw [cut, zero]
    rfl
  · rw [cut, zero]
    apply UInt32.toNat_inj.mp
    rw [Length.toNat_sub, UInt32.toNat_zero, Nat.zero_sub]

end Lane

namespace Engine

variable {e : Engine α μ} {s : Session α} {d : Direction} {lane : Lane α} {segment : Segment}

/-- What comes of a check that gives a lane up: nothing, unless the last scanner points behind the
queue. Then the marks are kept, and a queue past its bound is cut. -/
def GivesUp (e : Engine α μ) (segment : Segment) (origin carried : UInt32) (r : Reply α μ) : Prop :=
  (¬ Call.Overreach r.calls origin segment.queued → r.length = 0 ∧ r.marks = .none) ∧
    (Call.Overreach r.calls origin segment.queued →
      if Length.add e.registry.maxFlushPoint segment.slack < segment.queued then
        r.length = min segment.queued longestCut ∧
          r.marks = { segment.marks with head := carried == 0, tail := false }
      else r.length = 0 ∧ r.marks = segment.marks)

theorem givesUp_of_uncalled {origin carried : UInt32} {r : Reply α μ} (uncalled : r.calls = [])
    (length : r.length = 0) (marks : r.marks = .none) : e.GivesUp segment origin carried r := by
  refine ⟨fun _ => ⟨length, marks⟩, fun behind => ?_⟩
  rw [uncalled] at behind
  exact absurd behind (Call.not_overreach_nil _ _)

theorem evaluate_overreach (e : Engine α μ) (s : Session α) (d : Direction)
    (alive : lane.status ≠ .abort) (asked : lane.target = 0 ∨ lane.HasScanner e.registry)
    (data : List UInt8) (segment : Segment)
    (aborted : ((e.evaluate s d lane data segment).session.lane d).status = .abort) :
    e.GivesUp segment lane.origin lane.carried (e.evaluate s d lane data segment) := by
  cases pursued : e.pursuit s d lane data segment with
  | mk cut? g =>
    have carried : g.lane.carried = lane.carried := by
      have kept : (e.pursuit s d lane data segment).2.lane.carried = lane.carried :=
        Field.carried_pursue _ _ _ _
      rwa [pursued] at kept
    rw [lane_evaluate, Lane.status_cutIf, pursued] at aborted
    have evaluated := e.evaluate_eq s d lane data segment
    rw [pursued] at evaluated
    simp only at evaluated
    rcases Field.pursue_overreach (q := e.inquiry d segment)
      (f := e.opening s d lane data.length) alive (segment.offset_le _) asked rfl pursued
      aborted with ⟨rfl, within⟩ | ⟨rfl, behind⟩
    · rw [evaluated]
      exact ⟨fun _ => ⟨rfl, rfl⟩, fun behind => absurd behind within⟩
    · rw [evaluated]
      refine ⟨fun within => absurd behind within, fun _ => ?_⟩
      have other : g.lane.status ≠ .flush := by
        rw [show g.lane.status = .abort from aborted]
        nofun
      split
      · rename_i past
        have bound : due (e.inquiry d segment) (none, g) = some .bound :=
          if_pos ⟨other, past⟩
        have nonempty : segment.queued ≠ 0 := by
          intro zero
          rw [zero, UInt32.lt_iff_toNat_lt] at past
          exact absurd past (Nat.not_lt_zero _)
        rw [bound]
        simp only [Lane.cutIf, Lane.cut, if_neg nonempty, carried]
        exact ⟨trivial, trivial⟩
      · rename_i few
        have nothing : due (e.inquiry d segment) (none, g) = none :=
          if_neg fun past => few past.2
        rw [nothing]
        exact ⟨rfl, rfl⟩

/-- A lane that can ask somebody, or else has no target, is given up as `GivesUp` says. -/
theorem check_givesUp (e : Engine α μ) (s : Session α) (d : Direction)
    (asked : (s.lane d).target = 0 ∨ (s.lane d).HasScanner e.registry) (segment : Segment)
    (news : (s.lane d).status = .start ∨ segment.isStale (s.lane d).expected = false)
    (aborted : ((e.check s d segment).session.lane d).status = .abort) :
    e.GivesUp segment ((s.lane d).originFor segment) (s.lane d).carried
      (e.check s d segment) := by
  unfold Lane.originFor
  by_cases start : (s.lane d).status = .start
  · rw [if_pos start]
    let placed : Lane α :=
      { s.lane d with status := .search, expected := segment.seq, origin := segment.seq }
    have alive : placed.status ≠ .abort := nofun
    have arrived : (s.lane d).arrival segment.seq segment.data = .fresh placed segment.data :=
      if_pos start
    rw [check, arrived] at aborted ⊢
    exact e.evaluate_overreach s d alive asked segment.data segment aborted
  · rw [if_neg start]
    have news := news.resolve_left start
    rcases Lane.arrival_started start segment with ⟨-, stale⟩ | ⟨-, arrived | ⟨data, arrived⟩⟩
    · rw [news] at stale
      cases stale
    · rw [check, arrived]
      exact givesUp_of_uncalled rfl rfl rfl
    · by_cases gone : (s.lane d).status = .abort
      · obtain ⟨-, length, calls, -, -, -, marks⟩ := e.check_aborted gone segment
        rw [news, if_neg Bool.false_ne_true] at marks
        exact givesUp_of_uncalled calls length marks
      · rw [check, arrived] at aborted ⊢
        exact e.evaluate_overreach s d gone asked data segment aborted

/-- A check that leaves a lane alive leaves it somebody to ask, or without a target. -/
theorem asked_check (e : Engine α μ) (s : Session α) (d : Direction) (segment : Segment)
    (asked : (s.lane d).target = 0 ∨ (s.lane d).HasScanner e.registry)
    (survived : ((e.check s d segment).session.lane d).status ≠ .abort) :
    let l := (e.check s d segment).session.lane d
    l.target = 0 ∨ l.HasScanner e.registry := by
  unfold check at survived ⊢
  cases arrived : (s.lane d).arrival segment.seq segment.data with
  | gap =>
    rw [arrived] at survived
    simp only [Session.lane_setLane_self] at survived
    exact absurd rfl survived
  | stale => exact asked
  | fresh lane data =>
    have placed := Lane.arrival_fresh arrived
    rw [arrived] at survived
    simp only at survived ⊢
    rw [lane_evaluate] at survived ⊢
    rw [Lane.status_cutIf] at survived
    have pursued : (e.pursuit s d lane data segment).2.lane.target = 0 ∨
        (e.pursuit s d lane data segment).2.lane.HasScanner e.registry := by
      refine Field.pursue_survived
        (I := fun f => f.lane.target = 0 ∨ f.lane.HasScanner e.registry)
        (fun idx data f _ survived => .inr (Field.contest_hasScanner idx data survived))
        (fun f kept => kept) (segment.offset_le _) ?_ rfl survived
      show lane.target = 0 ∨ lane.HasScanner e.registry
      rw [placed]
      exact asked
    unfold Lane.HasScanner
    rw [(Lane.cutIf_keeps ..).1]
    exact pursued.imp_left fun zero => Lane.cutIf_zero zero _ _ _

/-- So it is with every session that an engine opened, whatever was done with it since. -/
theorem asked_stepAll (e : Engine α μ) (key : UInt64) (port : UInt16) (steps : List Step)
    (d : Direction) :
    let l := (e.stepAll (e.openSession key port) steps).2.lane d
    l.status = .abort ∨ l.target = 0 ∨ l.HasScanner e.registry := by
  refine stepAll_keeps
    (I := fun l => l.status = .abort ∨ l.target = 0 ∨ l.HasScanner e.registry)
    (fun _ _ kept => kept) (fun _ _ => .inl rfl) (fun _ _ _ _ => .inr (.inl rfl)) ?_
    (.inr (.inl (by cases d <;> rfl)))
  intro e' same s segment kept
  rw [← same] at kept ⊢
  by_cases aborted : ((e'.check s d segment).session.lane d).status = .abort
  · exact .inl aborted
  · rcases kept with gone | asked
    · exact .inl (e'.check_aborted gone segment).1
    · exact .inr (e'.asked_check s d segment asked aborted)

/-- A check with news that ends with the lane given up cuts nothing and clears the marks, but for
one case: the scanner that gave up last points behind the queue. Then the marks are kept, and a
queue past its bound is cut, as the head of a message if nothing was carried. -/
theorem check_overreach (e : Engine α μ) (key : UInt64) (port : UInt16) (steps : List Step)
    (d : Direction) (segment : Segment) :
    let left := e.stepAll (e.openSession key port) steps
    let l := left.2.lane d
    let r := left.1.check left.2 d segment
    (l.status = .start ∨ segment.isStale l.expected = false) →
      (r.session.lane d).status = .abort →
      left.1.GivesUp segment (l.originFor segment) l.carried r := by
  intro left l r news aborted
  have registry : left.1.registry = e.registry := e.registry_stepAll _ _
  rcases e.asked_stepAll key port steps d with gone | asked
  · obtain ⟨-, length, calls, -, -, -, marks⟩ := left.1.check_aborted gone segment
    have news := news.resolve_left (by rw [gone]; nofun)
    rw [news, if_neg Bool.false_ne_true] at marks
    exact givesUp_of_uncalled calls length marks
  · rw [← registry] at asked
    exact left.1.check_givesUp left.2 d asked segment news aborted

/-- Twenty bytes past a bound of sixteen are cut as the head of a message when a scanner gives up
and points ten bytes behind them. -/
theorem check_overreach_cut :
    let script : Script := { rest := { verdict := .abort, point := 30 } }
    let e : Engine Memo Tally := .ofRegistry
      { scanners := [script.scanner "script"]
        bindings := [(⟨80, .toServer⟩, { scanners := .singleton 0 })]
        maxFlushPoint := 16 }
    let segment : Segment :=
      { data := "abcdefghijklmnopqrst".toUTF8.toList, queued := 20, seq := 0, marks := .none }
    let s := e.openSession 1 80
    let r := e.check s .toServer segment
    (s.lane .toServer).status = .start ∧ (r.session.lane .toServer).status = .abort ∧
      r.length = 20 ∧ r.marks = { head := true } := by
  intro script e segment s r
  have begun : (s.lane .toServer).status = .start := by decide +kernel
  have aborted : (r.session.lane .toServer).status = .abort := by decide +kernel
  have behind : Call.Overreach r.calls ((s.lane .toServer).originFor segment) segment.queued := by
    decide +kernel
  have gaveUp : e.GivesUp segment ((s.lane .toServer).originFor segment)
      (s.lane .toServer).carried r :=
    check_overreach e 1 80 [] .toServer segment (.inl begun) aborted
  have past : Length.add e.registry.maxFlushPoint segment.slack < segment.queued := by
    decide +kernel
  unfold GivesUp at gaveUp
  rw [if_pos past] at gaveUp
  obtain ⟨length, marks⟩ := gaveUp.2 behind
  exact ⟨begun, aborted, length.trans (by decide), marks.trans (by decide +kernel)⟩

end Engine

end StreamFraming
