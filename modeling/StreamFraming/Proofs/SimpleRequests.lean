import StreamFraming.Proofs.DeferredErrors
import StreamFraming.Proofs.Http.Errors
import StreamFraming.Proofs.Narrowing
import StreamFraming.Proofs.Noninterference

/-!
# Simple requests

That a client has sent a request of two words is told by the progress in the cells of its lane. The
scan that finds the request leaves it there. It is forgotten when the lane is given up, from
outside, for a gap, or for the next bytes that are put to the scanner
(`Engine.isSimpleRequest_iff`).
-/

namespace StreamFraming

open Http Holds

/-! ### Lanes that are disturbed -/

section Disturbs

variable {α μ : Type}

/-- The lane is given up and holds nothing. -/
structure Lane.IsVacant (l : Lane α) : Prop where
  status : l.status = .abort
  slots : l.slots = .empty

/-- The step gives a lane up from outside or for a gap, or puts bytes of it to its scanners. -/
def Step.Disturbs (e : Engine α μ) (s : Session α) (d : Direction) : Step → Prop
  | .check d' segment => d' = d ∧
      ((s.lane d).arrival segment.seq segment.data = .gap ∨ (e.check s d segment).calls ≠ [])
  | .clear d' => d' = d
  | _ => False

/-- A step of the run disturbs the lane. -/
def Engine.Disturbs (e : Engine α μ) (s : Session α) (d : Direction) : List Step → Prop
  | [] => False
  | x :: steps =>
    x.Disturbs e s d ∨
      let left := e.step s x
      left.1.Disturbs left.2 d steps

end Disturbs

variable {α : Type} [Holds α Progress]

/-! ### Scans that find a request of two words -/

namespace Http

/-- The cells hold one progress or none, and two words are an error there. -/
def HoldsErrs (slots : Slots α) : Prop := ∃ p, slots = cells p ∧ ∀ x, p = some x → x.ErrsIfSimple

theorem holdsErrs_empty : HoldsErrs (.empty : Slots α) := by
  refine ⟨none, cells_none.symm, ?_⟩
  intro x held
  cases held

theorem HoldsErrs.erase {slots : Slots α} (held : HoldsErrs slots) (id : Nat) :
    HoldsErrs (slots.erase id) := by
  obtain ⟨p, rfl, errs⟩ := held
  rw [erase_cells]
  by_cases zero : id = 0
  · rw [if_pos zero, cells_none]
    exact holdsErrs_empty
  · rw [if_neg zero]
    exact ⟨p, rfl, errs⟩

theorem simple_scan (cap : UInt32) (memory : Tally) (sight : Sight α) {own : Option Progress}
    (held : sight.own = own.map keep) (errs : ∀ p, own = some p → p.ErrsIfSimple)
    (window : List UInt8) :
    let report := scan cap memory sight window
    ∃ p : Progress, report.own = some (keep p) ∧ p.ErrsIfSimple ∧
      (.simpleRequest ∈ report.raised → report.verdict = .flush ∧ p.isSimple = true) := by
  have errs : (start own sight.marks.fromClient).ErrsIfSimple := by
    cases own with
    | none => exact Progress.errsIfSimple_fresh _
    | some p => exact errs p rfl
  have claimed : claim (Progress.fresh sight.marks.fromClient) sight.own =
      some (start own sight.marks.fromClient) := by
    rw [held, claim_cell]
    rfl
  simp only [scan, claimed]
  split
  · exact ⟨_, rfl, errs, fun raised => absurd raised List.not_mem_nil⟩
  · exact ⟨_, rfl, errs.scan _ window, Progress.simple_of_scan errs⟩

/-- If the scan finds a request of two words it finds the end of it, and leaves an error. -/
def Classified (c : Call α Tally) : Prop :=
  .simpleRequest ∈ c.report.raised → c.report.verdict = .flush ∧
    ∃ p : Progress, c.report.own = some (keep p) ∧ p.isSimple = true ∧ p.flags.error = true

end Http

/-! ### Lanes of clients -/

/-- The scanner has the lane to itself, and knows that the request has two words. -/
structure Lane.KnowsSimple (l : Lane α) : Prop where
  alive : l.status ≠ .abort
  eligible : l.eligible = .singleton 0
  own : ∃ p : Progress, l.slots = cells (some p) ∧ p.isSimple = true ∧ p.flags.error = true

theorem Lane.KnowsSimple.isSimpleRequest {s : Session α}
    (knows : (s.lane .toServer).KnowsSimple) : isSimpleRequest s = true := by
  obtain ⟨p, slots, simple, -⟩ := knows.own
  rw [Http.isSimpleRequest, progress?, slots, first?_cells]
  exact simple

theorem Lane.IsVacant.isSimpleRequest {s : Session α} (vacant : (s.lane .toServer).IsVacant) :
    isSimpleRequest s = false := by
  rw [Http.isSimpleRequest, progress?, vacant.slots]
  rfl

namespace Field

variable {q : Inquiry α Tally} {cap : UInt32} {f : Field α Tally} {idx : UInt32}

theorem contest_classified (http : q.registry.OnlyHttp cap) (held : HoldsErrs f.lane.slots)
    (calls : ∀ c ∈ f.calls, Classified c) (idx : UInt32) (data : List UInt8) :
    HoldsErrs (contest q idx data f).2.lane.slots ∧
      ∀ c ∈ (contest q idx data f).2.calls, Classified c := by
  refine contest_keeps (I := fun f => HoldsErrs f.lane.slots ∧ ∀ c ∈ f.calls, Classified c)
    ?_ ?_ ?_ ?_ ?_ ⟨held, calls⟩
  · rintro w id s f known ⟨⟨p, slots, errs⟩, calls⟩
    obtain ⟨rfl, rfl⟩ := http.known known
    obtain ⟨p', own, errs', told⟩ := simple_scan cap
      ((f.memories.get? 0).getD (Http.scanner cap : Scanner α Tally).memory)
      ⟨0, q.marks, f.lane.slots.get? 0, f.peer.get? 0⟩
      (by rw [slots, get?_cells_zero]) errs w.bytes
    refine ⟨⟨some p', ?_, fun x held => ?_⟩, List.forall_mem_cons.mpr ⟨fun simple => ?_, calls⟩⟩
    · show f.lane.slots.update 0 (scan cap _ ⟨0, q.marks, f.lane.slots.get? 0, f.peer.get? 0⟩
        w.bytes).own = _
      rw [own, slots, update_cells_some]
    · cases held
      exact errs'
    · obtain ⟨flush, simple⟩ := told simple
      exact ⟨flush, p', own, simple, errs' simple⟩
  · exact fun f id kept => ⟨kept.1.erase id, kept.2⟩
  · exact fun f id kept => kept
  · exact fun f status target _ kept => kept
  · exact fun f target kept => ⟨holdsErrs_empty, kept.2⟩

/-- Behind an error a pursuit gives the lane up as soon as it puts bytes to the scanner. -/
theorem pursue_unread (known : q.registry.scanner? 0 = some (Http.scanner cap))
    (eligible : f.lane.eligible = .singleton 0) {own : Option Progress}
    (slots : f.lane.slots = cells own)
    (error : (start own q.marks.fromClient).flags.error = true) (alive : f.lane.status ≠ .abort)
    (inside : idx ≤ q.total) (data : List UInt8) :
    let g := (pursue q idx data f).2
    (g.calls = f.calls ∧ g.lane.status ≠ .abort ∧ g.lane.eligible = f.lane.eligible ∧
      g.lane.slots = f.lane.slots) ∨ f.GivesUp g := by
  cases moved : move q idx data f with
  | mk m g =>
    rcases move_cases inside moved with ⟨rfl, stays, -⟩ | ⟨rfl, rfl⟩ | ⟨place, bytes, -, asks, -⟩
    · have still : (pursue q idx data g).2 = g := by
        cases m with
        | again next => exact absurd rfl (stays next)
        | wait => rw [pursue_of_wait moved]
        | cut kind => rw [pursue_of_cut moved]
      rw [still]
      exact .inl ⟨rfl, alive, rfl, rfl⟩
    · rw [pursue_of_cut moved]
      exact .inl ⟨rfl, nofun, rfl, rfl⟩
    · obtain ⟨g', contested, gives_up⟩ := contest_error known eligible slots error place bytes
      obtain ⟨rfl, rfl⟩ := Prod.mk.inj (contested.symm.trans asks)
      have ended : (pursue q idx data f).2 = g' := by
        split at moved
        · rw [pursue_of_again_abort moved gives_up.status]
        · rw [pursue_of_wait moved]
      rw [ended]
      exact .inr gives_up

end Field

/-! ### Sessions -/

/-- Where cells of a session hold a request of two words, they hold an error, and the cells of the
response side hold no request. -/
structure Session.Classifies (s : Session α) : Prop where
  request : HoldsErrs (s.lane .toServer).slots
  response : IsResponse ((s.lane .toClient).slots.get? 0)

namespace Engine

variable {e : Engine α Tally} {s : Session α} {cap : UInt32} {x : Step} {steps : List Step}

theorem check_classified (http : e.registry.OnlyHttp cap) {d : Direction}
    (held : HoldsErrs (s.lane d).slots) (segment : Segment) :
    HoldsErrs ((e.check s d segment).session.lane d).slots ∧
      ∀ c ∈ (e.check s d segment).calls, Classified c := by
  refine check_invariant e s d segment []
    (G := fun l _ calls => HoldsErrs l.slots ∧ ∀ c ∈ calls, Classified c) ?_ ?_ ?_
    ⟨held, List.forall_mem_nil _⟩
  · intro l l' _ calls _ slots kept
    rwa [slots]
  · exact fun kept => ⟨holdsErrs_empty, kept.2⟩
  · intro idx data f kept
    obtain ⟨held, calls⟩ := Field.contest_classified (q := e.inquiry d segment) http kept.1
      (fun c made => kept.2 c (List.mem_reverse.mpr made)) idx data
    exact ⟨held, fun c made => calls c (List.mem_reverse.mp made)⟩

theorem classifies_step (http : e.registry.OnlyHttp cap) (classifies : s.Classifies) (x : Step) :
    (e.step s x).2.Classifies := by
  cases x with
  | check d segment =>
    cases d with
    | toServer =>
      exact ⟨(check_classified http classifies.request segment).1,
        check_request http classifies.response segment⟩
    | toClient =>
      obtain ⟨response, same⟩ := check_response http classifies.response segment
      refine ⟨?_, response⟩
      show HoldsErrs ((e.check s .toClient segment).session.lane .toServer).slots
      rw [same]
      exact classifies.request
  | clear d | setup d port =>
    cases d with
    | toServer => exact ⟨holdsErrs_empty, classifies.response⟩
    | toClient => exact ⟨classifies.request, isResponse_none⟩
  | reset => exact ⟨holdsErrs_empty, isResponse_none⟩

theorem classifies_stepAll (http : e.registry.OnlyHttp cap) (classifies : s.Classifies)
    (steps : List Step) : (e.stepAll s steps).2.Classifies := by
  induction steps generalizing e s with
  | nil => exact classifies
  | cons x steps ih =>
    exact ih ((e.registry_step s x).symm ▸ http) (classifies_step http classifies x)

/-- A check that finds a request of two words leaves it known. -/
theorem knowsSimple_of_raised (http : e.registry.OnlyHttp cap) (classifies : s.Classifies)
    (segment : Segment) {c : Call α Tally} (made : c ∈ (e.check s .toServer segment).calls)
    (raised : .simpleRequest ∈ c.report.raised) :
    e.registry.scanner? 0 = some (Http.scanner cap) ∧
      ((e.check s .toServer segment).session.lane .toServer).KnowsSimple := by
  obtain ⟨⟨x, found, -⟩, -⟩ := e.check_scans s .toServer segment c made
  obtain ⟨zero, rfl⟩ := http.known found
  obtain ⟨⟨p', slots, -⟩, classified⟩ := check_classified http classifies.request segment
  obtain ⟨flush, p, own, simple, error⟩ := classified c made raised
  have closes := check_flushed (e := e) (s := s) flush made
  rw [zero] at found
  refine ⟨found, ?_, zero ▸ closes.eligible, p, ?_, simple, error⟩
  · rcases closes.status with awaits | searching
    · rw [awaits]
      nofun
    · rw [searching]
      nofun
  · have held : (cells p' : Slots α).get? 0 = some (keep p) := by
      rw [← slots, ← own, ← zero]
      exact closes.own
    rw [get?_cells_zero] at held
    obtain ⟨y, rfl, same⟩ := Option.map_eq_some_iff.mp held
    have same := congrArg (kept? (τ := Progress)) same
    rw [kept?_keep, kept?_keep] at same
    rw [← same]
    exact slots

/-- A check of a lane whose request has two words reads nothing, or gives the lane up. -/
theorem check_knowsSimple (known : e.registry.scanner? 0 = some (Http.scanner cap))
    (knows : (s.lane .toServer).KnowsSimple) (segment : Segment) :
    let r := e.check s .toServer segment
    let l := r.session.lane .toServer
    let gap := (s.lane .toServer).arrival segment.seq segment.data = .gap
    l.KnowsSimple ∧ ¬ gap ∧ r.calls = [] ∨ l.IsVacant ∧ (gap ∨ r.calls ≠ []) := by
  obtain ⟨p, slots, simple, error⟩ := knows.own
  unfold check
  cases arrived : (s.lane .toServer).arrival segment.seq segment.data with
  | gap =>
    refine .inr ⟨?_, .inl rfl⟩
    simp only [Session.lane_setLane_self]
    exact ⟨rfl, rfl⟩
  | stale => exact .inl ⟨knows, nofun, rfl⟩
  | fresh lane data =>
    have same := Lane.arrival_fresh arrived
    have alive : lane.status ≠ .abort := by
      rw [same]
      exact fun gone => knows.alive (Status.eq_of_begun gone nofun)
    have eligible : lane.eligible = .singleton 0 := by
      rw [same]
      exact knows.eligible
    have slots' : lane.slots = cells (some p) := by
      rw [same]
      exact slots
    have pursued := Field.pursue_unread (q := e.inquiry .toServer segment)
      (f := e.opening s .toServer lane data.length) known eligible slots' error alive
      (segment.offset_le data.length.toUInt32) data
    have calls : (e.evaluate s .toServer lane data segment).calls =
        (e.pursuit s .toServer lane data segment).2.calls.reverse := rfl
    obtain ⟨eligible', slots''⟩ :=
      Lane.cutIf_keeps (e.pursuit s .toServer lane data segment).2.lane
        (due (e.inquiry .toServer segment) (e.pursuit s .toServer lane data segment))
        segment.queued segment.marks
    simp only
    rw [lane_evaluate, calls]
    rcases pursued with ⟨uncalled, alive, kept, held⟩ | gives_up
    · refine .inl ⟨⟨?_, ?_, p, ?_, simple, error⟩, nofun, ?_⟩
      · rw [Lane.status_cutIf]
        exact alive
      · exact eligible'.trans (kept.trans eligible)
      · exact slots''.trans (held.trans slots')
      · exact congrArg List.reverse uncalled
    · obtain ⟨c, called, -⟩ := gives_up.calls
      refine .inr ⟨⟨?_, slots''.trans gives_up.slots⟩, .inr fun nothing => ?_⟩
      · rw [Lane.status_cutIf]
        exact gives_up.status
      · have nothing := List.reverse_eq_nil_iff.mp nothing
        rw [show (e.pursuit s .toServer lane data segment).2.calls = _ from called] at nothing
        cases nothing

/-- A step that does not set the lane up leaves it as it is, unless it disturbs it. -/
theorem knowsSimple_step (http : e.registry.OnlyHttp cap)
    (known : e.registry.scanner? 0 = some (Http.scanner cap)) (classifies : s.Classifies)
    (kept : x.setsUp .toServer = false) :
    let l := (e.step s x).2.lane .toServer
    ((s.lane .toServer).KnowsSimple →
      (x.Disturbs e s .toServer → l.IsVacant) ∧ (¬ x.Disturbs e s .toServer → l.KnowsSimple)) ∧
    ((s.lane .toServer).IsVacant → l.IsVacant) := by
  cases x with
  | check d segment =>
    cases d with
    | toServer =>
      refine ⟨fun knows => ?_, fun vacant => ?_⟩
      · rcases check_knowsSimple known knows segment with ⟨knows, gap, quiet⟩ | ⟨vacant, disturbs⟩
        · exact ⟨fun disturbs => absurd quiet (disturbs.2.resolve_left gap), fun _ => knows⟩
        · exact ⟨fun _ => vacant, fun quiet => absurd ⟨rfl, disturbs⟩ quiet⟩
      · obtain ⟨emptied, untouched⟩ := e.slots_check_aborted vacant.status segment
        refine ⟨(e.check_aborted vacant.status segment).1, ?_⟩
        by_cases gap : (s.lane .toServer).arrival segment.seq segment.data = .gap
        · exact emptied gap
        · exact (untouched gap).trans vacant.slots
    | toClient =>
      have same : (e.step s (.check .toClient segment)).2.lane .toServer = s.lane .toServer :=
        (check_response http classifies.response segment).2
      rw [same]
      exact ⟨fun knows => ⟨fun disturbs => absurd disturbs.1 nofun, fun _ => knows⟩, id⟩
  | clear d =>
    cases d with
    | toServer =>
      exact ⟨fun _ => ⟨fun _ => ⟨rfl, rfl⟩, fun quiet => absurd rfl quiet⟩, fun _ => ⟨rfl, rfl⟩⟩
    | toClient => exact ⟨fun knows => ⟨nofun, fun _ => knows⟩, id⟩
  | setup d port =>
    cases d with
    | toServer => cases kept
    | toClient => exact ⟨fun knows => ⟨nofun, fun _ => knows⟩, id⟩
  | reset => cases kept

theorem knowsSimple_stepAll (http : e.registry.OnlyHttp cap)
    (known : e.registry.scanner? 0 = some (Http.scanner cap)) (classifies : s.Classifies)
    (kept : ∀ x ∈ steps, x.setsUp .toServer = false) :
    let l := (e.stepAll s steps).2.lane .toServer
    ((s.lane .toServer).KnowsSimple →
      (e.Disturbs s .toServer steps → l.IsVacant) ∧
        (¬ e.Disturbs s .toServer steps → l.KnowsSimple)) ∧
    ((s.lane .toServer).IsVacant → l.IsVacant) := by
  -- a vacant lane is carried along, as only the first step that disturbs the lane finds it known
  induction steps generalizing e s with
  | nil => exact ⟨fun knows => ⟨False.elim, fun _ => knows⟩, id⟩
  | cons x steps ih =>
    obtain ⟨first, later⟩ := List.forall_mem_cons.mp kept
    have same := e.registry_step s x
    obtain ⟨knows', vacant'⟩ := knowsSimple_step http known classifies first
    obtain ⟨goesOn, stays⟩ := ih (same.symm ▸ http) (same.symm ▸ known)
      (classifies_step http classifies x) later
    refine ⟨fun knows => ⟨?_, fun quiet => ?_⟩, fun vacant => stays (vacant' vacant)⟩
    · by_cases now : x.Disturbs e s .toServer
      · exact fun _ => stays ((knows' knows).1 now)
      · exact fun disturbs => (goesOn ((knows' knows).2 now)).1 (disturbs.resolve_left now)
    · rw [Disturbs, not_or] at quiet
      exact (goesOn ((knows' knows).2 quiet.1)).2 quiet.2

/-- A request of two words is known as such behind the check that finds it. From then on, until the
lane of the client is set up again, it is known exactly as long as the lane is not given up, which
happens with the first step that gives it up from outside or for a gap, or that puts more of the
client's bytes to the scanner. -/
theorem isSimpleRequest_iff (e : Engine α Tally) (http : e.registry.OnlyHttp cap) (key : UInt64)
    (port : UInt16) (steps : List Step) (segment : Segment) :
    let left := e.stepAll (e.openSession key port) steps
    let r := left.1.check left.2 .toServer segment
    ∀ c ∈ r.calls, .simpleRequest ∈ c.report.raised →
      isSimpleRequest r.session = true ∧
      ∀ more, (∀ x ∈ more, x.setsUp .toServer = false) →
        let later := r.engine.stepAll r.session more
        (isSimpleRequest later.2 = true ↔ ¬ r.engine.Disturbs r.session .toServer more) ∧
          (isSimpleRequest later.2 = true ↔ (later.2.lane .toServer).status ≠ .abort) := by
  intro left r c made told
  have http' : left.1.registry.OnlyHttp cap := (e.registry_stepAll _ steps).symm ▸ http
  have classifies : left.2.Classifies := by
    refine classifies_stepAll http ⟨?_, ?_⟩ steps
    · exact holdsErrs_empty
    · exact isResponse_none
  obtain ⟨known, knows⟩ := knowsSimple_of_raised http' classifies segment made told
  refine ⟨knows.isSimpleRequest, fun more kept => ?_⟩
  intro later
  have registry : r.engine.registry = left.1.registry :=
    (left.1.check_keeps left.2 .toServer segment).1
  have classifies' : r.session.Classifies :=
    classifies_step http' classifies (.check .toServer segment)
  obtain ⟨goesOn, -⟩ :=
    knowsSimple_stepAll (registry.symm ▸ http') (registry.symm ▸ known) classifies' kept
  obtain ⟨lost, remains⟩ := goesOn knows
  by_cases disturbed : r.engine.Disturbs r.session .toServer more
  · have unknown := (lost disturbed).isSimpleRequest
    exact ⟨iff_of_false (by rw [unknown]; nofun) (not_not_intro disturbed),
      iff_of_false (by rw [unknown]; nofun) (not_not_intro (lost disturbed).status)⟩
  · have knows := remains disturbed
    exact ⟨iff_of_true knows.isSimpleRequest disturbed,
      iff_of_true knows.isSimpleRequest knows.alive⟩

/-- A request of two words stays known while the response side is checked and given up. One more
byte of the client, and it is forgotten. -/
theorem isSimpleRequest_iff_index :
    let e : Engine Memo Tally := .ofRegistry (Registry.httpOn 80)
    let check (d : Direction) (text : String) (queued seq : UInt32) : Step :=
      .check d { data := text.toUTF8.toList, queued, seq, marks := .ofDirection d }
    let request : Segment :=
      { data := "GET /index.html\r\n".toUTF8.toList, queued := 17, seq := 0
        marks := .ofDirection .toServer }
    let r := e.check (e.openSession 1 80) .toServer request
    let quiet := [check .toClient "<html>" 6 0, .clear .toClient]
    let more := quiet ++ [check .toServer "x" 1 17]
    isSimpleRequest r.session = true ∧
      isSimpleRequest (r.engine.stepAll r.session quiet).2 = true ∧
      isSimpleRequest (r.engine.stepAll r.session more).2 = false := by
  intro e check request r quiet more
  have http : e.registry.OnlyHttp 0 := (Registry.isHttp_httpOn 80).only
  obtain ⟨c, made, told⟩ : ∃ c ∈ r.calls, decide (.simpleRequest ∈ c.report.raised) = true :=
    List.any_eq_true.mp (by decide +kernel)
  obtain ⟨known, later⟩ :=
    e.isSimpleRequest_iff http 1 80 [] request c made (of_decide_eq_true told)
  obtain ⟨-, stays⟩ := later quiet (by decide)
  obtain ⟨lasts, -⟩ := later more (by decide)
  refine ⟨known, stays.mpr (by decide +kernel), ?_⟩
  refine Bool.eq_false_iff.mpr fun remains => lasts.mp remains ?_
  exact .inr (.inr (.inl ⟨rfl, .inr (by decide +kernel)⟩))

end Engine

end StreamFraming
