import StreamFraming.Proofs.Evaluations
import StreamFraming.Proofs.Http.Alone

/-!
# Evaluations that agree

Two evaluations of one segment on one lane, in engines with the same registry, come to the same
where scanners neither go by their memory nor, within a relation `P`, by their cell for the opposite
direction (`Engine.check_agree`). The HTTP scanner without a cap is one of these.
-/

namespace StreamFraming

variable {α μ : Type}

/-- What decides an answer is neither the memory nor, within `P`, the cell for the opposite
direction. -/
def Scanner.Agrees (P : Option α → Option α → Prop) (s : Scanner α μ) : Prop :=
  ∀ (memory memory' : μ) (sight : Sight α) (peer' : Option α) (window : List UInt8),
    P sight.peer peer' →
      let r := s.scan memory sight window
      let r' := s.scan memory' { sight with peer := peer' } window
      r.verdict = r'.verdict ∧ r.point = r'.point ∧ r.own = r'.own ∧ r.raised = r'.raised ∧
        P r.peer r'.peer

def Registry.Agrees (P : Option α → Option α → Prop) (r : Registry α μ) : Prop :=
  ∀ id s, r.scanner? id = some s → s.Agrees P

namespace Field

/-- Two fields that differ in memories, in the calls made so far, and within `P` in the cells of the
opposite direction. -/
structure Agree (P : Option α → Option α → Prop) (f g : Field α μ) : Prop where
  lane : f.lane = g.lane
  raised : f.raised = g.raised
  peer : ∀ id, P (f.peer.get? id) (g.peer.get? id)

variable {P : Option α → Option α → Prop} {q : Inquiry α μ} {f g : Field α μ}

theorem Agree.consult (agree : f.Agree P g) {s : Scanner α μ} (agrees : s.Agrees P) (w : Window)
    (id : Nat) :
    (f.consult q w id s).1 = (g.consult q w id s).1 ∧
      (f.consult q w id s).2.Agree P (g.consult q w id s).2 := by
  obtain ⟨verdict, point, own, raised, peer⟩ := agrees
    ((f.memories.get? id).getD s.memory) ((g.memories.get? id).getD s.memory)
    ⟨id, q.marks, f.lane.slots.get? id, f.peer.get? id⟩ (g.peer.get? id) w.bytes (agree.peer id)
  rw [agree.lane] at verdict point own raised peer
  refine ⟨?_, ?_, ?_, ?_⟩
  · simp only [Field.consult, agree.lane]
    exact verdict
  · simp only [Field.consult, agree.lane, Scanner.look, Call.storeOwn, Lane.mk.injEq, true_and]
    exact ⟨point, congrArg _ own⟩
  · simp only [Field.consult, agree.lane, agree.raised]
    exact congrArg _ raised
  · intro x
    simp only [Field.consult, agree.lane, Scanner.look, Call.storePeer, Slots.get?_update]
    split
    · exact peer
    · exact agree.peer x

theorem Agree.dismiss (agree : f.Agree P g) (id : Nat) : (f.dismiss id).Agree P (g.dismiss id) :=
  ⟨congrArg (Lane.dismiss · id) agree.lane, agree.raised, agree.peer⟩

theorem Agree.award (agree : f.Agree P g) (id : Nat) : (f.award id).Agree P (g.award id) :=
  ⟨congrArg (fun l : Lane α => { l with eligible := .singleton id }) agree.lane, agree.raised,
    agree.peer⟩

theorem Agree.pursue (agrees : q.registry.Agrees P) (agree : f.Agree P g) (idx : UInt32)
    (data : List UInt8) :
    (pursue q idx data f).1 = (pursue q idx data g).1 ∧
      (pursue q idx data f).2.Agree P (pursue q idx data g).2 := by
  refine pursue_related (R := Agree P) (W := Eq) rfl ?_ ?_ ?_ rfl rfl ?_ ?_ ?_ ?_ ?_ agree
  · rintro w w' id s f g known rfl related
    exact related.consult (agrees id s known) w id
  · exact fun id related => related.dismiss id
  · exact fun id related => related.award id
  · intro f g idx data related
    rw [related.lane]
  · intro f g related
    rw [related.lane]
    exact ⟨rfl, rfl, rfl⟩
  · exact fun v related => ⟨congrArg (Lane.conclude · v) related.lane, related.raised, related.peer⟩
  · exact fun target related =>
      ⟨congrArg (fun l : Lane α => { l with target }) related.lane, related.raised, related.peer⟩
  · exact fun related =>
      ⟨congrArg (fun l : Lane α => { l with status := .search }) related.lane, related.raised,
        related.peer⟩

/-- Where moves of the same lane agree, so do the pursuits that go on behind them. -/
theorem pursue_agree_of_move (agrees : q.registry.Agrees P)
    (status : f.lane.status = g.lane.status) {idx : UInt32} {data : List UInt8}
    (moved : (move q idx data f).1 = (move q idx data g).1)
    (after : (move q idx data f).2.Agree P (move q idx data g).2) :
    (pursue q idx data f).1 = (pursue q idx data g).1 ∧
      (pursue q idx data f).2.Agree P (pursue q idx data g).2 := by
  cases one : move q idx data f with
  | mk m f' =>
    cases two : move q idx data g with
    | mk m' g' =>
      rw [one, two] at moved after
      obtain rfl : m = m' := moved
      cases m with
      | cut kind =>
        rw [pursue_of_cut one, pursue_of_cut two]
        exact ⟨rfl, after⟩
      | wait =>
        rw [pursue_of_wait one, pursue_of_wait two]
        exact ⟨rfl, after⟩
      | again next =>
        by_cases ahead : idx < next
        · rw [pursue_of_again one ahead, pursue_of_again two ahead]
          exact after.pursue agrees next _
        · by_cases stuck : f.lane.status = .skip ∧ f'.lane.status = .skip
          · have stuck' : g.lane.status = .skip ∧ g'.lane.status = .skip := by
              rw [← status, ← after.lane]
              exact stuck
            rw [pursue_of_again_stuck one ahead stuck, pursue_of_again_stuck two ahead stuck']
            exact ⟨rfl, after⟩
          · have free : ¬ (g.lane.status = .skip ∧ g'.lane.status = .skip) := by
              rw [← status, ← after.lane]
              exact stuck
            rw [pursue_of_again_here one ahead stuck, pursue_of_again_here two ahead free]
            exact after.pursue agrees next data

end Field

namespace Engine

/-- Replies that agree on the lane `d`: they cut alike and raise the same. -/
structure RepliesAgree (P : Option α → Option α → Prop) (d : Direction) (s s' : Session α)
    (r r' : Reply α μ) : Prop where
  length : r.length = r'.length
  marks : r.marks = r'.marks
  lane : r.session.lane d = r'.session.lane d
  raised : ∃ more, r.session.raised = s.raised ++ more ∧ r'.session.raised = s'.raised ++ more
  peer : ∀ id, P ((r.session.lane d.opposite).slots.get? id)
    ((r'.session.lane d.opposite).slots.get? id)

variable {P : Option α → Option α → Prop} {e e' : Engine α μ} {s s' : Session α} {d : Direction}

/-- Evaluations whose pursuits agree do. -/
theorem evaluate_agree_of_pursuit (same : e'.registry = e.registry) {lane lane' : Lane α}
    {data : List UInt8} {segment : Segment}
    (cut : (e.pursuit s d lane data segment).1 = (e'.pursuit s' d lane' data segment).1)
    (pursued : (e.pursuit s d lane data segment).2.Agree P
      (e'.pursuit s' d lane' data segment).2) :
    RepliesAgree P d s s' (e.evaluate s d lane data segment)
      (e'.evaluate s' d lane' data segment) := by
  have inquiry : e'.inquiry d segment = e.inquiry d segment := by
    rw [Engine.inquiry, same, ← Engine.inquiry]
  have due : due (e'.inquiry d segment) (e'.pursuit s' d lane' data segment) =
      due (e.inquiry d segment) (e.pursuit s d lane data segment) := by
    rw [Engine.due, Engine.due, inquiry, cut, pursued.lane]
  refine ⟨?_, ?_, ?_, ?_, ?_⟩
  · simp only [evaluate_eq, due, pursued.lane]
  · simp only [evaluate_eq, due, pursued.lane]
  · rw [lane_evaluate, lane_evaluate, due, pursued.lane]
  · exact ⟨_, rfl, congrArg (s'.raised ++ ·) pursued.raised.symm⟩
  · rw [opposite_evaluate, opposite_evaluate]
    exact pursued.peer

theorem evaluate_agree (agrees : e.registry.Agrees P) (same : e'.registry = e.registry)
    (peer : ∀ id, P ((s.lane d.opposite).slots.get? id) ((s'.lane d.opposite).slots.get? id))
    (lane : Lane α) (data : List UInt8) (segment : Segment) :
    RepliesAgree P d s s' (e.evaluate s d lane data segment)
      (e'.evaluate s' d lane data segment) := by
  have inquiry : e'.inquiry d segment = e.inquiry d segment := by
    rw [Engine.inquiry, same, ← Engine.inquiry]
  have opened : (e.opening s d lane data.length).Agree P (e'.opening s' d lane data.length) :=
    ⟨rfl, rfl, peer⟩
  obtain ⟨cut, pursued⟩ := opened.pursue (q := e.inquiry d segment) agrees
    (Length.sub segment.queued data.length.toUInt32) data
  have pursuit' : e'.pursuit s' d lane data segment = Field.pursue (e.inquiry d segment)
      (Length.sub segment.queued data.length.toUInt32) data
        (e'.opening s' d lane data.length) := by
    rw [Engine.pursuit, inquiry]
  rw [← pursuit'] at cut pursued
  exact evaluate_agree_of_pursuit same cut pursued

/-- Checks of one segment on one lane agree. -/
theorem check_agree (agrees : e.registry.Agrees P) (same : e'.registry = e.registry)
    (lane : s.lane d = s'.lane d)
    (peer : ∀ id, P ((s.lane d.opposite).slots.get? id) ((s'.lane d.opposite).slots.get? id))
    (segment : Segment) :
    RepliesAgree P d s s' (e.check s d segment) (e'.check s' d segment) := by
  unfold Engine.check
  rw [lane]
  cases (s'.lane d).arrival segment.seq segment.data with
  | gap =>
    refine ⟨rfl, rfl, ?_, ⟨[], ?_, ?_⟩, ?_⟩
    · simp only [Session.lane_setLane_self]
    · simp only [Session.raised_setLane, List.append_nil]
    · simp only [Session.raised_setLane, List.append_nil]
    · simp only [Session.lane_setLane_opposite]
      exact peer
  | stale => exact ⟨rfl, rfl, lane, ⟨[], by simp, by simp⟩, peer⟩
  | fresh l data => exact evaluate_agree agrees same peer l data segment

end Engine

namespace Http

open Holds

variable [Holds α Progress]

/-- Without a cap the scanner goes by neither its memory nor what it holds for the opposite
direction. -/
theorem scanner_agrees {P : Option α → Option α → Prop}
    (told : ∀ a b, P a b → P (expectNoBody a) (expectNoBody b)) :
    (scanner 0 : Scanner α Tally).Agrees P := by
  intro memory memory' sight peer' window related
  simp only [scanner, scan_uncapped]
  cases claim (Progress.fresh sight.marks.fromClient) sight.own with
  | none => exact ⟨rfl, rfl, rfl, rfl, related⟩
  | some p =>
    simp only
    split
    · exact ⟨rfl, rfl, rfl, rfl, related⟩
    · refine ⟨rfl, rfl, rfl, rfl, ?_⟩
      simp only
      split
      · exact told _ _ related
      · exact related

end Http

theorem Registry.IsHttp.agrees [Holds α Http.Progress] {r : Registry α Tally} (http : r.IsHttp)
    {P : Option α → Option α → Prop}
    (told : ∀ a b, P a b → P (Http.expectNoBody a) (Http.expectNoBody b)) : r.Agrees P := by
  intro id s known
  obtain ⟨-, rfl⟩ := http.known known
  exact Http.scanner_agrees told

end StreamFraming
