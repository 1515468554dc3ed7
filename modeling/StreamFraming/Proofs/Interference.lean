import StreamFraming.Proofs.Agreement
import StreamFraming.Proofs.Lockstep

/-!
# Interference between directions

The two directions of a session meet in the cells that the scanners of one hold for the other. Where
these do not go by what the opposite direction holds, and no send of the opposite direction changes
the lane of this one, all that a run makes of a direction is what it would make of its own sends
alone (`Run.AgreeOn.sendAll`).
-/

namespace StreamFraming

variable {α μ : Type} {d : Direction}

/-- Nothing that the opposite direction holds decides an answer. -/
def Registry.IsBlind (r : Registry α μ) : Prop := r.Agrees fun _ _ => True

theorem Field.contest_marks {q : Inquiry α μ} {f : Field α μ}
    (seen : ∀ c ∈ f.calls, c.sight.marks = q.marks) (idx : UInt32) (data : List UInt8) :
    ∀ c ∈ (contest q idx data f).2.calls, c.sight.marks = q.marks := by
  refine contest_keeps (I := fun f => ∀ c ∈ f.calls, c.sight.marks = q.marks) ?_ ?_ ?_ ?_ ?_ seen
  · intro w id s f known seen
    exact List.forall_mem_cons.mpr ⟨rfl, seen⟩
  · exact fun _ _ kept => kept
  · exact fun _ _ kept => kept
  · exact fun _ _ _ _ kept => kept
  · exact fun _ _ kept => kept

/-- The scans of a check see the marks of its direction. -/
theorem Engine.marks_check (e : Engine α μ) (s : Session α) (d : Direction) (segment : Segment) :
    ∀ c ∈ (e.check s d segment).calls, c.sight.marks = segment.marks.withDirection d := by
  have kept := check_invariant e s d segment []
    (G := fun _ _ calls => ∀ c ∈ calls, c.sight.marks = segment.marks.withDirection d)
    (fun _ _ kept => kept) id ?_ (List.forall_mem_nil _)
  · simp only [List.nil_append] at kept
    exact kept
  · intro idx data f seen
    rw [List.nil_append] at seen
    have seen' : ∀ c ∈ f.calls, c.sight.marks = (e.inquiry d segment).marks :=
      fun c made => seen c (List.mem_reverse.mpr made)
    intro g c made
    exact Field.contest_marks seen' idx data c (List.mem_reverse.mp made)

namespace Presentation

/-- The presentations have in common what concerns their direction. -/
structure Agree (d : Direction) (p p' : Presentation α μ) : Prop where
  registry : p'.engine.registry = p.engine.registry
  lane : p.session.lane d = p'.session.lane d
  queue : p.queue = p'.queue
  fresh : p.fresh = p'.fresh

variable {p p' : Presentation α μ}

theorem Agree.reply (agree : Agree d p p') (blind : p.engine.registry.IsBlind) :
    Engine.RepliesAgree (fun _ _ => True) d p.session p'.session (p.reply d) (p'.reply d) := by
  have segment : p'.segment d = p.segment d := by
    rw [Presentation.segment, Presentation.segment, Presentation.size, Presentation.size,
      agree.queue, agree.fresh]
  rw [Presentation.reply, Presentation.reply, segment]
  exact Engine.check_agree blind agree.registry agree.lane (fun _ => trivial) _

theorem registry_reply (p : Presentation α μ) (d : Direction) :
    (p.reply d).engine.registry = p.engine.registry :=
  (p.engine.check_keeps p.session d (p.segment d)).1

/-- The cuttings have in common what concerns the direction `d`, and raise the same. -/
structure CuttingsAgree (d : Direction) (p p' : Presentation α μ) (c c' : Cutting α μ) : Prop where
  registry : c.engine.registry = p.engine.registry ∧ c'.engine.registry = p.engine.registry
  lane : c.session.lane d = c'.session.lane d
  queue : c.queue = c'.queue
  pieces : c.pieces = c'.pieces
  raised : ∃ more, c.session.raised = p.session.raised ++ more ∧
    c'.session.raised = p'.session.raised ++ more

section Replied

variable (registry : p'.engine.registry = p.engine.registry) (queue : p.queue = p'.queue)
  (fresh : p.fresh = p'.fresh)
  (replies :
    Engine.RepliesAgree (fun _ _ => True) d p.session p'.session (p.reply d) (p'.reply d))

include queue fresh in
theorem bytes_eq : p'.bytes = p.bytes ∧ p'.size = p.size := by
  rw [Presentation.bytes, Presentation.bytes, Presentation.size, Presentation.size, queue, fresh]
  exact ⟨rfl, rfl⟩

include queue fresh replies

theorem cut_eq : p'.cut d = p.cut d := by
  rw [Presentation.cut, Presentation.cut, replies.length, (bytes_eq queue fresh).2]

include registry

theorem agree_next : Agree d (p.next d) (p'.next d) := by
  have cut := cut_eq queue fresh replies
  refine ⟨?_, replies.lane, ?_, ?_⟩
  · exact (p'.registry_reply d).trans (registry.trans (p.registry_reply d).symm)
  · simp only [Presentation.next, cut, queue]
  · simp only [Presentation.next, cut, (bytes_eq queue fresh).1]

theorem cuttings_agree (more : p.fresh ≠ [])
    (later : (p.reply d).length ≠ 0 → CuttingsAgree d (p.next d) (p'.next d)
      ((p.next d).cutting d) ((p'.next d).cutting d)) :
    CuttingsAgree d p p' (p.cutting d) (p'.cutting d) := by
  have more' : p'.fresh ≠ [] := fresh ▸ more
  by_cases found : (p.reply d).length = 0
  · have nothing' : (p'.reply d).length = 0 := replies.length ▸ found
    rw [cutting_of_held more found, cutting_of_held more' nothing']
    refine ⟨⟨p.registry_reply d, ?_⟩, replies.lane, ?_, rfl, replies.raised⟩
    · exact (p'.registry_reply d).trans registry
    · simp only [queue, fresh]
  · have found' : (p'.reply d).length ≠ 0 := replies.length ▸ found
    have cut := cut_eq queue fresh replies
    obtain ⟨⟨kept, kept'⟩, lane, left, pieces, rest, raised, raised'⟩ := later found
    obtain ⟨first, begun, begun'⟩ := replies.raised
    rw [cutting_of_cut more found, cutting_of_cut more' found']
    refine ⟨⟨?_, ?_⟩, lane, left, ?_, first ++ rest, ?_, ?_⟩
    · exact kept.trans (p.registry_reply d)
    · exact kept'.trans (p.registry_reply d)
    · simp only [cut, (bytes_eq queue fresh).1, replies.marks, pieces]
    · rw [← List.append_assoc, ← begun]
      exact raised
    · rw [← List.append_assoc, ← begun']
      exact raised'

end Replied

theorem Agree.next (agree : Agree d p p') (blind : p.engine.registry.IsBlind) :
    Agree d (p.next d) (p'.next d) :=
  agree_next agree.registry agree.queue agree.fresh (agree.reply blind)

theorem Agree.cutting (agree : Agree d p p') (blind : p.engine.registry.IsBlind) :
    CuttingsAgree d p p' (p.cutting d) (p'.cutting d) := by
  revert p'
  refine cut_induction (d := d)
    (C := fun p => p.engine.registry.IsBlind → ∀ {p'}, Agree d p p' →
      CuttingsAgree d p p' (p.cutting d) (p'.cutting d))
    (fun p nothing _ p' agree => ?_) (fun p more nothing blind p' agree => ?_)
    (fun p more found ih blind p' agree => ?_) p blind
  · rw [cutting_of_empty nothing, cutting_of_empty (agree.fresh ▸ nothing)]
    exact ⟨⟨rfl, agree.registry⟩, agree.lane, agree.queue, rfl, [], by simp, by simp⟩
  · exact cuttings_agree agree.registry agree.queue agree.fresh (agree.reply blind) more
      fun found => absurd nothing found
  · have blind' : (p.next d).engine.registry.IsBlind := by
      rw [show (p.next d).engine = (p.reply d).engine from rfl, registry_reply]
      exact blind
    exact cuttings_agree agree.registry agree.queue agree.fresh (agree.reply blind) more
      fun _ => ih blind' (agree.next blind)

end Presentation

namespace Run

def raisedBy (r : Run α μ) (d : Direction) : List (Direction × List UInt8) → List Anomaly
  | [] => []
  | x :: sends =>
    let r' := r.send x.1 x.2
    (if x.1 = d then r'.host.session.raised.drop r.host.session.raised.length else []) ++
      r'.raisedBy d sends

/-- The runs have in common what concerns a direction. -/
structure AgreeOn (d : Direction) (r r' : Run α μ) : Prop where
  registry : r'.host.engine.registry = r.host.engine.registry
  lane : r.host.session.lane d = r'.host.session.lane d
  queue : r.host.queue d = r'.host.queue d
  pieces : r.pieces d = r'.pieces d

/-- No send of the opposite direction changes the lane. -/
def Undisturbed (d : Direction) (r : Run α μ) : List (Direction × List UInt8) → Prop
  | [] => True
  | x :: sends =>
    (x.1 ≠ d → (r.send x.1 x.2).host.session.lane d = r.host.session.lane d) ∧
      (r.send x.1 x.2).Undisturbed d sends

variable {r r' : Run α μ} {bytes : List UInt8}

theorem AgreeOn.send (agree : r.AgreeOn d r') (blind : r.host.engine.registry.IsBlind)
    (bytes : List UInt8) :
    (r.send d bytes).AgreeOn d (r'.send d bytes) ∧
      (r.send d bytes).host.session.raised.drop r.host.session.raised.length =
        (r'.send d bytes).host.session.raised.drop r'.host.session.raised.length := by
  have presented : Presentation.Agree d (r.host.presentation d bytes)
      (r'.host.presentation d bytes) :=
    ⟨agree.registry, agree.lane, agree.queue, rfl⟩
  obtain ⟨⟨registry, registry'⟩, lane, queue, pieces, more, raised, raised'⟩ :=
    presented.cutting blind
  obtain ⟨e, s, q, -, p, -, -⟩ := r.send_eq d bytes
  obtain ⟨e', s', q', -, p', -, -⟩ := r'.send_eq d bytes
  refine ⟨⟨?_, ?_, ?_, ?_⟩, ?_⟩
  · rw [e, e', registry, registry']
  · rw [s, s', lane]
  · rw [q, q', queue]
  · rw [p, p', agree.pieces, pieces]
  · rw [s, s', raised, raised']
    simp [Host.presentation]

theorem AgreeOn.send_opposite (agree : r.AgreeOn d r') {x : Direction} (other : x ≠ d)
    (kept : (r.send x bytes).host.session.lane d = r.host.session.lane d) :
    (r.send x bytes).AgreeOn d r' := by
  have registry := r.registry_send x bytes
  obtain rfl : d = x.opposite := Direction.eq_opposite_of_ne other.symm
  obtain ⟨-, -, -, queue, -, pieces, -⟩ := r.send_eq x bytes
  refine ⟨?_, ?_, ?_, ?_⟩
  · rw [registry, agree.registry]
  · rw [kept, agree.lane]
  · rw [queue, agree.queue]
  · rw [pieces, agree.pieces]

/-- A direction that is not disturbed comes to what its own sends come to. -/
theorem AgreeOn.sendAll (agree : r.AgreeOn d r') (blind : r.host.engine.registry.IsBlind)
    {sends : List (Direction × List UInt8)} (undisturbed : r.Undisturbed d sends) :
    (r.sendAll sends).AgreeOn d (r'.sendAll (sends.filter (·.1 = d))) ∧
      r.raisedBy d sends = r'.raisedBy d (sends.filter (·.1 = d)) := by
  induction sends generalizing r r' with
  | nil => exact ⟨agree, rfl⟩
  | cons x sends ih =>
    obtain ⟨kept, later⟩ := undisturbed
    have blind' : (r.send x.1 x.2).host.engine.registry.IsBlind := by
      rw [r.registry_send x.1 x.2]
      exact blind
    by_cases own : x.1 = d
    · obtain ⟨sent, raised⟩ := agree.send blind x.2
      rw [← own] at sent raised
      rw [List.filter_cons_of_pos (by simpa using own)]
      rw [← own] at later ih ⊢
      obtain ⟨reached, rest⟩ := ih sent blind' later
      refine ⟨reached, ?_⟩
      simp only [raisedBy, if_true, raised, rest]
    · obtain ⟨reached, rest⟩ := ih (agree.send_opposite own (kept own)) blind' later
      rw [List.filter_cons_of_neg (by simpa using own)]
      refine ⟨reached, ?_⟩
      simp only [raisedBy, if_neg own, List.nil_append, rest]

/-- Two runs agree on a direction with the same sends that is disturbed in neither. -/
theorem AgreeOn.of_undisturbed (blind : r.host.engine.registry.IsBlind)
    {sends sends' : List (Direction × List UInt8)}
    (same : sends.filter (·.1 = d) = sends'.filter (·.1 = d))
    (undisturbed : r.Undisturbed d sends) (undisturbed' : r.Undisturbed d sends') :
    (r.sendAll sends).AgreeOn d (r.sendAll sends') ∧ r.raisedBy d sends = r.raisedBy d sends' := by
  have itself : r.AgreeOn d r := ⟨rfl, rfl, rfl, rfl⟩
  obtain ⟨one, raised⟩ := itself.sendAll blind undisturbed
  obtain ⟨two, raised'⟩ := itself.sendAll blind undisturbed'
  rw [same] at one raised
  refine ⟨⟨?_, ?_, ?_, ?_⟩, raised.trans raised'.symm⟩
  · exact two.registry.symm.trans one.registry
  · exact one.lane.trans two.lane.symm
  · exact one.queue.trans two.queue.symm
  · exact one.pieces.trans two.pieces.symm

end Run

end StreamFraming
