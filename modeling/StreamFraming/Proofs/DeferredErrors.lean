import StreamFraming.Proofs.Http.Alone
import StreamFraming.Proofs.Lockstep

/-!
# Errors inside a request

A request that cannot be framed is read up to the end of its head, and the decision there takes all
queued bytes along. A scanner that is called again behind the error gives the lane up instead. So
whether the bytes are ever cut off depends on how they were split: they are unless a segment ends
inside the head, behind the error (`run_spoiltRequest`).
-/

namespace StreamFraming

open Http Holds

variable {α : Type} [Holds α Progress]

/-! ### Pursuits from a progress -/

namespace Field

/-- The HTTP scanner alone searches for the end of a message, and has come to `p`. -/
structure IsAt (f : Field α Tally) (fromClient : Bool) (p : Progress) : Prop where
  searching : f.lane.status = .search
  eligible : f.lane.eligible = .singleton 0
  own : ∃ own, f.lane.slots = cells own ∧ start own fromClient = p
  peer : ∃ peer, f.peer = cells peer

variable {q : Inquiry α Tally} {f : Field α Tally} {p : Progress} {idx : UInt32}
  {data : List UInt8}

theorem IsAt.move_eq {fromClient : Bool} (placed : f.IsAt fromClient p) (ahead : idx < q.total) :
    move q idx data f = contest q idx data f := by
  simp only [move, placed.searching, if_pos ahead]

theorem IsAt.pursue_search (placed : f.IsAt q.marks.fromClient p) (http : q.registry.IsHttp)
    (sound : p.flags.error = false) (ahead : idx < q.total)
    (search : (p.read data).1.verdict = .search) :
    ∃ g, pursue q idx data f = (none, g) ∧
      g.IsAt q.marks.fromClient (p.read data).1.progress ∧
      g.raised = f.raised ++ (p.read data).1.raised := by
  obtain ⟨own, slots, rfl⟩ := placed.own
  obtain ⟨peer, opposite⟩ := placed.peer
  obtain ⟨call, -, -, contested⟩ := contest_eq http placed.eligible slots opposite sound idx data
  rw [Progress.scan_eq_read, if_pos search] at contested
  refine ⟨_, pursue_of_wait ((placed.move_eq ahead).trans contested), ?_, rfl⟩
  exact ⟨rfl, placed.eligible, ⟨some _, rfl, rfl⟩, _, rfl⟩

theorem IsAt.pursue_flush (placed : f.IsAt q.marks.fromClient p) (http : q.registry.IsHttp)
    (sound : p.flags.error = false) (ahead : idx < q.total)
    (total : q.total.toNat = idx.toNat + data.length)
    (flush : (p.read data).1.verdict = .flush)
    (error : (p.read data).1.progress.flags.error = true) :
    ∃ g, pursue q idx data f = (some .boundary, g) ∧ g.lane.target = q.total ∧
      g.IsAt q.marks.fromClient (p.read data).1.progress ∧
      g.raised = f.raised ++ (p.read data).1.raised := by
  obtain ⟨own, slots, rfl⟩ := placed.own
  obtain ⟨peer, opposite⟩ := placed.peer
  obtain ⟨call, -, -, contested⟩ := contest_eq http placed.eligible slots opposite sound idx data
  have everything : Length.add (Length.ofNat data.length) idx = q.total := by
    have small := q.total.toNat_lt
    apply UInt32.toNat_inj.mp
    rw [Length.toNat_add, Length.toNat_ofNat]
    omega
  rw [Progress.scan_eq_read, if_neg (by rw [flush]; nofun), Progress.settle, if_pos error]
    at contested
  simp only [flush, everything, UInt32.le_refl, if_true] at contested
  rw [pursue_of_again ((placed.move_eq ahead).trans contested) ahead]
  -- the lane waits for a boundary that the queue has reached
  have boundary (g : Field α Tally) (bytes : List UInt8) :
      pursue q q.total bytes (g.decided .flush q.total) =
        (some .boundary, g.decided .search q.total) := by
    apply pursue_of_cut
    simp only [move, decided, UInt32.le_refl, if_true]
  refine ⟨_, boundary _ _, rfl, ?_, rfl⟩
  exact ⟨rfl, placed.eligible, ⟨some _, rfl, rfl⟩, _, rfl⟩

/-- The scanner has given the lane up unread: but for the call, nothing else is changed. -/
structure GivesUp (f g : Field α Tally) : Prop where
  status : g.lane.status = .abort
  slots : g.lane.slots = .empty
  peer : g.peer = f.peer
  tally : (g.memories.get? 0).getD {} = (f.memories.get? 0).getD {}
  raised : g.raised = f.raised
  calls : ∃ c, g.calls = c :: f.calls ∧ c.report.verdict = .abort

/-- The scanner looks at no byte behind an error. -/
theorem contest_error {cap : UInt32} (known : q.registry.scanner? 0 = some (Http.scanner cap))
    (eligible : f.lane.eligible = .singleton 0) {own : Option Progress}
    (slots : f.lane.slots = cells own)
    (error : (start own q.marks.fromClient).flags.error = true) (idx : UInt32)
    (data : List UInt8) :
    ∃ g, contest q idx data f = (if idx ≤ q.total then .again idx else .wait, g) ∧
      f.GivesUp g := by
  let w : Window := ⟨f.lane.origin + idx, data⟩
  let memory := (f.memories.get? 0).getD (Http.scanner cap : Scanner α Tally).memory
  let call := (Http.scanner cap : Scanner α Tally).look memory 0 q.marks f.lane.slots f.peer w
  have report : call.report =
      .plain memory { call.sight with own := some (keep (start own q.marks.fromClient)) }
        .abort 0 := by
    show scan cap memory ⟨0, q.marks, f.lane.slots.get? 0, f.peer.get? 0⟩ w.bytes = _
    have claimed : claim (Progress.fresh q.marks.fromClient) (f.lane.slots.get? 0) =
        some (start own q.marks.fromClient) := by
      rw [slots, get?_cells_zero, claim_cell]
      rfl
    simp only [scan, claimed, error, Bool.true_or, if_true]
    rfl
  have here : Length.add 0 idx = idx := Length.zero_add idx
  let g := (f.consult q w 0 (Http.scanner cap)).2
  have consulted : f.consult q w 0 (Http.scanner cap) = (.abort, g) :=
    Prod.ext (congrArg Report.verdict report) rfl
  have target : g.lane.target = 0 := congrArg Report.point report
  have contested := contest_only (by decide) eligible known idx data
  rw [consulted] at contested
  simp only [target, here] at contested
  refine ⟨_, contested, rfl, rfl, ?_, ?_, ?_, call, rfl, congrArg Report.verdict report⟩
  · show f.peer.update 0 call.report.peer = f.peer
    rw [report]
    exact f.peer.update_get? 0
  · show ((f.memories.set 0 call.report.memory).get? 0).getD {} = _
    rw [report, Slots.get?_set, if_pos rfl]
    rfl
  · show f.raised ++ call.report.raised = f.raised
    rw [report]
    exact List.append_nil _

theorem IsAt.pursue_error (placed : f.IsAt q.marks.fromClient p) (http : q.registry.IsHttp)
    (error : p.flags.error = true) (ahead : idx < q.total) :
    ∃ g, pursue q idx data f = (some .abort, g) ∧ f.GivesUp g := by
  obtain ⟨own, slots, rfl⟩ := placed.own
  obtain ⟨g, contested, gives_up⟩ :=
    contest_error http.scanner?_zero placed.eligible slots error idx data
  rw [if_pos (UInt32.le_of_lt ahead)] at contested
  have moved := (placed.move_eq ahead).trans contested
  exact ⟨g, pursue_of_again_abort moved gives_up.status, gives_up⟩

end Field

/-! ### What a check comes to -/

/-- The HTTP scanner alone searches a direction for the end of a message, and has come to `p`. -/
structure Session.IsAt (s : Session α) (d : Direction) (p : Progress) : Prop where
  searching : (s.lane d).status.begun = .search
  eligible : (s.lane d).eligible = .singleton 0
  own : ∃ own, (s.lane d).slots = cells own ∧ start own (d == .toServer) = p
  peer : ∃ peer, (s.lane d.opposite).slots = cells peer

/-- The lane is given up as soon as the scanner is called. -/
def Session.HasCeased (s : Session α) (d : Direction) : Prop :=
  (s.lane d).status = .abort ∨ ∃ p : Progress, p.flags.error = true ∧ s.IsAt d p

namespace Presentation

variable {d : Direction} {p : Presentation α Tally} {m : Progress} {cut? : Option Cut}
  {g : Field α Tally}

theorem opened_isAt (placed : p.session.IsAt d m) : (p.opened d).IsAt (d == .toServer) m :=
  ⟨placed.searching, placed.eligible, placed.own, placed.peer⟩

namespace InStep

variable (inStep : p.InStep d) (more : p.fresh ≠ [])

include inStep more

theorem reply_isAt (pursued : p.pursuit d = (cut?, g)) (placed : g.IsAt (d == .toServer) m) :
    (p.reply d).session.IsAt d m := by
  obtain ⟨-, -, lane, opposite, -⟩ := inStep.reply_of_pursuit more pursued
  obtain ⟨eligible, slots⟩ := g.lane.cutIf_keeps
    (Engine.due (p.engine.inquiry d (p.segment d)) (cut?, g)) p.size.toUInt32 (.ofDirection d)
  refine ⟨?_, ?_, ?_, ?_⟩
  · rw [lane, Lane.status_cutIf, placed.searching]
    rfl
  · rw [lane, eligible, placed.eligible]
  · rw [lane, slots]
    exact placed.own
  · rw [opposite]
    exact placed.peer

variable (http : p.engine.registry.IsHttp)

include http

theorem cutting_search (placed : p.session.IsAt d m) (sound : m.flags.error = false)
    (below : p.size ≤ p.engine.registry.maxFlushPoint.toNat)
    (search : (m.read p.fresh).1.verdict = .search) :
    (p.cutting d).pieces = [] ∧ (p.cutting d).queue.bytes = p.bytes ∧
      (p.cutting d).session.IsAt d (m.read p.fresh).1.progress ∧
      (p.cutting d).session.raised = p.session.raised ++ (m.read p.fresh).1.raised := by
  obtain ⟨g, pursued, found, raised⟩ := (opened_isAt placed).pursue_search
    (q := p.engine.inquiry d (p.segment d)) http sound (inStep.offset_lt_size more) search
  obtain ⟨-, -, -, -, raised'⟩ := inStep.reply_of_pursuit more pursued
  rw [cutting_of_held more (inStep.reply_of_wait more pursued below)]
  refine ⟨rfl, Queue.bytes_hold _ _, inStep.reply_isAt more pursued found, ?_⟩
  rw [raised', raised]
  rfl

theorem cutting_flush (placed : p.session.IsAt d m) (sound : m.flags.error = false)
    (flush : (m.read p.fresh).1.verdict = .flush)
    (error : (m.read p.fresh).1.progress.flags.error = true) :
    (∃ piece, (p.cutting d).pieces = [piece] ∧ piece.bytes = p.bytes ∧
        piece.marks.tail = true) ∧
      (p.cutting d).session.IsAt d (m.read p.fresh).1.progress ∧
      (p.cutting d).session.raised = p.session.raised ++ (m.read p.fresh).1.raised := by
  have total : p.size.toUInt32.toNat =
      (Length.sub p.size.toUInt32 p.fresh.length.toUInt32).toNat + p.fresh.length := by
    rw [inStep.toNat_size, inStep.toNat_offset]
    rfl
  obtain ⟨g, pursued, target, found, raised⟩ := (opened_isAt placed).pursue_flush
    (q := p.engine.inquiry d (p.segment d)) http sound (inStep.offset_lt_size more) total flush
    error
  obtain ⟨length, tail⟩ := inStep.reply_of_boundary more pursued target
  obtain ⟨-, -, -, -, raised'⟩ := inStep.reply_of_pursuit more pursued
  rw [inStep.cutting_of_whole more length]
  refine ⟨⟨_, rfl, rfl, tail⟩, inStep.reply_isAt more pursued found, ?_⟩
  rw [raised', raised]
  rfl

theorem cutting_ceased (ceased : p.session.HasCeased d) :
    (p.cutting d).pieces = [] ∧ ((p.cutting d).session.lane d).status = .abort ∧
      (p.cutting d).session.raised = p.session.raised := by
  obtain ⟨g, pursued, aborted, raised⟩ : ∃ g, p.pursuit d = (some .abort, g) ∧
      g.lane.status = .abort ∧ g.raised = [] := by
    rcases ceased with aborted | ⟨m, error, placed⟩
    · have status : (p.session.lane d).status.begun = .abort := by
        rw [aborted]
        rfl
      exact ⟨_, Field.pursue_of_aborted status, status, rfl⟩
    · obtain ⟨g, pursued, gives_up⟩ := (opened_isAt placed).pursue_error
        (q := p.engine.inquiry d (p.segment d)) http error (inStep.offset_lt_size more)
      exact ⟨g, pursued, gives_up.status, gives_up.raised⟩
  obtain ⟨-, -, lane, -, raised'⟩ := inStep.reply_of_pursuit more pursued
  rw [cutting_of_held more (inStep.reply_of_abort more pursued)]
  refine ⟨rfl, ?_, ?_⟩
  · rw [lane, Lane.status_cutIf, aborted]
  · rw [raised', raised, List.append_nil]

end InStep

end Presentation

/-! ### Requests that cannot be framed -/

namespace Http

/-- The bytes leave a request that cannot be framed. -/
def Spoils (bytes : List UInt8) : Prop :=
  (Progress.request.read bytes).1.progress.flags.error = true

instance : DecidablePred Spoils := fun _ => inferInstanceAs (Decidable (_ = true))

/-- The head of a request that cannot be framed, up to the byte that completes it. -/
structure IsSpoiltHead (head : List UInt8) : Prop where
  spoils : Spoils head
  decided : (Progress.request.read head).1.verdict = .flush
  whole : (Progress.request.read head).2 = []

theorem IsSpoiltHead.length_pos {head : List UInt8} (spoilt : IsSpoiltHead head) :
    0 < head.length := by
  apply List.length_pos_iff.mpr
  rintro rfl
  exact absurd spoilt.decided (by decide)

theorem IsSpoiltHead.search {head first : List UInt8} (spoilt : IsSpoiltHead head)
    (begins : first <+: head) (inside : first.length < head.length) :
    (Progress.request.read first).1.verdict = .search := by
  obtain ⟨rest, rfl⟩ := begins
  refine Progress.search_of_rest_nil spoilt.whole ?_
  rintro rfl
  rw [List.append_nil] at inside
  omega

/-- Behind what was sent, a segment ends inside the head and behind its first error. -/
def CutsInside (head sent : List UInt8) (segments : List (List UInt8)) : Prop :=
  ∃ before, before <+: segments ∧ (sent ++ before.flatten).length < head.length ∧
    Spoils (sent ++ before.flatten)

theorem cutsInside_nil {head sent : List UInt8} :
    CutsInside head sent [] ↔ sent.length < head.length ∧ Spoils sent := by
  simp [CutsInside]

theorem cutsInside_cons {head sent s : List UInt8} {segments : List (List UInt8)} :
    CutsInside head sent (s :: segments) ↔
      sent.length < head.length ∧ Spoils sent ∨ CutsInside head (sent ++ s) segments := by
  constructor
  · rintro ⟨before, first, inside, spoils⟩
    rcases List.prefix_cons_iff.mp first with rfl | ⟨before, rfl, later⟩
    · simp only [List.flatten_nil, List.append_nil] at inside spoils
      exact .inl ⟨inside, spoils⟩
    · rw [List.flatten_cons, ← List.append_assoc] at inside spoils
      exact .inr ⟨before, later, inside, spoils⟩
  · rintro (⟨inside, spoils⟩ | ⟨before, first, inside, spoils⟩)
    · refine ⟨[], List.nil_prefix, ?_, ?_⟩ <;> rw [List.flatten_nil, List.append_nil]
      · exact inside
      · exact spoils
    · refine ⟨s :: before, (List.cons_prefix_cons).mpr ⟨rfl, first⟩, ?_, ?_⟩ <;>
        rw [List.flatten_cons, ← List.append_assoc]
      · exact inside
      · exact spoils

instance (head : List UInt8) :
    ∀ (sent : List UInt8) (segments : List (List UInt8)), Decidable (CutsInside head sent segments)
  | _, [] => decidable_of_iff _ cutsInside_nil.symm
  | sent, s :: segments =>
    have := instDecidableCutsInside head (sent ++ s) segments
    decidable_of_iff _ cutsInside_cons.symm

theorem not_cutsInside {head sent : List UInt8} (past : head.length ≤ sent.length)
    (segments : List (List UInt8)) : ¬ CutsInside head sent segments := by
  rintro ⟨before, -, inside, -⟩
  rw [List.length_append] at inside
  omega

end Http

/-! ### Runs -/

namespace Run

variable {r : Run α Tally} {head sent bytes : List UInt8} {segments : List (List UInt8)}

/-- All that the server was sent waits in the queue, the beginning of a request. -/
structure Awaits (r : Run α Tally) (sent : List UInt8) : Prop where
  http : r.host.engine.registry.IsHttp
  lane : (r.host.session.lane .toServer).InStep (r.host.queue .toServer).size
    (r.host.queue .toServer).seq
  pieces : r.pieces .toServer = []
  bytes : (r.host.queue .toServer).bytes = sent
  placed : r.host.session.IsAt .toServer (Progress.request.read sent).1.progress
  searching : (Progress.request.read sent).1.verdict = .search
  raised : r.host.session.raised = (Progress.request.read sent).1.raised

/-- What the server is sent comes to nothing any more. -/
structure HasCeased (r : Run α Tally) : Prop where
  http : r.host.engine.registry.IsHttp
  lane : (r.host.session.lane .toServer).InStep (r.host.queue .toServer).size
    (r.host.queue .toServer).seq
  ceased : r.host.session.HasCeased .toServer

/-- The head came out at the beginning of a complete message, with what it raises. -/
structure HasCut (r : Run α Tally) (head : List UInt8) : Prop where
  piece : ∃ p ∈ r.pieces .toServer, p.marks.tail = true ∧ head <+: p.bytes
  raised : r.host.session.raised = (Progress.request.read head).1.raised

/-- Nothing came out, and the lane is given up. -/
structure HasLost (r : Run α Tally) (head : List UInt8) : Prop where
  pieces : r.pieces .toServer = []
  aborted : (r.host.session.lane .toServer).status = .abort
  raised : r.host.session.raised <+: (Progress.request.read head).1.raised

theorem HasCeased.send (ceased : r.HasCeased) (nonempty : bytes ≠ [])
    (small : (r.host.queue .toServer).size + bytes.length < 2 ^ 31) :
    (r.send .toServer bytes).HasCeased ∧
      (r.send .toServer bytes).pieces .toServer = r.pieces .toServer ∧
      ((r.send .toServer bytes).host.session.lane .toServer).status = .abort ∧
      (r.send .toServer bytes).host.session.raised = r.host.session.raised := by
  have inStep : (r.host.presentation .toServer bytes).InStep .toServer := ⟨ceased.lane, small⟩
  obtain ⟨pieces, aborted, raised⟩ := inStep.cutting_ceased nonempty ceased.http ceased.ceased
  obtain ⟨-, session, -, -, sent, -, -⟩ := r.send_eq .toServer bytes
  rw [sent, session, pieces, List.append_nil]
  refine ⟨⟨?_, ?_, ?_⟩, rfl, aborted, raised⟩
  · rw [r.registry_send]
    exact ceased.http
  · exact lane_send ceased.lane small
  · rw [session]
    exact .inl aborted

theorem HasCeased.sendAll (ceased : r.HasCeased)
    (fits : r.Fits (segments.map fun s => (.toServer, s))) :
    let r' := r.sendAll (segments.map fun s => (.toServer, s))
    r'.pieces .toServer = r.pieces .toServer ∧ r'.host.session.raised = r.host.session.raised ∧
      ((r.host.session.lane .toServer).status = .abort ∨ segments.flatten ≠ [] →
        (r'.host.session.lane .toServer).status = .abort) := by
  induction segments generalizing r with
  | nil => exact ⟨rfl, rfl, fun aborted => aborted.resolve_right fun nonempty => nonempty rfl⟩
  | cons s segments ih =>
    obtain ⟨small, fits⟩ := fits
    by_cases empty : s = []
    · subst empty
      rw [send_nil] at fits
      rw [List.map_cons, sendAll_cons, send_nil]
      exact ih ceased fits
    · obtain ⟨ceased', pieces, aborted, raised⟩ := ceased.send empty small
      obtain ⟨pieces', raised', aborted'⟩ := ih ceased' fits
      exact ⟨pieces'.trans pieces, raised'.trans raised, fun _ => aborted' (.inl aborted)⟩

theorem awaits_openOn {e : Engine α Tally} (http : e.registry.IsHttp) {port : UInt16}
    (listens : e.registry.listens port .toServer = true) :
    ({ host := .openOn e port } : Run α Tally).Awaits [] := by
  refine ⟨http, (inStep_openOn e port).lane .toServer, rfl, rfl, ⟨rfl, ?_, ?_, ?_⟩, rfl, rfl⟩
  · show (e.registry.binding ⟨port, .toServer⟩).scanners = _
    rw [http.eligible, listens, if_pos rfl]
  · exact ⟨none, cells_none.symm, rfl⟩
  · exact ⟨none, cells_none.symm⟩

namespace Awaits

variable (awaits : r.Awaits sent)

include awaits

theorem ceased (spoils : Spoils sent) : r.HasCeased :=
  ⟨awaits.http, awaits.lane, .inr ⟨_, spoils, awaits.placed⟩⟩

theorem presentation (small : (r.host.queue .toServer).size + bytes.length < 2 ^ 31) :
    (r.host.presentation .toServer bytes).InStep .toServer :=
  ⟨awaits.lane, small⟩

theorem size_presentation :
    (r.host.presentation .toServer bytes).size = (sent ++ bytes).length := by
  rw [← Presentation.length_bytes, Presentation.bytes, ← awaits.bytes]
  rfl

theorem send_search (sound : ¬ Spoils sent)
    (small : (r.host.queue .toServer).size + bytes.length < 2 ^ 31)
    (below : (sent ++ bytes).length ≤ r.host.engine.registry.maxFlushPoint.toNat)
    (search : (Progress.request.read (sent ++ bytes)).1.verdict = .search) :
    (r.send .toServer bytes).Awaits (sent ++ bytes) := by
  by_cases empty : bytes = []
  · rw [empty, send_nil, List.append_nil]
    exact awaits
  have inStep := awaits.presentation small
  have more := Progress.read_append_of_search awaits.searching bytes
  rw [more] at search
  obtain ⟨pieces, bytes', placed, raised⟩ := inStep.cutting_search empty awaits.http awaits.placed
    (Bool.eq_false_of_not_eq_true sound) (by rw [awaits.size_presentation]; exact below) search
  obtain ⟨-, session, queue, -, cut, -, -⟩ := r.send_eq .toServer bytes
  refine ⟨?_, ?_, ?_, ?_, ?_, ?_, ?_⟩
  · rw [r.registry_send]
    exact awaits.http
  · exact lane_send awaits.lane small
  · rw [cut, awaits.pieces, pieces]
    rfl
  · rw [queue, bytes', Presentation.bytes, ← awaits.bytes]
    rfl
  · rw [session, more]
    exact placed
  · rw [more]
    exact search
  · rw [session, raised, more]
    exact congrArg (· ++ _) awaits.raised

theorem send_flush (spoilt : IsSpoiltHead head) (inside : sent.length < head.length)
    (begins : head <+: sent ++ bytes) (sound : ¬ Spoils sent)
    (small : (r.host.queue .toServer).size + bytes.length < 2 ^ 31) :
    (r.send .toServer bytes).HasCut head ∧ (r.send .toServer bytes).HasCeased := by
  have nonempty : bytes ≠ [] := by
    rintro rfl
    have := begins.length_le
    rw [List.append_nil] at this
    omega
  have inStep := awaits.presentation small
  obtain ⟨rest, whole⟩ := begins
  have read : (Progress.request.read (sent ++ bytes)).1 = (Progress.request.read head).1 := by
    rw [← whole, Progress.read_append_of_decided (by rw [spoilt.decided]; nofun)]
  have turn := congrArg Prod.fst (Progress.read_append_of_search awaits.searching bytes)
  rw [read] at turn
  have flush := spoilt.decided
  have error := spoilt.spoils
  unfold Spoils at error
  rw [turn] at flush error
  obtain ⟨⟨piece, pieces, bytes', tail⟩, placed, raised⟩ :=
    inStep.cutting_flush nonempty awaits.http awaits.placed (Bool.eq_false_of_not_eq_true sound)
      flush error
  obtain ⟨-, session, -, -, cut, -, -⟩ := r.send_eq .toServer bytes
  refine ⟨⟨⟨piece, ?_, tail, rest, ?_⟩, ?_⟩, ?_, ?_, ?_⟩
  · rw [cut, pieces]
    exact List.mem_append_right _ List.mem_cons_self
  · rw [whole, bytes', Presentation.bytes, ← awaits.bytes]
    rfl
  · rw [session, raised, turn]
    exact congrArg (· ++ _) awaits.raised
  · rw [r.registry_send]
    exact awaits.http
  · exact lane_send awaits.lane small
  · rw [session]
    exact .inr ⟨_, error, placed⟩

theorem sendAll_spoils (spoils : Spoils sent) (inside : sent.length < head.length)
    (begins : head <+: sent ++ segments.flatten)
    (fits : r.Fits (segments.map fun s => (.toServer, s))) :
    (r.sendAll (segments.map fun s => (.toServer, s))).HasLost head := by
  obtain ⟨pieces, raised, aborted⟩ := (awaits.ceased spoils).sendAll fits
  have more : segments.flatten ≠ [] := by
    intro nothing
    have reach := begins.length_le
    rw [nothing, List.append_nil] at reach
    omega
  obtain ⟨rest, first⟩ : sent <+: head :=
    List.prefix_of_prefix_length_le (List.prefix_append _ _) begins inside.le
  refine ⟨pieces.trans awaits.pieces, aborted (.inr more), ?_⟩
  rw [raised, awaits.raised, ← first, Progress.read_append_of_search awaits.searching]
  exact List.prefix_append _ _

/-- What becomes of a request that cannot be framed depends on the cuts inside its head. -/
theorem sendAll (spoilt : IsSpoiltHead head) (segments : List (List UInt8))
    (inside : sent.length < head.length) (begins : head <+: sent ++ segments.flatten)
    (below : (sent ++ segments.flatten).length ≤ r.host.engine.registry.maxFlushPoint.toNat)
    (fits : r.Fits (segments.map fun s => (.toServer, s))) :
    let r' := r.sendAll (segments.map fun s => (.toServer, s))
    (CutsInside head sent segments → r'.HasLost head) ∧
      (¬ CutsInside head sent segments → r'.HasCut head) := by
  induction segments generalizing r sent with
  | nil =>
    have reach := begins.length_le
    rw [List.flatten_nil, List.append_nil] at reach
    omega
  | cons s segments ih =>
    by_cases spoils : Spoils sent
    · have cuts : CutsInside head sent (s :: segments) :=
        cutsInside_cons.mpr (.inl ⟨inside, spoils⟩)
      exact ⟨fun _ => awaits.sendAll_spoils spoils inside begins fits,
        fun outside => absurd cuts outside⟩
    have small := fits.1
    have later : CutsInside head sent (s :: segments) ↔ CutsInside head (sent ++ s) segments :=
      cutsInside_cons.trans (or_iff_right fun h => spoils h.2)
    rw [List.flatten_cons, ← List.append_assoc] at begins below
    rw [later]
    by_cases short : (sent ++ s).length < head.length
    · have first : sent ++ s <+: head :=
        List.prefix_of_prefix_length_le (List.prefix_append _ _) begins short.le
      have bound : (sent ++ s).length ≤ r.host.engine.registry.maxFlushPoint.toNat := by
        rw [List.length_append] at below
        omega
      have next := awaits.send_search spoils small bound (spoilt.search first short)
      refine ih next short begins ?_ fits.2
      rw [r.registry_send]
      exact below
    · have first : head <+: sent ++ s :=
        List.prefix_of_prefix_length_le begins (List.prefix_append _ _) (Nat.le_of_not_lt short)
      have outside := not_cutsInside first.length_le segments
      obtain ⟨cut, ceased⟩ := awaits.send_flush spoilt inside first spoils small
      obtain ⟨pieces, raised, -⟩ := ceased.sendAll fits.2
      refine ⟨fun cuts => absurd cuts outside, fun _ => ⟨?_, ?_⟩⟩
      · rw [List.map_cons, sendAll_cons, pieces]
        exact cut.piece
      · rw [List.map_cons, sendAll_cons, raised]
        exact cut.raised

end Awaits

end Run

/-- A request that cannot be framed comes out with its head, and raises what it raises in one piece,
if and only if no segment ends inside the head and behind its first error; otherwise nothing comes
out. Size bounds above `longestCut` are refused as settings. -/
theorem run_spoiltRequest {e : Engine α Tally} (http : e.registry.IsHttp) {port : UInt16}
    (listens : e.registry.listens port .toServer = true) {head : List UInt8}
    (spoilt : IsSpoiltHead head) (segments : List (List UInt8)) (begins : head <+: segments.flatten)
    (below : segments.flatten.length ≤ e.registry.maxFlushPoint.toNat)
    (short : segments.flatten.length ≤ longestCut.toNat) :
    let run (segments : List (List UInt8)) :=
      (Host.openOn e port).run (segments.map fun s => (Direction.toServer, s))
    let r := run segments
    let whole := run [segments.flatten]
    ((∃ p ∈ r.pieces .toServer, p.marks.tail = true ∧ head <+: p.bytes) ∧
        r.host.session.raised = whole.host.session.raised ↔ ¬ CutsInside head [] segments) ∧
      (CutsInside head [] segments →
        r.pieces .toServer = [] ∧ (r.host.session.lane .toServer).status = .abort ∧
          r.host.session.raised <+: whole.host.session.raised) := by
  intro run r whole
  have opened := Run.awaits_openOn http listens
  have fits (blocks : List (List UInt8)) (same : blocks.flatten = segments.flatten) :
      ({ host := .openOn e port } : Run α Tally).Fits (blocks.map fun s => (.toServer, s)) := by
    refine (Run.inStep_openOn e port).fits (stream_same_lt .toServer ?_)
    have longest : longestCut.toNat = 2 ^ 31 - 1 := rfl
    rw [same]
    omega
  have outside : ¬ CutsInside head [] [segments.flatten] := by
    rw [cutsInside_cons, List.nil_append]
    rintro (⟨-, spoils⟩ | cuts)
    · exact absurd spoils (by decide)
    · exact not_cutsInside begins.length_le [] cuts
  have once : whole.HasCut head := by
    have same : [segments.flatten].flatten = segments.flatten := by simp
    refine (opened.sendAll spoilt _ spoilt.length_pos ?_ ?_ (fits _ same)).2 outside
    · rw [same]
      exact begins
    · rw [same]
      exact below
  obtain ⟨lost, cut⟩ :=
    opened.sendAll spoilt segments spoilt.length_pos begins below (fits segments rfl)
  have lost' (cuts : CutsInside head [] segments) : r.HasLost head := lost cuts
  have cut' (whole : ¬ CutsInside head [] segments) : r.HasCut head := cut whole
  refine ⟨⟨?_, fun outside => ?_⟩, fun cuts => ?_⟩
  · rintro ⟨⟨p, found, -⟩, -⟩ cuts
    rw [(lost' cuts).pieces] at found
    cases found
  · exact ⟨(cut' outside).piece, (cut' outside).raised.trans once.raised.symm⟩
  · refine ⟨(lost' cuts).pieces, (lost' cuts).aborted, ?_⟩
    rw [once.raised]
    exact (lost' cuts).raised

/-- A request with a content length that is no number, split in front of its blank line and split in
its first line. -/
theorem run_spoiltRequest_contentLength :
    let e : Engine Memo Tally := .ofRegistry (Registry.httpOn 80)
    let head := "GET / HTTP/1.1\r\nContent-Length: x\r\n\r\n".toUTF8.toList
    let run (n : Nat) :=
      (Host.openOn e 80).run [(Direction.toServer, head.take n), (.toServer, head.drop n)]
    let whole := (Host.openOn e 80).run [(Direction.toServer, head)]
    ((run 35).pieces .toServer = [] ∧
        ((run 35).host.session.lane .toServer).status = .abort) ∧
      (∃ p ∈ (run 3).pieces .toServer, p.marks.tail = true ∧ head <+: p.bytes) ∧
        (run 3).host.session.raised = whole.host.session.raised := by
  intro e head run whole
  have http : e.registry.IsHttp := Registry.isHttp_httpOn 80
  have listens : e.registry.listens 80 .toServer = true := by decide +kernel
  have spoilt : IsSpoiltHead head := ⟨by decide +kernel, by decide +kernel, by decide +kernel⟩
  have joined (n : Nat) : [head.take n, head.drop n].flatten = head := by simp
  have few : head.length ≤ e.registry.maxFlushPoint.toNat ∧ head.length ≤ longestCut.toNat := by
    decide +kernel
  have law (n : Nat) := run_spoiltRequest http listens spoilt [head.take n, head.drop n]
    (by rw [joined]) (by rw [joined]; exact few.1) (by rw [joined]; exact few.2)
  obtain ⟨pieces, aborted, -⟩ := (law 35).2 (by decide +kernel)
  obtain ⟨piece, raised⟩ := (law 3).1.mpr (by decide +kernel)
  rw [joined] at raised
  exact ⟨⟨pieces, aborted⟩, piece, raised⟩

end StreamFraming
