import StreamFraming.Proofs.Http.Methods
import StreamFraming.Proofs.Interference

/-!
# The directions of an HTTP session

All that passes between the directions of a session is that a HEAD request has ended. A response
tells requests nothing, and a request that does not begin with `HEAD` tells responses nothing, so
the directions do not disturb each other (`run_noninterference`).
-/

namespace StreamFraming

open Http Holds

variable {α : Type} [Holds α Progress]

/-! ### Responses tell requests nothing -/

namespace Http

/-- A progress in the cell is that of a response. -/
def IsResponse (cell : Option α) : Prop :=
  ∀ p : Progress, cell.bind kept? = some p → p.flags.request = false

theorem isResponse_none : IsResponse (none : Option α) := by
  intro p kept
  cases kept

theorem isResponse_keep {p : Progress} (response : p.flags.request = false) :
    IsResponse (some (keep p : α)) := by
  intro q kept
  rw [Option.bind_some, kept?_keep] at kept
  cases kept
  exact response

theorem IsResponse.claim {cell : Option α} (h : IsResponse cell) {p : Progress}
    (claimed : Holds.claim (Progress.fresh false) cell = some p) : p.flags.request = false := by
  cases cell with
  | none =>
    cases claimed
    rfl
  | some a => exact h p claimed

theorem IsResponse.expectNoBody {cell : Option α} (h : IsResponse cell) :
    IsResponse (expectNoBody cell) := by
  unfold Http.expectNoBody
  split
  · rename_i p claimed
    have response := h.claim (p := p) claimed
    exact isResponse_keep (by exact response)
  · exact h

theorem scan_response {p : Progress} (response : p.flags.request = false) (window : List UInt8) :
    (p.scan false window).headDone = false ∧
      (p.scan false window).progress.flags.request = false := by
  have kept := p.request_read window
  rw [response] at kept
  rw [Progress.scan_eq_read]
  split
  · exact ⟨rfl, kept⟩
  · unfold Progress.settle
    split
    · exact ⟨rfl, kept⟩
    · refine ⟨?_, ?_⟩
      · simp only [kept, Bool.and_false]
      · simp only
        split
        · exact kept
        · rfl

theorem isResponse_scan (cap : UInt32) (memory : Tally) (sight : Sight α)
    (side : sight.marks.fromClient = false) (own : IsResponse sight.own) (window : List UInt8) :
    (scan cap memory sight window).peer = sight.peer ∧
      IsResponse (scan cap memory sight window).own := by
  simp only [scan, side]
  cases claimed : claim (Progress.fresh false) sight.own with
  | none => exact ⟨rfl, own⟩
  | some p =>
    have response := own.claim claimed
    obtain ⟨headDone, later⟩ := scan_response response window
    simp only
    split
    · exact ⟨rfl, isResponse_keep response⟩
    · refine ⟨?_, isResponse_keep later⟩
      rw [headDone]
      rfl

theorem isResponse_peer_scan (cap : UInt32) (memory : Tally) (sight : Sight α)
    (peer : IsResponse sight.peer) (window : List UInt8) :
    IsResponse (scan cap memory sight window).peer := by
  simp only [scan]
  cases claim (Progress.fresh sight.marks.fromClient) sight.own with
  | none => exact peer
  | some p =>
    simp only
    split
    · exact peer
    · simp only
      split
      · exact peer.expectNoBody
      · exact peer

end Http

namespace Field

variable {q : Inquiry α Tally} {cap : UInt32}

theorem contest_response (http : q.registry.OnlyHttp cap) (side : q.marks.fromClient = false)
    {peer : Slots α} {f : Field α Tally} (own : IsResponse (f.lane.slots.get? 0))
    (kept : f.peer = peer) (idx : UInt32) (data : List UInt8) :
    IsResponse ((contest q idx data f).2.lane.slots.get? 0) ∧
      (contest q idx data f).2.peer = peer := by
  refine contest_keeps (I := fun f => IsResponse (f.lane.slots.get? 0) ∧ f.peer = peer)
    ?_ ?_ ?_ ?_ ?_ ⟨own, kept⟩
  · rintro w id s f known ⟨own, rfl⟩
    obtain ⟨rfl, rfl⟩ := http.known known
    obtain ⟨told, reads⟩ := isResponse_scan cap
      ((f.memories.get? 0).getD (Http.scanner cap : Scanner α Tally).memory)
      ⟨0, q.marks, f.lane.slots.get? 0, f.peer.get? 0⟩ side own w.bytes
    refine ⟨?_, ?_⟩
    · show IsResponse ((f.lane.slots.update 0 _).get? 0)
      rw [Slots.get?_update, if_pos rfl]
      exact reads
    · show f.peer.update 0 _ = f.peer
      refine Eq.trans ?_ (f.peer.update_get? 0)
      exact congrArg _ told
  · rintro f id ⟨own, rfl⟩
    refine ⟨?_, rfl⟩
    show IsResponse ((f.lane.slots.erase id).get? 0)
    rw [Slots.get?_erase]
    split
    · exact isResponse_none
    · exact own
  · exact fun f id kept => kept
  · exact fun f status target _ kept => kept
  · exact fun f target kept => ⟨isResponse_none, kept.2⟩

theorem contest_peerResponse (http : q.registry.OnlyHttp cap) {f : Field α Tally}
    (peer : IsResponse (f.peer.get? 0)) (idx : UInt32) (data : List UInt8) :
    IsResponse ((contest q idx data f).2.peer.get? 0) := by
  refine contest_keeps (I := fun f => IsResponse (f.peer.get? 0)) ?_ ?_ ?_ ?_ ?_ peer
  · intro w id s f known peer
    obtain ⟨rfl, rfl⟩ := http.known known
    show IsResponse ((f.peer.update 0 _).get? 0)
    rw [Slots.get?_update, if_pos rfl]
    exact isResponse_peer_scan cap _ ⟨0, q.marks, f.lane.slots.get? 0, f.peer.get? 0⟩ peer w.bytes
  · exact fun f id kept => kept
  · exact fun f id kept => kept
  · exact fun f status target _ kept => kept
  · exact fun f target kept => kept

end Field

namespace Engine

variable {e : Engine α Tally} {s : Session α} {cap : UInt32}

theorem check_response (http : e.registry.OnlyHttp cap)
    (own : IsResponse ((s.lane .toClient).slots.get? 0)) (segment : Segment) :
    let r := e.check s .toClient segment
    IsResponse ((r.session.lane .toClient).slots.get? 0) ∧
      r.session.lane .toServer = s.lane .toServer := by
  have kept := check_invariant e s .toClient segment []
    (G := fun l peer _ => IsResponse (l.slots.get? 0) ∧ peer = (s.lane .toServer).slots)
    ?_ ?_ ?_ ⟨own, rfl⟩
  · obtain ⟨-, -, -, slots, opposite⟩ := e.check_keeps s .toClient segment
    refine ⟨kept.1, ?_⟩
    have same := kept.2
    rw [opposite] at same
    refine opposite.trans ?_
    rw [show slots = _ from same]
    rfl
  · intro l l' peer calls _ slots kept
    rwa [slots]
  · exact fun kept => ⟨isResponse_none, kept.2⟩
  · intro idx data f kept
    exact Field.contest_response http rfl kept.1 kept.2 idx data

theorem check_request (http : e.registry.OnlyHttp cap)
    (own : IsResponse ((s.lane .toClient).slots.get? 0)) (segment : Segment) :
    IsResponse (((e.check s .toServer segment).session.lane .toClient).slots.get? 0) := by
  refine check_invariant e s .toServer segment [] (G := fun _ peer _ => IsResponse (peer.get? 0))
    ?_ ?_ ?_ own
  · exact fun _ _ kept => kept
  · exact id
  · intro idx data f kept
    exact Field.contest_peerResponse http kept idx data

end Engine

/-! ### Requests as the scanner delimits them -/

namespace Http

/-- The bytes of its window that a scan takes. -/
def taken (c : Call α Tally) : List UInt8 :=
  let fromClient := c.sight.marks.fromClient
  match claim (Progress.fresh fromClient) c.sight.own with
  | none => []
  | some p =>
    if p.flags.error then [] else c.window.bytes.take (p.scan fromClient c.window.bytes).consumed

/-- The messages as far as they were read whenever the scanner decided something of them, with one
more scan. Of a message a decision ends its head, the size of a chunk or its last line. -/
def delimit (a : Assembly) (c : Call α Tally) : Assembly :=
  let m := a.carried ++ taken c
  match c.report.verdict with
  | .search => { a with carried := m }
  | .skip => { messages := a.messages ++ [m], carried := m }
  | .flush | .abort => { messages := a.messages ++ [m] }

/-- The messages of the client as its scans delimit them. -/
def delimited (calls : List (Call α Tally)) : Assembly :=
  (calls.filter (·.sight.marks.fromClient)).foldl delimit {}

theorem delimited_append_request (calls : List (Call α Tally)) {c : Call α Tally}
    (side : c.sight.marks.fromClient = true) :
    delimited (calls ++ [c]) = delimit (delimited calls) c := by
  have kept : [c].filter (·.sight.marks.fromClient) = [c] := List.filter_cons_of_pos side
  rw [delimited, List.filter_append, kept, List.foldl_append]
  rfl

theorem delimited_append_responses {calls more : List (Call α Tally)}
    (side : ∀ c ∈ more, c.sight.marks.fromClient = false) :
    delimited (calls ++ more) = delimited calls := by
  have unheard : more.filter (·.sight.marks.fromClient) = [] := by
    rw [List.filter_eq_nil_iff]
    intro c made
    rw [side c made]
    decide
  rw [delimited, List.filter_append, unheard, List.append_nil]
  rfl

end Http

/-- No message begins with `HEAD`. -/
def Assembly.IsHeadless (a : Assembly) : Prop := ∀ m ∈ a.messages, ¬ BeginsHead m

namespace Http

theorem isHeadless_of_delimit {a : Assembly} {c : Call α Tally}
    (headless : (delimit a c).IsHeadless) :
    a.IsHeadless ∧ (c.report.verdict ≠ .search → ¬ BeginsHead (a.carried ++ taken c)) := by
  have split {m : List UInt8} (whole : ∀ x ∈ a.messages ++ [m], ¬ BeginsHead x) :
      a.IsHeadless ∧ ¬ BeginsHead m :=
    ⟨fun x listed => whole x (List.mem_append_left _ listed), whole m (by simp)⟩
  cases verdict : c.report.verdict with
  | search =>
    simp only [delimit, verdict] at headless
    exact ⟨headless, fun wrong => absurd rfl wrong⟩
  | skip | flush | abort =>
    simp only [delimit, verdict] at headless
    exact ⟨(split headless).1, fun _ => (split headless).2⟩

theorem isHeadless_of_append {calls more : List (Call α Tally)}
    (headless : (delimited (calls ++ more)).IsHeadless) : (delimited calls).IsHeadless := by
  have earlier {a : Assembly} {cs : List (Call α Tally)}
      (headless : (cs.foldl delimit a).IsHeadless) : a.IsHeadless := by
    induction cs generalizing a with
    | nil => exact headless
    | cons c cs ih => exact (isHeadless_of_delimit (ih headless)).1
  rw [delimited, List.filter_append, List.foldl_append] at headless
  exact earlier headless

end Http

/-! ### Requests that do not begin with `HEAD` tell responses nothing -/

namespace Http

/-- The cell holds how far the bytes of a message have been read, if it can be framed. -/
def Tracks (cell : Option α) (m : List UInt8) : Prop :=
  ∀ p, claim Progress.request cell = some p → p.flags.error = true ∨ p.Reads m

theorem tracks_keep {p : Progress} {m : List UInt8} (h : p.flags.error = true ∨ p.Reads m) :
    Tracks (some (keep p : α)) m := by
  intro q claimed
  rw [claim, kept?_keep] at claimed
  cases claimed
  exact h

theorem tracks_none : Tracks (none : Option α) [] := by
  intro p claimed
  cases claimed
  exact .inr Progress.reads_request

/-- A scan of a message that does not begin with `HEAD`. -/
theorem scan_tracks {c : Call α Tally} {memory : Tally} {m : List UInt8}
    (scanned : c.report = scan 0 memory c.sight c.window.bytes)
    (side : c.sight.marks.fromClient = true) (tracks : Tracks c.sight.own m)
    (other : c.report.verdict ≠ .search → ¬ BeginsHead (m ++ taken c)) :
    c.report.peer = c.sight.peer ∧ (c.report.verdict ≠ .abort →
      Tracks c.report.own (if c.report.verdict = .flush then [] else m ++ taken c)) := by
  unfold taken at other ⊢
  rw [scan_uncapped, side] at scanned
  simp only [side] at other ⊢
  cases claimed : claim (Progress.fresh true) c.sight.own with
  | none =>
    rw [claimed] at scanned
    rw [scanned]
    exact ⟨rfl, fun ongoing => absurd rfl ongoing⟩
  | some p =>
    simp only [claimed] at scanned other ⊢
    cases error : p.flags.error with
    | true =>
      rw [error, if_pos rfl] at scanned
      rw [scanned]
      exact ⟨rfl, fun ongoing => absurd rfl ongoing⟩
    | false =>
      simp only [error, Bool.false_eq_true, if_false] at scanned other ⊢
      have reads : p.Reads m := by
        rcases tracks p claimed with wrong | reads
        · rw [error] at wrong
          cases wrong
        · exact reads
      obtain ⟨told, later⟩ := reads.scan c.window.bytes
      rw [scanned]
      refine ⟨?_, fun ongoing => tracks_keep (later ongoing)⟩
      simp only
      split
      · rename_i ended
        obtain ⟨decided, begins⟩ := told ended
        refine absurd begins (other ?_)
        rw [scanned]
        exact decided
      · rfl

theorem carried_delimit {a : Assembly} {c : Call α Tally} (ongoing : c.report.verdict ≠ .abort) :
    (delimit a c).carried = if c.report.verdict = .flush then [] else a.carried ++ taken c := by
  unfold delimit
  cases verdict : c.report.verdict
  · rfl
  · rfl
  · rfl
  · exact absurd verdict ongoing

end Http

/-- The scanner is out of the race, or its cell tracks the message in progress. -/
def Lane.Tracked (l : Lane α) (m : List UInt8) : Prop :=
  l.eligible = .empty ∨ l.eligible = .singleton 0 ∧ Tracks (l.slots.get? 0) m

namespace Field

variable {q : Inquiry α Tally} {calls : List (Call α Tally)} {f : Field α Tally}

theorem contest_tracked (http : q.registry.IsHttp) (side : q.marks.fromClient = true)
    {peer : Slots α}
    (tracked : (delimited (calls ++ f.calls.reverse)).IsHeadless →
      f.peer = peer ∧ f.lane.Tracked (delimited (calls ++ f.calls.reverse)).carried)
    (idx : UInt32) (data : List UInt8) :
    let g := (contest q idx data f).2
    (delimited (calls ++ g.calls.reverse)).IsHeadless →
      g.peer = peer ∧ g.lane.Tracked (delimited (calls ++ g.calls.reverse)).carried := by
  intro g headless
  have earlier : (delimited (calls ++ f.calls.reverse)).IsHeadless := by
    obtain ⟨more, made⟩ := (extends_contest q idx data f).calls
    rw [show g.calls = more ++ f.calls from made.symm, List.reverse_append,
      ← List.append_assoc] at headless
    exact isHeadless_of_append headless
  obtain ⟨kept, deaf | ⟨eligible, tracks⟩⟩ := tracked earlier
  · have given_up : g = _ := congrArg Prod.snd (contest_deaf (q := q) deaf idx data)
    rw [given_up]
    exact ⟨kept, .inl rfl⟩
  · have raced := contest_lone http eligible idx data
    let call := (Http.scanner 0 : Scanner α Tally).look
      ((f.memories.get? 0).getD (Http.scanner 0 : Scanner α Tally).memory) 0 q.marks f.lane.slots
      f.peer ⟨f.lane.origin + idx, data⟩
    have whole : g.calls = call :: f.calls := by
      show (contest q idx data f).2.calls = _
      rw [raced]
      simp only
      split <;> rfl
    have calls_eq : delimited (calls ++ g.calls.reverse) =
        delimit (delimited (calls ++ f.calls.reverse)) call := by
      rw [whole, List.reverse_cons, ← List.append_assoc, delimited_append_request _ side]
    rw [calls_eq] at headless ⊢
    obtain ⟨told, reads⟩ :=
      scan_tracks (c := call) rfl side tracks (isHeadless_of_delimit headless).2
    have peer_eq : call.storePeer f.peer = peer := by
      show f.peer.update 0 call.report.peer = peer
      rw [told, ← kept]
      exact f.peer.update_get? 0
    have own_eq : (call.storeOwn f.lane.slots).get? 0 = call.report.own := by
      show (f.lane.slots.update 0 call.report.own).get? 0 = _
      rw [Slots.get?_update, if_pos rfl]
    have answer : f.consult q ⟨f.lane.origin + idx, data⟩ 0 (Http.scanner 0) =
        (call.report.verdict, ⟨{ f.lane with
            slots := call.storeOwn f.lane.slots, target := call.report.point },
          call.storePeer f.peer, f.memories.set 0 call.report.memory,
          f.raised ++ call.report.raised, call :: f.calls⟩) := rfl
    rw [answer] at raced
    simp only at raced
    rw [← own_eq] at reads
    replace reads (ongoing : call.report.verdict ≠ .abort) :=
      carried_delimit ongoing ▸ reads ongoing
    show (contest q idx data f).2.peer = peer ∧ (contest q idx data f).2.lane.Tracked _
    rw [raced]
    cases verdict : call.report.verdict with
    | search => exact ⟨peer_eq, .inr ⟨eligible, reads (by rw [verdict]; nofun)⟩⟩
    | flush => exact ⟨peer_eq, .inr ⟨eligible, reads (by rw [verdict]; nofun)⟩⟩
    | skip => exact ⟨peer_eq, .inr ⟨eligible, reads (by rw [verdict]; nofun)⟩⟩
    | abort => exact ⟨peer_eq, .inl rfl⟩

end Field

namespace Engine

variable {e : Engine α Tally} {s : Session α}

/-- A check of the client's side, as long as no message begins with `HEAD`. -/
theorem check_tracked (http : e.registry.IsHttp) {other : Lane α} {calls : List (Call α Tally)}
    (tracked : (delimited calls).IsHeadless →
      s.lane .toClient = other ∧ (s.lane .toServer).Tracked (delimited calls).carried)
    (segment : Segment) :
    let r := e.check s .toServer segment
    (delimited (calls ++ r.calls)).IsHeadless →
      r.session.lane .toClient = other ∧
        (r.session.lane .toServer).Tracked (delimited (calls ++ r.calls)).carried := by
  have kept := check_invariant e s .toServer segment calls
    (G := fun l peer calls => (delimited calls).IsHeadless →
      peer = other.slots ∧ l.Tracked (delimited calls).carried) ?_ ?_ ?_ ?_
  · intro r headless
    obtain ⟨peer, lane⟩ := kept headless
    obtain ⟨same, -⟩ := tracked (isHeadless_of_append headless)
    obtain ⟨-, -, -, slots, opposite⟩ := e.check_keeps s .toServer segment
    refine ⟨?_, lane⟩
    rw [opposite] at peer
    refine opposite.trans ?_
    rw [show slots = other.slots from peer]
    show ({ s.lane .toClient with slots := other.slots } : Lane α) = other
    rw [same]
  · intro l l' peer calls eligible slots kept headless
    obtain ⟨peer, lane⟩ := kept headless
    refine ⟨peer, ?_⟩
    unfold Lane.Tracked
    rw [eligible, slots]
    exact lane
  · exact fun kept headless => ⟨(kept headless).1, .inl rfl⟩
  · intro idx data f kept
    exact Field.contest_tracked http rfl kept idx data
  · intro headless
    obtain ⟨same, lane⟩ := tracked headless
    refine ⟨?_, lane⟩
    show (s.lane .toClient).slots = _
    rw [same]

end Engine

/-! ### Runs -/

namespace Run

/-- The response side knows itself, and the client's side is tracked for as long as no message
begins with `HEAD`. -/
structure IsApart (r : Run α Tally) : Prop where
  http : r.host.engine.registry.IsHttp
  response : IsResponse ((r.host.session.lane .toClient).slots.get? 0)
  tracked : (delimited r.calls).IsHeadless →
    (r.host.session.lane .toServer).Tracked (delimited r.calls).carried

variable {r : Run α Tally}

theorem IsApart.send_toClient (apart : r.IsApart) (bytes : List UInt8) :
    (r.send .toClient bytes).IsApart ∧
      (r.send .toClient bytes).host.session.lane .toServer = r.host.session.lane .toServer := by
  have kept := Presentation.cutting_invariant (d := .toClient)
    (J := fun e s calls => e.registry.IsHttp ∧ IsResponse ((s.lane .toClient).slots.get? 0) ∧
      s.lane .toServer = r.host.session.lane .toServer ∧ delimited calls = delimited r.calls)
    ?_ (r.host.presentation .toClient bytes) ⟨apart.http, apart.response, rfl, rfl⟩
  · obtain ⟨engine, session, -, -, -, -, calls⟩ := r.send_eq .toClient bytes
    obtain ⟨http, response, lane, same⟩ := kept
    rw [← engine] at http
    rw [← session] at response lane
    rw [← calls] at same
    refine ⟨⟨http, response, ?_⟩, lane⟩
    rw [same, lane]
    exact apart.tracked
  · rintro e s segment calls marks ⟨http, response, lane, same⟩
    obtain ⟨response', kept⟩ := Engine.check_response http.only response segment
    refine ⟨?_, response', kept.trans lane, ?_⟩
    · rw [(e.check_keeps s .toClient segment).1]
      exact http
    · rw [delimited_append_responses, same]
      intro c made
      rw [e.marks_check s .toClient segment c made]
      rfl

theorem IsApart.send_toServer (apart : r.IsApart) (bytes : List UInt8) :
    (r.send .toServer bytes).IsApart ∧
      ((delimited (r.send .toServer bytes).calls).IsHeadless →
        (r.send .toServer bytes).host.session.lane .toClient =
          r.host.session.lane .toClient) := by
  have kept := Presentation.cutting_invariant (d := .toServer)
    (J := fun e s calls => e.registry.IsHttp ∧ IsResponse ((s.lane .toClient).slots.get? 0) ∧
      ((delimited calls).IsHeadless → s.lane .toClient = r.host.session.lane .toClient ∧
        (s.lane .toServer).Tracked (delimited calls).carried))
    ?_ (r.host.presentation .toServer bytes)
    ⟨apart.http, apart.response, fun headless => ⟨rfl, apart.tracked headless⟩⟩
  · obtain ⟨engine, session, -, -, -, -, calls⟩ := r.send_eq .toServer bytes
    rw [← engine, ← session, ← calls] at kept
    obtain ⟨http, response, tracked⟩ := kept
    exact ⟨⟨http, response, fun headless => (tracked headless).2⟩,
      fun headless => (tracked headless).1⟩
  · rintro e s segment calls - ⟨http, response, tracked⟩
    refine ⟨?_, Engine.check_request http.only response segment,
      Engine.check_tracked http tracked segment⟩
    rw [(e.check_keeps s .toServer segment).1]
    exact http

theorem IsApart.send (apart : r.IsApart) (d : Direction) (bytes : List UInt8) :
    (r.send d bytes).IsApart := by
  cases d with
  | toServer => exact (apart.send_toServer bytes).1
  | toClient => exact (apart.send_toClient bytes).1

theorem isApart_openOn {e : Engine α Tally} (http : e.registry.IsHttp) (port : UInt16) :
    ({ host := .openOn e port } : Run α Tally).IsApart := by
  refine ⟨http, isResponse_none, fun _ => ?_⟩
  have lane : ({ host := .openOn e port } : Run α Tally).host.session.lane .toServer =
      .ofScanners (e.registry.binding ⟨port, .toServer⟩).scanners := rfl
  rw [lane, http.eligible]
  split
  · exact .inr ⟨rfl, tracks_none⟩
  · exact .inl rfl

theorem IsApart.undisturbed_toServer (apart : r.IsApart)
    (sends : List (Direction × List UInt8)) : r.Undisturbed .toServer sends := by
  induction sends generalizing r with
  | nil => trivial
  | cons x sends ih =>
    obtain ⟨d, bytes⟩ := x
    refine ⟨fun other => ?_, ih (apart.send d bytes)⟩
    obtain rfl : d = .toClient := Direction.eq_opposite_of_ne other
    exact (apart.send_toClient bytes).2

theorem IsApart.undisturbed_toClient (apart : r.IsApart)
    {sends : List (Direction × List UInt8)}
    (headless : (delimited (r.sendAll sends).calls).IsHeadless) :
    r.Undisturbed .toClient sends := by
  induction sends generalizing r with
  | nil => trivial
  | cons x sends ih =>
    obtain ⟨d, bytes⟩ := x
    refine ⟨fun other => ?_, ih (apart.send d bytes) headless⟩
    obtain rfl : d = .toServer := Direction.eq_opposite_of_ne other
    apply (apart.send_toServer bytes).2
    obtain ⟨more, made⟩ := (r.send .toServer bytes).calls_sendAll sends
    rw [sendAll_cons, ← made] at headless
    exact isHeadless_of_append headless

/-- The messages of the client as the scanner delimits them, each as far as it was read when a
decision fell. -/
def requests (r : Run α Tally) : List (List UInt8) := (delimited r.calls).messages

end Run

/-- What becomes of the requests does not depend on the responses, and what becomes of the responses
does not depend on the requests, unless one of these begins with `HEAD`. -/
theorem run_noninterference {e : Engine α Tally} (http : e.registry.IsHttp) (port : UInt16)
    (d : Direction) (sends sends' : List (Direction × List UInt8))
    (same : sends.filter (·.1 = d) = sends'.filter (·.1 = d))
    (other : d = .toClient →
      (∀ m ∈ ((Host.openOn e port).run sends).requests, ¬ BeginsHead m) ∧
        ∀ m ∈ ((Host.openOn e port).run sends').requests, ¬ BeginsHead m) :
    let opened : Run α Tally := { host := .openOn e port }
    let r := (Host.openOn e port).run sends
    let r' := (Host.openOn e port).run sends'
    r.pieces d = r'.pieces d ∧ r.host.queue d = r'.host.queue d ∧
      r.host.session.lane d = r'.host.session.lane d ∧
      opened.raisedBy d sends = opened.raisedBy d sends' := by
  intro opened r r'
  have apart := Run.isApart_openOn http port
  have blind : opened.host.engine.registry.IsBlind := http.agrees fun _ _ _ => trivial
  have undisturbed : opened.Undisturbed d sends ∧ opened.Undisturbed d sends' := by
    cases d with
    | toServer => exact ⟨apart.undisturbed_toServer sends, apart.undisturbed_toServer sends'⟩
    | toClient =>
      obtain ⟨headless, headless'⟩ := other rfl
      exact ⟨apart.undisturbed_toClient headless, apart.undisturbed_toClient headless'⟩
  obtain ⟨agree, raised⟩ := Run.AgreeOn.of_undisturbed blind same undisturbed.1 undisturbed.2
  exact ⟨agree.pieces, agree.queue, agree.lane, raised⟩

/-- A response to a GET request and the same bytes without any request; the last request is a HEAD
request that has not ended. -/
theorem run_noninterference_get :
    let e : Engine Memo Tally := .ofRegistry (Registry.httpOn 80)
    let answer :=
      (Direction.toClient, "HTTP/1.1 200 OK\r\nContent-Length: 1\r\n\r\nx".toUTF8.toList)
    let sends := [(Direction.toServer, "GET / HTTP/1.1\r\n\r\nHEAD /".toUTF8.toList), answer]
    let r := (Host.openOn e 80).run sends
    let r' := (Host.openOn e 80).run [answer]
    r.requests = ["GET / HTTP/1.1\r\n\r\n".toUTF8.toList] ∧ r'.requests = [] ∧
      (r.pieces .toClient).map Piece.bytes = [answer.2] ∧ r.pieces .toClient = r'.pieces .toClient ∧
      r.host.session.lane .toClient = r'.host.session.lane .toClient := by
  intro e answer sends r r'
  have requests : r.requests = ["GET / HTTP/1.1\r\n\r\n".toUTF8.toList] := by decide +kernel
  have requests' : r'.requests = [] := by decide +kernel
  have http : e.registry.IsHttp := Registry.isHttp_httpOn 80
  have other : (∀ m ∈ r.requests, ¬ BeginsHead m) ∧ ∀ m ∈ r'.requests, ¬ BeginsHead m := by
    rw [requests, requests']
    decide +kernel
  obtain ⟨pieces, -, lane, -⟩ :=
    run_noninterference http 80 .toClient sends [answer] rfl fun _ => other
  exact ⟨requests, requests', by decide +kernel, pieces, lane⟩

end StreamFraming
