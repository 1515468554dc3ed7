import StreamFraming.Proofs.Brackets
import StreamFraming.Proofs.Interference
import StreamFraming.Proofs.Segmentation
import StreamFraming.Proofs.Translation

/-!
# Between messages

Nothing leaks from one HTTP message into the next. When the last byte of a stream ends a message,
the direction holds the progress of a message that has not begun, and its lane is that of a
direction to which nothing was sent, but for its place and for a target that nothing awaits. The
first race overwrites the target, and from there on the stream goes on as it would begin
(`run_renewed`).
-/

namespace StreamFraming

open Http

/-! ### Readers between messages -/

/-- While the end of a message is awaited the next one is not begun, nor once it has ended. -/
structure Reader.Renewed (d : Direction) (r : Reader) : Prop where
  waiting : r.status = .flush → r.progress = some (Progress.fresh (d == .toServer))
  ended : r.unfinished = [] → r.messages ≠ [] →
    r.status = .search ∧ r.progress = some (Progress.fresh (d == .toServer))

section Reading

variable {d : Direction} {r : Reader}

theorem Reader.renewed_of_unfinished (nonempty : r.unfinished ≠ []) (passing : r.status ≠ .flush) :
    r.Renewed d :=
  ⟨fun waiting => absurd waiting passing, fun finished => absurd finished nonempty⟩

theorem Reader.renewed_await (nonempty : r.unfinished ≠ [])
    (anew : r.progress = some (Progress.fresh (d == .toServer))) (n : Nat) :
    (r.await n).Renewed d := by
  unfold await
  split
  · exact ⟨nofun, fun _ _ => ⟨rfl, anew⟩⟩
  · exact ⟨fun _ => anew, fun finished => absurd finished nonempty⟩

theorem Reader.renewed_follow (nonempty : r.unfinished ≠ []) (t : Turn) :
    (r.follow d t).Renewed d := by
  unfold follow
  split
  · exact renewed_of_unfinished nonempty nofun
  · exact renewed_await (r := { r with progress := some _ }) nonempty rfl _
  · exact renewed_of_unfinished nonempty nofun
  · exact renewed_of_unfinished nonempty nofun

namespace Exchange

variable {listens : Direction → Bool} {s : Exchange}

theorem renewed_take (renewed : (s.reader d).Renewed d) (c : UInt8) :
    ((s.take listens d c).reader d).Renewed d := by
  have held : ((s.reader d).hold [c]).unfinished ≠ [] := by simp [Reader.hold]
  unfold take
  simp only
  split
  · exact renewed
  · split
    · rw [reader_setReader_self]
      exact Reader.renewed_of_unfinished held fun wrong => by cases wrong
    · split
      · split
        · cases d <;> exact renewed
        · rw [reader_follow, reader_setReader_self]
          exact Reader.renewed_follow held _
      · split <;> rename_i status <;> rw [reader_setReader_self]
        · exact Reader.renewed_await held (renewed.waiting status) _
        all_goals exact Reader.renewed_of_unfinished held (by simp [Reader.hold, status])

theorem renewed_takeAll (renewed : (s.reader d).Renewed d) (cs : List UInt8) :
    ((s.takeAll listens d cs).reader d).Renewed d := by
  induction cs generalizing s with
  | nil => exact renewed
  | cons c cs ih => exact ih (renewed_take renewed c)

end Exchange

end Reading

/-! ### What is counted behind a message -/

section Counting

variable {α μ : Type} {d : Direction}

/-- Behind a cut that ends a message nothing is counted, and without a cut the count stays. -/
theorem Presentation.carried_cutting (d : Direction) (p : Presentation α μ) :
    let c := p.cutting d
    (c.pieces = [] → (c.session.lane d).carried = (p.session.lane d).carried) ∧
      ∀ piece, c.pieces.getLast? = some piece → piece.marks.tail = true →
        (c.session.lane d).carried = 0 := by
  have checked (p : Presentation α μ) :=
    p.engine.carried_check p.session d (p.segment d)
  refine cut_induction (d := d) (C := fun p =>
    ((p.cutting d).pieces = [] →
      ((p.cutting d).session.lane d).carried = (p.session.lane d).carried) ∧
      ∀ piece, (p.cutting d).pieces.getLast? = some piece → piece.marks.tail = true →
        ((p.cutting d).session.lane d).carried = 0)
    (fun p nothing => ?_) (fun p more nothing => ?_) (fun p more found ih => ?_) p
  · rw [cutting_of_empty nothing]
    exact ⟨fun _ => rfl, nofun⟩
  · rw [cutting_of_held more nothing]
    exact ⟨fun _ => (checked p).1 nothing, nofun⟩
  · rw [cutting_of_cut more found]
    refine ⟨nofun, fun piece last tail => ?_⟩
    simp only at last ⊢
    cases later : ((p.next d).cutting d).pieces with
    | nil =>
      rw [later, List.getLast?_singleton] at last
      cases last
      rw [ih.1 later]
      exact ((checked p).2 found).2.trans (if_pos tail)
    | cons first rest =>
      rw [later, List.getLast?_cons_cons, ← later] at last
      exact ih.2 piece last tail

namespace Run

/-- Nothing is counted behind a message that has ended. -/
def Uncounted (d : Direction) (r : Run α μ) : Prop :=
  ∀ piece, (r.pieces d).getLast? = some piece → piece.marks.tail = true →
    (r.host.session.lane d).carried = 0

theorem Uncounted.send {r : Run α μ} (uncounted : r.Uncounted d) (bytes : List UInt8) :
    (r.send d bytes).Uncounted d := by
  obtain ⟨-, session, -, -, pieces, -⟩ := r.send_eq d bytes
  obtain ⟨kept, ended⟩ := (r.host.presentation d bytes).carried_cutting d
  intro piece last tail
  rw [pieces, List.getLast?_append] at last
  rw [session]
  cases cut : ((r.host.presentation d bytes).cutting d).pieces.getLast? with
  | none =>
    rw [cut, Option.none_or] at last
    rw [kept (List.getLast?_eq_none_iff.mp cut)]
    exact uncounted piece last tail
  | some final =>
    rw [cut, Option.some_or] at last
    exact ended piece (cut.trans last) tail

theorem Uncounted.sendAll {r : Run α μ} (uncounted : r.Uncounted d)
    (segments : List (List UInt8)) :
    (r.sendAll (segments.map fun segment => (d, segment))).Uncounted d := by
  induction segments generalizing r with
  | nil => exact uncounted
  | cons segment segments ih => exact ih (uncounted.send segment)

/-- Where the last cut ended a message, nothing is left over of the pieces. -/
theorem assembly_of_last {r : Run α μ} {piece : Piece}
    (last : (r.pieces d).getLast? = some piece) (tail : piece.marks.tail = true) :
    (r.assembly d).carried = [] ∧ (r.assembly d).messages ≠ [] := by
  obtain ⟨front, whole⟩ := List.getLast?_eq_some_iff.mp last
  rw [assembly, whole, Assembly.ofPieces, Assembly.addAll_append]
  simp [Assembly.add, tail]

end Run

end Counting

/-! ### Streams that begin further along -/

section Translating

variable {α μ : Type} {d : Direction} {c : UInt32}

def Queue.advance (c : UInt32) (q : Queue) : Queue := { q with seq := q.seq + c }

namespace Presentation

def translate (c : UInt32) (p : Presentation α μ) : Presentation α μ :=
  { p with session := p.session.translate c, queue := p.queue.advance c }

theorem segment_translate (p : Presentation α μ) :
    (p.translate c).segment d = (p.segment d).translate c := by
  have place : p.queue.seq + c + p.queue.size.toUInt32 =
      p.queue.seq + p.queue.size.toUInt32 + c := by grind
  show ({ (p.segment d) with seq := p.queue.seq + c + p.queue.size.toUInt32 } : Segment) = _
  rw [place]
  rfl

theorem reply_translate (p : Presentation α μ) :
    (p.translate c).reply d = (p.reply d).translate c := by
  rw [reply, segment_translate]
  exact p.engine.check_translate c p.session d (p.segment d)

theorem next_translate (p : Presentation α μ) :
    (p.translate c).next d = (p.next d).translate c := by
  have place : p.queue.seq + c + (p.cut d).toUInt32 =
      p.queue.seq + (p.cut d).toUInt32 + c := by grind
  have cut : (p.translate c).cut d = p.cut d := by
    rw [Presentation.cut, reply_translate]
    rfl
  simp only [next, cut, reply_translate]
  show Presentation.mk _ _ (Queue.empty (p.queue.seq + c + _)) _ = _
  rw [place]
  rfl

/-- The queue is cut alike wherever it lies in the stream. -/
theorem cutting_translate (p : Presentation α μ) :
    let r := p.cutting d
    let r' := (p.translate c).cutting d
    r'.engine = r.engine ∧ r'.session = r.session.translate c ∧ r'.queue = r.queue.advance c ∧
      r'.pieces = r.pieces := by
  refine cut_induction (d := d) (C := fun p =>
    let r := p.cutting d
    let r' := (p.translate c).cutting d
    r'.engine = r.engine ∧ r'.session = r.session.translate c ∧ r'.queue = r.queue.advance c ∧
      r'.pieces = r.pieces) (fun p nothing => ?_) (fun p more nothing => ?_)
    (fun p more found ih => ?_) p
  · rw [cutting_of_empty nothing, cutting_of_empty (p := p.translate c) nothing]
    exact ⟨rfl, rfl, rfl, rfl⟩
  · have nothing' : ((p.translate c).reply d).length = 0 := by
      rw [reply_translate]
      exact nothing
    rw [cutting_of_held more nothing, cutting_of_held (p := p.translate c) more nothing',
      reply_translate]
    exact ⟨rfl, rfl, rfl, rfl⟩
  · have found' : ((p.translate c).reply d).length ≠ 0 := by
      rw [reply_translate]
      exact found
    have cut : (p.translate c).cut d = p.cut d := by
      rw [Presentation.cut, reply_translate]
      rfl
    rw [cutting_of_cut more found, cutting_of_cut (p := p.translate c) more found',
      next_translate, cut, reply_translate]
    obtain ⟨engine, session, queue, pieces⟩ := ih
    exact ⟨engine, session, queue, congrArg (List.cons _) pieces⟩

end Presentation

@[simp] theorem Lane.slots_translate (c : UInt32) (l : Lane α) :
    (l.translate c).slots = l.slots := by
  unfold translate
  split <;> rfl

@[simp] theorem Lane.carried_translate (c : UInt32) (l : Lane α) :
    (l.translate c).carried = l.carried := by
  unfold translate
  split <;> rfl

theorem Engine.lane_openSession (e : Engine α μ) (key : UInt64) (port : UInt16) (d : Direction) :
    (e.openSession key port).lane d = e.freshLane port d := by
  cases d <;> rfl

namespace Run

/-- The second run is the first one with the direction `d` further along. -/
structure IsAhead (d : Direction) (c : UInt32) (r r' : Run α μ) : Prop where
  engine : r'.host.engine = r.host.engine
  session : r'.host.session = r.host.session.translate c
  queue : r'.host.queue d = (r.host.queue d).advance c
  pieces : r'.pieces d = r.pieces d

theorem IsAhead.send {r r' : Run α μ} (ahead : IsAhead d c r r') (bytes : List UInt8) :
    IsAhead d c (r.send d bytes) (r'.send d bytes) := by
  have presented : r'.host.presentation d bytes =
      (r.host.presentation d bytes).translate c := by
    rw [Host.presentation, ahead.engine, ahead.session, ahead.queue]
    rfl
  obtain ⟨e, s, q, -, p, -, -⟩ := r.send_eq d bytes
  obtain ⟨e', s', q', -, p', -, -⟩ := r'.send_eq d bytes
  rw [presented] at e' s' q' p'
  obtain ⟨engine, session, queue, pieces⟩ :=
    (r.host.presentation d bytes).cutting_translate (d := d) (c := c)
  refine ⟨?_, ?_, ?_, ?_⟩
  · rw [e, e', engine]
  · rw [s, s', session]
  · rw [q, q', queue]
  · rw [p, p', pieces, ahead.pieces]

theorem IsAhead.sendAll {r r' : Run α μ} (ahead : IsAhead d c r r')
    (segments : List (List UInt8)) :
    IsAhead d c (r.sendAll (segments.map fun segment => (d, segment)))
      (r'.sendAll (segments.map fun segment => (d, segment))) := by
  induction segments generalizing r r' with
  | nil => exact ahead
  | cons segment segments ih => exact ih (ahead.send segment)

/-- A fresh run whose direction `d` begins at another place. -/
def openAt (e : Engine α μ) (port : UInt16) (d : Direction) (c : UInt32) : Run α μ where
  host := (Host.openOn e port).setQueue d (.empty c)

section Opened

variable (e : Engine α μ) (port : UInt16) (d : Direction) (c : UInt32)

theorem engine_openAt : (openAt e port d c).host.engine = e := by cases d <;> rfl

theorem session_openAt : (openAt e port d c).host.session = e.openSession 1 port := by
  cases d <;> rfl

theorem queue_openAt : (openAt e port d c).host.queue d = .empty c :=
  Host.queue_setQueue_self _ _ _

theorem isAhead_openAt : IsAhead d c { host := .openOn e port } (openAt e port d c) := by
  have untouched (d : Direction) : ((e.openSession 1 port).lane d).status = .start := by
    rw [e.lane_openSession]
    rfl
  have place : (Queue.empty c).seq = 0 + c := (UInt32.zero_add c).symm
  refine ⟨engine_openAt e port d c, ?_, ?_, rfl⟩
  · rw [session_openAt, ← (e.openSession 1 port).translate_of_untouched c untouched]
    rfl
  · rw [queue_openAt]
    cases d <;> exact Queue.ext rfl place

end Opened

end Run

end Translating

/-! ### Races that begin anew -/

section Racing

variable {α : Type} [Holds α Progress] {d : Direction}

namespace Field

/-- A lane between messages, and one to which nothing was sent. -/
structure Renews (fromClient : Bool) (f g : Field α Tally) : Prop where
  searching : f.lane.status = .search
  eligible : f.lane.eligible = .singleton 0
  own : f.lane.slots = cells (some (Progress.fresh fromClient))
  lane : ∃ target, g.lane = { f.lane with target, slots := .empty }
  raised : f.raised = g.raised

variable {q : Inquiry α Tally} {f g : Field α Tally}

/-- A message is read alike from a progress that has not begun and from none. -/
theorem Renews.consult (renews : f.Renews q.marks.fromClient g) (w : Window) :
    (f.consult q w 0 (Http.scanner 0)).1 = (g.consult q w 0 (Http.scanner 0)).1 ∧
      (f.consult q w 0 (Http.scanner 0)).2.Agree (fun _ _ => True)
        (g.consult q w 0 (Http.scanner 0)).2 := by
  generalize begun : Progress.fresh q.marks.fromClient = p
  have sound : p.flags.error = false := begun ▸ Reader.error_fresh _
  have read (memory : Tally) (own : Option Progress) (peer : Option α) (anew : own.getD p = p) :
      (Http.scanner 0).scan memory ⟨0, q.marks, own.map Holds.keep, peer⟩ w.bytes =
        let s := p.scan q.marks.fromClient w.bytes
        { verdict := s.verdict
          point := s.point
          own := some (Holds.keep s.progress)
          peer := if s.headDone then expectNoBody peer else peer
          memory := memory.count s.consumed
          raised := s.raised } := by
    simp only [Http.scanner, scan_uncapped, claim_cell, begun, anew, sound, Bool.false_eq_true,
      if_false]
  obtain ⟨target, lane⟩ := renews.lane
  have own : f.lane.slots.get? 0 = (some p).map Holds.keep := by
    rw [renews.own, get?_cells_zero, begun]
  have own' : g.lane.slots.get? 0 = (none : Option Progress).map Holds.keep := by
    rw [lane]
    exact Slots.get?_empty 0
  have cell : f.lane.slots = cells (some p) := begun ▸ renews.own
  simp only [Field.consult, Scanner.look, own, own', read _ (some p) _ rfl, read _ none _ rfl]
  refine ⟨trivial, ?_, congrArg (· ++ _) renews.raised, fun _ => trivial⟩
  simp only [Call.storeOwn, cell, lane, ← cells_none, update_cells_some]

theorem Renews.contest (renews : f.Renews q.marks.fromClient g) (http : q.registry.IsHttp)
    (idx : UInt32) (data : List UInt8) :
    (contest q idx data f).1 = (contest q idx data g).1 ∧
      (contest q idx data f).2.Agree (fun _ _ => True) (contest q idx data g).2 := by
  obtain ⟨target, lane⟩ := renews.lane
  have eligible : g.lane.eligible = .singleton 0 := by
    rw [lane]
    exact renews.eligible
  have origin : g.lane.origin = f.lane.origin := by rw [lane]
  obtain ⟨verdict, later⟩ := renews.consult ⟨f.lane.origin + idx, data⟩
  rw [contest_lone http renews.eligible, contest_lone http eligible, origin]
  generalize f.consult q ⟨f.lane.origin + idx, data⟩ 0 (Http.scanner 0) = answer at *
  generalize g.consult q ⟨f.lane.origin + idx, data⟩ 0 (Http.scanner 0) = answer' at *
  obtain ⟨v, f'⟩ := answer
  obtain ⟨v', g'⟩ := answer'
  obtain rfl : v = v' := verdict
  simp only at later
  simp only [later.lane]
  cases v <;> exact ⟨rfl, rfl, later.raised, later.peer⟩

theorem Renews.pursue (renews : f.Renews q.marks.fromClient g) (http : q.registry.IsHttp)
    {idx : UInt32} (ahead : idx < q.total) (data : List UInt8) :
    (pursue q idx data f).1 = (pursue q idx data g).1 ∧
      (pursue q idx data f).2.Agree (fun _ _ => True) (pursue q idx data g).2 := by
  obtain ⟨target, lane⟩ := renews.lane
  have status : f.lane.status = g.lane.status := by rw [lane]
  have moved : move q idx data f = Field.contest q idx data f := by
    rw [move, renews.searching]
    exact if_pos ahead
  have moved' : move q idx data g = Field.contest q idx data g := by
    rw [move, ← status, renews.searching]
    exact if_pos ahead
  have agree := renews.contest http idx data
  rw [← moved, ← moved'] at agree
  exact pursue_agree_of_move (http.agrees fun _ _ _ => trivial) status agree.1 agree.2

end Field

/-- The lane is between two messages. -/
structure Lane.IsBetween (d : Direction) (l : Lane α) : Prop where
  searching : l.status = .search
  eligible : l.eligible = .singleton 0
  uncounted : l.carried = 0
  own : l.slots = cells (some (Progress.fresh (d == .toServer)))

namespace Presentation

/-- The first presentation stands between two messages, the second one before its first bytes. -/
structure Renews (d : Direction) (p p' : Presentation α Tally) : Prop where
  between : (p.session.lane d).IsBetween d
  untouched : p'.session.lane d = .ofScanners (.singleton 0)
  registry : p'.engine.registry = p.engine.registry
  queue : p.queue = p'.queue
  fresh : p.fresh = p'.fresh

variable {p p' : Presentation α Tally}

theorem Renews.arrived (renews : Renews d p p') :
    p'.arrived d = { p.arrived d with target := (0 : UInt32), slots := .empty } := by
  obtain ⟨searching, eligible, uncounted, -⟩ := renews.between
  rw [Presentation.arrived, Presentation.arrived, renews.untouched, renews.queue, searching,
    eligible, uncounted]
  rfl

/-- Between two messages a direction answers new bytes as it would answer its first ones. -/
theorem Renews.reply (renews : Renews d p p') (http : p.engine.registry.IsHttp)
    (more : p.fresh ≠ []) (inStep : p.InStep d) (inStep' : p'.InStep d) :
    Engine.RepliesAgree (fun _ _ => True) d p.session p'.session (p.reply d) (p'.reply d) := by
  have segment : p'.segment d = p.segment d := by
    rw [Presentation.segment, Presentation.segment, (bytes_eq renews.queue renews.fresh).2,
      renews.queue, renews.fresh]
  have inquiry : p'.engine.inquiry d (p.segment d) = p.engine.inquiry d (p.segment d) := by
    rw [Engine.inquiry, renews.registry, ← Engine.inquiry]
  have side : (p.engine.inquiry d (p.segment d)).marks.fromClient = (d == .toServer) := rfl
  have opened : Field.Renews (p.engine.inquiry d (p.segment d)).marks.fromClient
      (p.engine.opening p.session d (p.arrived d) p.fresh.length)
      (p'.engine.opening p'.session d (p'.arrived d) p.fresh.length) := by
    rw [side]
    refine ⟨?_, renews.between.eligible, renews.between.own, ⟨0, ?_⟩, rfl⟩
    · show (p.session.lane d).status.begun = .search
      rw [renews.between.searching]
      rfl
    · show (p'.arrived d).read p.fresh.length = _
      rw [renews.arrived]
      rfl
  have pursued := opened.pursue http (inStep.offset_lt_size more) p.fresh
  rw [inStep.reply_eq more, inStep'.reply_eq (renews.fresh ▸ more), segment, ← renews.fresh]
  refine Engine.evaluate_agree_of_pursuit renews.registry ?_ ?_ <;>
    rw [Engine.pursuit, Engine.pursuit, inquiry]
  · exact pursued.1
  · exact pursued.2

theorem Renews.cutting (renews : Renews d p p') (http : p.engine.registry.IsHttp)
    (more : p.fresh ≠ []) (inStep : p.InStep d) (inStep' : p'.InStep d) :
    CuttingsAgree d p p' (p.cutting d) (p'.cutting d) := by
  have blind : (p.next d).engine.registry.IsBlind := by
    rw [show (p.next d).engine = (p.reply d).engine from rfl, registry_reply]
    exact http.agrees fun _ _ _ => trivial
  have replies := renews.reply http more inStep inStep'
  exact cuttings_agree renews.registry renews.queue renews.fresh replies more fun _ =>
    (agree_next renews.registry renews.queue renews.fresh replies).cutting blind

end Presentation

end Racing

/-! ### Runs -/

namespace Run

variable {α μ : Type} {d : Direction}

/-- Since `r` and `r'` the direction has done alike, and the runs stand alike at `s` and `s'`. -/
structure DoneAlike (d : Direction) (r r' s s' : Run α μ) : Prop where
  registry : s.host.engine.registry = r.host.engine.registry ∧
    s'.host.engine.registry = r.host.engine.registry
  lane : s.host.session.lane d = s'.host.session.lane d
  queue : s.host.queue d = s'.host.queue d
  pieces : ∃ more, s.pieces d = r.pieces d ++ more ∧ s'.pieces d = r'.pieces d ++ more
  raised : ∃ more, s.host.session.raised = r.host.session.raised ++ more ∧
    s'.host.session.raised = r'.host.session.raised ++ more

variable {r r' s s' t t' : Run α μ}

theorem DoneAlike.of_cuttings {bytes : List UInt8}
    (agree : Presentation.CuttingsAgree d (r.host.presentation d bytes)
      (r'.host.presentation d bytes) ((r.host.presentation d bytes).cutting d)
        ((r'.host.presentation d bytes).cutting d)) :
    DoneAlike d r r' (r.send d bytes) (r'.send d bytes) := by
  obtain ⟨registry, lane, queue, pieces, raised⟩ := agree
  obtain ⟨e, s, q, -, p, -, -⟩ := r.send_eq d bytes
  obtain ⟨e', s', q', -, p', -, -⟩ := r'.send_eq d bytes
  refine ⟨?_, ?_, ?_, ⟨_, p, ?_⟩, ?_⟩
  · rw [e, e']
    exact registry
  · rw [s, s', lane]
  · rw [q, q', queue]
  · rw [p', pieces]
  · rw [s, s']
    exact raised

theorem DoneAlike.trans (first : DoneAlike d r r' s s') (later : DoneAlike d s s' t t') :
    DoneAlike d r r' t t' := by
  obtain ⟨begun, pieces, pieces'⟩ := first.pieces
  obtain ⟨more, cut, cut'⟩ := later.pieces
  obtain ⟨noted, raised, raised'⟩ := first.raised
  obtain ⟨rest, told, told'⟩ := later.raised
  refine ⟨⟨later.registry.1.trans first.registry.1, later.registry.2.trans first.registry.1⟩,
    later.lane, later.queue, ⟨begun ++ more, ?_, ?_⟩, ⟨noted ++ rest, ?_, ?_⟩⟩
  · rw [cut, pieces, List.append_assoc]
  · rw [cut', pieces', List.append_assoc]
  · rw [told, raised, List.append_assoc]
  · rw [told', raised', List.append_assoc]

/-- What stands alike goes on alike. -/
theorem DoneAlike.sendAll (done : DoneAlike d r r' s s') (blind : r.host.engine.registry.IsBlind)
    (segments : List (List UInt8)) :
    DoneAlike d r r' (s.sendAll (segments.map fun segment => (d, segment)))
      (s'.sendAll (segments.map fun segment => (d, segment))) := by
  induction segments generalizing s s' with
  | nil => exact done
  | cons segment segments ih =>
    have presented : Presentation.Agree d (s.host.presentation d segment)
        (s'.host.presentation d segment) :=
      ⟨done.registry.2.trans done.registry.1.symm, done.lane, done.queue, rfl⟩
    have blind' : (s.host.presentation d segment).engine.registry.IsBlind := by
      rw [show (s.host.presentation d segment).engine = s.host.engine from rfl, done.registry.1]
      exact blind
    exact ih (done.trans (.of_cuttings (presented.cutting blind')))

/-- Empty segments come to nothing, so a stream begins with its first byte. -/
theorem sendAll_of_flatten {segments : List (List UInt8)} (filled : segments.flatten ≠ []) :
    ∃ (first : List UInt8) (rest : List (List UInt8)),
      first ≠ [] ∧ first.length ≤ segments.flatten.length ∧
      ∀ r : Run α μ, r.sendAll (segments.map fun segment => (d, segment)) =
        (r.send d first).sendAll (rest.map fun segment => (d, segment)) := by
  induction segments with
  | nil => exact absurd rfl filled
  | cons segment segments ih =>
    by_cases empty : segment = []
    · subst empty
      obtain ⟨first, rest, nonempty, short, sent⟩ := ih filled
      refine ⟨first, rest, nonempty, short, fun r => ?_⟩
      rw [List.map_cons, sendAll_cons, send_nil, sent]
    · exact ⟨segment, segments, empty, by simp, fun r => rfl⟩

end Run

section Renewed

variable {α : Type} [Holds α Progress] {d : Direction}

/-- Behind the bytes `as` the direction is between two messages. -/
theorem Run.between_of_last {e : Engine α Tally} (http : e.registry.IsHttp) (port : UInt16)
    {as : List (List UInt8)} (small : as.flatten.length < 2 ^ 31) {piece : Piece}
    (framed : ∀ call ∈ ((Host.openOn e port).run (as.map fun segment => (d, segment))).calls,
      setsError call = false) :
    let r := (Host.openOn e port).run (as.map fun segment => (d, segment))
    (r.host.queue d).bytes = [] → (r.pieces d).getLast? = some piece →
      piece.marks.tail = true →
        e.registry.listens port d = true ∧ (r.host.session.lane d).IsBetween d ∧
          (r.host.session.lane d).InStep (r.host.queue d).size (r.host.queue d).seq := by
  intro r ended last tail
  obtain ⟨kept, fails⟩ := Host.run_follows http port (stream_same_lt d small)
  have running : (({} : Exchange).run (e.registry.listens port)
      (as.map fun segment => (d, segment))).failed = false := by
    rw [Bool.eq_false_iff]
    intro failed
    obtain ⟨call, made, error⟩ := (fails failed).error
    rw [framed call made] at error
    cases error
  have follows := kept running
  rw [Exchange.run_same] at follows
  obtain ⟨carried, messages⟩ := r.assembly_of_last last tail
  have start : (({} : Exchange).reader d).Renewed d := by
    have empty : ({} : Exchange).reader d = {} := by cases d <;> rfl
    rw [empty]
    exact ⟨fun wrong => (by cases wrong), fun _ nonempty => absurd rfl nonempty⟩
  have finished : r.unfinished d = [] := by rw [Run.unfinished, carried, ended, List.append_nil]
  obtain ⟨searching, anew⟩ := (Exchange.renewed_takeAll start as.flatten).ended
    ((follows.unfinished d).symm.trans finished) (fun empty => messages
      ((follows.messages d).trans empty))
  have lane := follows.host.lane d
  have active : ((({} : Exchange).takeAll (e.registry.listens port) d as.flatten).reader d).status ≠
      .abort := by
    rw [searching]
    decide
  have heard := lane.heard (by rw [searching]; decide) active
  refine ⟨heard, ⟨lane.status.trans searching, ?_, ?_, ?_⟩, lane.inStep⟩
  · rw [lane.eligible active, heard]
    rfl
  · have opened : ({ host := .openOn e port } : Run α Tally).Uncounted d :=
      fun _ wrong => by cases wrong
    exact opened.sendAll as piece last tail
  · rw [lane.own, anew]

/-- A direction that is between two messages goes on as a fresh one begins. -/
theorem Run.doneAlike_of_between (e' : Engine α Tally) (port : UInt16) {r : Run α Tally}
    (http : r.host.engine.registry.IsHttp)
    (same : e'.registry = r.host.engine.registry)
    (heard : e'.registry.listens port d = true)
    (between : (r.host.session.lane d).IsBetween d)
    (lane : (r.host.session.lane d).InStep (r.host.queue d).size (r.host.queue d).seq)
    (ended : (r.host.queue d).bytes = []) {bs : List (List UInt8)}
    (small : bs.flatten.length < 2 ^ 31) (filled : bs.flatten ≠ []) :
    let opened : Run α Tally := .openAt e' port d (r.host.queue d).seq
    DoneAlike d r opened (r.sendAll (bs.map fun segment => (d, segment)))
      (opened.sendAll (bs.map fun segment => (d, segment))) := by
  intro opened
  obtain ⟨first, rest, nonempty, short, sent⟩ := sendAll_of_flatten (α := α) (μ := Tally) filled
  have size : (r.host.queue d).size = 0 := by rw [← Queue.length_bytes, ended, List.length_nil]
  have queue : opened.host.queue d = .empty (r.host.queue d).seq := Run.queue_openAt ..
  have untouched : opened.host.session.lane d = .ofScanners (.singleton 0) := by
    rw [Run.session_openAt, Engine.lane_openSession, Engine.freshLane,
      (same ▸ http : e'.registry.IsHttp).eligible, heard]
    rfl
  have renews : Presentation.Renews d (r.host.presentation d first)
      (opened.host.presentation d first) := by
    refine ⟨between, untouched, ?_, ?_, rfl⟩
    · show opened.host.engine.registry = r.host.engine.registry
      rw [Run.engine_openAt, same]
    · show r.host.queue d = opened.host.queue d
      rw [queue]
      exact Queue.ext ended rfl
  have inStep : (r.host.presentation d first).InStep d :=
    ⟨lane, show (r.host.queue d).size + first.length < 2 ^ 31 by omega⟩
  have inStep' : (opened.host.presentation d first).InStep d := by
    have empty : (opened.host.queue d).size = 0 := by rw [queue, Queue.size_empty]
    refine ⟨?_, show (opened.host.queue d).size + first.length < 2 ^ 31 by omega⟩
    show (opened.host.session.lane d).InStep (opened.host.queue d).size _
    rw [untouched, empty]
    exact ⟨fun _ => rfl, fun started => absurd rfl started, fun started => absurd rfl started⟩
  rw [sent, sent]
  exact DoneAlike.sendAll (.of_cuttings (renews.cutting http nonempty inStep inStep'))
    (http.agrees fun _ _ _ => trivial) rest

/-- When the bytes `as` end with a message, and every message in them can be framed, the direction
is left as if no message had begun; any bytes `bs` behind them come to what they come to in a fresh
session, wherever they are split. -/
theorem run_renewed {e e' : Engine α Tally} (http : e.registry.IsHttp)
    (same : e'.registry = e.registry) (port : UInt16) (d : Direction) (as bs : List (List UInt8))
    (small : as.flatten.length + bs.flatten.length < 2 ^ 31) {piece : Piece} :
    let sends (segments : List (List UInt8)) := segments.map fun segment => (d, segment)
    let r := (Host.openOn e port).run (sends as)
    (∀ call ∈ r.calls, setsError call = false) → (r.host.queue d).bytes = [] →
      (r.pieces d).getLast? = some piece → piece.marks.tail = true →
    (r.host.session.lane d).slots = cells (some (Progress.fresh (d == .toServer))) ∧
      progress? r.host.session d = some (Progress.fresh (d == .toServer)) ∧
      (bs.flatten ≠ [] →
        let r' := r.sendAll (sends bs)
        let anew := (Host.openOn e' port).run (sends bs)
        let lane := r'.host.session.lane d
        let lane' := anew.host.session.lane d
        r'.pieces d = r.pieces d ++ anew.pieces d ∧
          (r'.host.queue d).bytes = (anew.host.queue d).bytes ∧
          r'.host.session.raised = r.host.session.raised ++ anew.host.session.raised ∧
          lane.status = lane'.status ∧ lane.slots = lane'.slots ∧
          progress? r'.host.session d = progress? anew.host.session d ∧
          lane.carried = lane'.carried) := by
  intro sends r framed ended last tail
  obtain ⟨heard, between, inStep⟩ :=
    Run.between_of_last http port (by omega) framed ended last tail
  refine ⟨between.own, by rw [progress?, between.own, first?_cells], fun filled => ?_⟩
  intro r' anew lane lane'
  have registry : r.host.engine.registry = e.registry := Run.registry_sendAll _ _
  have done := Run.doneAlike_of_between e' port (r := r) (registry ▸ http)
    (same.trans registry.symm) (same ▸ heard) between inStep ended (by omega) filled
  have ahead : Run.IsAhead d (r.host.queue d).seq anew _ :=
    (Run.isAhead_openAt e' port d (r.host.queue d).seq).sendAll bs
  obtain ⟨more, pieces, pieces'⟩ := done.pieces
  obtain ⟨rest, raised, raised'⟩ := done.raised
  have begun : anew.pieces d = more := ahead.pieces.symm.trans pieces'
  have told : anew.host.session.raised = rest := by
    rw [ahead.session, Run.session_openAt] at raised'
    exact raised'
  have lanes : lane = lane'.translate (r.host.queue d).seq := by
    rw [← Session.lane_translate, ← ahead.session]
    exact done.lane
  have slots : lane.slots = lane'.slots := by rw [lanes, Lane.slots_translate]
  refine ⟨by rw [begun]; exact pieces, ?_, by rw [told]; exact raised, ?_, slots, ?_, ?_⟩
  · have queue := done.queue.trans ahead.queue
    rw [queue]
    rfl
  · rw [lanes, Lane.status_translate]
  · exact congrArg (·.first? Progress) slots
  · rw [lanes, Lane.carried_translate]

/-- A request with a body that comes in two segments, and two more requests behind it, the second of
which is not over. -/
theorem run_renewed_requests :
    let e : Engine Memo Tally := .ofRegistry (Registry.httpOn 80)
    let as := ["POST / HTTP/1.1\r\nContent-Length: 4\r\n\r\nab".toUTF8.toList, "cd".toUTF8.toList]
    let bs := ["GET / HTTP/1.1\r\n\r\nGET".toUTF8.toList, " /a".toUTF8.toList]
    let sends (segments : List (List UInt8)) :=
      segments.map fun segment => (Direction.toServer, segment)
    let r := (Host.openOn e 80).run (sends as)
    let r' := r.sendAll (sends bs)
    let anew := (Host.openOn e 80).run (sends bs)
    progress? r.host.session .toServer = some Progress.request ∧
      r'.pieces .toServer = r.pieces .toServer ++ anew.pieces .toServer ∧
      (anew.pieces .toServer).map Piece.bytes = ["GET / HTTP/1.1\r\n\r\n".toUTF8.toList] ∧
      (r'.host.queue .toServer).bytes = "GET /a".toUTF8.toList := by
  intro e as bs sends r r' anew
  obtain ⟨piece, last, tail⟩ : ∃ piece, (r.pieces .toServer).getLast? = some piece ∧
      piece.marks.tail = true :=
    ⟨⟨as.flatten, { fromClient := true, head := true, tail := true }⟩, by decide +kernel, rfl⟩
  obtain ⟨-, progress, later⟩ := run_renewed (e := e) (Registry.isHttp_httpOn 80)
    (rfl : e.registry = e.registry) 80 .toServer as bs (by decide +kernel) (by decide +kernel)
    (by decide +kernel) last tail
  obtain ⟨pieces, bytes, -⟩ := later (by decide +kernel)
  refine ⟨progress, pieces, by decide +kernel, bytes.trans ?_⟩
  decide +kernel

end Renewed

end StreamFraming
