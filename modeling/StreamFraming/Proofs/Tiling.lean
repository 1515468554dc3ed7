import StreamFraming.Catalogue
import StreamFraming.Proofs.Checks
import StreamFraming.Proofs.Interference
import StreamFraming.Proofs.Windows

/-!
# Scan windows tile the stream

Whatever is cut and presented again, a scanner that has a say sees the stream byte by byte: each of
its windows begins where its last answer sent it, and is cut off by nothing but the end of what has
arrived. The messages end at the boundaries that scanners have found, one after the other
(`run_tiled`).
-/

namespace StreamFraming

/-- Where in the stream the pieces end that complete a message, if the first one begins at a
place. -/
def Piece.ends (place : Nat) : List Piece → List Nat
  | [] => []
  | p :: ps =>
    let next := place + p.bytes.length
    if p.marks.tail then next :: ends next ps else ends next ps

theorem Piece.ends_append (place : Nat) (ps qs : List Piece) :
    ends place (ps ++ qs) = ends place ps ++ ends (place + (ps.flatMap Piece.bytes).length) qs := by
  induction ps generalizing place with
  | nil => rfl
  | cons p ps ih =>
    simp only [List.cons_append, ends, ih, List.flatMap_cons, List.length_append, Nat.add_assoc]
    split <;> rfl

variable {α μ : Type} {d : Direction} {xs : List UInt8} {past : List (Call α μ)} {ends : List Nat}

/-- What a lane keeps track of is left alone by bytes that arrive. -/
theorem Lane.TracksScans.begun {l l' : Lane α} {base n : Nat}
    (tracks : l.TracksScans xs past base n ends) (status : l'.status = l.status.begun)
    (eligible : l'.eligible = l.eligible) (target : l'.target = l.target) :
    l'.TracksScans xs past base n ends := by
  by_cases start : l.status = .start
  · have searching : l'.status = .search := by rw [status, start]; rfl
    refine .of_untargeted (by simp [searching]) tracks.tile (tracks.settled (by simp [start]))
      fun _ id member => ?_
    obtain ⟨next, due, same⟩ := tracks.due (by simp [start]) id (eligible ▸ member)
    rw [Lane.place, start] at same
    exact ⟨next, due, same⟩
  · rw [Status.begun_of_ne_start start] at status
    have place : l'.place n = l.place n := by rw [Lane.place, Lane.place, status, target]
    refine ⟨tracks.tile, ?_, ?_, ?_, ?_, ?_, ?_⟩
    · rw [IsNarrowed, status, eligible]
      exact tracks.narrowed
    · rw [status, eligible, place]
      exact tracks.due
    · rw [status, target]
      exact tracks.ahead
    · rw [status, target]
      exact tracks.advances
    · rw [status]
      exact tracks.settled
    · rw [status, target]
      exact tracks.awaits

/-- A cut that ends no message takes what it cuts off the place where scanners go on. -/
theorem Lane.TracksScans.cut {l l' : Lane α} {base : Nat} {total : UInt32}
    (tracks : l.TracksScans xs past base total.toNat ends)
    (waits : l.status = .flush → total < l.target) (status : l'.status = l.status)
    (eligible : l'.eligible = l.eligible) (target : l'.target = Length.sub l.target total) :
    l'.TracksScans xs past (base + total.toNat) 0 ends := by
  have left : l'.target.toNat = l.target.toNat - total.toNat := by rw [target, Length.toNat_sub]
  have place : base + total.toNat + l'.place 0 = base + l.place total.toNat := by
    have behind := tracks.ahead
    rw [Lane.place, Lane.place, status]
    cases ongoing : l.status with
    | start | search | abort => rfl
    | flush =>
      have behind := behind (.inl ongoing)
      simp only
      omega
    | skip =>
      have behind := behind (.inr ongoing)
      simp only
      omega
  refine ⟨tracks.tile, ?_, ?_, fun _ => Nat.zero_le _, fun flush nothing => ?_, ?_, fun flush => ?_⟩
  · rw [IsNarrowed, status, eligible]
    exact tracks.narrowed
  · rw [status, eligible, place]
    exact tracks.due
  · have outside := waits (status ▸ flush)
    rw [UInt32.lt_iff_toNat_lt] at outside
    rw [nothing, UInt32.toNat_zero] at left
    omega
  · rw [status]
    exact tracks.settled
  · have flush : l.status = .flush := status ▸ flush
    have behind := tracks.ahead (.inl flush)
    obtain ⟨next, boundaries, same⟩ := tracks.awaits flush
    refine ⟨next, boundaries, same.trans ?_⟩
    rw [left, show base + total.toNat + (l.target.toNat - total.toNat) = base + l.target.toNat by
      omega]

/-- Behind a boundary the lane keeps track of the scanner that has found it. -/
theorem Field.Bounded.tracks {f : Field α μ} {base : Nat} (bounded : f.Bounded xs past ends base)
    {l : Lane α} (status : l.status = f.lane.status) (eligible : l.eligible = f.lane.eligible) :
    l.TracksScans xs (f.history past) (base + f.lane.target.toNat) 0
      (ends ++ [base + f.lane.target.toNat]) := by
  have searching : l.status = .search := status.trans bounded.searching
  exact .of_untargeted (by simp [searching]) bounded.tile bounded.boundaries
    fun _ id member => ⟨_, bounded.due id (eligible ▸ member), rfl⟩

namespace Presentation

/-- The bytes that are presented come next in a stream, and the lane keeps track of it. -/
structure TracksScans (p : Presentation α μ) (d : Direction) (xs : List UInt8)
    (past : List (Call α μ)) (ends : List Nat) : Prop where
  inStep : p.InStep d
  inside : p.bytes <+: xs.drop p.queue.seq.toNat
  near : p.queue.seq.toNat + p.size < 2 ^ 31
  lane : (p.session.lane d).TracksScans xs past p.queue.seq.toNat p.queue.size ends

variable {p : Presentation α μ}

theorem TracksScans.ended (tracks : p.TracksScans d xs past ends)
    (advancing : p.engine.registry.IsAdvancing) :
    Field.Ended p.size.toUInt32 xs past ends p.queue.seq.toNat (p.pursuit d) := by
  have whole : p.size = p.queue.size + p.fresh.length := rfl
  have near := tracks.near
  have offset := tracks.inStep.toNat_offset
  have total := tracks.inStep.toNat_size
  have opened : (p.opened d).lane.TracksScans xs ((p.opened d).history past) p.queue.seq.toNat
      p.queue.size ends := by
    rw [show (p.opened d).history past = past from List.append_nil past]
    exact tracks.lane.begun rfl rfl rfl
  refine Field.pursue_tracks (q := p.engine.inquiry d (p.segment d)) (f := p.opened d) advancing
    (Status.begun_ne_start _) rfl ?_ ?_ ?_ ?_
  · show _ = p.size.toUInt32.toNat
    omega
  · show _ + p.size.toUInt32.toNat < _
    omega
  · have later := tracks.inside.drop p.queue.size
    rw [List.drop_drop, bytes, ← Queue.length_bytes, List.drop_left, Queue.length_bytes] at later
    rwa [offset]
  · rw [offset]
    exact opened

/-- Without a cut the lane keeps track of its scanners with all bytes read; a cut takes the lane
along, and ends a message where a scanner has found a boundary. -/
def Replied (p : Presentation α μ) (d : Direction) (xs : List UInt8) (past : List (Call α μ))
    (ends : List Nat) : Prop :=
  let r := p.reply d
  let place := p.queue.seq.toNat + r.length.toNat
  if r.length = 0 then
    (r.session.lane d).TracksScans xs (past ++ r.calls) p.queue.seq.toNat p.size ends
  else
    (r.session.lane d).TracksScans xs (past ++ r.calls) place 0
      (ends ++ if r.marks.tail then [place] else [])

section Replies

variable (inStep : p.InStep d) (more : p.fresh ≠ []) {cut? : Option Cut} {g : Field α μ}

include inStep more

theorem nonempty_size : p.size.toUInt32 ≠ 0 := by
  have positive : 0 < p.fresh.length := List.length_pos_iff.mpr more
  have whole : p.size = p.queue.size + p.fresh.length := rfl
  rw [ne_eq, ← UInt32.toNat_inj, inStep.toNat_size, UInt32.toNat_zero]
  omega

theorem calls_reply (pursued : p.pursuit d = (cut?, g)) :
    past ++ (p.reply d).calls = g.history past := by
  have calls : (p.reply d).calls = (p.pursuit d).2.calls.reverse := by
    rw [inStep.reply_eq more, Engine.evaluate_eq]
    rfl
  rw [calls, pursued]
  rfl

theorem replied_of_bounded (pursued : p.pursuit d = (some .boundary, g))
    (bounded : g.Bounded xs past ends p.queue.seq.toNat) : p.Replied d xs past ends := by
  have small := inStep.small
  obtain ⟨length, marks, lane, -⟩ := inStep.reply_of_pursuit more pursued
  have inside : (p.pursuit d).2.lane.target ≤ p.size.toUInt32 :=
    Field.target_of_boundary (congrArg Prod.fst pursued)
  rw [pursued, UInt32.le_iff_toNat_le, inStep.toNat_size] at inside
  have cut := Lane.cut_boundary (l := g.lane) (.ofDirection d) bounded.positive
    (nonempty_size inStep more) (Nat.lt_of_le_of_lt inside small)
  have length : (p.reply d).length = g.lane.target := length.trans (congrArg Prod.fst cut)
  have marks : (p.reply d).marks.tail = true :=
    (congrArg Marks.tail marks).trans (congrArg (fun r => r.2.1.tail) cut)
  have lane := lane.trans (congrArg (fun r => r.2.2) cut)
  simp only [Replied, calls_reply inStep more pursued]
  rw [if_neg (length ▸ bounded.positive), if_pos marks, lane, length]
  exact bounded.tracks rfl rfl

theorem replied_of_tracks (pursued : p.pursuit d = (cut?, g)) (other : cut? ≠ some .boundary)
    (waits : g.lane.status = .flush → p.size.toUInt32 < g.lane.target)
    (tracked : g.lane.TracksScans xs (g.history past) p.queue.seq.toNat p.size.toUInt32.toNat
      ends) :
    p.Replied d xs past ends := by
  have total := inStep.toNat_size
  have nonempty := nonempty_size inStep more
  obtain ⟨length, marks, lane, -⟩ := inStep.reply_of_pursuit more pursued
  generalize due : Engine.due (p.engine.inquiry d (p.segment d)) (cut?, g) = due?
    at length marks lane
  simp only [Replied, calls_reply inStep more pursued]
  have held (nothing : (p.reply d).length = 0) (same : (p.reply d).session.lane d = g.lane) :
      ((p.reply d).session.lane d).TracksScans xs (g.history past) p.queue.seq.toNat p.size
        ends := by
    rw [same, ← total]
    exact tracked
  cases due? with
  | none => exact (if_pos length).mpr (held length lane)
  | some kind =>
    cases kind with
    | abort => exact (if_pos length).mpr (held length lane)
    | boundary => exact absurd (Engine.boundary_of_due due) other
    | bound =>
      have cut := Lane.cut_bound (l := g.lane) (.ofDirection d) nonempty
        (total.symm ▸ inStep.small)
      have length : (p.reply d).length = p.size.toUInt32 := length.trans (congrArg Prod.fst cut)
      have marks : (p.reply d).marks.tail = false :=
        (congrArg Marks.tail marks).trans (congrArg (fun r => r.2.1.tail) cut)
      have lane := lane.trans (congrArg (fun r => r.2.2) cut)
      rw [if_neg (length ▸ nonempty), if_neg (by simp [marks]), List.append_nil, lane, length]
      exact tracked.cut waits rfl rfl rfl

end Replies

theorem TracksScans.replied (tracks : p.TracksScans d xs past ends)
    (advancing : p.engine.registry.IsAdvancing) (more : p.fresh ≠ []) :
    p.Replied d xs past ends := by
  have result := tracks.ended advancing
  cases pursued : p.pursuit d with
  | mk cut? g =>
    rw [pursued, Field.Ended] at result
    split at result
    · rename_i boundary
      simp only at boundary
      subst boundary
      exact replied_of_bounded tracks.inStep more pursued result
    · rename_i other
      have opened : (p.opened d).lane.TracksScans xs past p.queue.seq.toNat p.queue.size ends :=
        tracks.lane.begun rfl rfl rfl
      exact replied_of_tracks tracks.inStep more pursued other
        (Field.total_lt_target opened.narrowed pursued) result

theorem TracksScans.next (tracks : p.TracksScans d xs past ends)
    (advancing : p.engine.registry.IsAdvancing) (more : p.fresh ≠ [])
    (found : (p.reply d).length ≠ 0) :
    (p.next d).queue.seq.toNat = p.queue.seq.toNat + p.cut d ∧
      (p.next d).TracksScans d xs (past ++ (p.reply d).calls)
        (ends ++ if (p.reply d).marks.tail then [p.queue.seq.toNat + p.cut d] else []) := by
  have near := tracks.near
  have inside := tracks.inStep.length_reply more
  have cut : p.cut d = (p.reply d).length.toNat := Nat.min_eq_left inside
  have place : (p.next d).queue.seq.toNat = p.queue.seq.toNat + p.cut d := by
    show (p.queue.seq + (p.cut d).toUInt32).toNat = _
    rw [UInt32.toNat_add, Nat.toUInt32_eq, UInt32.toNat_ofNat']
    omega
  have size : (p.next d).size = p.size - p.cut d := by
    show 0 + (p.bytes.drop (p.cut d)).length = _
    rw [List.length_drop, length_bytes, Nat.zero_add]
  have lane := tracks.replied advancing more
  simp only [Replied, if_neg found] at lane
  refine ⟨place, tracks.inStep.next more found, ?_, ?_, ?_⟩
  · rw [place, ← List.drop_drop]
    exact tracks.inside.drop (p.cut d)
  · rw [place, size]
    omega
  · rw [place, cut]
    exact lane

/-- Cutting a queue takes the lane along with it. -/
theorem TracksScans.cutting (tracks : p.TracksScans d xs past ends)
    (advancing : p.engine.registry.IsAdvancing) :
    let c := p.cutting d
    c.queue.seq.toNat = p.queue.seq.toNat + (c.pieces.flatMap Piece.bytes).length ∧
      (c.session.lane d).TracksScans xs (past ++ c.calls) c.queue.seq.toNat c.queue.size
        (ends ++ Piece.ends p.queue.seq.toNat c.pieces) := by
  revert past ends advancing
  refine cut_induction (d := d) (C := fun p => ∀ {past ends}, p.TracksScans d xs past ends →
    p.engine.registry.IsAdvancing →
    let c := p.cutting d
    c.queue.seq.toNat = p.queue.seq.toNat + (c.pieces.flatMap Piece.bytes).length ∧
      (c.session.lane d).TracksScans xs (past ++ c.calls) c.queue.seq.toNat c.queue.size
        (ends ++ Piece.ends p.queue.seq.toNat c.pieces))
    (fun p nothing past ends tracks advancing => ?_)
    (fun p more nothing past ends tracks advancing => ?_)
    (fun p more found ih past ends tracks advancing => ?_) p
  · rw [cutting_of_empty nothing]
    simp only [List.append_nil, Piece.ends, List.flatMap_nil, List.length_nil, Nat.add_zero]
    exact ⟨trivial, tracks.lane⟩
  · have lane := tracks.replied advancing more
    simp only [Replied, if_pos nothing] at lane
    rw [cutting_of_held more nothing]
    simp only [List.append_nil, Piece.ends, List.flatMap_nil, List.length_nil, Nat.add_zero,
      Queue.seq_hold]
    exact ⟨trivial, lane⟩
  · obtain ⟨place, next⟩ := tracks.next advancing more found
    have kept : (p.next d).engine.registry = p.engine.registry :=
      (p.engine.check_keeps p.session d (p.segment d)).1
    obtain ⟨seq, lane⟩ := ih next (kept ▸ advancing)
    have length : (p.bytes.take (p.cut d)).length = p.cut d := by
      rw [List.length_take, length_bytes]
      exact Nat.min_eq_left (Nat.min_le_right _ _)
    rw [cutting_of_cut more found]
    simp only [List.flatMap_cons, List.length_append, length, Piece.ends]
    rw [place] at seq lane
    refine ⟨by rw [seq, Nat.add_assoc], ?_⟩
    have counted (tail : Bool) (place : Nat) (later : List Nat) :
        (if tail then [place] else []) ++ later = if tail then place :: later else later := by
      split <;> rfl
    rw [List.append_assoc, List.append_assoc, counted] at lane
    exact lane

theorem marks_cutting (p : Presentation α μ) (d : Direction) :
    ∀ c ∈ (p.cutting d).calls, c.sight.marks = .ofDirection d := by
  have same : Marks.withDirection (.ofDirection d) d = .ofDirection d := by cases d <;> rfl
  have kept : ∀ c ∈ [] ++ (p.cutting d).calls, c.sight.marks = .ofDirection d := by
    refine cutting_invariant (d := d)
      (J := fun _ _ calls => ∀ c ∈ calls, c.sight.marks = .ofDirection d)
      (fun e s segment calls marks kept => ?_) p (List.forall_mem_nil _)
    intro r c member
    rcases List.mem_append.mp member with earlier | made
    · exact kept c earlier
    · rw [e.marks_check s d segment c made, marks, same]
  exact kept

end Presentation

/-! ### Runs -/

namespace Run

variable {r : Run α μ}

/-- The scans of a direction, in order. -/
def scans (r : Run α μ) (d : Direction) : List (Call α μ) :=
  r.calls.filter fun c => c.sight.marks = .ofDirection d

/-- The lane of a direction keeps track of its scanners, as far as a stream was sent. -/
structure TracksScans (r : Run α μ) (d : Direction) (xs : List UInt8) : Prop where
  place : (r.host.queue d).seq.toNat = ((r.pieces d).flatMap Piece.bytes).length
  lane : (r.host.session.lane d).TracksScans xs (r.scans d) (r.host.queue d).seq.toNat
    (r.host.queue d).size (Piece.ends 0 (r.pieces d))

theorem scans_send (r : Run α μ) (d : Direction) (bytes : List UInt8) :
    (r.send d bytes).scans d = r.scans d ++ ((r.host.presentation d bytes).cutting d).calls ∧
      (r.send d bytes).scans d.opposite = r.scans d.opposite := by
  obtain ⟨-, -, -, -, -, -, calls⟩ := r.send_eq d bytes
  have marks := (r.host.presentation d bytes).marks_cutting d
  have different : Marks.ofDirection d ≠ .ofDirection d.opposite := by cases d <;> decide
  rw [scans, scans, scans, scans, calls, List.filter_append, List.filter_append]
  constructor
  · congr 1
    rw [List.filter_eq_self]
    exact fun c made => decide_eq_true (marks c made)
  · have unseen : ((r.host.presentation d bytes).cutting d).calls.filter
        (fun c => c.sight.marks = .ofDirection d.opposite) = [] := by
      rw [List.filter_eq_nil_iff]
      intro c made
      rw [marks c made]
      simpa using different
    rw [unseen, List.append_nil]

theorem TracksScans.presentation {sent later : List (Direction × List UInt8)} {bytes : List UInt8}
    (inStep : r.InStep sent)
    (short : (stream (sent ++ (d, bytes) :: later) d).length < 2 ^ 31)
    (tracks : r.TracksScans d (stream (sent ++ (d, bytes) :: later) d)) :
    (r.host.presentation d bytes).TracksScans d (stream (sent ++ (d, bytes) :: later) d) (r.scans d)
      (Piece.ends 0 (r.pieces d)) := by
  have whole : stream (sent ++ (d, bytes) :: later) d =
      (r.pieces d).flatMap Piece.bytes ++
        ((r.host.presentation d bytes).bytes ++ stream later d) := by
    rw [stream_append, stream_cons, if_pos rfl, ← inStep.bytes d, List.append_assoc,
      Presentation.bytes, List.append_assoc]
    rfl
  have length := congrArg List.length whole
  rw [List.length_append, List.length_append, Presentation.length_bytes] at length
  have near : (r.host.queue d).seq.toNat + (r.host.presentation d bytes).size < 2 ^ 31 := by
    rw [tracks.place]
    omega
  refine ⟨inStep.presentation ?_, ?_, near, tracks.lane⟩
  · exact Nat.lt_of_le_of_lt (Nat.le_add_left _ _) near
  · show _ <+: List.drop (r.host.queue d).seq.toNat _
    rw [tracks.place, whole, List.drop_left]
    exact List.prefix_append _ _

theorem TracksScans.send {sent later : List (Direction × List UInt8)} {bytes : List UInt8}
    (inStep : r.InStep sent) (advancing : r.host.engine.registry.IsAdvancing)
    (short : (stream (sent ++ (d, bytes) :: later) d).length < 2 ^ 31)
    (tracks : ∀ d', r.TracksScans d' (stream (sent ++ (d, bytes) :: later) d')) (d' : Direction) :
    (r.send d bytes).TracksScans d' (stream (sent ++ (d, bytes) :: later) d') := by
  have presented := TracksScans.presentation inStep short (tracks d)
  obtain ⟨place, lane⟩ := presented.cutting advancing
  obtain ⟨-, -, slots, opposite⟩ := presented.inStep.cutting
  obtain ⟨-, session, queue, queue', pieces, pieces', -⟩ := r.send_eq d bytes
  obtain ⟨scans, scans'⟩ := r.scans_send d bytes
  by_cases same : d' = d
  · subst same
    refine ⟨?_, ?_⟩
    · rw [queue, pieces, List.flatMap_append, List.length_append, place]
      exact congrArg (· + _) (tracks d').place
    · rw [session, queue, pieces, scans, Piece.ends_append, Nat.zero_add, ← (tracks d').place]
      exact lane
  · have kept := tracks d.opposite
    rw [Direction.eq_opposite_of_ne same]
    refine ⟨?_, ?_⟩
    · rw [queue', pieces']
      exact kept.place
    · rw [session, queue', pieces', scans', opposite]
      exact ⟨kept.lane.tile, kept.lane.narrowed, kept.lane.due, kept.lane.ahead, kept.lane.advances,
        kept.lane.settled, kept.lane.awaits⟩

theorem TracksScans.sendAll {sent sends : List (Direction × List UInt8)} (inStep : r.InStep sent)
    (advancing : r.host.engine.registry.IsAdvancing)
    (short : ∀ d, (stream (sent ++ sends) d).length < 2 ^ 31)
    (tracks : ∀ d, r.TracksScans d (stream (sent ++ sends) d)) :
    ∀ d, (r.sendAll sends).TracksScans d (stream (sent ++ sends) d) := by
  induction sends generalizing r sent with
  | nil => exact tracks
  | cons x sends ih =>
    have fits := inStep.fits short
    have later : ∀ d, (r.send x.1 x.2).TracksScans d (stream (sent ++ x :: sends) d) :=
      TracksScans.send inStep advancing (short x.1) tracks
    have same : sent ++ x :: sends = sent ++ [x] ++ sends := by simp
    rw [same] at later short ⊢
    exact ih (inStep.send fits.1) ((r.registry_send x.1 x.2).symm ▸ advancing) short later

theorem tracks_openOn (e : Engine α μ) (port : UInt16) (d : Direction) (xs : List UInt8) :
    ({ host := .openOn e port } : Run α μ).TracksScans d xs := by
  have lane : ∀ l : Lane α, l.status = .start → l.TracksScans xs ([] : List (Call α μ)) 0 0 [] := by
    intro l start
    exact .of_untargeted (by simp [start]) (fun _ => trivial) rfl fun _ _ _ => ⟨0, rfl, rfl⟩
  cases d
  · exact ⟨rfl, lane _ rfl⟩
  · exact ⟨rfl, lane _ rfl⟩

end Run

/-- If every scanner that decides about a window decides about some of its bytes, each scanner of a
direction sees the stream from its first byte on, window by window, and the messages end at the
boundaries that scanners have found, in their order; at most the last boundary is not reached
yet. -/
theorem run_tiled (e : Engine α μ) (port : UInt16) (sends : List (Direction × List UInt8))
    (advancing : e.registry.IsAdvancing) (short : ∀ d, (stream sends d).length < 2 ^ 31)
    (d : Direction) :
    let r := (Host.openOn e port).run sends
    (∀ id, Call.Tiles (stream sends d) (some 0) (Call.ofId id (r.scans d))) ∧
      ∃ awaited, awaited.length ≤ 1 ∧
        Call.boundaries (r.scans d) = Piece.ends 0 (r.pieces d) ++ awaited := by
  have tracks := Run.TracksScans.sendAll (Run.inStep_openOn e port) advancing short
    (fun d => Run.tracks_openOn e port d _) d
  refine ⟨tracks.lane.tile, ?_⟩
  by_cases flush : (((Host.openOn e port).run sends).host.session.lane d).status = .flush
  · obtain ⟨place, boundaries, -⟩ := tracks.lane.awaits flush
    exact ⟨[place], Nat.le_refl 1, boundaries⟩
  · refine ⟨[], Nat.zero_le 1, ?_⟩
    rw [List.append_nil]
    exact tracks.lane.settled flush

/-- The scanner of counted records decides about its digit, or about the bytes up to the
semicolon. -/
theorem Counted.isAdvancing_scanner {α μ : Type} [Holds α Counted.Part] (name : String)
    (memory : μ) : (Counted.scanner name memory : Scanner α μ).IsAdvancing := by
  intro memory sight bytes short decisive
  unfold Counted.scanner at decisive ⊢
  simp only at decisive ⊢
  split at decisive
  · cases decisive
  · rename_i part claimed
    simp only [Report.plain] at decisive ⊢
    unfold Counted.outcome at decisive ⊢
    split at decisive
    · cases decisive
    · split at decisive
      · rename_i n digit
        have small := Http.Digit.toNat_decimal digit
        intro nothing
        have sum := congrArg UInt32.toNat nothing
        rw [UInt32.toNat_add, UInt32.toNat_zero, UInt32.toNat_one] at sum
        omega
      · cases decisive
    · split at decisive
      · rename_i i found
        have inside := (List.findIdx?_eq_some_iff_getElem.mp found).1
        intro nothing
        have sum := congrArg UInt32.toNat nothing
        rw [Length.toNat_toUInt32 (by omega), UInt32.toNat_zero] at sum
        omega
      · cases decisive

/-- Two records whose bytes arrive in four segments, with a bound of two bytes. The first record is
cut while its bytes are skipped. -/
theorem run_tiled_records :
    let records : Scanner Memo Tally := Counted.scanner "records" {}
    let registry : Registry Memo Tally :=
      { scanners := [records]
        bindings := [(⟨7, .toServer⟩, { scanners := .singleton 0 })]
        maxFlushPoint := 2 }
    let e : Engine Memo Tally := .ofRegistry registry
    let sends := [(Direction.toServer, "3ab".toUTF8.toList), (.toServer, "c".toUTF8.toList),
      (.toServer, "d;2x".toUTF8.toList), (.toServer, ";e;7".toUTF8.toList)]
    let r := (Host.openOn e 7).run sends
    registry.IsAdvancing ∧
      (r.scans .toServer).map (fun c => (c.start, c.report.verdict)) =
        [(0, .skip), (4, .flush), (6, .skip), (9, .flush), (11, .skip)] ∧
      Call.Tiles (stream sends .toServer) (some 0) (Call.ofId 0 (r.scans .toServer)) ∧
      Piece.ends 0 (r.pieces .toServer) = [6, 11] := by
  intro records registry e sends r
  have advancing : registry.IsAdvancing :=
    List.forall_mem_singleton.mpr (Counted.isAdvancing_scanner "records" {})
  have short : ∀ d, (stream sends d).length < 2 ^ 31 := by
    intro d
    cases d <;> decide +kernel
  obtain ⟨tiles, -⟩ := run_tiled e 7 sends advancing short .toServer
  exact ⟨advancing, by decide +kernel, tiles 0, by decide +kernel⟩

end StreamFraming
