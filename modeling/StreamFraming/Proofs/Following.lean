import StreamFraming.Proofs.Evaluations
import StreamFraming.Proofs.Exchange
import StreamFraming.Proofs.Http.Alone

/-!
# Following an exchange through a queue

An engine does not know what the exchange of its bytes has come to, but its lanes keep in step with
it (`Follows`). A pursuit of a queue ends with a boundary where the exchange completes a message,
and else with all bytes taken (`pursue_follows`). Offsets saturate in a word, so a target counts
only as far as bytes can still arrive.
-/

namespace StreamFraming

open Http

variable {α : Type} [Holds α Progress] {listens : Direction → Bool} {d : Direction}

namespace Exchange

/-- The bytes of one direction decide nothing about the other but that a response has no body. -/
theorem opposite_follow (s : Exchange) (t : Turn) :
    let r := s.reader d.opposite
    let r' := (s.follow d t).reader d.opposite
    r'.status = r.status ∧ r'.left = r.left ∧ r'.messages = r.messages ∧
      r'.unfinished = r.unfinished := by
  simp only [opposite_reader_follow]
  split <;> exact ⟨rfl, rfl, rfl, rfl⟩

theorem opposite_take (listens : Direction → Bool) (d : Direction) (s : Exchange) (c : UInt8) :
    let r := s.reader d.opposite
    let r' := (s.take listens d c).reader d.opposite
    r'.status = r.status ∧ r'.left = r.left ∧ r'.messages = r.messages ∧
      r'.unfinished = r.unfinished := by
  have kept (r : Reader) : (s.setReader d r).reader d.opposite = s.reader d.opposite := by simp
  unfold take
  simp only
  split
  · exact ⟨rfl, rfl, rfl, rfl⟩
  · split
    · simp only [kept, and_self]
    · split
      · split
        · cases d <;> exact ⟨rfl, rfl, rfl, rfl⟩
        · have later := opposite_follow (d := d) (s.setReader d ((s.reader d).hold [c]))
            (((s.reader d).current d).readByte c)
          simp only [kept] at later
          exact later
      · split <;> simp only [kept, and_self]

theorem opposite_takeAll (listens : Direction → Bool) (d : Direction) (s : Exchange)
    (cs : List UInt8) :
    let r := s.reader d.opposite
    let r' := (s.takeAll listens d cs).reader d.opposite
    r'.status = r.status ∧ r'.left = r.left ∧ r'.messages = r.messages ∧
      r'.unfinished = r.unfinished := by
  induction cs generalizing s with
  | nil => exact ⟨rfl, rfl, rfl, rfl⟩
  | cons c cs ih =>
    obtain ⟨status, left, messages, unfinished⟩ := opposite_take listens d s c
    obtain ⟨status', left', messages', unfinished'⟩ := ih (s.take listens d c)
    exact ⟨status'.trans status, left'.trans left, messages'.trans messages,
      unfinished'.trans unfinished⟩

end Exchange

namespace Field

/-- The field is in step with an exchange, `i` bytes into the queue, when fewer than `room` bytes
can still arrive; `before` was raised in front of the queue. -/
structure Follows (listens : Direction → Bool) (d : Direction) (s : Exchange) (room i : Nat)
    (before : List Anomaly) (f : Field α Tally) : Prop where
  running : s.failed = false
  sound : s.Sound
  status : f.lane.status = (s.reader d).status.begun
  heard : (s.reader d).status ≠ .abort → listens d = true
  eligible : (s.reader d).status ≠ .abort → f.lane.eligible = .singleton 0
  own : f.lane.slots = cells (s.reader d).progress
  peer : f.peer = cells (s.reader d.opposite).progress
  raised : s.raised = before ++ f.raised
  fits : i + room ≤ 2 ^ 31
  target : (s.reader d).status = .flush ∨ (s.reader d).status = .skip →
    min f.lane.target.toNat (i + room) = i + min (s.reader d).left room

/-- What a pursuit of the bytes `data` comes to. -/
inductive Pursued (listens : Direction → Bool) (d : Direction) (s : Exchange) (room i : Nat)
    (before : List Anomaly) (data : List UInt8) : Option Cut → Field α Tally → Prop where
  | boundary {k : Nat} {f : Field α Tally} (positive : 0 < k) (inside : k ≤ data.length)
      (target : f.lane.target.toNat = i + k)
      (follows : f.Follows listens d (s.takeAll listens d (data.take k)) (room - k) (i + k) before)
      (searching : ((s.takeAll listens d (data.take k)).reader d).status = .search)
      (messages : ((s.takeAll listens d (data.take k)).reader d).messages =
        (s.reader d).messages ++ [(s.reader d).unfinished ++ data.take k])
      (unfinished : ((s.takeAll listens d (data.take k)).reader d).unfinished = []) :
      Pursued listens d s room i before data (some .boundary) f
  | rest {cut? : Option Cut} {f : Field α Tally} (other : cut? ≠ some .boundary)
      (follows : f.Follows listens d (s.takeAll listens d data) (room - data.length)
        (i + data.length) before)
      (messages : ((s.takeAll listens d data).reader d).messages = (s.reader d).messages)
      (unfinished : ((s.takeAll listens d data).reader d).unfinished =
        (s.reader d).unfinished ++ data) :
      Pursued listens d s room i before data cut? f
  | failed {cut? : Option Cut} {f : Field α Tally} {call : Call α Tally}
      (failed : (s.takeAll listens d data).failed = true)
      (messages : ((s.takeAll listens d data).reader d).messages = (s.reader d).messages)
      (made : call ∈ f.calls) (error : setsError call = true) :
      Pursued listens d s room i before data cut? f

/-- Bytes that complete no message may come first. -/
theorem Pursued.after {s : Exchange} {room i k : Nat} {before : List Anomaly}
    {data : List UInt8} {cut? : Option Cut} {f : Field α Tally} (inside : k ≤ data.length)
    (messages : ((s.takeAll listens d (data.take k)).reader d).messages = (s.reader d).messages)
    (unfinished : ((s.takeAll listens d (data.take k)).reader d).unfinished =
      (s.reader d).unfinished ++ data.take k)
    (later : Pursued listens d (s.takeAll listens d (data.take k)) (room - k) (i + k) before
      (data.drop k) cut? f) :
    Pursued listens d s room i before data cut? f := by
  have whole : (s.takeAll listens d (data.take k)).takeAll listens d (data.drop k) =
      s.takeAll listens d data := by
    rw [← Exchange.takeAll_append, List.take_append_drop]
  have lengths : (data.drop k).length = data.length - k := List.length_drop
  cases later with
  | @boundary j _ positive inside' target follows searching messages' unfinished' =>
    have joined : data.take k ++ (data.drop k).take j = data.take (k + j) :=
      (List.take_add).symm
    rw [← Exchange.takeAll_append, joined] at follows searching messages' unfinished'
    refine .boundary (k := k + j) (by omega) (by omega) (by omega) ?_ searching ?_ unfinished'
    · rw [show room - (k + j) = room - k - j by omega, show i + (k + j) = i + k + j by omega]
      exact follows
    · rw [messages', messages, unfinished, List.append_assoc, joined]
  | rest other follows messages' unfinished' =>
    rw [whole] at follows messages' unfinished'
    refine .rest other ?_ (messages'.trans messages) ?_
    · rw [lengths, show room - k - (data.length - k) = room - data.length by omega,
        show i + k + (data.length - k) = i + data.length by omega] at follows
      exact follows
    · rw [unfinished', unfinished, List.append_assoc, List.take_append_drop]
  | failed failed messages' made error =>
    rw [whole] at failed messages'
    exact .failed failed (messages'.trans messages) made error

/-! ### Bytes that no race sees -/

theorem Follows.pass {s : Exchange} {room i n : Nat} {before : List Anomaly} {f : Field α Tally}
    {r : Reader} (follows : f.Follows listens d s room i before) (within : n < room)
    (sound : r.Sound) (status : r.status = (s.reader d).status)
    (progress : r.progress = (s.reader d).progress)
    (left : (s.reader d).status = .flush ∨ (s.reader d).status = .skip →
      r.left + n = (s.reader d).left) :
    f.Follows listens d (s.setReader d r) (room - n) (i + n) before := by
  have fits := follows.fits
  refine ⟨by simpa using follows.running, Exchange.sound_setReader follows.sound sound, ?_, ?_, ?_,
    ?_, ?_, by simpa using follows.raised, by omega, ?_⟩ <;>
    simp only [Exchange.reader_setReader_self, Exchange.reader_setReader_opposite, status, progress]
  · exact follows.status
  · exact follows.heard
  · exact follows.eligible
  · exact follows.own
  · exact follows.peer
  · intro waiting
    have target := follows.target waiting
    have inside := left waiting
    rw [show i + n + (room - n) = i + room by omega, target]
    omega

theorem Follows.abandoned {s : Exchange} {room i : Nat} {before : List Anomaly}
    {f : Field α Tally} {data : List UInt8} {cut? : Option Cut}
    (follows : f.Follows listens d s room i before) (within : data.length < room)
    (aborted : (s.reader d).status = .abort) (other : cut? ≠ some .boundary) :
    Pursued listens d s room i before data cut? f := by
  refine .rest other ?_ ?_ ?_ <;> rw [Exchange.takeAll_abort follows.running aborted]
  · refine follows.pass (r := (s.reader d).hold data) within (follows.sound d) rfl rfl ?_
    rw [aborted]
    rintro (wrong | wrong) <;> cases wrong
  · simp [Reader.hold]
  · simp [Reader.hold]

theorem Follows.awaited {s : Exchange} {room i : Nat} {before : List Anomaly}
    {f : Field α Tally} {data : List UInt8} {cut? : Option Cut}
    (follows : f.Follows listens d s room i before) (within : data.length < room)
    (waiting : (s.reader d).status = .flush) (short : data.length < (s.reader d).left)
    (other : cut? ≠ some .boundary) : Pursued listens d s room i before data cut? f := by
  have sound := follows.sound d
  have ahead : 0 < (s.reader d).left := sound.2 waiting
  have later : ((s.reader d).hold data).await ((s.reader d).left - data.length) =
      { (s.reader d).hold data with
        status := .flush, left := (s.reader d).left - data.length } := by
    rw [Reader.await, if_neg (by omega)]
  have taken := Exchange.takeAll_flush listens follows.running waiting ahead data short.le
  rw [later] at taken
  refine .rest other ?_ ?_ ?_ <;> rw [taken]
  · refine follows.pass within ⟨sound.1, fun _ => ?_⟩ waiting.symm rfl fun _ => ?_ <;>
      simp only <;> omega
  · simp [Reader.hold]
  · simp [Reader.hold]

theorem Follows.reached {s : Exchange} {room i : Nat} {before : List Anomaly}
    {f : Field α Tally} {data : List UInt8} (follows : f.Follows listens d s room i before)
    (within : data.length < room) (waiting : (s.reader d).status = .flush)
    (inside : (s.reader d).left ≤ data.length) :
    Pursued listens d s room i before data (some .boundary)
      { f with lane := { f.lane with status := .search } } := by
  have sound := follows.sound d
  have fits := follows.fits
  have ahead : 0 < (s.reader d).left := sound.2 waiting
  have target := follows.target (.inl waiting)
  have lengths : (data.take (s.reader d).left).length = (s.reader d).left :=
    List.length_take_of_le inside
  have taken := Exchange.takeAll_flush listens follows.running waiting ahead
    (data.take (s.reader d).left) lengths.le
  rw [lengths, Nat.sub_self, Reader.await, if_pos rfl] at taken
  have active : (s.reader d).status ≠ .abort := by
    rw [waiting]
    decide
  refine .boundary ahead inside (by simp only; omega) ?_ ?_ ?_ ?_ <;> rw [taken]
  · refine ⟨by simpa using follows.running,
      Exchange.sound_setReader follows.sound ⟨sound.1, fun wrong => by cases wrong⟩, ?_, ?_, ?_, ?_,
      ?_, by simpa using follows.raised, by omega, ?_⟩ <;>
      simp only [Exchange.reader_setReader_self, Exchange.reader_setReader_opposite, Reader.hold]
    · rfl
    · exact fun _ => follows.heard active
    · exact fun _ => follows.eligible active
    · exact follows.own
    · exact follows.peer
    · rintro (wrong | wrong) <;> cases wrong
  · simp
  · simp [Reader.hold]
  · simp

theorem Follows.skipped {s : Exchange} {room i : Nat} {before : List Anomaly}
    {f : Field α Tally} (follows : f.Follows listens d s room i before) (cs : List UInt8)
    (within : cs.length < room) (skipping : (s.reader d).status = .skip)
    (inside : cs.length ≤ (s.reader d).left) :
    f.Follows listens d (s.takeAll listens d cs) (room - cs.length) (i + cs.length) before := by
  rw [Exchange.takeAll_skip listens follows.running skipping cs inside]
  refine follows.pass within ⟨(follows.sound d).1, fun wrong => ?_⟩ rfl rfl fun _ => ?_
  · rw [show (s.reader d).status = .flush from wrong] at skipping
    cases skipping
  · simp only
    omega

/-! ### One race -/

/-- What a scan says of a message that can be framed so far. -/
theorem scan_framed {p : Progress} {window : List UInt8} (fromClient : Bool)
    (framed : (p.read window).1.progress.flags.error = false) :
    let t := p.read window
    let found := p.scan fromClient window
    found.verdict = t.1.verdict ∧ found.raised = t.1.raised ∧ found.headDone = t.1.endsHead ∧
      found.progress = (if t.1.verdict = .flush ∨ t.1.verdict = .abort then
        Progress.fresh fromClient else t.1.progress) ∧
      (t.1.verdict ≠ .search → found.point =
        Length.add t.1.progress.length (window.length - t.2.length).toUInt32) := by
  intro t found
  have scan : found =
      if t.1.verdict = .search then ⟨t.1.progress, .search, 0, window.length, false, t.1.raised⟩
      else Progress.settle fromClient window (window.length - t.2.length) t.1 :=
    Progress.scan_eq_read p fromClient window
  by_cases search : t.1.verdict = .search
  · rw [if_pos search] at scan
    have ending : t.1.endsHead = false := by simp [Turn.endsHead, search]
    rw [scan, ending, search]
    exact ⟨rfl, rfl, rfl, rfl, fun wrong => absurd rfl wrong⟩
  · have error : t.1.progress.flags.error = false := framed
    have ending : t.1.endsHead = (t.1.progress.flags.noBody && t.1.progress.flags.request) := by
      simp [Turn.endsHead, search]
    rw [if_neg search, Progress.settle, error] at scan
    rw [scan, ending]
    refine ⟨rfl, rfl, rfl, ?_, fun _ => rfl⟩
    cases decision : t.1.verdict
    · exact absurd decision search
    all_goals rfl

theorem Follows.contest_eq {q : Inquiry α Tally} {f : Field α Tally} {s : Exchange} {room i : Nat}
    {before : List Anomaly} (follows : f.Follows listens d s room i before)
    (http : q.registry.IsHttp) (side : q.marks.fromClient = (d == Direction.toServer))
    (reading : (s.reader d).isReading = true) (idx : UInt32) (data : List UInt8) :
    ∃ call, setsError call =
        (((s.reader d).current d).scan q.marks.fromClient data).progress.flags.error ∧
      contest q idx data f =
        let found := ((s.reader d).current d).scan q.marks.fromClient data
        let g := f.scanned found (s.reader d.opposite).progress call
        let target := Length.add found.point idx
        let move := if target ≤ q.total then Move.again target else .wait
        match found.verdict with
        | .search => (.wait, { g with lane := { g.lane with status := .search } })
        | .flush => (move, g.decided .flush target)
        | .skip => (move, g.decided .skip target)
        | .abort => (move, { g with lane := { g.lane.abort with target } }) := by
  have current : start (s.reader d).progress q.marks.fromClient = (s.reader d).current d := by
    rw [side]
    rfl
  have sound : (start (s.reader d).progress q.marks.fromClient).flags.error = false := by
    rw [current]
    exact Reader.error_current (follows.sound d) d
  obtain ⟨call, -, sets, result⟩ := Field.contest_eq http
    (follows.eligible (Reader.active_of_isReading reading)) follows.own follows.peer sound idx data
  rw [current] at sets result
  exact ⟨call, sets, result⟩

theorem contest_fails {q : Inquiry α Tally} {f : Field α Tally} {s : Exchange} {room i : Nat}
    {before : List Anomaly} {data : List UInt8} (http : q.registry.IsHttp)
    (side : q.marks.fromClient = (d == Direction.toServer))
    (follows : f.Follows listens d s room i before) (reading : (s.reader d).isReading = true)
    (error : (((s.reader d).current d).read data).1.progress.flags.error = true) (idx : UInt32) :
    ∃ call ∈ (contest q idx data f).2.calls, setsError call = true := by
  obtain ⟨call, sets, result⟩ := follows.contest_eq http side reading idx data
  refine ⟨call, ?_, ?_⟩
  · rw [result]
    simp only
    split <;> exact List.mem_cons_self
  · rw [sets, Progress.scan_eq_read]
    split
    · exact error
    · rw [Progress.settle, if_pos error]
      exact error

/-- A field that is left by a race keeps in step if its own lane does. -/
theorem Follows.turned {f g : Field α Tally} {s : Exchange} {room i k : Nat}
    {before : List Anomaly} {cs : List UInt8} {t : Turn}
    (follows : f.Follows listens d s room i before) (reading : (s.reader d).isReading = true)
    (taken : s.takeAll listens d cs = (s.setReader d ((s.reader d).hold cs)).follow d t)
    (within : k ≤ room) (raised : g.raised = f.raised ++ t.raised)
    (peer : g.peer = cells (if t.endsHead then
      some (((s.reader d.opposite).progress.getD Progress.response).mark
        fun g => { g with noBody := true })
      else (s.reader d.opposite).progress))
    (status : g.lane.status = (((s.reader d).hold cs).follow d t).status.begun)
    (eligible : (((s.reader d).hold cs).follow d t).status ≠ .abort →
      g.lane.eligible = f.lane.eligible)
    (own : g.lane.slots = cells (((s.reader d).hold cs).follow d t).progress)
    (target : (((s.reader d).hold cs).follow d t).status = .flush ∨
        (((s.reader d).hold cs).follow d t).status = .skip →
      min g.lane.target.toNat (i + room) =
        i + k + min (((s.reader d).hold cs).follow d t).left (room - k)) :
    g.Follows listens d (s.takeAll listens d cs) (room - k) (i + k) before := by
  have active := Reader.active_of_isReading reading
  have fits := follows.fits
  have own' : (s.takeAll listens d cs).reader d = ((s.reader d).hold cs).follow d t := by
    rw [taken, Exchange.reader_follow, Exchange.reader_setReader_self]
  have peer' : (s.takeAll listens d cs).reader d.opposite =
      if t.endsHead then (s.reader d.opposite).expectNoBody else s.reader d.opposite := by
    rw [taken, Exchange.opposite_reader_follow, Exchange.reader_setReader_opposite]
  refine ⟨?_, Exchange.sound_takeAll follows.sound cs, ?_, fun _ => follows.heard active, ?_, ?_,
    ?_, ?_, by omega, ?_⟩
  · rw [taken, Exchange.failed_follow, Exchange.failed_setReader, follows.running]
  · rw [own', status]
  · rw [own']
    intro ongoing
    rw [eligible ongoing, follows.eligible active]
  · rw [own', own]
  · rw [peer', peer]
    split <;> rfl
  · rw [taken, Exchange.raised_follow, Exchange.raised_setReader, follows.raised, raised,
      List.append_assoc]
  · rw [own']
    intro waiting
    rw [← target waiting]
    congr 1
    omega

/-- A race keeps in step, but that a lane still waits for a boundary its exchange has reached. -/
theorem contest_follows {q : Inquiry α Tally} {f : Field α Tally} {s : Exchange} {room i : Nat}
    {before : List Anomaly} {idx : UInt32} {data : List UInt8} (http : q.registry.IsHttp)
    (side : q.marks.fromClient = (d == Direction.toServer))
    (follows : f.Follows listens d s room i before) (reading : (s.reader d).isReading = true)
    (place : idx.toNat = i) (within : data.length < room) (nonempty : data ≠ [])
    (framed : (((s.reader d).current d).read data).1.progress.flags.error = false) :
    let t := ((s.reader d).current d).read data
    let k := data.length - t.2.length
    let target := Length.add (Length.add t.1.progress.length k.toUInt32) idx
    ∃ g : Field α Tally,
      g.Follows listens d (s.takeAll listens d (data.take k)) (room - k) (i + k) before ∧
      (t.1.verdict ≠ .search → g.lane.target = target) ∧
      contest q idx data f =
        match t.1.verdict with
        | .search => (.wait, g)
        | v => (if target ≤ q.total then .again target else .wait,
            { g with lane := { g.lane with status := v.status, target } }) := by
  intro t k target
  have active := Reader.active_of_isReading reading
  obtain ⟨call, -, result⟩ := follows.contest_eq http side reading idx data
  have taken : s.takeAll listens d (data.take k) =
      (s.setReader d ((s.reader d).hold (data.take k))).follow d t.1 :=
    Exchange.takeAll_read follows.running reading (follows.heard active) nonempty framed
  have bounded : k ≤ data.length := Nat.sub_le _ _
  have fits := follows.fits
  have target_eq : target.toNat = min (t.1.progress.length.toNat + k + i) 0xFFFFFFFF := by
    simp only [target, Length.toNat_add, place, Nat.toUInt32_eq, UInt32.toNat_ofNat']
    omega
  obtain ⟨verdict, raised, headDone, progress, point⟩ :=
    scan_framed (p := (s.reader d).current d) q.marks.fromClient framed
  generalize ((s.reader d).current d).scan q.marks.fromClient data = found at *
  have turn : (((s.reader d).current d).read data).1 = t.1 := rfl
  rw [turn] at verdict raised headDone progress point
  have scanned : (f.scanned found (s.reader d.opposite).progress call).raised =
      f.raised ++ t.1.raised := congrArg (f.raised ++ ·) raised
  have peer : (f.scanned found (s.reader d.opposite).progress call).peer =
      cells (if t.1.endsHead then
        some (((s.reader d.opposite).progress.getD Progress.response).mark
          fun g => { g with noBody := true })
        else (s.reader d.opposite).progress) := by rw [← headDone]; rfl
  have aimed (decided : t.1.verdict ≠ .search) : Length.add found.point idx = target := by
    rw [point decided]
  simp only [verdict] at result
  cases decision : t.1.verdict <;> simp only [decision] at result <;>
    simp only [decision, reduceCtorEq, or_false, or_true, or_self, if_true, if_false] at progress
  case search =>
    have led : ((s.reader d).hold (data.take k)).follow d t.1 =
        { (s.reader d).hold (data.take k) with
          status := .search, left := 0, progress := some t.1.progress } := by
      rw [Reader.follow, decision]
    refine ⟨_, ?_, fun wrong => absurd rfl wrong, result⟩
    refine follows.turned reading taken (by omega) scanned peer ?_ (fun _ => rfl) ?_ ?_ <;> rw [led]
    · rfl
    · exact congrArg (fun p => cells (some p)) progress
    · rintro (waiting | waiting) <;> cases waiting
  case flush =>
    rw [aimed (by rw [decision]; decide)] at result
    have led : ((s.reader d).hold (data.take k)).follow d t.1 =
        { (s.reader d).hold (data.take k) with
          progress := some (Progress.fresh (d == Direction.toServer)) }.await
            t.1.progress.length.toNat := by
      rw [Reader.follow, decision]
    refine ⟨(f.scanned found (s.reader d.opposite).progress call).decided
      (((s.reader d).hold (data.take k)).follow d t.1).status.begun target, ?_, fun _ => rfl,
      result⟩
    refine follows.turned reading taken (by omega) scanned peer rfl (fun _ => rfl) ?_ ?_ <;>
      rw [led, Reader.await]
    · rw [side] at progress
      split <;> exact congrArg (fun p => cells (some p)) progress
    · split
      · rintro (waiting | waiting) <;> cases waiting
      · intro _
        simp only [decided, target_eq]
        omega
  case skip =>
    rw [aimed (by rw [decision]; decide)] at result
    have led : ((s.reader d).hold (data.take k)).follow d t.1 =
        { (s.reader d).hold (data.take k) with
          status := .skip, left := t.1.progress.length.toNat, progress := some t.1.progress } := by
      rw [Reader.follow, decision]
    refine ⟨(f.scanned found (s.reader d.opposite).progress call).decided .skip target, ?_,
      fun _ => rfl, result⟩
    refine follows.turned reading taken (by omega) scanned peer ?_ (fun _ => rfl) ?_ ?_ <;> rw [led]
    · rfl
    · exact congrArg (fun p => cells (some p)) progress
    · intro _
      simp only [decided, target_eq]
      omega
  case abort =>
    rw [aimed (by rw [decision]; decide)] at result
    have led : ((s.reader d).hold (data.take k)).follow d t.1 =
        { (s.reader d).hold (data.take k) with status := .abort, left := 0, progress := none } := by
      rw [Reader.follow, decision]
    refine ⟨{ f.scanned found (s.reader d.opposite).progress call with
      lane := { (f.scanned found (s.reader d.opposite).progress call).lane.abort with target } },
      ?_, fun _ => rfl, result⟩
    refine follows.turned reading taken (by omega) scanned peer ?_ ?_ ?_ ?_ <;> rw [led]
    · rfl
    · exact fun wrong => absurd rfl wrong
    · exact cells_none.symm
    · rintro (waiting | waiting) <;> cases waiting

/-! ### Pursuits -/

theorem pursue_waiting {q : Inquiry α Tally} {f : Field α Tally} {s : Exchange} {room i : Nat}
    {before : List Anomaly} {data : List UInt8} (follows : f.Follows listens d s room i before)
    (total : q.total.toNat = i + data.length) (within : data.length < room)
    (waiting : (s.reader d).status = .flush) (idx : UInt32) (window : List UInt8) :
    Pursued listens d s room i before data (pursue q idx window f).1
      (pursue q idx window f).2 := by
  have status : f.lane.status = .flush := by rw [follows.status, waiting]; rfl
  have target := follows.target (.inl waiting)
  have inside : f.lane.target ≤ q.total ↔ (s.reader d).left ≤ data.length := by
    rw [UInt32.le_iff_toNat_le]
    omega
  by_cases reached : (s.reader d).left ≤ data.length
  · have moved : move q idx window f =
        (.cut .boundary, { f with lane := { f.lane with status := .search } }) := by
      simp only [move, status, if_pos (inside.mpr reached)]
    rw [pursue_of_cut moved]
    exact follows.reached within waiting reached
  · have short : data.length < (s.reader d).left := by omega
    have moved : move q idx window f =
        if q.limit ≤ q.total then (.cut .bound, f) else (.wait, f) := by
      simp only [move, status, if_neg (mt inside.mp reached)]
    by_cases long : q.limit ≤ q.total
    · rw [if_pos long] at moved
      rw [pursue_of_cut moved]
      exact follows.awaited within waiting short (by simp)
    · rw [if_neg long] at moved
      rw [pursue_of_wait moved]
      exact follows.awaited within waiting short (by simp)

theorem pursue_abandoned {q : Inquiry α Tally} {f : Field α Tally} {s : Exchange} {room i : Nat}
    {before : List Anomaly} {data : List UInt8} (follows : f.Follows listens d s room i before)
    (within : data.length < room) (aborted : (s.reader d).status = .abort) (idx : UInt32)
    (window : List UInt8) :
    Pursued listens d s room i before data (pursue q idx window f).1
      (pursue q idx window f).2 := by
  have status : f.lane.status = .abort := by rw [follows.status, aborted]; rfl
  rw [pursue_of_aborted status]
  exact follows.abandoned within aborted (by simp)

/-- A race was decided by the turn `t` over `k` bytes, and aims at `goal`. -/
structure Decided (listens : Direction → Bool) (d : Direction) (s : Exchange) (room i : Nat)
    (before : List Anomaly) (data : List UInt8) (k : Nat) (t : Turn) (goal : UInt32)
    (g : Field α Tally) : Prop where
  positive : 0 < k
  inside : k ≤ data.length
  within : data.length < room
  reader : (s.takeAll listens d (data.take k)).reader d =
    ((s.reader d).hold (data.take k)).follow d t
  follows : g.Follows listens d (s.takeAll listens d (data.take k)) (room - k) (i + k) before
  aimed : g.lane.target = goal
  aim : goal.toNat = min (t.progress.length.toNat + k + i) 0xFFFFFFFF

namespace Decided

variable {q : Inquiry α Tally} {f g : Field α Tally} {s : Exchange} {room i k : Nat}
  {before : List Anomaly} {idx goal : UInt32} {data window : List UInt8} {t : Turn}

theorem length_rest (decided : Decided listens d s room i before data k t goal g) :
    (data.drop k).length + k = data.length := by
  have inside := decided.inside
  rw [List.length_drop]
  omega

theorem reach (decided : Decided listens d s room i before data k t goal g)
    (total : q.total.toNat = i + data.length) :
    goal ≤ q.total ↔ t.progress.length.toNat ≤ (data.drop k).length := by
  have fits := decided.follows.fits
  have aim := decided.aim
  have rest := decided.length_rest
  have within := decided.within
  rw [UInt32.le_iff_toNat_le]
  omega

theorem onward (decided : Decided listens d s room i before data k t goal g)
    (behind : idx.toNat ≤ i) : idx < goal := by
  have fits := decided.follows.fits
  have aim := decided.aim
  have positive := decided.positive
  have within := decided.within
  rw [UInt32.lt_iff_toNat_lt]
  omega

theorem same (decided : Decided listens d s room i before data k t goal g) {status : Status}
    (h : g.lane.status = status) :
    { g with lane := { g.lane with status, target := goal } } = g := by
  rw [← h, ← decided.aimed]

theorem flush_ended (decided : Decided listens d s room i before data k t goal g)
    (total : q.total.toNat = i + data.length) (behind : idx.toNat ≤ i)
    (flush : t.verdict = .flush) (whole : t.progress.length.toNat = 0)
    (moved : move q idx window f = (if goal ≤ q.total then .again goal else .wait,
      { g with lane := { g.lane with status := .flush, target := goal } })) :
    Pursued listens d s room i before data (pursue q idx window f).1
      (pursue q idx window f).2 := by
  have inner : goal ≤ q.total := by
    rw [decided.reach total]
    omega
  have reader := decided.reader
  simp only [Reader.follow, flush, Reader.await, if_pos whole] at reader
  have searching : ((s.takeAll listens d (data.take k)).reader d).status = .search := by
    rw [reader]
  have same := decided.same (decided.follows.status.trans (congrArg Status.begun searching))
  have cut (bytes : List UInt8) : pursue q goal bytes
      { g with lane := { g.lane with status := .flush, target := goal } } =
        (some .boundary, g) := by
    apply pursue_of_cut
    simp only [move, if_pos inner]
    exact congrArg (Prod.mk _) same
  have fits := decided.follows.fits
  have aim := decided.aim
  have inside := decided.inside
  have within := decided.within
  rw [if_pos inner] at moved
  rw [pursue_of_again moved (decided.onward behind), cut]
  exact .boundary decided.positive inside (by rw [decided.aimed]; omega) decided.follows searching
    (by rw [reader]; rfl) (by rw [reader])

theorem flush_awaits (decided : Decided listens d s room i before data k t goal g)
    (total : q.total.toNat = i + data.length) (behind : idx.toNat ≤ i)
    (flush : t.verdict = .flush) (more : t.progress.length.toNat ≠ 0)
    (moved : move q idx window f = (if goal ≤ q.total then .again goal else .wait,
      { g with lane := { g.lane with status := .flush, target := goal } })) :
    Pursued listens d s room i before data (pursue q idx window f).1
      (pursue q idx window f).2 := by
  have reader := decided.reader
  simp only [Reader.follow, flush, Reader.await, if_neg more] at reader
  have waiting : ((s.takeAll listens d (data.take k)).reader d).status = .flush := by rw [reader]
  have rest := decided.length_rest
  have within := decided.within
  rw [decided.same (by rw [decided.follows.status, waiting]; rfl)] at moved
  refine .after decided.inside (by rw [reader]; rfl) (by rw [reader]; rfl) ?_
  by_cases inner : goal ≤ q.total
  · rw [if_pos inner] at moved
    rw [pursue_of_again moved (decided.onward behind)]
    exact pursue_waiting decided.follows (by omega) (by omega) waiting goal _
  · rw [if_neg inner] at moved
    rw [pursue_of_wait moved]
    refine decided.follows.awaited (by omega) waiting ?_ (by simp)
    rw [reader]
    exact Nat.lt_of_not_le (mt (decided.reach total).mpr inner)

theorem skip (decided : Decided listens d s room i before data k t goal g)
    (total : q.total.toNat = i + data.length) (behind : idx.toNat ≤ i)
    (ahead : window.drop (i - idx.toNat) = data) (skip : t.verdict = .skip)
    (moved : move q idx window f = (if goal ≤ q.total then .again goal else .wait,
      { g with lane := { g.lane with status := .skip, target := goal } }))
    (later : ∀ {s' : Exchange} {k : Nat} {next : UInt32} {g : Field α Tally}, 0 < k →
      k ≤ data.length → next.toNat = i + k → (s'.reader d).isReading = true →
      g.Follows listens d s' (room - k) (i + k) before →
      Pursued listens d s' (room - k) (i + k) before (data.drop k)
        (pursue q next (data.drop k) g).1 (pursue q next (data.drop k) g).2) :
    Pursued listens d s room i before data (pursue q idx window f).1
      (pursue q idx window f).2 := by
  have reader := decided.reader
  simp only [Reader.follow, skip] at reader
  have skipping : ((s.takeAll listens d (data.take k)).reader d).status = .skip := by rw [reader]
  have left : ((s.takeAll listens d (data.take k)).reader d).left = t.progress.length.toNat := by
    rw [reader]
  have rest := decided.length_rest
  have within := decided.within
  have kept := decided.follows
  rw [decided.same (by rw [kept.status, skipping]; rfl)] at moved
  refine .after decided.inside (by rw [reader]; rfl) (by rw [reader]; rfl) ?_
  by_cases inner : goal ≤ q.total
  · have reached := (decided.reach total).mp inner
    have onward := decided.onward behind
    have fits := kept.fits
    have aim := decided.aim
    have positive := decided.positive
    rw [if_pos inner] at moved
    generalize t.progress.length.toNat = n at *
    have goal_eq : goal.toNat = i + (k + n) := by omega
    have skipped : ((data.drop k).take n).length = n := List.length_take_of_le reached
    have taken := Exchange.takeAll_skip listens kept.running skipping ((data.drop k).take n)
      (by omega)
    have passed := kept.skipped ((data.drop k).take n) (by omega) skipping (by omega)
    rw [skipped, Nat.sub_sub, Nat.add_assoc] at passed
    have place : window.drop (goal - idx).toNat = (data.drop k).drop n := by
      rw [← ahead, List.drop_drop, List.drop_drop,
        UInt32.toNat_sub_of_le _ _ (UInt32.le_iff_toNat_le.mpr (by omega))]
      congr 1
      omega
    rw [pursue_of_again moved onward, place]
    refine .after reached (by rw [taken]; simp [Reader.hold]) (by rw [taken]; simp [Reader.hold]) ?_
    rw [List.drop_drop, Nat.sub_sub, Nat.add_assoc]
    refine later (by omega) (by omega) goal_eq ?_ passed
    rw [taken]
    simp [Reader.isReading, Reader.hold, left, skipped, skipping]
  · have short := Nat.le_of_lt (Nat.lt_of_not_le (mt (decided.reach total).mpr inner))
    have taken := Exchange.takeAll_skip listens kept.running skipping (data.drop k) (left ▸ short)
    rw [if_neg inner] at moved
    rw [pursue_of_wait moved]
    refine .rest (by simp) (kept.skipped _ (by omega) skipping (left ▸ short)) ?_ ?_ <;>
      rw [taken] <;> simp [Reader.hold]

theorem abort (decided : Decided listens d s room i before data k t goal g)
    (behind : idx.toNat ≤ i) (abort : t.verdict = .abort)
    (moved : move q idx window f = (if goal ≤ q.total then .again goal else .wait,
      { g with lane := { g.lane with status := .abort, target := goal } })) :
    Pursued listens d s room i before data (pursue q idx window f).1
      (pursue q idx window f).2 := by
  have reader := decided.reader
  simp only [Reader.follow, abort] at reader
  have aborted : ((s.takeAll listens d (data.take k)).reader d).status = .abort := by rw [reader]
  have rest := decided.length_rest
  have within := decided.within
  rw [decided.same (by rw [decided.follows.status, aborted]; rfl)] at moved
  refine .after decided.inside (by rw [reader]; rfl) (by rw [reader]; rfl) ?_
  by_cases inner : goal ≤ q.total
  · rw [if_pos inner] at moved
    rw [pursue_of_again moved (decided.onward behind)]
    exact pursue_abandoned decided.follows (by omega) aborted goal _
  · rw [if_neg inner] at moved
    rw [pursue_of_wait moved]
    exact decided.follows.abandoned (by omega) aborted (by simp)

end Decided

/-- A pursuit whose first move is a race at `place`; `later` takes over behind skipped bytes. -/
theorem pursue_reading {q : Inquiry α Tally} {f : Field α Tally} {s : Exchange} {room i : Nat}
    {before : List Anomaly} {idx place : UInt32} {data window : List UInt8}
    (http : q.registry.IsHttp) (side : q.marks.fromClient = (d == Direction.toServer))
    (follows : f.Follows listens d s room i before) (reading : (s.reader d).isReading = true)
    (here : place.toNat = i) (total : q.total.toNat = i + data.length)
    (within : data.length < room) (nonempty : data ≠ [])
    (moved : move q idx window f = contest q place data f) (behind : idx.toNat ≤ i)
    (ahead : window.drop (i - idx.toNat) = data)
    (later : ∀ {s' : Exchange} {k : Nat} {next : UInt32} {g : Field α Tally}, 0 < k →
      k ≤ data.length → next.toNat = i + k → (s'.reader d).isReading = true →
      g.Follows listens d s' (room - k) (i + k) before →
      Pursued listens d s' (room - k) (i + k) before (data.drop k)
        (pursue q next (data.drop k) g).1 (pursue q next (data.drop k) g).2) :
    Pursued listens d s room i before data (pursue q idx window f).1
      (pursue q idx window f).2 := by
  have active := Reader.active_of_isReading reading
  have heard := follows.heard active
  cases framed : (((s.reader d).current d).read data).1.progress.flags.error with
  | true =>
    obtain ⟨call, made, error⟩ := contest_fails http side follows reading framed place
    obtain ⟨failed, messages⟩ := Exchange.takeAll_read_error follows.running reading heard
      (Reader.error_current (follows.sound d) d) framed
    rw [← moved] at made
    exact .failed failed messages ((extends_pursue_move q idx window f).calls.subset made) error
  | false =>
    obtain ⟨g, kept, aimed, result⟩ :=
      contest_follows http side follows reading here within nonempty framed
    have taken := Exchange.takeAll_read follows.running reading heard nonempty framed
    rw [result] at moved
    clear result
    have shorter (h : (((s.reader d).current d).read data).1.verdict ≠ .search) :=
      Progress.read_rest_length h
    have nothing (h : (((s.reader d).current d).read data).1.verdict = .search) :=
      Progress.read_rest_of_search h
    generalize ((s.reader d).current d).read data = t at *
    obtain ⟨k, length⟩ : ∃ k, k = data.length - t.2.length := ⟨_, rfl⟩
    rw [← length] at kept aimed moved taken
    have reader : (s.takeAll listens d (data.take k)).reader d =
        ((s.reader d).hold (data.take k)).follow d t.1 := by
      rw [taken, Exchange.reader_follow, Exchange.reader_setReader_self]
    by_cases search : t.1.verdict = .search
    · have all : k = data.length := by
        rw [length, nothing search, List.length_nil, Nat.sub_zero]
      rw [all, List.take_length] at kept reader
      simp only [search] at moved
      simp only [Reader.follow, search] at reader
      rw [pursue_of_wait moved]
      refine .rest (by simp) kept ?_ ?_ <;> rw [reader] <;> rfl
    · have aim : (Length.add (Length.add t.1.progress.length k.toUInt32) place).toNat =
          min (t.1.progress.length.toNat + k + i) 0xFFFFFFFF := by
        have fits := follows.fits
        simp only [Length.toNat_add, here, Nat.toUInt32_eq, UInt32.toNat_ofNat']
        omega
      have positive : 0 < k := by
        have := shorter search
        omega
      have decided : Decided listens d s room i before data k t.1 _ g :=
        ⟨positive, by omega, within, reader, kept, aimed search, aim⟩
      cases decision : t.1.verdict with
      | search => exact absurd decision search
      | flush =>
        simp only [decision, Verdict.status] at moved
        by_cases whole : t.1.progress.length.toNat = 0
        · exact decided.flush_ended total behind decision whole moved
        · exact decided.flush_awaits total behind decision whole moved
      | skip =>
        simp only [decision, Verdict.status] at moved
        exact decided.skip total behind ahead decision moved later
      | abort =>
        simp only [decision, Verdict.status] at moved
        exact decided.abort behind decision moved

/-- Pursuits of fewer than `n` bytes keep in step. -/
def PursuesBelow (listens : Direction → Bool) (d : Direction) (q : Inquiry α Tally)
    (before : List Anomaly) (n : Nat) : Prop :=
  ∀ {s : Exchange} {room i : Nat} {idx : UInt32} {data : List UInt8} {f : Field α Tally},
    data.length < n → f.Follows listens d s room i before → idx.toNat = i →
    q.total.toNat = i + data.length → data.length < room →
    Pursued listens d s room i before data (pursue q idx data f).1 (pursue q idx data f).2

theorem pursue_searching {q : Inquiry α Tally} {f : Field α Tally} {s : Exchange} {room i : Nat}
    {before : List Anomaly} {idx : UInt32} {data : List UInt8} (http : q.registry.IsHttp)
    (side : q.marks.fromClient = (d == Direction.toServer))
    (follows : f.Follows listens d s room i before) (searching : f.lane.status = .search)
    (reading : (s.reader d).isReading = true) (here : idx.toNat = i)
    (total : q.total.toNat = i + data.length) (within : data.length < room)
    (later : PursuesBelow listens d q before data.length) :
    Pursued listens d s room i before data (pursue q idx data f).1 (pursue q idx data f).2 := by
  by_cases empty : data = []
  · subst empty
    have moved : move q idx [] f = (.wait, f) := by
      simp only [move, searching]
      rw [if_neg]
      rw [UInt32.lt_iff_toNat_lt, total, here]
      simp
    rw [pursue_of_wait moved]
    exact .rest (by simp) (by simpa using follows) rfl (by simp)
  · have positive : 0 < data.length := List.length_pos_iff.mpr empty
    have moved : move q idx data f = contest q idx data f := by
      simp only [move, searching]
      rw [if_pos]
      rw [UInt32.lt_iff_toNat_lt]
      omega
    refine pursue_reading http side follows reading here total within empty moved here.le
      (by rw [here, Nat.sub_self, List.drop_zero]) fun {_ k _ _} positive inside place _ kept => ?_
    have shorter : (data.drop k).length = data.length - k := List.length_drop
    exact later (by omega) kept place (by omega) (by omega)

theorem pursue_skipping {q : Inquiry α Tally} {f : Field α Tally} {s : Exchange} {room i : Nat}
    {before : List Anomaly} {idx : UInt32} {data : List UInt8} (http : q.registry.IsHttp)
    (side : q.marks.fromClient = (d == Direction.toServer))
    (follows : f.Follows listens d s room i before) (doing : (s.reader d).status = .skip)
    (here : idx.toNat = i) (total : q.total.toNat = i + data.length) (within : data.length < room)
    (later : PursuesBelow listens d q before data.length) :
    Pursued listens d s room i before data (pursue q idx data f).1 (pursue q idx data f).2 := by
  have skipping : f.lane.status = .skip := by rw [follows.status, doing]; rfl
  have fits := follows.fits
  have target := follows.target (.inr doing)
  by_cases short : data.length ≤ (s.reader d).left
  · have moved : move q idx data f = (.wait, f) := by
      simp only [move, skipping]
      rw [if_pos]
      rw [UInt32.le_iff_toNat_le]
      omega
    have taken := Exchange.takeAll_skip listens follows.running doing data short
    rw [pursue_of_wait moved]
    refine .rest (by simp) (follows.skipped data within doing short) ?_ ?_ <;> rw [taken] <;>
      simp [Reader.hold]
  · generalize left : (s.reader d).left = n at *
    have inside : n ≤ data.length := by omega
    have skipped : (data.take n).length = n := List.length_take_of_le inside
    have lengths : (data.drop n).length = data.length - n := List.length_drop
    have taken := Exchange.takeAll_skip listens follows.running doing (data.take n) (by omega)
    have passed := follows.skipped (data.take n) (by omega) doing (by omega)
    rw [skipped] at passed
    have place : f.lane.target.toNat = i + n := by omega
    have onward : (f.lane.target - idx).toNat = n := by
      rw [UInt32.toNat_sub_of_le _ _ (UInt32.le_iff_toNat_le.mpr (by omega))]
      omega
    have moved : move q idx data f = contest q f.lane.target (data.drop n) f := by
      simp only [move, skipping, onward]
      rw [if_neg (by rw [UInt32.le_iff_toNat_le]; omega)]
      split
      · rename_i stay
        rw [UInt32.le_iff_toNat_le] at stay
        rw [show n = 0 by omega, List.drop_zero]
      · rw [if_neg (by omega)]
    refine .after inside (by rw [taken]; simp [Reader.hold]) (by rw [taken]; simp [Reader.hold]) ?_
    refine pursue_reading http side passed ?_ place (by omega) (by omega) ?_ moved (by omega)
      (by rw [here, Nat.add_sub_cancel_left]) fun {_ k _ _} positive inside' place' _ kept => ?_
    · rw [taken]
      simp [Reader.isReading, Reader.hold, left, skipped, doing]
    · intro empty
      rw [empty, List.length_nil] at lengths
      omega
    · have shorter : ((data.drop n).drop k).length = (data.drop n).length - k := List.length_drop
      exact later (by omega) kept place' (by omega) (by omega)

/-- A pursuit keeps in step with the exchange of the bytes it is given. -/
theorem pursue_follows {q : Inquiry α Tally} {f : Field α Tally} {s : Exchange} {room i : Nat}
    {before : List Anomaly} {idx : UInt32} {data : List UInt8} (http : q.registry.IsHttp)
    (side : q.marks.fromClient = (d == Direction.toServer))
    (follows : f.Follows listens d s room i before) (here : idx.toNat = i)
    (total : q.total.toNat = i + data.length) (within : data.length < room) :
    Pursued listens d s room i before data (pursue q idx data f).1 (pursue q idx data f).2 := by
  induction hn : data.length using Nat.strongRecOn generalizing data s room i idx f with
  | _ n ih =>
    subst hn
    have later : PursuesBelow listens d q before data.length :=
      fun shorter kept place total within => ih _ shorter kept place total within rfl
    cases doing : (s.reader d).status with
    | abort => exact pursue_abandoned follows within doing idx data
    | flush => exact pursue_waiting follows total within doing idx data
    | start =>
      exact pursue_searching http side follows (by rw [follows.status, doing]; rfl)
        (by rw [Reader.isReading, doing]; rfl) here total within later
    | search =>
      exact pursue_searching http side follows (by rw [follows.status, doing]; rfl)
        (by rw [Reader.isReading, doing]; rfl) here total within later
    | skip => exact pursue_skipping http side follows doing here total within later

theorem pursue_deaf {q : Inquiry α Tally} {f : Field α Tally} {s : Exchange} {room i : Nat}
    {before : List Anomaly} {idx : UInt32} {data : List UInt8} (running : s.failed = false)
    (sound : s.Sound) (untouched : (s.reader d).status = .start) (deaf : listens d = false)
    (searching : f.lane.status = .search) (nobody : f.lane.eligible = .empty)
    (peer : f.peer = cells (s.reader d.opposite).progress)
    (raised : s.raised = before ++ f.raised) (fits : i + room ≤ 2 ^ 31) (here : idx.toNat = i)
    (total : q.total.toNat = i + data.length) (within : data.length < room) (nonempty : data ≠ []) :
    Pursued listens d s room i before data (pursue q idx data f).1 (pursue q idx data f).2 := by
  have positive : 0 < data.length := List.length_pos_iff.mpr nonempty
  have taken := Exchange.takeAll_deaf running untouched deaf nonempty
  obtain ⟨cut?, other, pursued⟩ := pursue_of_deaf nobody searching
    (UInt32.lt_iff_toNat_lt.mpr (show idx.toNat < q.total.toNat by omega)) data
  have fits' : i + data.length + (room - data.length) ≤ 2 ^ 31 := by omega
  have sound' : (s.takeAll listens d data).Sound := Exchange.sound_takeAll sound data
  rw [taken] at sound'
  rw [pursued]
  refine .rest other ?_ ?_ ?_ <;> rw [taken]
  · refine ⟨by simpa using running, sound', ?_, ?_, ?_, ?_, ?_, by simpa using raised, fits', ?_⟩
      <;> simp only [Exchange.reader_setReader_self, Exchange.reader_setReader_opposite]
    · rfl
    · exact fun active => absurd rfl active
    · exact fun active => absurd rfl active
    · exact cells_none.symm
    · exact peer
    · rintro (wrong | wrong) <;> cases wrong
  · simp [Reader.hold]
  · simp [Reader.hold]

end Field

end StreamFraming
