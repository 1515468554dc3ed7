import StreamFraming.Lane
import StreamFraming.Proofs.Http.Reading

/-!
# An exchange of HTTP messages, byte by byte

What two streams come to when they are read one byte at a time: no segments, no queue, no size
bound. An engine follows an exchange for as long as every message can be framed; `failed` marks the
end of that, and nothing changes from there on.
-/

namespace StreamFraming

open Http

/-- What the stream of one direction has come to. -/
structure Reader where
  status : Status := .start
  /-- How many bytes are to pass before the message ends or reading goes on. -/
  left : Nat := 0
  progress : Option Progress := none
  messages : List (List UInt8) := []
  /-- The bytes behind the last complete message. -/
  unfinished : List UInt8 := []

/-- What the streams of both directions have come to. -/
structure Exchange where
  toServer : Reader := {}
  toClient : Reader := {}
  raised : List Anomaly := []
  /-- A message could not be framed. -/
  failed : Bool := false

namespace Reader

def hold (r : Reader) (cs : List UInt8) : Reader := { r with unfinished := r.unfinished ++ cs }

@[simp] theorem hold_nil (r : Reader) : r.hold [] = r := by
  simp [hold]

/-- All bytes of a direction. -/
def bytes (r : Reader) : List UInt8 := r.messages.flatten ++ r.unfinished

/-- How many bytes of a direction there is room for, the limit itself included. -/
def room (r : Reader) : Nat := 2 ^ 31 - r.bytes.length

/-- The message ends once `n` more bytes have passed. -/
def await (r : Reader) (n : Nat) : Reader :=
  if n = 0 then
    { r with status := .search, left := 0, messages := r.messages ++ [r.unfinished],
             unfinished := [] }
  else { r with status := .flush, left := n }

/-- What the bytes read last lead to. -/
def follow (r : Reader) (d : Direction) (t : Turn) : Reader :=
  match t.verdict with
  | .search => { r with status := .search, left := 0, progress := some t.progress }
  | .flush =>
    { r with progress := some (Progress.fresh (d == Direction.toServer)) }.await
      t.progress.length.toNat
  | .skip =>
    { r with status := .skip, left := t.progress.length.toNat, progress := some t.progress }
  | .abort => { r with status := .abort, left := 0, progress := none }

/-- The progress from which the next byte is read. -/
def current (r : Reader) (d : Direction) : Progress :=
  r.progress.getD (Progress.fresh (d == Direction.toServer))

/-- Whether the next byte is read, and not passed over. -/
def isReading (r : Reader) : Bool :=
  r.status == .start || r.status == .search || r.status == .skip && r.left == 0

theorem active_of_isReading {r : Reader} (h : r.isReading = true) : r.status ≠ .abort := by
  intro aborted
  rw [isReading, aborted] at h
  cases h

/-- Bytes are read, and the message goes on. -/
def goOn (r : Reader) (cs : List UInt8) (p : Progress) : Reader :=
  { r.hold cs with status := .search, left := 0, progress := some p }

/-- The response that is due, or the one in progress, has no body. -/
def expectNoBody (r : Reader) : Reader :=
  { r with
    progress := some ((r.progress.getD Progress.response).mark fun f => { f with noBody := true }) }

theorem follow_congr {d : Direction} {r r' : Reader} (messages : r.messages = r'.messages)
    (unfinished : r.unfinished = r'.unfinished) (t : Turn) : r.follow d t = r'.follow d t := by
  obtain ⟨_, _, _, _, _⟩ := r
  obtain ⟨_, _, _, _, _⟩ := r'
  subst messages unfinished
  unfold Reader.follow Reader.await
  cases t.verdict <;> rfl

/-- No message in progress is beyond framing, and one whose end is awaited has bytes to come. -/
def Sound (r : Reader) : Prop :=
  (∀ p, r.progress = some p → p.flags.error = false) ∧ (r.status = .flush → 0 < r.left)

theorem error_fresh (fromClient : Bool) : (Progress.fresh fromClient).flags.error = false := by
  cases fromClient <;> rfl

theorem sound_empty : ({} : Reader).Sound :=
  ⟨fun _ absent => (by cases absent), fun wrong => (by cases wrong)⟩

theorem error_current {r : Reader} (h : r.Sound) (d : Direction) :
    (r.current d).flags.error = false := by
  unfold current
  cases found : r.progress with
  | none => exact error_fresh _
  | some p => exact h.1 p found

theorem sound_await {r : Reader} (h : ∀ p, r.progress = some p → p.flags.error = false) (n : Nat) :
    (r.await n).Sound := by
  unfold await
  split
  · exact ⟨h, fun wrong => by cases wrong⟩
  · exact ⟨h, fun _ => by simp only; omega⟩

theorem sound_follow {r : Reader} {d : Direction} {t : Turn}
    (framed : t.progress.flags.error = false) : (r.follow d t).Sound := by
  unfold follow
  split
  · exact ⟨fun p found => by cases found; exact framed, fun wrong => by cases wrong⟩
  · exact sound_await (fun p found => by cases found; exact error_fresh _) _
  · exact ⟨fun p found => by cases found; exact framed, fun wrong => by cases wrong⟩
  · exact ⟨fun p absent => (by cases absent), fun wrong => (by cases wrong)⟩

theorem sound_expectNoBody {r : Reader} (h : r.Sound) : r.expectNoBody.Sound := by
  refine ⟨fun p found => ?_, h.2⟩
  cases found
  cases known : r.progress with
  | none => rfl
  | some q => exact h.1 q known

end Reader

/-- A decision ends a HEAD request, or a part of one. -/
def Http.Turn.endsHead (t : Turn) : Bool :=
  t.verdict != .search && (t.progress.flags.noBody && t.progress.flags.request)

namespace Exchange

def reader (s : Exchange) : Direction → Reader
  | .toServer => s.toServer
  | .toClient => s.toClient

def setReader (s : Exchange) (d : Direction) (r : Reader) : Exchange :=
  match d with
  | .toServer => { s with toServer := r }
  | .toClient => { s with toClient := r }

def Sound (s : Exchange) : Prop := ∀ d, (s.reader d).Sound

/-- What a turn of one direction means for both, once its bytes are held. -/
def follow (s : Exchange) (d : Direction) (t : Turn) : Exchange :=
  let s := { s.setReader d ((s.reader d).follow d t) with raised := s.raised ++ t.raised }
  if t.endsHead then s.setReader d.opposite (s.reader d.opposite).expectNoBody else s

/-- Take a byte of a direction; `listens` tells which directions are read at all. -/
def take (listens : Direction → Bool) (d : Direction) (s : Exchange) (c : UInt8) : Exchange :=
  let r := s.reader d
  if s.failed then s
  else if r.status = .start ∧ listens d = false then
    s.setReader d { r.hold [c] with status := .abort, progress := none }
  else if r.isReading then
    let t := (r.current d).readByte c
    if t.progress.flags.error then { s with failed := true }
    else (s.setReader d (r.hold [c])).follow d t
  else
    match r.status with
    | .flush => s.setReader d ((r.hold [c]).await (r.left - 1))
    | .skip => s.setReader d { r.hold [c] with left := r.left - 1 }
    | .start | .search | .abort => s.setReader d (r.hold [c])

def takeAll (listens : Direction → Bool) (s : Exchange) (d : Direction) (cs : List UInt8) :
    Exchange :=
  cs.foldl (take listens d) s

/-- Take what is sent, one segment after the other. -/
def run (listens : Direction → Bool) (s : Exchange) (sends : List (Direction × List UInt8)) :
    Exchange :=
  sends.foldl (fun s x => s.takeAll listens x.1 x.2) s

@[simp] theorem reader_setReader_self (s : Exchange) (d : Direction) (r : Reader) :
    (s.setReader d r).reader d = r := by
  cases d <;> rfl

@[simp] theorem reader_setReader_opposite (s : Exchange) (d : Direction) (r : Reader) :
    (s.setReader d r).reader d.opposite = s.reader d.opposite := by
  cases d <;> rfl

@[simp] theorem raised_setReader (s : Exchange) (d : Direction) (r : Reader) :
    (s.setReader d r).raised = s.raised := by
  cases d <;> rfl

@[simp] theorem failed_setReader (s : Exchange) (d : Direction) (r : Reader) :
    (s.setReader d r).failed = s.failed := by
  cases d <;> rfl

@[simp] theorem setReader_setReader (s : Exchange) (d : Direction) (r r' : Reader) :
    (s.setReader d r).setReader d r' = s.setReader d r' := by
  cases d <;> rfl

@[simp] theorem setReader_reader (s : Exchange) (d : Direction) :
    s.setReader d (s.reader d) = s := by
  cases d <;> rfl

variable {listens : Direction → Bool} {d : Direction}

@[simp] theorem takeAll_nil (s : Exchange) : s.takeAll listens d [] = s := rfl

@[simp] theorem takeAll_cons (s : Exchange) (c : UInt8) (cs : List UInt8) :
    s.takeAll listens d (c :: cs) = (s.take listens d c).takeAll listens d cs := rfl

theorem takeAll_append (s : Exchange) (a b : List UInt8) :
    s.takeAll listens d (a ++ b) = (s.takeAll listens d a).takeAll listens d b :=
  List.foldl_append

theorem takeAll_flatten (s : Exchange) (pieces : List (List UInt8)) :
    s.takeAll listens d pieces.flatten =
      pieces.foldl (fun s cs => s.takeAll listens d cs) s := by
  induction pieces generalizing s with
  | nil => rfl
  | cons cs rest ih => rw [List.flatten_cons, takeAll_append, ih, List.foldl_cons]

theorem run_append (s : Exchange) (a b : List (Direction × List UInt8)) :
    s.run listens (a ++ b) = (s.run listens a).run listens b :=
  List.foldl_append

theorem take_of_failed {s : Exchange} (h : s.failed = true) (c : UInt8) :
    s.take listens d c = s := by
  simp [take, h]

theorem takeAll_of_failed {s : Exchange} (h : s.failed = true) (cs : List UInt8) :
    s.takeAll listens d cs = s := by
  induction cs with
  | nil => rfl
  | cons c cs ih => rw [takeAll_cons, take_of_failed h, ih]

theorem run_of_failed {s : Exchange} (h : s.failed = true)
    (sends : List (Direction × List UInt8)) : s.run listens sends = s := by
  induction sends with
  | nil => rfl
  | cons x rest ih =>
    rw [run, List.foldl_cons, takeAll_of_failed h]
    exact ih

/-! ### Bytes that are passed over -/

theorem takeAll_flush (listens : Direction → Bool) {s : Exchange} (running : s.failed = false)
    (waiting : (s.reader d).status = .flush) (ahead : 0 < (s.reader d).left) (cs : List UInt8)
    (within : cs.length ≤ (s.reader d).left) :
    s.takeAll listens d cs =
      s.setReader d (((s.reader d).hold cs).await ((s.reader d).left - cs.length)) := by
  induction cs generalizing s with
  | nil =>
    have same : ((s.reader d).hold []).await ((s.reader d).left - 0) = s.reader d := by
      rw [Reader.await, if_neg (by omega), Reader.hold, List.append_nil]
      simp only [← waiting, Nat.sub_zero]
    rw [List.length_nil, same, setReader_reader]
    rfl
  | cons c cs ih =>
    have step : s.take listens d c =
        s.setReader d (((s.reader d).hold [c]).await ((s.reader d).left - 1)) := by
      simp [take, running, waiting, Reader.isReading]
    rw [takeAll_cons, step]
    by_cases last : (s.reader d).left - 1 = 0
    · have empty : cs = [] := List.eq_nil_of_length_eq_zero (by simp at within; omega)
      subst empty
      rfl
    · have next : ((s.reader d).hold [c]).await ((s.reader d).left - 1) =
          { (s.reader d).hold [c] with status := .flush, left := (s.reader d).left - 1 } := by
        rw [Reader.await, if_neg last]
      rw [ih (by simpa using running) (by simp [next]) (by simp [next]; omega)
        (by simp [next]; simp at within; omega)]
      simp only [reader_setReader_self, setReader_setReader, next]
      congr 1
      simp only [Reader.hold, List.append_assoc, List.singleton_append, List.length_cons]
      rw [show (s.reader d).left - 1 - cs.length = (s.reader d).left - (cs.length + 1) by omega]
      rfl

theorem takeAll_skip (listens : Direction → Bool) {s : Exchange} (running : s.failed = false)
    (skipping : (s.reader d).status = .skip) (cs : List UInt8)
    (within : cs.length ≤ (s.reader d).left) :
    s.takeAll listens d cs =
      s.setReader d
        { (s.reader d).hold cs with left := (s.reader d).left - cs.length } := by
  induction cs generalizing s with
  | nil =>
    rw [List.length_nil, Reader.hold_nil]
    exact (setReader_reader s d).symm
  | cons c cs ih =>
    simp only [List.length_cons] at within
    have step : s.take listens d c =
        s.setReader d { (s.reader d).hold [c] with left := (s.reader d).left - 1 } := by
      have more : ((s.reader d).left == 0) = false := by rw [beq_eq_false_iff_ne]; omega
      simp [take, running, skipping, Reader.isReading, more]
    rw [takeAll_cons, step,
      ih (by simpa using running) (by simpa [Reader.hold] using skipping) (by simp; omega)]
    simp only [reader_setReader_self, setReader_setReader]
    congr 1
    simp only [Reader.hold, List.append_assoc, List.singleton_append, List.length_cons]
    rw [show (s.reader d).left - 1 - cs.length = (s.reader d).left - (cs.length + 1) by omega]

theorem takeAll_abort {s : Exchange} (running : s.failed = false)
    (aborted : (s.reader d).status = .abort) (cs : List UInt8) :
    s.takeAll listens d cs = s.setReader d ((s.reader d).hold cs) := by
  induction cs generalizing s with
  | nil =>
    rw [Reader.hold_nil]
    exact (setReader_reader s d).symm
  | cons c cs ih =>
    have step : s.take listens d c = s.setReader d ((s.reader d).hold [c]) := by
      simp [take, running, aborted, Reader.isReading]
    rw [takeAll_cons, step, ih (by simpa using running) (by simpa [Reader.hold] using aborted)]
    simp [Reader.hold]

theorem takeAll_deaf {s : Exchange} (running : s.failed = false)
    (untouched : (s.reader d).status = .start) (deaf : listens d = false) {cs : List UInt8}
    (nonempty : cs ≠ []) :
    s.takeAll listens d cs =
      s.setReader d { (s.reader d).hold cs with status := .abort, progress := none } := by
  obtain ⟨c, cs, rfl⟩ := List.exists_cons_of_ne_nil nonempty
  have step : s.take listens d c =
      s.setReader d { (s.reader d).hold [c] with status := .abort, progress := none } := by
    simp [take, running, untouched, deaf]
  rw [takeAll_cons, step, takeAll_abort (by simpa using running) (by simp)]
  simp [Reader.hold]

/-! ### Bytes that are read -/

theorem follow_search {s : Exchange} {t : Turn} (h : t.verdict = .search) :
    s.follow d t =
      { s.setReader d ((s.reader d).follow d t) with raised := s.raised ++ t.raised } := by
  simp [follow, Turn.endsHead, h]

@[simp] theorem reader_follow (s : Exchange) (t : Turn) :
    (s.follow d t).reader d = (s.reader d).follow d t := by
  cases d <;> unfold follow <;> cases t.endsHead <;> rfl

@[simp] theorem opposite_reader_follow (s : Exchange) (t : Turn) :
    (s.follow d t).reader d.opposite =
      if t.endsHead then (s.reader d.opposite).expectNoBody else s.reader d.opposite := by
  cases d <;> unfold follow <;> cases t.endsHead <;> rfl

@[simp] theorem raised_follow (s : Exchange) (t : Turn) :
    (s.follow d t).raised = s.raised ++ t.raised := by
  cases d <;> unfold follow <;> cases t.endsHead <;> rfl

@[simp] theorem failed_follow (s : Exchange) (t : Turn) : (s.follow d t).failed = s.failed := by
  cases d <;> unfold follow <;> cases t.endsHead <;> rfl

theorem follow_after {s : Exchange} {r r' : Reader} (messages : r.messages = r'.messages)
    (unfinished : r.unfinished = r'.unfinished) (first : List Anomaly) (t : Turn) :
    ({ s.setReader d r with raised := s.raised ++ first } : Exchange).follow d t =
      (s.setReader d r').follow d { t with raised := first ++ t.raised } := by
  have same : r.follow d t = r'.follow d { t with raised := first ++ t.raised } :=
    Reader.follow_congr messages unfinished t
  cases d <;> simp only [follow, setReader, reader, same, List.append_assoc] <;> rfl

theorem take_of_reading {s : Exchange} (running : s.failed = false)
    (reading : (s.reader d).isReading = true) (heard : listens d = true) {c : UInt8}
    (sound : (((s.reader d).current d).readByte c).progress.flags.error = false) :
    s.take listens d c =
      (s.setReader d ((s.reader d).hold [c])).follow d (((s.reader d).current d).readByte c) := by
  simp [take, running, heard, reading, sound]

theorem take_of_search {s : Exchange} (running : s.failed = false)
    (reading : (s.reader d).isReading = true) (heard : listens d = true) {c : UInt8} {t : Turn}
    (turn : ((s.reader d).current d).readByte c = t) (search : t.verdict = .search)
    (sound : t.progress.flags.error = false) :
    s.take listens d c =
      { s.setReader d ((s.reader d).goOn [c] t.progress) with
        raised := s.raised ++ t.raised } := by
  rw [take_of_reading running reading heard (by rw [turn]; exact sound), turn,
    follow_search search]
  simp only [reader_setReader_self, setReader_setReader, raised_setReader, Reader.follow, search]
  rfl

/-- Bytes that are read up to the first decision, or up to the last one. -/
theorem takeAll_read {s : Exchange} (running : s.failed = false)
    (reading : (s.reader d).isReading = true) (heard : listens d = true) {cs : List UInt8}
    (nonempty : cs ≠ [])
    (sound : (((s.reader d).current d).read cs).1.progress.flags.error = false) :
    s.takeAll listens d (cs.take (cs.length - (((s.reader d).current d).read cs).2.length)) =
      (s.setReader d ((s.reader d).hold
        (cs.take (cs.length - (((s.reader d).current d).read cs).2.length)))).follow d
          (((s.reader d).current d).read cs).1 := by
  induction cs generalizing s with
  | nil => exact absurd rfl nonempty
  | cons c cs ih =>
    generalize ht : ((s.reader d).current d).readByte c = t
    by_cases search : t.verdict = .search
    · rw [Progress.read_cons_search (by rw [ht, search]), ht] at sound ⊢
      simp only at sound ⊢
      have framed := Progress.error_of_read sound
      have shorter := (Progress.read_suffix t.progress cs).length_le
      have split : (c :: cs).take ((c :: cs).length - (t.progress.read cs).2.length) =
          c :: cs.take (cs.length - (t.progress.read cs).2.length) := by
        rw [List.length_cons, show cs.length + 1 - (t.progress.read cs).2.length =
          (cs.length - (t.progress.read cs).2.length) + 1 by omega, List.take_succ_cons]
      rw [split, takeAll_cons, take_of_search running reading heard ht search framed]
      by_cases empty : cs = []
      · subst empty
        simp only [Progress.read, List.take_nil, takeAll_nil, List.append_nil]
        rw [follow_search rfl]
        simp only [reader_setReader_self, setReader_setReader, raised_setReader, Reader.follow]
        rfl
      · generalize hs : ({ s.setReader d ((s.reader d).goOn [c] t.progress) with
          raised := s.raised ++ t.raised } : Exchange) = s₁
        have reader₁ : s₁.reader d = (s.reader d).goOn [c] t.progress := by
          rw [← hs]
          cases d <;> rfl
        have current₁ : (s₁.reader d).current d = t.progress := by
          rw [reader₁]
          rfl
        have later := ih (s := s₁) (by rw [← hs]; simpa using running) (by rw [reader₁]; rfl)
          empty (by rw [current₁]; exact sound)
        rw [current₁, reader₁] at later
        have overwritten (r : Reader) : s₁.setReader d r =
            { s.setReader d r with raised := s.raised ++ t.raised } := by
          rw [← hs]
          cases d <;> rfl
        rw [later, overwritten]
        apply follow_after
        · rfl
        · simp [Reader.hold, Reader.goOn]
    · rw [Progress.read_cons_decided (by rw [ht]; exact search), ht] at sound ⊢
      have one : (c :: cs).take ((c :: cs).length - cs.length) = [c] := by
        rw [List.length_cons, show cs.length + 1 - cs.length = 1 by omega]
        rfl
      simp only [one]
      rw [takeAll_cons, takeAll_nil,
        take_of_reading running reading heard (by rw [ht]; exact sound),
        ht]

theorem takeAll_reading {s : Exchange} (running : s.failed = false)
    (reading : (s.reader d).isReading = true) (heard : listens d = true) {cs : List UInt8}
    (nonempty : cs ≠ []) {t : Turn} (read : ((s.reader d).current d).read cs = (t, []))
    (sound : t.progress.flags.error = false) :
    s.takeAll listens d cs = (s.setReader d ((s.reader d).hold cs)).follow d t := by
  have taken := takeAll_read running reading heard nonempty (by rw [read]; exact sound)
  rw [read, List.length_nil, Nat.sub_zero, List.take_length] at taken
  exact taken

/-- A message that cannot be framed ends the exchange before it ends itself. -/
theorem takeAll_read_error {s : Exchange} (running : s.failed = false)
    (reading : (s.reader d).isReading = true) (heard : listens d = true) {cs : List UInt8}
    (sound : ((s.reader d).current d).flags.error = false)
    (error : (((s.reader d).current d).read cs).1.progress.flags.error = true) :
    (s.takeAll listens d cs).failed = true ∧
      ((s.takeAll listens d cs).reader d).messages = (s.reader d).messages := by
  induction cs generalizing s with
  | nil =>
    rw [Progress.read, sound] at error
    cases error
  | cons c cs ih =>
    generalize ht : ((s.reader d).current d).readByte c = t
    cases framed : t.progress.flags.error with
    | true =>
      have step : s.take listens d c = { s with failed := true } := by
        simp [take, running, heard, reading, ht, framed]
      rw [takeAll_cons, step, takeAll_of_failed rfl]
      exact ⟨rfl, by cases d <;> rfl⟩
    | false =>
      by_cases search : t.verdict = .search
      · rw [Progress.read_cons_search (by rw [ht, search]), ht] at error
        rw [takeAll_cons, take_of_search running reading heard ht search framed]
        generalize hs : ({ s.setReader d ((s.reader d).goOn [c] t.progress) with
          raised := s.raised ++ t.raised } : Exchange) = s₁
        have reader₁ : s₁.reader d = (s.reader d).goOn [c] t.progress := by
          rw [← hs]
          cases d <;> rfl
        have later := ih (s := s₁) (by rw [← hs]; simpa using running) (by rw [reader₁]; rfl)
          (by rw [reader₁]; exact framed) (by rw [reader₁]; exact error)
        rw [reader₁] at later
        exact later
      · rw [Progress.read_cons_decided (by rw [ht]; exact search), ht, framed] at error
        cases error

/-! ### What an exchange keeps -/

theorem sound_setReader {s : Exchange} (h : s.Sound) {r : Reader} (hr : r.Sound) :
    (s.setReader d r).Sound := by
  intro e
  by_cases same : e = d
  · rw [same, reader_setReader_self]
    exact hr
  · rw [Direction.eq_opposite_of_ne same, reader_setReader_opposite]
    exact h d.opposite

theorem sound_follow {s : Exchange} (h : s.Sound) {t : Turn}
    (framed : t.progress.flags.error = false) : (s.follow d t).Sound := by
  have turned : ({ s.setReader d ((s.reader d).follow d t) with
      raised := s.raised ++ t.raised } : Exchange).Sound := by
    have kept := sound_setReader (d := d) h
      (Reader.sound_follow (r := s.reader d) (d := d) framed)
    intro e
    cases e
    · exact kept .toServer
    · exact kept .toClient
  unfold follow
  simp only
  split
  · exact sound_setReader turned (Reader.sound_expectNoBody (turned _))
  · exact turned

theorem sound_take {s : Exchange} (h : s.Sound) (c : UInt8) : (s.take listens d c).Sound := by
  have held : ((s.reader d).hold [c]).Sound := h d
  unfold take
  simp only
  split
  · exact h
  · split
    · exact sound_setReader h ⟨fun _ absent => (by cases absent), fun wrong => (by cases wrong)⟩
    · split
      · split
        · intro e
          cases e
          · exact h .toServer
          · exact h .toClient
        · rename_i framed
          exact sound_follow (sound_setReader h held) (by simpa using framed)
      · split
        · exact sound_setReader h (Reader.sound_await held.1 _)
        · exact sound_setReader h
            ⟨held.1, fun wrong => by simp_all [Reader.hold]⟩
        all_goals exact sound_setReader h held

/-- Every byte is part of a message or comes behind the last one. -/
theorem bytes_take {s : Exchange} {c : UInt8} (running : (s.take listens d c).failed = false) :
    ((s.take listens d c).reader d).bytes = (s.reader d).bytes ++ [c] := by
  have held (r : Reader) : (r.hold [c]).bytes = r.bytes ++ [c] := by
    simp [Reader.bytes, Reader.hold]
  have awaited (r : Reader) (n : Nat) : (r.await n).bytes = r.bytes := by
    unfold Reader.await
    split <;> simp [Reader.bytes]
  have followed (r : Reader) (t : Turn) : (r.follow d t).bytes = r.bytes := by
    unfold Reader.follow
    split
    · rfl
    · exact awaited _ _
    · rfl
    · rfl
  unfold take at running ⊢
  simp only at running ⊢
  split at running
  · rename_i failed
    rw [failed] at running
    cases running
  · rename_i framed
    rw [if_neg framed]
    split
    · rw [reader_setReader_self]
      exact held (s.reader d)
    · split
      · rename_i heard reading
        rw [if_neg heard, if_pos reading] at running
        split
        · rename_i error
          rw [if_pos error] at running
          cases running
        · rw [reader_follow, reader_setReader_self, followed, held]
      · split <;> rw [reader_setReader_self]
        · rw [awaited, held]
        all_goals exact held (s.reader d)

theorem messages_take (s : Exchange) (c : UInt8) :
    (s.reader d).messages <+: ((s.take listens d c).reader d).messages := by
  have awaited (r : Reader) (n : Nat) : r.messages <+: (r.await n).messages := by
    unfold Reader.await
    split
    · exact List.prefix_append _ _
    · exact List.prefix_refl _
  have followed (r : Reader) (t : Turn) : r.messages <+: (r.follow d t).messages := by
    unfold Reader.follow
    split
    · exact List.prefix_refl _
    · exact awaited { r with progress := some (Progress.fresh (d == Direction.toServer)) } _
    · exact List.prefix_refl _
    · exact List.prefix_refl _
  unfold take
  simp only
  split
  · exact List.prefix_refl _
  · split
    · rw [reader_setReader_self]
      exact List.prefix_refl _
    · split
      · split
        · cases d <;> exact List.prefix_refl _
        · rw [reader_follow, reader_setReader_self]
          exact followed ((s.reader d).hold [c]) _
      · split <;> rw [reader_setReader_self]
        · exact awaited ((s.reader d).hold [c]) _
        all_goals exact List.prefix_refl _

theorem messages_takeAll (s : Exchange) (cs : List UInt8) :
    (s.reader d).messages <+: ((s.takeAll listens d cs).reader d).messages := by
  induction cs generalizing s with
  | nil => exact List.prefix_refl _
  | cons c cs ih => exact (messages_take s c).trans (ih (s.take listens d c))

theorem failed_take_of_failed {s : Exchange} {cs : List UInt8}
    (running : (s.takeAll listens d cs).failed = false) : s.failed = false := by
  cases failed : s.failed with
  | false => rfl
  | true =>
    rw [takeAll_of_failed failed, failed] at running
    cases running

theorem bytes_takeAll {s : Exchange} {cs : List UInt8}
    (running : (s.takeAll listens d cs).failed = false) :
    ((s.takeAll listens d cs).reader d).bytes = (s.reader d).bytes ++ cs := by
  induction cs generalizing s with
  | nil => simp
  | cons c cs ih =>
    rw [takeAll_cons] at running ⊢
    rw [ih running, bytes_take (failed_take_of_failed running), List.append_assoc]
    rfl

theorem status_take {s : Exchange} {c : UInt8} (running : (s.take listens d c).failed = false) :
    ((s.take listens d c).reader d).status ≠ .start := by
  have awaited (r : Reader) (n : Nat) : (r.await n).status ≠ .start := by
    unfold Reader.await
    split <;> nofun
  unfold take at running ⊢
  simp only at running ⊢
  split at running
  · rename_i failed
    rw [failed] at running
    cases running
  · rename_i framed
    rw [if_neg framed]
    split at running
    · rename_i deaf
      rw [if_pos deaf, reader_setReader_self]
      nofun
    · rename_i heard
      rw [if_neg heard]
      split at running
      · rename_i reading
        rw [if_pos reading]
        split at running
        · cases running
        · rename_i sound
          rw [if_neg sound, reader_follow]
          unfold Reader.follow
          split
          · nofun
          · exact awaited _ _
          · nofun
          · nofun
      · rename_i passing
        rw [if_neg passing]
        split <;> rename_i status <;> rw [reader_setReader_self]
        · exact awaited _ _
        · simp [Reader.hold, status]
        · rw [Reader.isReading, status] at passing
          exact absurd rfl passing
        · rw [Reader.isReading, status] at passing
          exact absurd rfl passing
        · simp [Reader.hold, status]

theorem status_takeAll {s : Exchange} {cs : List UInt8} (nonempty : cs ≠ [])
    (running : (s.takeAll listens d cs).failed = false) :
    ((s.takeAll listens d cs).reader d).status ≠ .start := by
  obtain ⟨front, c, rfl⟩ : ∃ front c, cs = front ++ [c] :=
    ⟨cs.dropLast, cs.getLast nonempty, (List.dropLast_append_getLast nonempty).symm⟩
  rw [takeAll_append] at running ⊢
  exact status_take running

theorem sound_takeAll {s : Exchange} (h : s.Sound) (cs : List UInt8) :
    (s.takeAll listens d cs).Sound := by
  induction cs generalizing s with
  | nil => exact h
  | cons c cs ih => exact ih (sound_take h c)

end Exchange

end StreamFraming
