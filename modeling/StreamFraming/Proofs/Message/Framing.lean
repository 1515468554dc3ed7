import StreamFraming.Proofs.Message.Heads
import StreamFraming.Proofs.Segmentation

/-!
# Messages without chunks

A message is a head and the body that it declares. A direction that is about to begin a message
takes it whole and is about to begin the next one (`Ready.takeAll_message`), so a host that is sent
messages one after the other gives them back as they are, however they are split (`run_messages`).
-/

namespace StreamFraming

open Http

namespace Http

variable {d : Direction}

/-- A head and its body, where nothing but the head tells how long the body is. -/
structure Message (d : Direction) where
  head : Head d
  body : List UInt8
  unchunked : head.isChunked = false
  framed : head.IsFramed false
  whole : body.length = head.bodyLength false

namespace Message

def bytes (m : Message d) : List UInt8 := m.head.bytes ++ m.body

def noted (m : Message d) : List Anomaly := m.head.noted false

end Message

theorem Head.bytes_ne_nil (h : Head d) : h.bytes ≠ [] := by
  intro empty
  have last := (List.append_eq_nil_iff.mp empty).2
  cases ending : h.blank <;> rw [ending] at last <;> cases last

theorem Head.toNat_bodyLength (h : Head d) (noBody : Bool) :
    (h.bodyLength noBody).toUInt32.toNat = h.bodyLength noBody := by
  have small : h.bodyLength noBody < 2 ^ 32 := by
    unfold Head.bodyLength
    split
    · decide
    · cases known : h.declared? with
      | none => decide
      | some n => exact h.valid.declared?_lt known
  exact UInt32.toNat_ofNat_of_lt' small

end Http

variable {listens : Direction → Bool} {d : Direction}

namespace Exchange

/-- A direction is about to begin a message. -/
structure Ready (s : Exchange) (d : Direction) (noBody : Bool) : Prop where
  running : s.failed = false
  reading : (s.reader d).isReading = true
  opening : (s.reader d).current d = Progress.opening d noBody
  unfinished : (s.reader d).unfinished = []

theorem ready_empty (d : Direction) : ({} : Exchange).Ready d false := by
  cases d <;> exact ⟨rfl, rfl, rfl, rfl⟩

theorem takeAll_await {s : Exchange} {r : Reader} {body : List UInt8} (running : s.failed = false)
    (awaits : s.reader d = r.await body.length) :
    s.takeAll listens d body =
      s.setReader d
        { r with
          status := .search
          left := 0
          messages := r.messages ++ [r.unfinished ++ body]
          unfinished := [] } := by
  by_cases empty : body = []
  · subst empty
    rw [takeAll_nil, List.append_nil]
    rw [List.length_nil, Reader.await, if_pos rfl] at awaits
    rw [← awaits, setReader_reader]
  · have positive : body.length ≠ 0 := fun zero => empty (List.eq_nil_of_length_eq_zero zero)
    rw [Reader.await, if_neg positive] at awaits
    rw [takeAll_flush listens running (by rw [awaits]) (by rw [awaits]; simp only; omega) body
      (by rw [awaits]), awaits]
    simp only [Nat.sub_self, Reader.await, if_true, Reader.hold]

theorem endsHead_decision (h : Head d) (noBody : Bool) :
    (h.decision noBody).endsHead = (d == .toServer && (noBody || h.start.isHead)) := by
  have told := h.told_progress noBody
  have flags : (h.decision noBody).progress.flags = (h.progress noBody).flags := rfl
  unfold Turn.endsHead
  rw [flags, told.head]
  cases d with
  | toServer => simp [Head.decision]
  | toClient => simp

theorem Ready.takeAll_head {s : Exchange} {noBody : Bool} (ready : s.Ready d noBody)
    (heard : listens d = true) {h : Head d} (unchunked : h.isChunked = false)
    (framed : h.IsFramed noBody) :
    let s' := s.takeAll listens d h.bytes
    s'.failed = false ∧
      s'.reader d =
        ({ (s.reader d).hold h.bytes with
          progress := some (Progress.fresh (d == .toServer)) } : Reader).await
            (h.bodyLength noBody) ∧
      s'.raised = s.raised ++ h.noted noBody ∧
      s'.reader d.opposite =
        if (h.decision noBody).endsHead then (s.reader d.opposite).expectNoBody
        else s.reader d.opposite := by
  intro s'
  have read : ((s.reader d).current d).read h.bytes = (h.decision noBody, []) := by
    have decided := Head.read_head unchunked framed []
    rw [List.append_nil] at decided
    rw [ready.opening, decided]
  have taken : s' = _ := takeAll_reading ready.running ready.reading heard h.bytes_ne_nil read
    (h.told_progress noBody).error
  refine ⟨?_, ?_, ?_, ?_⟩
  · rw [taken, failed_follow, failed_setReader, ready.running]
  · rw [taken, reader_follow, reader_setReader_self, ← h.toNat_bodyLength noBody]
    rfl
  · rw [taken, raised_follow, raised_setReader]
    rfl
  · rw [taken, opposite_reader_follow, reader_setReader_opposite]

theorem Ready.takeAll_message {s : Exchange} {noBody : Bool} (ready : s.Ready d noBody)
    (heard : listens d = true) {h : Head d} {body : List UInt8} (unchunked : h.isChunked = false)
    (framed : h.IsFramed noBody) (whole : body.length = h.bodyLength noBody) :
    let s' := s.takeAll listens d (h.bytes ++ body)
    s'.Ready d false ∧
      (s'.reader d).messages = (s.reader d).messages ++ [h.bytes ++ body] ∧
      s'.raised = s.raised ++ h.noted noBody ∧
      s'.reader d.opposite =
        if (h.decision noBody).endsHead then (s.reader d.opposite).expectNoBody
        else s.reader d.opposite := by
  intro s'
  obtain ⟨running, awaits, raised, opposite⟩ := ready.takeAll_head heard unchunked framed
  rw [← whole] at awaits
  have taken : s' = (s.takeAll listens d h.bytes).setReader d
      { status := .search
        progress := some (Progress.fresh (d == .toServer))
        messages := (s.reader d).messages ++ [h.bytes ++ body] } := by
    show s.takeAll listens d (h.bytes ++ body) = _
    rw [takeAll_append, takeAll_await running awaits]
    simp only [Reader.hold, ready.unfinished, List.nil_append]
  refine ⟨⟨?_, ?_, ?_, ?_⟩, ?_, ?_, ?_⟩
  · rw [taken, failed_setReader, running]
  · rw [taken, reader_setReader_self]
    rfl
  · rw [taken, reader_setReader_self]
    cases d <;> rfl
  · rw [taken, reader_setReader_self]
  · rw [taken, reader_setReader_self]
  · rw [taken, raised_setReader, raised]
  · rw [taken, reader_setReader_opposite, opposite]

theorem Ready.takeAll_partial {s : Exchange} {noBody : Bool} (ready : s.Ready d noBody)
    (heard : listens d = true) {h : Head d} {cs : List UInt8} (unchunked : h.isChunked = false)
    (framed : h.IsFramed noBody) (short : cs.length < h.bodyLength noBody) :
    let s' := s.takeAll listens d (h.bytes ++ cs)
    s'.failed = false ∧ (s'.reader d).messages = (s.reader d).messages := by
  intro s'
  obtain ⟨running, awaits, -⟩ := ready.takeAll_head heard unchunked framed
  rw [Reader.await, if_neg (by omega)] at awaits
  have taken : s' = _ := takeAll_append s h.bytes cs
  rw [takeAll_flush listens running (by rw [awaits]) (by rw [awaits]; simp only; omega) cs
    (by rw [awaits]; simp only; omega), awaits, Reader.await, if_neg (by simp only; omega)]
    at taken
  rw [taken, failed_setReader, reader_setReader_self]
  exact ⟨running, rfl⟩

/-- Messages one after the other. -/
theorem Ready.takeAll_messages {s : Exchange} (ready : s.Ready d false) (heard : listens d = true)
    (ms : List (Message d)) :
    let s' := s.takeAll listens d (ms.flatMap Message.bytes)
    s'.Ready d false ∧ (s'.reader d).messages = (s.reader d).messages ++ ms.map Message.bytes ∧
      s'.raised = s.raised ++ ms.flatMap Message.noted := by
  induction ms generalizing s with
  | nil => simpa using ready
  | cons m ms ih =>
    obtain ⟨next, messages, raised, -⟩ :=
      ready.takeAll_message heard m.unchunked m.framed m.whole
    obtain ⟨last, messages', raised'⟩ := ih next
    rw [List.flatMap_cons, takeAll_append, Message.bytes]
    refine ⟨last, ?_, ?_⟩
    · rw [messages', messages, List.append_assoc]
      rfl
    · rw [raised', raised, List.append_assoc]
      rfl

end Exchange

/-- What a host gives back of the messages that it was sent one after the other. -/
theorem run_messages {α : Type} [Holds α Progress] {e : Engine α Tally}
    (http : e.registry.IsHttp) (port : UInt16) (heard : e.registry.listens port d = true)
    (ms : List (Message d)) (segments : List (List UInt8))
    (sent : segments.flatten = ms.flatMap Message.bytes)
    (small : (ms.flatMap Message.bytes).length < 2 ^ 31) :
    let r := (Host.openOn e port).run (segments.map fun segment => (d, segment))
    r.messages d = ms.map Message.bytes ∧ (r.host.queue d).bytes = [] ∧ r.unfinished d = [] ∧
      r.host.session.raised = ms.flatMap Message.noted := by
  intro r
  obtain ⟨last, messages, raised⟩ := (Exchange.ready_empty d).takeAll_messages heard ms
  have taken := Exchange.run_same (e.registry.listens port) {} d segments
  rw [sent] at taken
  rw [← sent] at small
  obtain ⟨kept, -⟩ := Host.run_follows http port (stream_same_lt d small)
  rw [taken] at kept
  have follows := kept last.running
  have unfinished : r.unfinished d = [] := (follows.unfinished d).trans last.unfinished
  refine ⟨?_, (List.append_eq_nil_iff.mp unfinished).2, unfinished, ?_⟩
  · rw [follows.messages d, messages]
    cases d <;> rfl
  · rw [follows.host.raised, raised]
    rfl

/-- Two responses in three segments, under a bound of seven bytes. A field of the first one is
folded, and the second one has no length. -/
theorem run_messages_responses :
    let e := (Engine.ofRegistry (Registry.httpOn 80)).withBound 7
    let first := "HTTP/1.1 200 OK\r\nContent-Length:\r\n\t2\r\n\r\nhi".toUTF8.toList
    let second := "HTTP/1.1 200 OK\n\n".toUTF8.toList
    let whole := first ++ second
    let segments := [whole.take 20, (whole.drop 20).take 25, whole.drop 45]
    let r := (Host.openOn e 80).run (segments.map fun segment => (.toClient, segment))
    segments.flatten.length < 2 ^ 31 ∧ r.messages .toClient = [first, second] ∧
      r.host.session.raised = [.messageSize "response without length"] := by
  intro e first second whole segments r
  have http : e.registry.IsHttp := (Registry.isHttp_httpOn 80).withBound 7
  let length : HeaderField :=
    { line := ⟨"Content-Length:".toUTF8.toList, by decide +kernel, .crlf⟩
      begins := by decide +kernel
      folds := [⟨tab, by decide, ⟨"2".toUTF8.toList, by decide +kernel, .crlf⟩⟩] }
  let line : StatusLine :=
    { minor := 0x31, hundreds := 0x32, tens := 0x30, ones := 0x30, reason := "OK".toUTF8.toList
      isDigit_minor := by decide, isBlank_gap := by decide +kernel, isDigit_hundreds := by decide
      isDigit_tens := by decide, isDigit_ones := by decide, isBlank_blank := by decide
      plain := by decide +kernel }
  let one : Message .toClient :=
    { head :=
        { start := .status line, fields := [length]
          valid := ⟨by decide +kernel, by decide +kernel⟩ }
      body := "hi".toUTF8.toList
      unchunked := by decide +kernel
      framed := ⟨by decide +kernel, by decide +kernel⟩
      whole := by decide +kernel }
  let two : Message .toClient :=
    { head :=
        { start := .status line, ending := .lf, blank := .lf, valid := ⟨by decide, by decide⟩ }
      body := []
      unchunked := rfl
      framed := ⟨by decide +kernel, by decide +kernel⟩
      whole := by decide +kernel }
  have sent : segments.flatten = [one, two].flatMap Message.bytes := by decide +kernel
  have small : ([one, two].flatMap Message.bytes).length < 2 ^ 31 := by decide +kernel
  obtain ⟨messages, -, -, raised⟩ :=
    run_messages http 80 (by decide +kernel) [one, two] segments sent small
  refine ⟨by rw [sent]; exact small, messages.trans ?_, raised.trans ?_⟩
  · decide +kernel
  · decide +kernel

end StreamFraming
