import StreamFraming.Proofs.Message.Chunks

/-!
# HEAD requests and their responses

A HEAD request is answered without the body that its response declares. What is remembered of HEAD
requests is one flag: it is set by any of them and taken by the next response. So when all requests
come before the first response, the flag meets the first response, and no other one
(`run_transactions_iff`).
-/

namespace StreamFraming

open Http

namespace Http

/-- A request, with a body that its head declares or with chunks. -/
inductive Request where
  | whole (m : Message .toServer)
  | chunked (m : ChunkedMessage .toServer)

namespace Request

def head : Request → Head .toServer
  | .whole m => m.head
  | .chunked m => m.head

def bytes : Request → List UInt8
  | .whole m => m.bytes
  | .chunked m => m.bytes

def isHead (r : Request) : Bool := r.head.start.isHead

end Request

/-- A request, and the response that a server gives to it. -/
structure Transaction where
  request : Request
  response : Head .toClient
  unchunked : response.isChunked = false
  told : response.declared?.isSome = true
  body : List UInt8
  whole : body.length = response.bodyLength request.isHead

namespace Transaction

def isHead (t : Transaction) : Bool := t.request.isHead

def answer (t : Transaction) : List UInt8 := t.response.bytes ++ t.body

/-- The body of the response is as long as it would be with the flag. -/
def Agrees (t : Transaction) (noBody : Bool) : Prop :=
  t.response.bodyLength t.isHead = t.response.bodyLength noBody

instance (t : Transaction) (noBody : Bool) : Decidable (t.Agrees noBody) :=
  inferInstanceAs (Decidable (t.response.bodyLength t.isHead = t.response.bodyLength noBody))

theorem isFramed (t : Transaction) (noBody : Bool) : t.response.IsFramed noBody :=
  ⟨fun _ => t.told, fun _ => .inr (.inl t.told)⟩

/-- The flag is taken by the first response. -/
def Agreed : Bool → List Transaction → Prop
  | _, [] => True
  | noBody, t :: ts => t.Agrees noBody ∧ Agreed false ts

theorem agreed_iff {noBody : Bool} {ts : List Transaction} :
    Agreed noBody ts ↔
      (∀ t, ts.head? = some t → t.Agrees noBody) ∧ ∀ t ∈ ts.tail, t.Agrees false := by
  have later (ts : List Transaction) : Agreed false ts ↔ ∀ t ∈ ts, t.Agrees false := by
    induction ts with
    | nil => simp [Agreed]
    | cons t ts ih => simp [Agreed, ih]
  cases ts with
  | nil => simp [Agreed]
  | cons t ts => simp [Agreed, later]

end Transaction

end Http

variable {listens : Direction → Bool}

namespace Exchange

theorem Ready.expectNoBody {s s' : Exchange} {noBody e : Bool} (ready : s.Ready .toClient noBody)
    (running : s'.failed = false)
    (reader : s'.reader .toClient =
      if e then (s.reader .toClient).expectNoBody else s.reader .toClient) :
    s'.Ready .toClient (noBody || e) := by
  cases e with
  | false =>
    rw [if_neg (by decide)] at reader
    rw [Bool.or_false]
    refine ⟨running, ?_, ?_, ?_⟩ <;> rw [reader]
    · exact ready.reading
    · exact ready.opening
    · exact ready.unfinished
  | true =>
    rw [if_pos rfl] at reader
    rw [Bool.or_true]
    refine ⟨running, ?_, ?_, ?_⟩ <;> rw [reader]
    · exact ready.reading
    · show ((s.reader .toClient).current .toClient).mark (fun f => { f with noBody := true }) = _
      rw [ready.opening]
      rfl
    · exact ready.unfinished

theorem Ready.takeAll_request {s : Exchange} (server : s.Ready .toServer false)
    (heard : listens .toServer = true) (r : Request) :
    let s' := s.takeAll listens .toServer r.bytes
    s'.Ready .toServer false ∧
      s'.reader .toClient =
        if r.isHead then (s.reader .toClient).expectNoBody else s.reader .toClient := by
  cases r with
  | whole m =>
    obtain ⟨next, -, -, peer⟩ := server.takeAll_message heard m.unchunked m.framed m.whole
    rw [endsHead_decision, Bool.false_or, beq_self_eq_true, Bool.true_and] at peer
    exact ⟨next, peer⟩
  | chunked m =>
    have reached := server.takeAll_chunkedMessage heard m
    have peer := reached.peer
    rw [beq_self_eq_true, Bool.true_and] at peer
    refine ⟨⟨reached.running, ?_, ?_, ?_⟩, peer⟩
    · exact congrArg Reader.isReading reached.reader
    · exact congrArg (Reader.current · .toServer) reached.reader
    · exact congrArg Reader.unfinished reached.reader

/-- Any HEAD request sets the flag. -/
theorem Ready.takeAll_requests {s : Exchange} {noBody : Bool} (server : s.Ready .toServer false)
    (client : s.Ready .toClient noBody) (heard : listens .toServer = true) (rs : List Request) :
    let s' := s.takeAll listens .toServer (rs.flatMap Request.bytes)
    s'.Ready .toClient (noBody || rs.any Request.isHead) ∧
      (s'.reader .toClient).messages = (s.reader .toClient).messages := by
  induction rs generalizing s noBody with
  | nil => simpa using client
  | cons r rs ih =>
    obtain ⟨server', peer⟩ := server.takeAll_request heard r
    have client' := client.expectNoBody server'.running peer
    obtain ⟨last, messages⟩ := ih server' client'
    rw [List.flatMap_cons, takeAll_append, List.any_cons, ← Bool.or_assoc]
    refine ⟨last, messages.trans ?_⟩
    have kept : ((if r.isHead then (s.reader .toClient).expectNoBody
        else s.reader .toClient) : Reader).messages = (s.reader .toClient).messages := by
      split <;> rfl
    exact (congrArg Reader.messages peer).trans kept

theorem Ready.takeAll_answer {s : Exchange} {noBody : Bool} (ready : s.Ready .toClient noBody)
    (heard : listens .toClient = true) {t : Transaction} (agrees : t.Agrees noBody) :
    let s' := s.takeAll listens .toClient t.answer
    s'.Ready .toClient false ∧
      (s'.reader .toClient).messages = (s.reader .toClient).messages ++ [t.answer] := by
  obtain ⟨next, messages, -⟩ := ready.takeAll_message heard t.unchunked (t.isFramed noBody)
    (t.whole.trans agrees)
  exact ⟨next, messages⟩

theorem Ready.takeAll_answers {s : Exchange} {noBody : Bool} (ready : s.Ready .toClient noBody)
    (heard : listens .toClient = true) {ts : List Transaction}
    (agreed : Transaction.Agreed noBody ts) :
    let s' := s.takeAll listens .toClient (ts.flatMap Transaction.answer)
    s'.failed = false ∧
      (s'.reader .toClient).messages =
        (s.reader .toClient).messages ++ ts.map Transaction.answer := by
  induction ts generalizing s noBody with
  | nil => exact ⟨ready.running, (List.append_nil _).symm⟩
  | cons t ts ih =>
    obtain ⟨agrees, later⟩ := agreed
    obtain ⟨next, messages⟩ := ready.takeAll_answer heard agrees
    obtain ⟨running, messages'⟩ := ih next later
    rw [List.flatMap_cons, takeAll_append]
    refine ⟨running, ?_⟩
    rw [messages', messages, List.append_assoc]
    rfl

/-- A body that is looked for at another length is cut in another place, or not at all. -/
theorem Ready.messages_of_disagreed {s : Exchange} {noBody : Bool}
    (ready : s.Ready .toClient noBody) (heard : listens .toClient = true) {ts : List Transaction}
    (disagreed : ¬ Transaction.Agreed noBody ts) {ms : List (List UInt8)}
    (grown : ((s.takeAll listens .toClient (ts.flatMap Transaction.answer)).reader
      .toClient).messages <+: ms)
    (final : (s.takeAll listens .toClient (ts.flatMap Transaction.answer)).failed = false →
      ((s.takeAll listens .toClient (ts.flatMap Transaction.answer)).reader .toClient).messages =
        ms) :
    ms ≠ (s.reader .toClient).messages ++ ts.map Transaction.answer := by
  induction ts generalizing s noBody with
  | nil => exact absurd trivial disagreed
  | cons t ts ih =>
    rw [List.flatMap_cons] at grown final
    by_cases agrees : t.Agrees noBody
    · obtain ⟨next, messages⟩ := ready.takeAll_answer heard agrees
      rw [takeAll_append] at grown final
      have later := ih next (fun agreed => disagreed ⟨agrees, agreed⟩) grown final
      rw [messages, List.append_assoc] at later
      exact later
    · intro same
      have other : t.body.length ≠ t.response.bodyLength noBody := fun equal =>
        agrees (t.whole.symm.trans equal)
      rw [Transaction.answer, List.append_assoc] at grown final
      by_cases short : (t.body ++ ts.flatMap Transaction.answer).length <
          t.response.bodyLength noBody
      · obtain ⟨running, messages⟩ :=
          ready.takeAll_partial heard t.unchunked (t.isFramed noBody) short
        rw [← final running, messages] at same
        have nothing := List.append_right_eq_self.mp same.symm
        cases nothing
      · -- the body that is cut reaches into what follows, or ends before its own end
        have cut := List.take_append_drop (t.response.bodyLength noBody)
          (t.body ++ ts.flatMap Transaction.answer)
        have length : ((t.body ++ ts.flatMap Transaction.answer).take
            (t.response.bodyLength noBody)).length = t.response.bodyLength noBody := by
          rw [List.length_take]
          omega
        obtain ⟨next, messages, -⟩ :=
          ready.takeAll_message heard t.unchunked (t.isFramed noBody) length
        rw [← cut, ← List.append_assoc, takeAll_append] at grown
        have first := (messages_takeAll _ _).trans grown
        rw [messages, same, List.prefix_append_right_inj, List.map_cons, List.cons_prefix_cons,
          Transaction.answer, List.append_cancel_left_eq] at first
        rw [first.1] at length
        exact other length

end Exchange

/-- When all requests come before the responses, the responses are given back as they are exactly
when the flag is right about each: the first one meets it if any request is a HEAD, and the others
never do. -/
theorem run_transactions_iff {α : Type} [Holds α Progress] {e : Engine α Tally}
    (http : e.registry.IsHttp) (port : UInt16) (heard : ∀ d, e.registry.listens port d = true)
    (ts : List Transaction) (requests responses : List (List UInt8))
    (sent : requests.flatten = ts.flatMap fun t => t.request.bytes)
    (sent' : responses.flatten = ts.flatMap Transaction.answer)
    (small : requests.flatten.length < 2 ^ 31) (small' : responses.flatten.length < 2 ^ 31) :
    let r := (Host.openOn e port).run
      (requests.map (fun segment => (Direction.toServer, segment)) ++
        responses.map fun segment => (Direction.toClient, segment))
    r.messages .toClient = ts.map Transaction.answer ↔
      (∀ t, ts.head? = some t → t.Agrees (ts.any Transaction.isHead)) ∧
        ∀ t ∈ ts.tail, t.Agrees false := by
  intro r
  have within : ∀ d, (stream (requests.map (fun segment => (Direction.toServer, segment)) ++
      responses.map fun segment => (Direction.toClient, segment)) d).length < 2 ^ 31 := by
    intro d
    rw [stream_append, stream_same, stream_same]
    cases d
    · simpa using small
    · simpa using small'
  obtain ⟨kept, fails⟩ := Host.run_follows http port within
  -- the requests, and the flag they leave
  have asked : requests.flatten = (ts.map Transaction.request).flatMap Request.bytes := by
    rw [sent, List.flatMap_map]
  obtain ⟨ready, silent⟩ := (Exchange.ready_empty .toServer).takeAll_requests
    (Exchange.ready_empty .toClient) (heard .toServer) (ts.map Transaction.request)
  have flag : (false || (ts.map Transaction.request).any Request.isHead) =
      ts.any Transaction.isHead := by
    rw [Bool.false_or, List.any_map]
    rfl
  rw [flag] at ready
  have taken : ({} : Exchange).run (e.registry.listens port)
      (requests.map (fun segment => (Direction.toServer, segment)) ++
        responses.map fun segment => (Direction.toClient, segment)) = _ :=
    Exchange.run_append _ _ _
  rw [Exchange.run_same, Exchange.run_same, asked, sent'] at taken
  rw [taken] at kept fails
  rw [← Transaction.agreed_iff]
  have nothing : (({} : Exchange).reader .toClient).messages = [] := rfl
  rw [nothing] at silent
  constructor
  · intro same
    by_contra disagreed
    refine ready.messages_of_disagreed (heard .toClient) disagreed ?_ (fun running =>
      ((kept running).messages .toClient).symm) (by rw [silent]; exact same)
    cases failed : (Exchange.takeAll (e.registry.listens port) _ .toClient
        (ts.flatMap Transaction.answer)).failed with
    | false =>
      rw [(kept failed).messages .toClient]
    | true => exact (fails failed).messages .toClient
  · intro agreed
    obtain ⟨running, messages⟩ := ready.takeAll_answers (heard .toClient) agreed
    rw [silent, List.nil_append] at messages
    exact ((kept running).messages .toClient).trans messages

/-- Of the responses to two HEAD requests only the first one is given back as it is. -/
theorem run_transactions_twoHeads :
    let e := Engine.ofRegistry (Registry.httpOn 80)
    let head := "HEAD / HTTP/1.1\r\n\r\n".toUTF8.toList
    let answer := "HTTP/1.1 200 OK\r\nContent-Length: 2\r\n\r\n".toUTF8.toList
    let r := (Host.openOn e 80).run
      ([[head, head].flatten].map (fun segment => (Direction.toServer, segment)) ++
        [[answer, answer].flatten].map fun segment => (Direction.toClient, segment))
    r.messages .toServer = [head, head] ∧ r.messages .toClient ≠ [answer, answer] := by
  intro e head answer r
  have http : e.registry.IsHttp := Registry.isHttp_httpOn 80
  let requestLine : RequestLine :=
    { method := "HEAD".toUTF8.toList, target := "/".toUTF8.toList, rest := "HTTP/1.1".toUTF8.toList
      isBlank_indent := by decide +kernel, isWord_method := by decide +kernel
      isBlank_gap := by decide +kernel, isWord_target := by decide +kernel
      isBlank_gap' := by decide +kernel, plain := by decide +kernel, begins := by decide +kernel }
  let request : Message .toServer :=
    { head := { start := .request requestLine, valid := ⟨by decide +kernel, by decide +kernel⟩ }
      body := []
      unchunked := rfl
      framed := ⟨by decide +kernel, by decide +kernel⟩
      whole := by decide +kernel }
  let statusLine : StatusLine :=
    { minor := 0x31, hundreds := 0x32, tens := 0x30, ones := 0x30, reason := "OK".toUTF8.toList
      isDigit_minor := by decide, isBlank_gap := by decide +kernel, isDigit_hundreds := by decide
      isDigit_tens := by decide, isDigit_ones := by decide, isBlank_blank := by decide
      plain := by decide +kernel }
  let length : HeaderField :=
    { line := ⟨"Content-Length: 2".toUTF8.toList, by decide +kernel, .crlf⟩
      begins := by decide +kernel }
  let t : Transaction :=
    { request := .whole request
      response :=
        { start := .status statusLine, fields := [length]
          valid := ⟨by decide +kernel, by decide +kernel⟩ }
      unchunked := by decide +kernel
      told := by decide +kernel
      body := []
      whole := by decide +kernel }
  have cut := run_transactions_iff http 80 (by intro d; cases d <;> decide +kernel) [t, t]
    [[head, head].flatten] [[answer, answer].flatten] (by decide +kernel) (by decide +kernel)
    (by decide +kernel) (by decide +kernel)
  have answers : [t, t].map Transaction.answer = [answer, answer] := by decide +kernel
  have missed : ¬ ∀ t' ∈ [t, t].tail, t'.Agrees false := by decide +kernel
  rw [answers] at cut
  exact ⟨by decide +kernel, fun same => missed (cut.mp same).2⟩

end StreamFraming
