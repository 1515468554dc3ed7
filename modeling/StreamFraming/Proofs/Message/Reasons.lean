import StreamFraming.Proofs.Message.Chunks
import StreamFraming.Proofs.Message.EmptyLines

/-!
# Status lines without a reason

A status is read up to the blank behind it. Where the status line ends with the status, that blank
is looked for in the header fields, and the fields up to the first one with a blank are lost
(`leads_lost`). The message is framed by the fields behind that one, so it is framed like the same
message with a reason if no lost field makes a difference (`scan_bare`).
-/

namespace StreamFraming.Http

/-- A blank is somewhere in the unfolded text. -/
def HeaderField.hasBlank (f : HeaderField) : Bool := f.text.any isBlank

/-- The fields up to the first one with a blank. -/
def lost : List HeaderField → List HeaderField
  | [] => []
  | f :: fs => if f.hasBlank then [f] else f :: lost fs

/-- The fields behind the first one with a blank. -/
def heard : List HeaderField → List HeaderField
  | [] => []
  | f :: fs => if f.hasBlank then fs else heard fs

theorem lost_append_heard (fs : List HeaderField) : lost fs ++ heard fs = fs := by
  induction fs with
  | nil => rfl
  | cons f fs ih =>
    unfold lost heard
    split
    · rfl
    · rw [List.cons_append, ih]

theorem heard_eq_nil {fs : List HeaderField} (solid : fs.any HeaderField.hasBlank = false) :
    heard fs = [] := by
  induction fs with
  | nil => rfl
  | cons f fs ih =>
    rw [List.any_cons, Bool.or_eq_false_iff] at solid
    rw [heard, solid.1, if_neg Bool.false_ne_true, ih solid.2]

theorem ValidFields.heard {fs : List HeaderField} (valid : ValidFields fs) :
    ValidFields (heard fs) := by
  have split := congrArg (List.filterMap HeaderField.contentLength?) (lost_append_heard fs)
  rw [List.filterMap_append] at split
  constructor
  · have single := valid.single
    rw [← split, List.length_append] at single
    omega
  · intro v hv
    apply valid.length v
    rw [← split]
    exact List.mem_append_right _ hv

/-- Of the length that fields declare the fields that are heard declare all or nothing. -/
theorem ValidFields.declared?_heard {fs : List HeaderField} (valid : ValidFields fs) :
    declared? (Http.heard fs) = none ∨ declared? (Http.heard fs) = declared? fs := by
  have split := congrArg (List.filterMap HeaderField.contentLength?) (lost_append_heard fs)
  rw [List.filterMap_append] at split
  have single := valid.single
  rw [← split, List.length_append] at single
  cases known : (Http.heard fs).filterMap HeaderField.contentLength? with
  | nil => exact .inl (by rw [declared?, known]; rfl)
  | cons v vs =>
    rw [known, List.length_cons] at single
    have undeclared : (lost fs).filterMap HeaderField.contentLength? = [] :=
      List.eq_nil_of_length_eq_zero (by omega)
    rw [undeclared, List.nil_append] at split
    exact .inr (by rw [declared?, declared?, split])

theorem isChunked_of_heard {fs : List HeaderField}
    (chunked : (heard fs).any HeaderField.isChunked = true) :
    fs.any HeaderField.isChunked = true := by
  rw [← lost_append_heard fs, List.any_append, chunked, Bool.or_true]

namespace Progress

open Token

variable {p q : Progress} {u : List UInt8} {f : HeaderField}

/-- The place where a status is read up to the blank behind it. -/
def statusEnd : Position := ⟨.statusLine, 17⟩

theorem passes_solidField (q : Progress) (solid : f.hasBlank = false) :
    Passes (q.moveTo statusEnd) (f.text ++ [lineFeed]) (q.moveTo statusEnd) := by
  refine passes_stay q fun c hc => ?_
  have inside : isBlank c = false := by
    rcases List.mem_append.mp hc with text | ending
    · exact List.any_eq_false.mp solid c text |> Bool.eq_false_iff.mpr
    · cases List.mem_singleton.mp ending
      rfl
  rw [statusEnd, step_status, inside, if_neg Bool.false_ne_true]

theorem passes_blankField (response : q.flags.response = true) (blank : f.hasBlank = true) :
    Passes (q.moveTo statusEnd) (f.text ++ [lineFeed]) (q.moveTo .fieldStart) := by
  obtain ⟨b, found⟩ :=
    Option.isSome_iff_exists.mp (List.find?_isSome.mpr (List.any_eq_true.mp blank))
  obtain ⟨stop, before, behind, whole, solid⟩ := List.find?_eq_some_iff_append.mp found
  have inside : lineFeed ∉ behind := by
    intro found
    refine (f.isLineText_text lineFeed ?_).2 rfl
    rw [whole]
    exact List.mem_append_right _ (List.mem_cons_of_mem b found)
  have stay : Passes (q.moveTo statusEnd) before (q.moveTo statusEnd) :=
    passes_stay q fun c hc => by
      rw [statusEnd, step_status, if_neg (by simpa using solid c hc)]
  have step : table.step statusEnd b = (.skipLine, .response) := by
    rw [statusEnd, step_status, if_pos stop]
  have told : (q.mark fun f => { f with response := true }) = q := by
    simp only [mark, ← response]
  have skip := stepToken_mark q step fun _ _ => rfl
  rw [told] at skip
  rw [whole, List.append_assoc, List.cons_append]
  exact passes_append stay ⟨_, skip, passes_notes q (notesLine_skipLine inside).notes⟩

/-- Where fields lead from the end of a status. -/
def behindFields (fs : List HeaderField) : Position :=
  if fs.any HeaderField.hasBlank then .fieldStart else statusEnd

/-- Fields are lost up to the first one with a blank. -/
theorem leads_lost (response : q.flags.response = true) (fs : List HeaderField)
    (before : Leads p u [] (q.moveTo statusEnd)) :
    Leads p (u ++ (lost fs).flatMap HeaderField.bytes) [] (q.moveTo (behindFields fs)) := by
  induction fs generalizing u with
  | nil => simpa [lost, behindFields] using before
  | cons f fs ih =>
    cases blank : f.hasBlank with
    | true =>
      have line := leads_field before (passes_blankField response blank).tells
      simpa [lost, behindFields, blank] using line
    | false =>
      have later := ih (leads_field before (passes_solidField q blank).tells)
      simpa [lost, behindFields, blank] using later

/-- A head without chunks that has nothing wrong about it. -/
structure Closes (f : Flags) : Prop where
  unchunked : f.chunked = false
  framed : f.error = false
  words : f.simple = false
  bounded : f.post = false

theorem closes_started (l : StatusLine) : Closes (started (.status l) false).flags := by
  simp only [started, mark, StartLine.mark, StatusLine.mark]
  split <;> exact ⟨rfl, rfl, rfl, rfl⟩

theorem response_started (l : StatusLine) : (started (.status l) false).flags.response = true := by
  simp only [started, mark, StartLine.mark, StatusLine.mark]
  split <;> rfl

theorem leads_bare {l : StatusLine} (known : l.isKnown = true) (ending : LineEnd) :
    Leads response (l.bare ++ ending.bytes) []
      ((started (.status l) false).moveTo statusEnd) := by
  have plain := l.isLineText_text
  rw [l.text_eq] at plain
  have marks : response.mark (markStatus l) = response.mark l.mark := by
    simp only [mark, markStatus, markVersion, StatusLine.mark, known, if_true]
    rfl
  have stays : table.step statusEnd lineFeed = (statusEnd, .nop) := by
    rw [statusEnd, step_status]
    rfl
  have passes := passes_bare response known
  rw [marks] at passes
  exact leads_firstLine passes (isLineText_append.mp plain).1 rfl rfl rfl
    (closes_started l).words stays stays ending

theorem Closes.ends (h : Closes p.flags) :
    (p.endHeaders.verdict = .flush ∨ p.endHeaders.verdict = .abort) ∧
      p.endHeaders.progress.flags.error = false := by
  have framed := h.framed
  rw [endHeaders_eq h.framed h.words (by rw [h.bounded]; rfl), h.unchunked,
    if_neg Bool.false_ne_true]
  split_ifs <;> simp [framed]

theorem Closes.decides (h : Closes p.flags) : p.endHeaders.verdict ≠ .search := by
  rcases h.ends.1 with flush | abort
  · rw [flush]
    nofun
  · rw [abort]
    nofun

theorem endHeaders_moveTo (unchunked : p.flags.chunked = false) (x : Position) :
    (p.moveTo x).endHeaders =
      { p.endHeaders with progress := p.endHeaders.progress.moveTo x } := by
  unfold endHeaders moveTo startChunks mark
  simp only
  split_ifs <;> simp_all

/-- What the end of a head without chunks decides depends on no place. -/
theorem Closes.alike (h : Closes p.flags) (x : Position) :
    p.endHeaders.Alike (p.moveTo x).endHeaders := by
  obtain ⟨decided, framed⟩ := h.ends
  rw [endHeaders_moveTo h.unchunked x]
  refine ⟨rfl, rfl, rfl, rfl, rfl, ?_⟩
  rintro (search | skip | error)
  · exact absurd search h.decides
  · rw [skip] at decided
    simp at decided
  · rw [framed] at error
    cases error

/-- A response is read without its reason as it is read with one and without the lost fields. -/
theorem read_bare {l : StatusLine} (known : l.isKnown = true) (ending : LineEnd)
    (fs : List HeaderField) (blank : LineEnd) (body : List UInt8) :
    let late := response.read (l.text ++ ending.bytes ++
      ((heard fs).flatMap HeaderField.bytes ++ blank.bytes ++ body))
    let bare := response.read (l.bare ++ ending.bytes ++
      (fs.flatMap HeaderField.bytes ++ blank.bytes ++ body))
    late.1.Alike bare.1 ∧ bare.2 = late.2 := by
  intro late bare
  have line := leads_statusLine l ending
  have lines := leads_lost (response_started l) fs (leads_bare known ending)
  have split : l.bare ++ ending.bytes ++ (fs.flatMap HeaderField.bytes ++ blank.bytes ++ body) =
      l.bare ++ ending.bytes ++ (lost fs).flatMap HeaderField.bytes ++
        ((heard fs).flatMap HeaderField.bytes ++ blank.bytes ++ body) := by
    conv => lhs; rw [← lost_append_heard fs]
    simp only [List.flatMap_append, List.append_assoc]
  cases found : fs.any HeaderField.hasBlank with
  | true =>
    rw [behindFields, if_pos found] at lines
    have same : bare = late := by
      simp only [bare, split]
      exact lines.read_congr line (heard fs) blank body
    rw [same]
    exact ⟨.refl _, rfl⟩
  | false =>
    -- no field has a blank, so all of them are lost, and the head closes where a status ends
    rw [behindFields, found, if_neg Bool.false_ne_true] at lines
    have closes := closes_started l
    let start := (started (.status l) false).moveTo .fieldStart
    have first := read_blankLine line blank (Closes.decides (p := start) closes) body
    have second := read_blankLine lines blank
      (Closes.decides (p := start.moveTo statusEnd) closes) body
    have early : late = (start.endHeaders, body) := by
      simp only [late, heard_eq_nil found]
      simpa using first
    have later : bare = ((start.moveTo statusEnd).endHeaders, body) := by
      simp only [bare, split, heard_eq_nil found]
      rw [List.flatMap_nil, List.nil_append, ← List.append_assoc]
      exact second
    rw [early, later]
    exact ⟨Closes.alike (p := start) closes statusEnd, rfl⟩

end Progress

/-! ### What lost fields change -/

namespace Head

open Progress

variable {h h' : Head .toClient}

/-- What the end of the head of a response decides. -/
theorem endHeaders_response (h : Head .toClient) (noBody : Bool) :
    (h.progress noBody).endHeaders =
      if h.start.lacksBody noBody then
        { progress := { h.progress noBody with length := 0 }, verdict := .flush }
      else if h.isChunked then { progress := (h.progress noBody).startChunks }
      else if h.declared?.isSome then { progress := h.progress noBody, verdict := .flush }
      else if h.start.isResponse11 then
        { progress := { h.progress noBody with length := 0 }, verdict := .flush,
          raised := [.messageSize "response without length"] }
      else { progress := h.progress noBody, verdict := .abort } := by
  have told := h.told_progress noBody
  have noPost : h.start.isPost = false := by
    cases h.start
    rfl
  rw [told.endHeaders_eq (fun post => absurd (noPost.symm.trans post) Bool.false_ne_true),
    told.chunked, told.hasLength]
  rfl

theorem read_closed (closed : h.start.lacksBody false = true ∨ h.isChunked = false)
    (body : List UInt8) :
    response.read (h.bytes ++ body) = ((h.progress false).endHeaders, body) := by
  refine read_blankLine (leads_head h false) h.blank ?_ body
  rw [endHeaders_response]
  split_ifs <;> first | exact Verdict.noConfusion | simp_all

theorem read_chunked (bodied : h.start.lacksBody false = false) (chunked : h.isChunked = true)
    (body : List UInt8) :
    response.read (h.bytes ++ body) =
      (readSize 0 body).reading (h.progress false).startChunks := by
  have quiet := quiet_chunkedHead chunked bodied
  exact (quiet.read_append body).trans ((inChunks_startChunks bodied).amid.read_size 0 body)

/-- The second head is the first one with fields left out. -/
structure Loses (h h' : Head .toClient) : Prop where
  start : h'.start = h.start
  chunked : h'.isChunked = true → h.isChunked = true
  declared : h'.declared? = none ∨ h'.declared? = h.declared?

/-- What is left out makes no difference in front of a body. A length makes none where there are
chunks, once a size has been read. -/
def SameFraming (h h' : Head .toClient) (body : List UInt8) : Prop :=
  h.start.lacksBody false = true ∨ h'.isChunked = h.isChunked ∧
    (h'.declared? = h.declared? ∨
      h.isChunked = true ∧ (response.read (h.bytes ++ body)).1.verdict = .skip)

theorem progress_congr (start : h'.start = h.start) (chunked : h'.isChunked = h.isChunked)
    (declared : h'.declared? = h.declared?) (noBody : Bool) :
    h'.progress noBody = h.progress noBody := by
  rw [progress, progress, start, chunked, declared]

/-- Where chunks begin a length makes no difference but for the note of it. -/
theorem mark_startChunks (start : h'.start = h.start) (chunked : h'.isChunked = h.isChunked)
    (noBody : Bool) :
    ((h'.progress noBody).startChunks.mark fun f => { f with hasLength := true }) =
      (h.progress noBody).startChunks.mark fun f => { f with hasLength := true } := by
  simp only [progress, startChunks, mark, start, chunked]

theorem ended_congr {p p' : Progress}
    (same : (p'.mark fun f => { f with hasLength := true }) =
      p.mark fun f => { f with hasLength := true }) (n : UInt32) (rest : List UInt8) :
    (SizeOutcome.ended n rest).reading p' = (SizeOutcome.ended n rest).reading p := by
  have sized : (({ p' with length := n }.moveTo ⟨.chunkDataEol, 0⟩).mark fun f =>
        { f with hasLength := true }) =
      ({ p with length := n }.moveTo ⟨.chunkDataEol, 0⟩).mark fun f =>
        { f with hasLength := true } :=
    congrArg (fun p : Progress => { p with length := n }.moveTo ⟨.chunkDataEol, 0⟩) same
  simp only [SizeOutcome.reading, note, sized]

theorem Loses.alike (loses : h.Loses h') {body : List UInt8} (same : h.SameFraming h' body) :
    (response.read (h.bytes ++ body)).1.Alike (response.read (h'.bytes ++ body)).1 ∧
      (response.read (h'.bytes ++ body)).2 = (response.read (h.bytes ++ body)).2 := by
  have equal (reads : response.read (h'.bytes ++ body) = response.read (h.bytes ++ body)) :
      (response.read (h.bytes ++ body)).1.Alike (response.read (h'.bytes ++ body)).1 ∧
        (response.read (h'.bytes ++ body)).2 = (response.read (h.bytes ++ body)).2 := by
    rw [reads]
    exact ⟨.refl _, rfl⟩
  by_cases lacks : h.start.lacksBody false = true
  · have lacks' : h'.start.lacksBody false = true := by rw [loses.start, lacks]
    have told := h.told_progress false
    have told' := h'.told_progress false
    rw [read_closed (.inl lacks), read_closed (.inl lacks'), endHeaders_response,
      endHeaders_response, if_pos lacks, if_pos lacks']
    refine ⟨⟨rfl, rfl, told'.error.trans told.error.symm, rfl, ?_, ?_⟩, rfl⟩
    · show ((h'.progress false).flags.noBody && (h'.progress false).flags.request) =
        ((h.progress false).flags.noBody && (h.progress false).flags.request)
      rw [told.request, told'.request]
      exact (Bool.and_false _).trans (Bool.and_false _).symm
    · simp [told.error]
  obtain ⟨chunked, rest⟩ := same.resolve_left lacks
  have bodied := Bool.eq_false_iff.mpr lacks
  have bodied' : h'.start.lacksBody false = false := by rw [loses.start, bodied]
  cases chunks : h.isChunked with
  | false =>
    have declared : h'.declared? = h.declared? := by simpa [chunks] using rest
    apply equal
    rw [read_closed (.inr chunks), read_closed (.inr (chunked.trans chunks)),
      progress_congr loses.start chunked declared]
  | true =>
    have read := read_chunked bodied chunks body
    have read' := read_chunked bodied' (chunked.trans chunks) body
    rcases rest with declared | ⟨-, skip⟩
    · apply equal
      rw [read, read', progress_congr loses.start chunked declared]
    · apply equal
      rw [read] at skip
      rw [read, read']
      cases size : readSize 0 body with
      | unfinished n =>
        rw [size] at skip
        cases skip
      | invalid n rest =>
        rw [size] at skip
        cases skip
      | ended n rest => exact ended_congr (mark_startChunks loses.start chunked false) n rest

/-- What is left out makes a difference in what is told of the message. -/
theorem Loses.sameFraming (loses : h.Loses h') {body : List UInt8}
    (verdict : (response.read (h'.bytes ++ body)).1.verdict =
      (response.read (h.bytes ++ body)).1.verdict)
    (raised : (response.read (h'.bytes ++ body)).1.raised =
      (response.read (h.bytes ++ body)).1.raised)
    (kept : (response.read (h.bytes ++ body)).1.verdict = .search ∨
      (response.read (h.bytes ++ body)).1.progress.flags.error = true →
      (response.read (h'.bytes ++ body)).1.progress =
        (response.read (h.bytes ++ body)).1.progress) :
    h.SameFraming h' body := by
  refine or_iff_not_imp_left.mpr fun lacks => ?_
  have bodied := Bool.eq_false_iff.mpr lacks
  have bodied' : h'.start.lacksBody false = false := by rw [loses.start, bodied]
  cases chunks : h.isChunked with
  | false =>
    have chunks' : h'.isChunked = false := by
      rw [Bool.eq_false_iff]
      intro chunked
      rw [loses.chunked chunked] at chunks
      cases chunks
    refine ⟨chunks', .inl ?_⟩
    rw [read_closed (.inr chunks), read_closed (.inr chunks'), endHeaders_response,
      endHeaders_response] at verdict raised
    rcases loses.declared with undeclared | same
    · cases known : h.declared? with
      | none => exact undeclared
      | some n =>
        cases latest : h'.start.isResponse11 <;>
          simp [bodied, bodied', chunks, chunks', known, undeclared, latest] at verdict raised
    · exact same
  | true =>
    rw [read_chunked bodied chunks] at verdict raised kept ⊢
    cases chunks' : h'.isChunked with
    | false =>
      rw [read_closed (.inr chunks'), endHeaders_response] at verdict raised
      cases size : readSize 0 body <;> cases known : h'.declared? <;>
        cases latest : h'.start.isResponse11 <;>
          simp [size, SizeOutcome.reading, verdict_size, bodied', chunks', known, latest,
            Anomaly.messageSize] at verdict raised
    | true =>
      refine ⟨rfl, ?_⟩
      rw [read_chunked bodied' chunks'] at kept
      rcases loses.declared with undeclared | same
      · cases known : h.declared? with
        | none => exact .inl undeclared
        | some n =>
          -- the note of a length is in what is kept of a size that has not been read
          have noted (kept : (h'.progress false).flags.hasLength =
              (h.progress false).flags.hasLength) : False := by
            rw [(h.told_progress false).hasLength, (h'.told_progress false).hasLength, known,
              undeclared] at kept
            cases kept
          cases size : readSize 0 body with
          | unfinished m =>
            rw [size] at kept
            exact (noted (congrArg (fun p => p.flags.hasLength) (kept (.inl rfl)))).elim
          | invalid m rest =>
            rw [size] at kept
            exact (noted (congrArg (fun p => p.flags.hasLength) (kept (.inr rfl)))).elim
          | ended m rest => exact .inr ⟨rfl, rfl⟩
      · exact .inl same

/-- A head is scanned like a window that is read like the head with fields left out just if these
make no difference. -/
theorem Loses.scan_iff (loses : h.Loses h') {body window : List UInt8} {n : Nat}
    (alike : (response.read (h'.bytes ++ body)).1.Alike (response.read window).1)
    (rest : (response.read window).2 = (response.read (h'.bytes ++ body)).2)
    (longer : (h.bytes ++ body).length = window.length + n)
    (small : (response.scan false (h.bytes ++ body)).consumed < 2 ^ 32) :
    response.scan false (h.bytes ++ body) = (response.scan false window).delayed n ↔
      h.SameFraming h' body := by
  constructor
  · intro same
    have verdict := congrArg Scan.verdict same
    have raised := congrArg Scan.raised same
    have progress := congrArg Scan.progress same
    have error := congrArg (fun p => p.flags.error) progress
    simp only [Scan.delayed, scan_verdict, scan_raised, scan_error] at verdict raised progress error
    refine loses.sameFraming (alike.verdict.symm.trans verdict.symm)
      (alike.raised.symm.trans raised.symm) fun kept => ?_
    have kept' := kept
    rw [verdict, error] at kept'
    have told := alike.kept (by rw [← alike.verdict, ← alike.error]; exact kept'.imp_right .inr)
    rw [← told, ← scan_progress _ false _ kept', ← scan_progress _ false _ kept]
    exact progress.symm
  · intro same
    obtain ⟨alike', rest'⟩ := loses.alike same
    have scans := scan_alike (n := 0) (m := n) false (alike'.trans alike) (rest.trans rest') longer
      small
    rwa [Scan.delayed_zero] at scans

end Head

theorem loses_heard {l : StatusLine} {ending blank : LineEnd} {fs : List HeaderField}
    (valid : ValidFields fs) :
    Head.Loses { start := .status l, ending, fields := fs, valid, blank }
      { start := .status l, ending, fields := heard fs, valid := valid.heard, blank } :=
  ⟨rfl, isChunked_of_heard, valid.declared?_heard⟩

namespace Progress

/-- A response without a reason is scanned like one with a reason and without the lost fields. It is
scanned like the same response with a reason just if it has no body, or if the fields that are heard
tell as much of chunks and of the length as all of them. A lost length is made up for by the first
size of a chunk. -/
theorem scan_bare {l : StatusLine} (known : l.isKnown = true) (ending : LineEnd)
    (fs : List HeaderField) (blank : LineEnd) (body : List UInt8) :
    let behind (fs : List HeaderField) :=
      ending.bytes ++ fs.flatMap HeaderField.bytes ++ blank.bytes ++ body
    let full := response.scan false (l.text ++ behind fs)
    let bare := response.scan false (l.bare ++ behind fs)
    let late := response.scan false (l.text ++ behind (heard fs))
    let reason := (l.blank :: l.reason).length
    let gone := ((lost fs).flatMap HeaderField.bytes).length
    (late.consumed + gone < 2 ^ 32 → bare.delayed reason = late.delayed gone) ∧
    (ValidFields fs → full.consumed < 2 ^ 32 →
      (full = bare.delayed reason ↔
        l.isBodiless = true ∨
          (heard fs).any HeaderField.isChunked = fs.any HeaderField.isChunked ∧
            (declared? (heard fs) = declared? fs ∨
              fs.any HeaderField.isChunked = true ∧ full.verdict = .skip))) := by
  intro behind full bare late reason gone
  have read := read_bare known ending fs blank body
  have split (u : List UInt8) (fs : List HeaderField) : u ++ ending.bytes ++
      (fs.flatMap HeaderField.bytes ++ blank.bytes ++ body) = u ++ behind fs := by
    simp only [behind, List.append_assoc]
  simp only [split] at read
  obtain ⟨alike, rest⟩ := read
  have bytes := congrArg (fun fs => (fs.flatMap HeaderField.bytes).length) (lost_append_heard fs)
  simp only [List.flatMap_append, List.length_append] at bytes
  constructor
  · intro small
    refine (scan_alike false alike rest ?_ small).symm
    simp only [behind, List.length_append, gone, reason, l.text_eq]
    omega
  · intro valid small
    let h : Head .toClient := { start := .status l, ending, fields := fs, valid, blank }
    let h' : Head .toClient :=
      { start := .status l, ending, fields := heard fs, valid := valid.heard, blank }
    have loses : h.Loses h' := loses_heard valid
    have whole : h.bytes ++ body = l.text ++ behind fs := by
      simp only [Head.bytes, h, StartLine.text, behind, List.append_assoc]
    have whole' : h'.bytes ++ body = l.text ++ behind (heard fs) := by
      simp only [Head.bytes, h', StartLine.text, behind, List.append_assoc]
    have law : h.SameFraming h' body ↔ l.isBodiless = true ∨
        (heard fs).any HeaderField.isChunked = fs.any HeaderField.isChunked ∧
          (declared? (heard fs) = declared? fs ∨
            fs.any HeaderField.isChunked = true ∧ full.verdict = .skip) := by
      simp only [Head.SameFraming, whole, full, scan_verdict, h, h', StartLine.lacksBody, known,
        Bool.false_or, Bool.true_and, Head.isChunked, Head.declared?]
    have longer : (h.bytes ++ body).length = (l.bare ++ behind fs).length + reason := by
      rw [whole]
      simp only [List.length_append, reason, l.text_eq]
      omega
    rw [← law, ← loses.scan_iff (by rw [whole']; exact alike) (by rw [whole']; exact rest) longer
      (by rw [whole]; exact small), whole]

/-- A length that is lost with its field. -/
theorem scan_bare_contentLength :
    let full := response.scan false "HTTP/1.1 200 OK\r\nContent-Length: 2\r\n\r\nhi".toUTF8.toList
    let bare := response.scan false "HTTP/1.1 200\r\nContent-Length: 2\r\n\r\nhi".toUTF8.toList
    let late := response.scan false "HTTP/1.1 200 OK\r\n\r\nhi".toUTF8.toList
    full = { progress := response, verdict := .flush, point := 40, consumed := 38 } ∧
      late = { progress := response, verdict := .flush, point := 19, consumed := 19
               raised := [.messageSize "response without length"] } ∧
      bare.delayed 3 = late.delayed 19 ∧ full ≠ bare.delayed 3 := by
  intro full bare late
  let line : StatusLine :=
    { minor := 0x31, hundreds := 0x32, tens := 0x30, ones := 0x30, reason := "OK".toUTF8.toList
      isDigit_minor := by decide, isBlank_gap := by decide +kernel, isDigit_hundreds := by decide
      isDigit_tens := by decide, isDigit_ones := by decide, isBlank_blank := by decide
      plain := by decide +kernel }
  let length : HeaderField :=
    { line := ⟨"Content-Length: 2".toUTF8.toList, by decide +kernel, .crlf⟩
      begins := by decide +kernel }
  have scanned : full =
      { progress := response, verdict := .flush, point := 40, consumed := 38 } := by
    show response.scan false _ = _
    rw [scan_eq_scanEach]
    decide +kernel
  have without : late = { progress := response, verdict := .flush, point := 19, consumed := 19
                          raised := [.messageSize "response without length"] } := by
    show response.scan false _ = _
    rw [scan_eq_scanEach]
    decide +kernel
  have bytes : [length].flatMap HeaderField.bytes = "Content-Length: 2\r\n".toUTF8.toList := by
    decide +kernel
  have windows : line.text ++ (LineEnd.crlf.bytes ++ "Content-Length: 2\r\n".toUTF8.toList ++
        LineEnd.crlf.bytes ++ "hi".toUTF8.toList) =
      "HTTP/1.1 200 OK\r\nContent-Length: 2\r\n\r\nhi".toUTF8.toList ∧
      line.bare ++ (LineEnd.crlf.bytes ++ "Content-Length: 2\r\n".toUTF8.toList ++
        LineEnd.crlf.bytes ++ "hi".toUTF8.toList) =
      "HTTP/1.1 200\r\nContent-Length: 2\r\n\r\nhi".toUTF8.toList ∧
      line.text ++ (LineEnd.crlf.bytes ++ [] ++ LineEnd.crlf.bytes ++ "hi".toUTF8.toList) =
        "HTTP/1.1 200 OK\r\n\r\nhi".toUTF8.toList := by
    decide +kernel
  have fields : lost [length] = [length] ∧ heard [length] = [] := by decide +kernel
  have law := scan_bare (l := line) (by decide) .crlf [length] .crlf "hi".toUTF8.toList
  have sizes : (line.blank :: line.reason).length = 3 ∧
      "Content-Length: 2\r\n".toUTF8.toList.length = 19 := by decide +kernel
  simp only [fields, bytes, List.flatMap_nil, windows, sizes] at law
  obtain ⟨same, differs⟩ := law
  have valid : ValidFields [length] := ⟨by decide +kernel, by decide +kernel⟩
  refine ⟨scanned, without, same ?_, fun equal => ?_⟩
  · show late.consumed + 19 < 2 ^ 32
    rw [without]
    decide
  · have taken : full.consumed < 2 ^ 32 := by
      rw [scanned]
      decide
    rcases (differs valid taken).mp equal with bodiless | ⟨-, declared | ⟨chunked, -⟩⟩
    · exact absurd bodiless (by decide)
    · exact absurd declared (by decide +kernel)
    · exact absurd chunked (by decide +kernel)

end Progress

end StreamFraming.Http
