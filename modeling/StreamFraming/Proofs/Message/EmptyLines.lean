import StreamFraming.Proofs.Message.Heads

/-!
# Empty lines in front of a response

One empty line in front of a status line is passed over: it stands where the status line ends
without it, and the status line is then read like a field. A second empty line closes a head that
has no status line (`scan_emptyLines`).
-/

namespace StreamFraming.Http.Progress

open Token

theorem step_emptyLine : table.step .responseStart lineFeed = (.responseStart, .nop) := by
  decide +kernel

theorem leads_emptyLine (e : LineEnd) :
    Leads response e.bytes []
      ((response.mark fun f => { f with seenEol := true }).moveTo .responseStart) :=
  leads_firstLine (q := response) (u := []) rfl (fun _ => nofun) rfl rfl rfl rfl step_emptyLine
    step_emptyLine e

theorem leads_statusLine (l : StatusLine) (ending : LineEnd) :
    Leads response (l.text ++ ending.bytes) [] ((started (.status l) false).moveTo .fieldStart) :=
  leads_startLine (.status l) false ending

theorem head?_statusLine (l : StatusLine) : l.text.head?.map isBlank = some false := rfl

/-- The status line behind an empty line is read as a line inside the head. -/
theorem leads_emptyLine_statusLine (e : LineEnd) (l : StatusLine) (ending : LineEnd) :
    Leads response (e.bytes ++ (l.text ++ ending.bytes)) []
      ((started (.status l) false).moveTo .fieldStart) := by
  have text := passes_statusLine (response.mark fun f => { f with seenEol := true }) l
  have whole := text.tells.append (tells_single (stepToken_nop _ step_lineEnd))
  let field : HeaderField :=
    { line := ⟨l.text, l.isLineText_text, ending⟩, begins := head?_statusLine l }
  have line := leads_field (f := field) (leads_emptyLine e)
    (by simpa [field, HeaderField.text] using whole)
  have same : (response.mark fun f => { f with seenEol := true }).mark l.mark =
      (response.mark l.mark).mark fun f => { f with seenEol := true } := by
    simp only [mark, StatusLine.mark]
    split <;> rfl
  rw [same] at line
  simp only [field, HeaderField.bytes, Line.bytes, List.flatMap_nil, List.append_nil] at line
  exact line

theorem read_fewEmptyLines {es : List LineEnd} (few : es.length ≤ 1) (l : StatusLine)
    (ending : LineEnd) (fields : List HeaderField) (blank : LineEnd) (body : List UInt8) :
    let message := l.text ++ ending.bytes ++ fields.flatMap HeaderField.bytes ++ blank.bytes ++ body
    response.read (es.flatMap LineEnd.bytes ++ message) = response.read message := by
  intro message
  match es, few with
  | [], _ => rfl
  | [e], _ =>
    have same := (leads_emptyLine_statusLine e l ending).read_congr (leads_statusLine l ending)
      fields blank body
    simpa [message] using same

/-- Two empty lines are a head without a status line. -/
theorem read_manyEmptyLines (e e' : LineEnd) (rest : List UInt8) :
    response.read (e.bytes ++ e'.bytes ++ rest) =
      ({ progress := response.mark fun f => { f with seenEol := true }, verdict := .abort },
        rest) :=
  read_blankLine (leads_emptyLine e) e' nofun rest

/-- A response behind empty lines. One of them delays the scan by its bytes; behind two of them the
scan is over, and what follows is not looked at. -/
theorem scan_emptyLines (es : List LineEnd) (l : StatusLine) (ending : LineEnd)
    (fields : List HeaderField) (blank : LineEnd) (body : List UInt8) :
    let lines := es.flatMap LineEnd.bytes
    let message := l.text ++ ending.bytes ++ fields.flatMap HeaderField.bytes ++ blank.bytes ++ body
    let closed := ((es.take 2).flatMap LineEnd.bytes).length
    (es.length ≤ 1 → (response.scan false message).consumed + lines.length < 2 ^ 32 →
      response.scan false (lines ++ message) =
        (response.scan false message).delayed lines.length) ∧
    (2 ≤ es.length → response.scan false (lines ++ message) =
      { progress := response, verdict := .abort, point := closed.toUInt32
        consumed := closed }) := by
  intro lines message closed
  constructor
  · intro few small
    exact scan_delayed false (read_fewEmptyLines few l ending fields blank body)
      (by rw [List.length_append, Nat.add_comm]) small
  · intro many
    obtain ⟨e, e', es, rfl⟩ : ∃ e e' es', es = e :: e' :: es' := by
      match es, many with
      | e :: e' :: es, _ => exact ⟨e, e', es, rfl⟩
    have split : lines ++ message =
        e.bytes ++ e'.bytes ++ (es.flatMap LineEnd.bytes ++ message) := by
      simp [lines]
    have taken : (e.bytes ++ e'.bytes).length = closed := by
      simp [closed]
    rw [split, scan_decided (read_manyEmptyLines e e' _) nofun, taken]
    simp only [settle, mark, response, Length.zero_add]
    rfl

/-- One empty line in front of a response, and two of them. -/
theorem scan_emptyLines_noContent :
    let message := "HTTP/1.1 204 No Content\r\n\r\n".toUTF8.toList
    let alone := response.scan false message
    let behind := response.scan false ("\n".toUTF8.toList ++ message)
    let closed := response.scan false ("\r\n\r\n".toUTF8.toList ++ message)
    alone = { progress := response, verdict := .flush, point := 27, consumed := 27 } ∧
      behind = { alone with point := 28, consumed := 28 } ∧
      closed = { progress := response, verdict := .abort, point := 4, consumed := 4 } := by
  intro message alone behind closed
  let line : StatusLine :=
    { minor := 0x31, hundreds := 0x32, tens := 0x30, ones := 0x34
      reason := "No Content".toUTF8.toList
      isDigit_minor := by decide, isBlank_gap := by decide +kernel, isDigit_hundreds := by decide
      isDigit_tens := by decide, isDigit_ones := by decide, isBlank_blank := by decide
      plain := by decide +kernel }
  have scanned : alone =
      { progress := response, verdict := .flush, point := 27, consumed := 27 } := by
    show response.scan false message = _
    rw [scan_eq_scanEach]
    decide +kernel
  have whole : message = line.text ++ LineEnd.crlf.bytes ++
      ([] : List HeaderField).flatMap HeaderField.bytes ++ LineEnd.crlf.bytes ++ [] := by
    decide +kernel
  have lines : "\n".toUTF8.toList = [LineEnd.lf].flatMap LineEnd.bytes ∧
      "\r\n\r\n".toUTF8.toList = [LineEnd.crlf, .crlf].flatMap LineEnd.bytes := by
    decide +kernel
  obtain ⟨one, -⟩ := scan_emptyLines [.lf] line .crlf [] .crlf []
  obtain ⟨-, two⟩ := scan_emptyLines [.crlf, .crlf] line .crlf [] .crlf []
  rw [← whole, ← lines.1, show response.scan false message = alone from rfl, scanned] at one
  rw [← whole, ← lines.2] at two
  refine ⟨scanned, ?_, two (by decide)⟩
  rw [scanned]
  refine (one (by decide) ?_).trans ?_ <;> decide +kernel

end StreamFraming.Http.Progress
