import StreamFraming.Proofs.Message.FirstLines
import StreamFraming.Proofs.Message.Lines

/-!
# Reading heads

What a head declares, gathered over its first line and all of its fields, is known at the blank line
that closes it (`leads_head`). There the message is decided: with what its body comes to
(`read_head`), or to go on with chunks (`quiet_chunkedHead`).
-/

namespace StreamFraming.Http

variable {d : Direction}

/-! ### Fields -/

theorem HeaderField.isChunked_of_contentLength? {f : HeaderField} {v : List UInt8}
    (known : f.contentLength? = some v) : f.isChunked = false := by
  obtain ⟨word, u, u', whole, spelled, -⟩ := fieldValue?_some known
  have uncoded : ¬ transferEncodingName <+: f.text.map fold := by
    rintro ⟨rest, coded⟩
    rw [whole, List.map_append, spelled] at coded
    cases coded
  rw [isChunked, fieldValue?, if_neg uncoded]
  rfl

theorem declared?_cons_some {f : HeaderField} {v : List UInt8} (known : f.contentLength? = some v)
    (fs : List HeaderField) : declared? (f :: fs) = some (numeral 10 v) := by
  rw [declared?, List.filterMap_cons_some known]
  rfl

theorem declared?_cons_none {f : HeaderField} (known : f.contentLength? = none)
    (fs : List HeaderField) : declared? (f :: fs) = declared? fs := by
  rw [declared?, List.filterMap_cons_none known, declared?]

theorem ValidFields.declared?_lt {fs : List HeaderField} (valid : ValidFields fs) {n : Nat}
    (known : declared? fs = some n) : n < 2 ^ 32 := by
  obtain ⟨v, found, rfl⟩ := Option.map_eq_some_iff.mp known
  have small := (valid.length v (List.mem_of_mem_head? found)).2
  rw [lengthBound] at small
  omega

/-- What fields tell about the message, but for how long it is. -/
def Flags.tell (f : Flags) (fs : List HeaderField) : Flags :=
  { f with
    hasLength := f.hasLength || (declared? fs).isSome
    chunked := f.chunked || fs.any HeaderField.isChunked }

theorem tell_nil (f : Flags) : f.tell [] = f := by simp [Flags.tell, declared?]

theorem tell_cons_some {f : HeaderField} {v : List UInt8} (known : f.contentLength? = some v)
    (g : Flags) (fs : List HeaderField) :
    g.tell (f :: fs) = ({ g with hasLength := true } : Flags).tell fs := by
  simp [Flags.tell, declared?_cons_some known, HeaderField.isChunked_of_contentLength? known]

theorem tell_cons_none {f : HeaderField} (known : f.contentLength? = none) (g : Flags)
    (fs : List HeaderField) :
    g.tell (f :: fs) = (if f.isChunked then { g with chunked := true } else g).tell fs := by
  rw [Flags.tell, Flags.tell, declared?_cons_none known, List.any_cons]
  cases f.isChunked <;> simp

namespace Progress

variable {p q : Progress} {u : List UInt8} {es : List Anomaly} {fs : List HeaderField}

/-- What is known behind fields that make a length. -/
def learn (p : Progress) (fs : List HeaderField) (length : UInt32) : Progress :=
  { p with length, flags := p.flags.tell fs }

theorem leads_otherField {f : HeaderField} (before : Leads p u es (q.moveTo .fieldStart))
    (known : f.contentLength? = none) :
    Leads p (u ++ f.bytes) es
      ((q.mark fun g => if f.isChunked then { g with chunked := true } else g).moveTo
        .fieldStart) := by
  have field := leads_field before (passes_otherField q known).tells
  rw [List.append_nil] at field
  cases chunks : f.isChunked <;> rw [chunks] at field <;> exact field

theorem leads_fields {n : Nat} (before : Leads p u es (q.moveTo .fieldStart))
    (framed : q.flags.error = false)
    (lengths : ∀ v ∈ fs.filterMap HeaderField.contentLength?, IsLength v)
    (made : reckonedFrom q.length.toNat fs = some n) :
    Leads p (u ++ fs.flatMap HeaderField.bytes) es
      ((q.learn fs n.toUInt32).moveTo .fieldStart) := by
  -- between the fields the progress holds the length that the ones in front make
  induction fs generalizing q u with
  | nil =>
    cases made
    have same : q.learn [] q.length.toNat.toUInt32 = q := by simp [learn, tell_nil]
    rw [List.flatMap_nil, List.append_nil, same]
    exact before
  | cons f fs ih =>
    rw [List.flatMap_cons, ← List.append_assoc, learn]
    cases known : f.contentLength? with
    | none =>
      rw [List.filterMap_cons_none known] at lengths
      rw [reckonedFrom_cons_none known] at made
      rw [tell_cons_none known]
      refine ih (leads_otherField before known) ?_ lengths made
      simp only [mark]
      split <;> exact framed
    | some v =>
      rw [List.filterMap_cons_some known, List.forall_mem_cons] at lengths
      obtain ⟨small, made⟩ := (reckonedFrom_cons_eq_some known).mp made
      have field := leads_field before (passes_lengthField known lengths.1.1 framed small).tells
      rw [List.append_nil] at field
      have length : (f.extend q.length.toNat v).toUInt32.toNat = f.extend q.length.toNat v := by
        rw [lengthBound] at small
        exact Length.toNat_toUInt32 (by omega)
      rw [tell_cons_some known]
      exact ih field framed lengths.2 (by simp only [mark, length]; exact made)

end Progress

/-! ### Heads -/

namespace Head

def progress (h : Head d) (noBody : Bool) : Progress where
  length := (h.declared?.getD 0).toUInt32
  flags := { h.start.mark (Progress.opening d noBody).flags with
    seenEol := true
    hasLength := h.declared?.isSome
    chunked := h.isChunked }
  position := .fieldStart

end Head

theorem StartLine.mark_opening (l : StartLine d) (noBody : Bool) :
    l.mark (Progress.opening d noBody).flags =
      { l.mark (Progress.opening d noBody).flags with
        request := d == .toServer
        response := d == .toClient
        hasLength := false
        chunked := false
        inChunks := false
        simple := false
        error := false
        seenEol := false } := by
  cases l with
  | request l => rfl
  | status l =>
    simp only [StartLine.mark, StatusLine.mark]
    split <;> rfl

namespace Progress

def started (l : StartLine d) (noBody : Bool) : Progress :=
  ((opening d noBody).mark l.mark).mark fun f => { f with seenEol := true }

def closed (l : StartLine d) (noBody : Bool) (fs : List HeaderField) (length : UInt32) : Progress :=
  ((started l noBody).learn fs length).moveTo .fieldStart

variable (l : StartLine d) (noBody : Bool) {fs : List HeaderField}

theorem leads_startLine (ending : LineEnd) :
    Leads (opening d noBody) (l.text ++ ending.bytes) []
      ((started l noBody).moveTo .fieldStart) := by
  have words : (l.mark (opening d noBody).flags).simple = false := by rw [l.mark_opening noBody]
  have phase : (opening d noBody).line = .inLine ∧ (opening d noBody).flags.seenEol = false ∧
      (opening d noBody).flags.inChunks = false := by
    cases d <;> exact ⟨rfl, rfl, rfl⟩
  exact leads_firstLine (passes_startLine l noBody) l.isLineText_text phase.1 phase.2.1 phase.2.2
    words Token.step_lineEnd Token.step_noField ending

theorem started_fresh :
    (started l noBody).length = 0 ∧ (started l noBody).line = .inLine ∧
      (started l noBody).flags.error = false := by
  refine ⟨by cases d <;> rfl, by cases d <;> rfl, ?_⟩
  show (l.mark (opening d noBody).flags).error = false
  rw [l.mark_opening noBody]

theorem leads_closed {n : Nat} (lengths : ∀ v ∈ fs.filterMap HeaderField.contentLength?, IsLength v)
    (made : reckoned fs = some n) (ending : LineEnd) :
    Leads (opening d noBody) (l.text ++ ending.bytes ++ fs.flatMap HeaderField.bytes) []
      (closed l noBody fs n.toUInt32) := by
  obtain ⟨length, -, framed⟩ := started_fresh l noBody
  exact leads_fields (leads_startLine l noBody ending) framed lengths (by rw [length]; exact made)

theorem hasLength_closed (fs : List HeaderField) (n : UInt32) :
    (closed l noBody fs n).flags.hasLength = (declared? fs).isSome := by
  show ((l.mark (opening d noBody).flags).hasLength || (declared? fs).isSome) = _
  rw [l.mark_opening noBody, Bool.false_or]

theorem chunked_closed (fs : List HeaderField) (n : UInt32) :
    (closed l noBody fs n).flags.chunked = fs.any HeaderField.isChunked := by
  show ((l.mark (opening d noBody).flags).chunked || fs.any HeaderField.isChunked) = _
  rw [l.mark_opening noBody, Bool.false_or]

end Progress

theorem Head.progress_eq (h : Head d) (noBody : Bool) :
    h.progress noBody =
      Progress.closed h.start noBody h.fields (h.declared?.getD 0).toUInt32 := by
  obtain ⟨-, line, -⟩ := Progress.started_fresh h.start noBody
  have length := Progress.hasLength_closed h.start noBody h.fields 0
  have chunks := Progress.chunked_closed h.start noBody h.fields 0
  simp only [Progress.closed, Progress.learn, Progress.moveTo, Flags.tell] at length chunks ⊢
  rw [length, chunks, line]
  rfl

theorem Progress.leads_head (h : Head d) (noBody : Bool) :
    Leads (opening d noBody)
      (h.start.text ++ h.ending.bytes ++ h.fields.flatMap HeaderField.bytes) []
      (h.progress noBody) := by
  rw [h.progress_eq]
  exact leads_closed h.start noBody h.valid.length h.valid.reckoned h.ending

/-! ### The end of a head -/

namespace StartLine

def isHead : StartLine d → Bool
  | .request l => l.isHead
  | .status _ => false

def isPost : StartLine d → Bool
  | .request l => l.isPost
  | .status _ => false

def isResponse11 : StartLine d → Bool
  | .request _ => false
  | .status l => l.minor == 0x31

/-- The message is a response that has no body; a status of another version is not looked at. -/
def lacksBody (noBody : Bool) : StartLine d → Bool
  | .request _ => false
  | .status l => noBody || l.isKnown && l.isBodiless

end StartLine

/-- What is known where the fields end says what the first line says. -/
structure StartLine.Told (l : StartLine d) (noBody : Bool) (f : Flags) : Prop where
  error : f.error = false
  simple : f.simple = false
  request : f.request = (d == .toServer)
  response : f.response = (d == .toClient)
  post : f.post = l.isPost
  lacksBody : (f.noBody && f.response) = l.lacksBody noBody
  head : (f.noBody && f.request) = (d == .toServer && (noBody || l.isHead))
  version11 : (f.version11 && f.response) = l.isResponse11

theorem StartLine.told_closed (l : StartLine d) (noBody : Bool) (fs : List HeaderField)
    (n : UInt32) : l.Told noBody (Progress.closed l noBody fs n).flags := by
  unfold Progress.closed Progress.started Progress.learn Progress.mark Progress.moveTo Flags.tell
  rw [l.mark_opening noBody]
  have post : (l.mark (Progress.opening d noBody).flags).post = l.isPost := by
    rw [Progress.flags_opening]
    cases l with
    | request l => exact Bool.false_or _
    | status l =>
      simp only [StartLine.mark, StatusLine.mark, StartLine.isPost]
      split <;> rfl
  have lacks : ((l.mark (Progress.opening d noBody).flags).noBody && d == .toClient) =
      l.lacksBody noBody := by
    rw [Progress.flags_opening]
    cases l with
    | request l => exact Bool.and_false _
    | status l =>
      simp only [StartLine.mark, StatusLine.mark, StartLine.lacksBody]
      cases l.isKnown <;> simp
  have version : ((l.mark (Progress.opening d noBody).flags).version11 && d == .toClient) =
      l.isResponse11 := by
    rw [Progress.flags_opening]
    cases l with
    | request l => rfl
    | status l =>
      simp only [StartLine.mark, StatusLine.mark, StartLine.isResponse11]
      cases known : l.isKnown with
      | true => simp
      | false =>
        have other := (Bool.or_eq_false_iff.mp known).2
        simp [other]
  have head : ((l.mark (Progress.opening d noBody).flags).noBody && d == .toServer) =
      (d == .toServer && (noBody || l.isHead)) := by
    rw [Progress.flags_opening]
    cases l with
    | request l => exact Bool.and_comm _ _
    | status l => exact Bool.and_false _
  exact ⟨rfl, rfl, rfl, rfl, post, lacks, head, version⟩

/-- What the end of a head decides, but for a POST request without a length. -/
theorem StartLine.Told.endHeaders_eq {l : StartLine d} {noBody : Bool} {p : Progress}
    (told : l.Told noBody p.flags)
    (bounded : l.isPost = true → p.flags.chunked = true ∨ p.flags.hasLength = true) :
    p.endHeaders =
      if l.lacksBody noBody then { progress := { p with length := 0 }, verdict := .flush }
      else if p.flags.chunked then { progress := p.startChunks }
      else if d == .toServer || p.flags.hasLength then { progress := p, verdict := .flush }
      else if l.isResponse11 then
        { progress := { p with length := 0 }, verdict := .flush,
          raised := [.messageSize "response without length"] }
      else { progress := p, verdict := .abort } := by
  have bounded : (p.flags.post && !p.flags.chunked && !p.flags.hasLength) = false := by
    rw [told.post]
    cases post : l.isPost with
    | false => rfl
    | true => rcases bounded post with chunks | length <;> simp [*]
  rw [Progress.endHeaders_eq told.error told.simple bounded, told.lacksBody, told.request,
    told.version11]

namespace Head

/-- What is known where the fields end says what the head says. -/
structure Told (h : Head d) (noBody : Bool) (f : Flags) : Prop extends h.start.Told noBody f where
  hasLength : f.hasLength = h.declared?.isSome
  chunked : f.chunked = h.isChunked

theorem told_progress (h : Head d) (noBody : Bool) : h.Told noBody (h.progress noBody).flags where
  toTold := by
    rw [h.progress_eq]
    exact h.start.told_closed noBody h.fields _
  hasLength := rfl
  chunked := rfl

/-- Something tells where the body ends. -/
structure IsFramed (h : Head d) (noBody : Bool) : Prop where
  post : h.start.isPost = true → h.declared?.isSome = true
  response : d = .toClient →
    h.start.lacksBody noBody = true ∨ h.declared?.isSome = true ∨ h.start.isResponse11 = true

def bodyLength (h : Head d) (noBody : Bool) : Nat :=
  if h.start.lacksBody noBody then 0 else h.declared?.getD 0

/-- What is noted about the message: a response that should have a body has no length. -/
def noted (h : Head d) (noBody : Bool) : List Anomaly :=
  if d == .toServer || h.start.lacksBody noBody || h.declared?.isSome then []
  else [.messageSize "response without length"]

/-- What a head without chunks leads to. -/
def decision (h : Head d) (noBody : Bool) : Turn where
  progress := { h.progress noBody with length := (h.bodyLength noBody).toUInt32 }
  verdict := .flush
  raised := h.noted noBody

theorem endHeaders_progress {h : Head d} {noBody : Bool} (unchunked : h.isChunked = false)
    (framed : h.IsFramed noBody) : (h.progress noBody).endHeaders = h.decision noBody := by
  have told := h.told_progress noBody
  rw [told.endHeaders_eq fun post => .inr (told.hasLength.trans (framed.post post)), told.chunked,
    unchunked, told.hasLength]
  unfold decision bodyLength noted
  cases lacks : h.start.lacksBody noBody with
  | true => simp
  | false =>
    cases known : h.declared? with
    | some n => simp [progress, known]
    | none =>
      cases d with
      | toServer => simp [progress, known]
      | toClient =>
        have latest : h.start.isResponse11 = true := by
          rcases framed.response rfl with wrong | wrong | latest
          · rw [lacks] at wrong
            cases wrong
          · rw [known] at wrong
            cases wrong
          · exact latest
        simp [latest]

/-- A head without chunks is read up to its blank line and decides there. -/
theorem read_head {h : Head d} {noBody : Bool} (unchunked : h.isChunked = false)
    (framed : h.IsFramed noBody) (rest : List UInt8) :
    (Progress.opening d noBody).read (h.bytes ++ rest) = (h.decision noBody, rest) := by
  have closes := endHeaders_progress unchunked framed
  have read := Progress.read_blankLine (Progress.leads_head h noBody) h.blank
    (by rw [closes]; exact Verdict.noConfusion) rest
  rw [closes] at read
  exact read

/-- A head with chunks is read up to its blank line, and the chunks begin. -/
theorem quiet_chunkedHead {h : Head d} {noBody : Bool} (chunked : h.isChunked = true)
    (bodied : h.start.lacksBody noBody = false) :
    Progress.Quiet (Progress.opening d noBody) h.bytes (h.progress noBody).startChunks := by
  have told := h.told_progress noBody
  have chunks := told.chunked.trans chunked
  refine Progress.quiet_blankLine (Progress.leads_head h noBody) h.blank ?_
  rw [told.endHeaders_eq fun _ => .inl chunks, chunks, bodied]
  rfl

end Head

end StreamFraming.Http
