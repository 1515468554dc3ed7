import StreamFraming.Proofs.Message.Framing

/-!
# Messages with chunks

Behind a head that announces chunks come chunks of any data, a last chunk of size zero, trailer
lines and a blank line. The data are passed over; what lies between them leads from one chunk to the
next (`AmongChunks.takeAll_chunk`), and the blank line ends the message (`run_chunkedMessage`).
-/

namespace StreamFraming

open Http

namespace Http

open Token

variable {d : Direction}

/-! ### Chunks -/

/-- A digit of a chunk size. -/
def isHexDigit (c : UInt8) : Bool :=
  isDigit c || 0x41 ≤ c && c ≤ 0x46 || 0x61 ≤ c && c ≤ 0x66

structure Chunk where
  size : List UInt8
  sizeEnd : LineEnd := .crlf
  data : List UInt8
  dataEnd : LineEnd := .crlf
  digits : ∀ c ∈ size, isHexDigit c = true
  told : numeral 16 size = data.length
  nonempty : data ≠ []
  small : data.length < 2 ^ 31

namespace Chunk

def sizeLine (c : Chunk) : List UInt8 := c.size ++ c.sizeEnd.bytes

def bytes (c : Chunk) : List UInt8 := c.sizeLine ++ c.data ++ c.dataEnd.bytes

end Chunk

/-- What comes behind the last chunk that has data. -/
structure Trailer where
  zeros : List UInt8
  nonempty : zeros ≠ []
  zero : ∀ c ∈ zeros, c = 0x30
  zerosEnd : LineEnd := .crlf
  lines : List Line := []
  solid : ∀ l ∈ lines, l.text ≠ []
  blank : LineEnd := .crlf

namespace Trailer

def zeroLine (t : Trailer) : List UInt8 := t.zeros ++ t.zerosEnd.bytes

def rest (t : Trailer) : List UInt8 := t.lines.flatMap Line.bytes ++ t.blank.bytes

def bytes (t : Trailer) : List UInt8 := t.zeroLine ++ t.rest

theorem zeroLine_ne_nil (t : Trailer) : t.zeroLine ≠ [] := fun empty =>
  t.nonempty (List.append_eq_nil_iff.mp empty).1

theorem rest_ne_nil (t : Trailer) : t.rest ≠ [] := by
  intro empty
  have last := (List.append_eq_nil_iff.mp empty).2
  cases ending : t.blank <;> rw [ending] at last <;> cases last

end Trailer

structure ChunkedMessage (d : Direction) where
  head : Head d
  chunked : head.isChunked = true
  bodied : head.start.lacksBody false = false
  chunks : List Chunk
  trailer : Trailer

def ChunkedMessage.bytes (m : ChunkedMessage d) : List UInt8 :=
  m.head.bytes ++ m.chunks.flatMap Chunk.bytes ++ m.trailer.bytes

theorem isHexDigit_solid {c : UInt8} (digit : isHexDigit c = true) :
    c ≠ carriageReturn ∧ c ≠ lineFeed := by
  constructor <;> rintro rfl <;> cases digit

theorem hex?_fold {c : UInt8} (digit : isHexDigit c = true) :
    ∃ x, Digit.hex? (fold c) = some x ∧ x.toNat = digitValue c := by
  have known : (Digit.hex? (fold c)).map UInt32.toNat = some (digitValue c) := by
    unfold digitValue
    revert c
    decide +kernel
  exact Option.map_eq_some_iff.mp known

theorem hex?_other {c : UInt8} (other : isHexDigit c = false) : Digit.hex? (fold c) = none := by
  revert c
  decide +kernel

theorem hexDigitValue_le {c : UInt8} (digit : isHexDigit c = true) : digitValue c ≤ 15 := by
  unfold digitValue
  revert c
  decide +kernel

/-- A size takes a digit as long as it stays below 2³¹ with the digit. -/
theorem shiftHex?_cases (n : UInt32) (c : UInt8) :
    (∃ m, Digit.shiftHex? n (fold c) = some m ∧ Fits isHexDigit 16 (2 ^ 31) n.toNat [c] ∧
      m.toNat = n.toNat * 16 + digitValue c) ∨
    Digit.shiftHex? n (fold c) = none ∧ ¬ Fits isHexDigit 16 (2 ^ 31) n.toNat [c] := by
  rw [fits_single]
  cases digit : isHexDigit c with
  | false =>
    refine .inr ⟨?_, by simp⟩
    rw [Digit.shiftHex?, hex?_other digit]
  | true =>
    have most := hexDigitValue_le digit
    obtain ⟨x, value, number⟩ := hex?_fold digit
    by_cases room : n.toNat < 0x8000000
    · obtain ⟨m, shifted⟩ : ∃ m, Digit.shiftHex? n (fold c) = some m := by
        have below : n < Digit.hexLimit := room
        rw [Digit.shiftHex?, value]
        simp only [if_pos below]
        exact ⟨_, rfl⟩
      obtain ⟨x', found, length⟩ := Digit.toNat_shiftHex shifted
      rw [value, Option.some.injEq] at found
      rw [← found, number] at length
      exact .inl ⟨m, shifted, ⟨rfl, by omega⟩, length⟩
    · have full : ¬ n < Digit.hexLimit := room
      refine .inr ⟨?_, fun fits => absurd fits.2 (by omega)⟩
      rw [Digit.shiftHex?, value]
      simp only [if_neg full]

theorem numeral_zeros {zeros : List UInt8} (zero : ∀ c ∈ zeros, c = 0x30) :
    numeral 16 zeros = 0 := by
  have nothing : digitValue 0x30 = 0 := by
    unfold digitValue
    rfl
  unfold numeral
  induction zeros with
  | nil => rfl
  | cons c zeros ih =>
    rw [numeralFrom_cons, zero c List.mem_cons_self, nothing]
    exact ih fun b hb => zero b (List.mem_cons_of_mem c hb)

theorem LineEnd.bytes_ne_nil (e : LineEnd) : e.bytes ≠ [] := by
  cases e <;> nofun

namespace Progress

variable {p q : Progress} {c : UInt8} {head : Bool}

/-- Between the header fields and the last chunk, with no size begun; `head` tells whether the
message is a HEAD request. -/
structure InChunks (head : Bool) (p : Progress) : Prop where
  length : p.length = 0
  line : p.line = .inLine
  seenEol : p.flags.seenEol = true
  inside : p.flags.inChunks = true
  error : p.flags.error = false
  simple : p.flags.simple = false
  chunked : p.flags.chunked = false
  bodied : (p.flags.noBody && p.flags.response) = false
  head : (p.flags.noBody && p.flags.request) = head

theorem inChunks_closed {l : StartLine d} {noBody : Bool} (bodied : l.lacksBody noBody = false)
    (fs : List HeaderField) (n : UInt32) :
    InChunks (d == .toServer && (noBody || l.isHead)) (closed l noBody fs n).startChunks := by
  have told := l.told_closed noBody fs n
  exact ⟨rfl, (started_fresh l noBody).2.1, rfl, rfl, told.error, told.simple, rfl,
    told.lacksBody.trans bodied, told.head⟩

theorem inChunks_startChunks {h : Head d} {noBody : Bool}
    (bodied : h.start.lacksBody noBody = false) :
    InChunks (d == .toServer && (noBody || h.start.isHead)) (h.progress noBody).startChunks := by
  rw [h.progress_eq]
  exact inChunks_closed bodied h.fields _

/-- Sizes and data of chunks are read, and nothing is wrong by now. -/
structure AmidChunks (p : Progress) : Prop where
  line : p.line = .inLine
  seenEol : p.flags.seenEol = true
  inside : p.flags.inChunks = true
  error : p.flags.error = false

theorem InChunks.amid (h : InChunks head p) : AmidChunks p :=
  ⟨h.line, h.seenEol, h.inside, h.error⟩

theorem AmidChunks.readByte_lineFeed (h : AmidChunks p) (n : UInt32) (x : Position) :
    ({ p with length := n }.moveTo x).readByte lineFeed =
      ({ p with length := n }.moveTo x).stepToken lineFeed := by
  have phase : ({ p with length := n }.moveTo x).line = .inLine := h.line
  have seenEol : ({ p with length := n }.moveTo x).flags.seenEol = true := h.seenEol
  have inside : ({ p with length := n }.moveTo x).flags.inChunks = true := h.inside
  unfold readByte
  rw [if_neg (by decide)]
  simp only [phase, readInLine, seenEol, inside]
  rfl

/-- What bytes come to where a size is read. -/
inductive SizeOutcome where
  | unfinished (n : UInt32)
  | invalid (n : UInt32) (rest : List UInt8)
  | ended (n : UInt32) (rest : List UInt8)

/-- Read the bytes of a size behind digits that make `n`. -/
def readSize (n : UInt32) : List UInt8 → SizeOutcome
  | [] => .unfinished n
  | c :: cs =>
    if c = carriageReturn then readSize n cs
    else if c = lineFeed then .ended n cs
    else
      match Digit.shiftHex? n (fold c) with
      | some m => readSize m cs
      | none => .invalid n cs

/-- What is read of a message, and what is left. -/
def SizeOutcome.reading (p : Progress) : SizeOutcome → Turn × List UInt8
  | unfinished n => ({ progress := { p with length := n }.moveTo .chunkStart }, [])
  | invalid n rest =>
    ({ progress :=
         ({ p with length := n }.moveTo .chunkStart).mark fun f => { f with error := true }
       verdict := .flush
       raised := [.messageSize "invalid chunk size"] }, rest)
  | ended n rest =>
    (({ p with length := n }.moveTo ⟨.chunkDataEol, 0⟩).note lineFeed .lengthChunk, rest)

theorem verdict_size (p : Progress) : (p.note c .lengthChunk).verdict = .skip := rfl

theorem AmidChunks.read_size (h : AmidChunks p) (n : UInt32) (cs : List UInt8) :
    ({ p with length := n }.moveTo .chunkStart).read cs = (readSize n cs).reading p := by
  induction cs generalizing n with
  | nil => rfl
  | cons c cs ih =>
    unfold readSize
    by_cases skipped : c = carriageReturn
    · rw [if_pos skipped, ← ih, skipped]
      exact (quiet_single (readByte_return _)).read_append cs
    by_cases last : c = lineFeed
    · have moved : table.step .chunkStart lineFeed = (⟨.chunkDataEol, 0⟩, .lengthChunk) := by
        rw [step_chunkStart, if_pos rfl]
      have taken := h.readByte_lineFeed n .chunkStart
      rw [stepToken_moveTo _ moved] at taken
      have decided := read_cons_decided (by rw [taken, verdict_size]; nofun) cs
      rw [taken] at decided
      rw [if_neg skipped, if_pos last, last]
      exact decided
    have moved : table.step .chunkStart c = (.chunkStart, .shiftHex) := by
      rw [step_chunkStart, if_neg last]
    have framed : ({ p with length := n }.moveTo .chunkStart).flags.error = false := h.error
    have taken := readByte_text (p := { p with length := n }.moveTo .chunkStart) (c := c) h.line
      ⟨skipped, last⟩
    rw [stepToken_moveTo _ moved, note, framed, if_neg Bool.false_ne_true] at taken
    rw [if_neg skipped, if_neg last]
    cases known : Digit.shiftHex? n (fold c) with
    | some m =>
      simp only [moveTo, known] at taken
      rw [← ih]
      exact (quiet_single taken).read_append cs
    | none =>
      simp only [moveTo, known] at taken
      have decided := read_cons_decided (by rw [taken]; exact Verdict.noConfusion) cs
      rw [taken] at decided
      exact decided

theorem readSize_lineEnd (n : UInt32) (ending : LineEnd) (rest : List UInt8) :
    readSize n (ending.bytes ++ rest) = .ended n rest := by
  cases ending <;> rfl

theorem readSize_fits {n : UInt32} {v : List UInt8} (fits : Fits isHexDigit 16 (2 ^ 31) n.toNat v)
    (rest : List UInt8) :
    readSize n (v ++ rest) = readSize (numeralFrom 16 n.toNat v).toUInt32 rest := by
  induction v generalizing n with
  | nil =>
    have same : n.toNat.toUInt32 = n := by simp
    rw [numeralFrom_nil, same]
    rfl
  | cons c v ih =>
    obtain ⟨digit, later⟩ := fits_cons.mp fits
    have solid := isHexDigit_solid digit
    have below := Nat.lt_of_le_of_lt (le_numeralFrom (by decide) _ v) later.2
    rcases shiftHex?_cases n c with ⟨m, shifted, -, length⟩ | ⟨-, large⟩
    · rw [List.cons_append, readSize, if_neg solid.1, if_neg solid.2, shifted, numeralFrom_cons,
        ← length]
      exact ih (by rwa [length])
    · exact absurd (fits_single.mpr ⟨digit, below⟩) large

/-- The first byte that makes no size with the digits in front of it ends the reading. -/
theorem readSize_bad {n : UInt32} {v : List UInt8} (plain : IsLineText v) (small : n.toNat < 2 ^ 31)
    (bad : ¬ Fits isHexDigit 16 (2 ^ 31) n.toNat v) :
    ∃ u c w m, v = u ++ c :: w ∧ Fits isHexDigit 16 (2 ^ 31) n.toNat u ∧
      ¬ Fits isHexDigit 16 (2 ^ 31) n.toNat (u ++ [c]) ∧
      ∀ rest, readSize n (v ++ rest) = .invalid m (w ++ rest) := by
  induction v generalizing n with
  | nil => exact absurd ⟨nofun, small⟩ bad
  | cons c v ih =>
    obtain ⟨noReturn, noEnd⟩ := plain c List.mem_cons_self
    have taken (rest : List UInt8) : readSize n (c :: v ++ rest) =
        match Digit.shiftHex? n (fold c) with
        | some m => readSize m (v ++ rest)
        | none => .invalid n (v ++ rest) := by
      rw [List.cons_append, readSize, if_neg noReturn, if_neg noEnd]
    rcases shiftHex?_cases n c with ⟨next, shifted, fits, length⟩ | ⟨full, large⟩
    · obtain ⟨digit, below⟩ := fits_single.mp fits
      obtain ⟨u, d, w, m, rfl, good, offends, read⟩ := ih
        (fun b hb => plain b (List.mem_cons_of_mem c hb)) (by rwa [length])
        (by rw [length]; exact fun fits => bad (fits_cons.mpr ⟨digit, fits⟩))
      rw [length] at good offends
      refine ⟨c :: u, d, w, m, rfl, fits_cons.mpr ⟨digit, good⟩,
        fun fits => offends (fits_cons.mp fits).2, fun rest => ?_⟩
      rw [taken, shifted]
      exact read rest
    · refine ⟨[], c, v, n, rfl, ⟨nofun, small⟩, large, fun rest => ?_⟩
      rw [taken, full]

theorem AmidChunks.read_sizeLine (h : AmidChunks p) (unset : p.length = 0) {size : List UInt8}
    (digits : ∀ c ∈ size, isHexDigit c = true) (small : numeral 16 size < 2 ^ 31)
    (ending : LineEnd) (rest : List UInt8) :
    (p.moveTo .chunkStart).read (size ++ ending.bytes ++ rest) =
      (({ p with length := (numeral 16 size).toUInt32 }.moveTo ⟨.chunkDataEol, 0⟩).note lineFeed
        .lengthChunk, rest) := by
  have nought : p.length.toNat = 0 := by
    rw [unset]
    rfl
  have fits : Fits isHexDigit 16 (2 ^ 31) p.length.toNat size := by
    rw [nought]
    exact ⟨digits, small⟩
  have read := h.read_size p.length (size ++ (ending.bytes ++ rest))
  rw [readSize_fits fits, readSize_lineEnd, nought] at read
  rw [List.append_assoc]
  exact read

theorem InChunks.quiet_dataEnd (h : InChunks head p) (n : UInt32) (ending : LineEnd) :
    Quiet ({ p with length := n }.moveTo ⟨.chunkDataEol, 0⟩) ending.bytes
      (p.moveTo .chunkStart) := by
  have moved : table.step ⟨.chunkDataEol, 0⟩ lineFeed = (.chunkStart, .lengthZero) := by
    rw [step_chunkDataEol, if_pos rfl]
  have taken := h.amid.readByte_lineFeed n ⟨.chunkDataEol, 0⟩
  rw [stepToken_moveTo _ moved] at taken
  refine quiet_lineEnd (taken.trans ?_) ending
  simp only [note, moveTo, ← h.length]

theorem note_size (p : Progress) (positive : p.length ≠ 0) :
    p.note c .lengthChunk =
      { progress := p.mark fun f => { f with hasLength := true }, verdict := .skip } := by
  have other : (p.mark fun f => { f with hasLength := true }).length ≠ 0 := positive
  simp only [note, if_neg other]

theorem note_zeroSize (p : Progress) (final : p.length = 0) :
    p.note c .lengthChunk =
      { progress := (p.mark fun f => { f with hasLength := true, inChunks := false }).inPhase
          .trailerStart
        verdict := .skip } := by
  have same : (p.mark fun f => { f with hasLength := true }).length = 0 := final
  simp only [note, if_pos same]
  rfl

theorem InChunks.mark_hasLength (h : InChunks head p) :
    InChunks head (p.mark fun f => { f with hasLength := true }) :=
  ⟨h.length, h.line, h.seenEol, h.inside, h.error, h.simple, h.chunked, h.bodied, h.head⟩

/-! ### Trailers -/

/-- Where the trailer lines begin. -/
def behindChunks (p : Progress) : Progress :=
  ((p.moveTo ⟨.chunkDataEol, 0⟩).mark fun f =>
    { f with hasLength := true, inChunks := false }).inPhase .trailerStart

theorem InChunks.read_zeroLine (h : InChunks head p) (t : Trailer) :
    (p.moveTo .chunkStart).read t.zeroLine =
      ({ progress := p.behindChunks, verdict := .skip }, []) := by
  have nought : numeral 16 t.zeros = 0 := numeral_zeros t.zero
  have digits : ∀ c ∈ t.zeros, isHexDigit c = true := fun c hc => by rw [t.zero c hc]; rfl
  have same : ({ p with length := Nat.toUInt32 0 } : Progress) = p := by
    rw [show Nat.toUInt32 0 = p.length from h.length.symm]
  have read := h.amid.read_sizeLine h.length digits (by rw [nought]; decide) t.zerosEnd []
  rw [List.append_nil, nought, same, note_zeroSize (p.moveTo ⟨.chunkDataEol, 0⟩) h.length] at read
  exact read

theorem InChunks.endHeaders_behindChunks (h : InChunks head p) :
    p.behindChunks.endHeaders = { progress := p.behindChunks, verdict := .flush } := by
  have bodied : (p.behindChunks.flags.noBody && p.behindChunks.flags.response) = false := h.bodied
  have chunked : p.behindChunks.flags.chunked = false := h.chunked
  have told : p.behindChunks.flags.hasLength = true := rfl
  have error : p.behindChunks.flags.error = false := h.error
  have simple : p.behindChunks.flags.simple = false := h.simple
  have bounded : (p.behindChunks.flags.post && !p.behindChunks.flags.chunked &&
      !p.behindChunks.flags.hasLength) = false := by rw [told, Bool.not_true, Bool.and_false]
  rw [endHeaders_eq error simple bounded, bodied, chunked, told, Bool.or_true]
  rfl

theorem quiet_trailerLine (start : p.line = .trailerStart) {l : Line} (solid : l.text ≠ []) :
    Quiet p l.bytes p := by
  obtain ⟨c, u, whole⟩ := List.exists_cons_of_ne_nil solid
  have plain : IsLineText (c :: u) := whole ▸ l.plain
  have first : p.readByte c = { progress := p.inPhase .trailerLine } := by
    obtain ⟨noReturn, noEnd⟩ := plain c List.mem_cons_self
    unfold readByte
    rw [if_neg noReturn]
    simp only [start, if_neg noEnd]
    rfl
  have rest : Quiet (p.inPhase .trailerLine) u (p.inPhase .trailerLine) := by
    have later : IsLineText u := fun b hb => plain b (List.mem_cons_of_mem c hb)
    clear plain first whole
    induction u with
    | nil => exact quiet_nil _
    | cons b u ih =>
      obtain ⟨noReturn, noEnd⟩ := later b List.mem_cons_self
      refine quiet_cons ?_ (ih fun b' hb' => later b' (List.mem_cons_of_mem b hb'))
      unfold readByte
      rw [if_neg noReturn]
      simp only [inPhase, if_neg noEnd]
  have last : (p.inPhase .trailerLine).readByte lineFeed = { progress := p } := by
    unfold readByte
    rw [if_neg (by decide)]
    simp only [inPhase, if_true, ← start]
  rw [Line.bytes, whole]
  exact (quiet_cons first rest).append (quiet_lineEnd last l.ending)

theorem quiet_trailerLines (start : p.line = .trailerStart) {lines : List Line}
    (solid : ∀ l ∈ lines, l.text ≠ []) : Quiet p (lines.flatMap Line.bytes) p := by
  induction lines with
  | nil => exact quiet_nil p
  | cons l lines ih =>
    rw [List.flatMap_cons]
    exact (quiet_trailerLine start (solid l List.mem_cons_self)).append
      (ih fun l' hl' => solid l' (List.mem_cons_of_mem l hl'))

theorem read_trailerRest (start : p.line = .trailerStart) (t : Trailer)
    (decides : p.endHeaders.verdict ≠ .search) : p.read t.rest = (p.endHeaders, []) := by
  have closes : p.readByte lineFeed = p.endHeaders := by
    unfold readByte
    rw [if_neg (by decide)]
    simp only [start, if_true]
  have last := read_lineEnd p t.blank []
  rw [List.append_nil, read_cons_decided (by rw [closes]; exact decides), closes] at last
  rw [Trailer.rest, (quiet_trailerLines start t.solid).read_append, last]

end Progress

end Http

variable {listens : Direction → Bool} {d : Direction}

namespace Exchange

theorem expectNoBody_or (r : Reader) (e e' : Bool) :
    (if e' then (if e then r.expectNoBody else r).expectNoBody
      else if e then r.expectNoBody else r) =
      if e || e' then r.expectNoBody else r := by
  cases e <;> cases e' <;> rfl

/-- Bytes of a direction raised nothing and led its reader to `r`; `ended` tells whether they have
ended a HEAD request. -/
structure Reaches (s : Exchange) (d : Direction) (r : Reader) (ended : Bool) (s' : Exchange) :
    Prop where
  running : s'.failed = false
  reader : s'.reader d = r
  raised : s'.raised = s.raised
  peer : s'.reader d.opposite =
    if ended then (s.reader d.opposite).expectNoBody else s.reader d.opposite

theorem Reaches.trans {s s' s'' : Exchange} {r r' : Reader} {e e' : Bool}
    (first : Reaches s d r e s') (next : Reaches s' d r' e' s'') :
    Reaches s d r' (e || e') s'' := by
  refine ⟨next.running, next.reader, next.raised.trans first.raised, ?_⟩
  rw [next.peer, first.peer]
  exact expectNoBody_or _ e e'

theorem takeAll_quiet {s : Exchange} (running : s.failed = false)
    (reading : (s.reader d).isReading = true) (heard : listens d = true) {cs : List UInt8}
    (nonempty : cs ≠ []) {q : Progress} (quiet : Progress.Quiet ((s.reader d).current d) cs q)
    (framed : q.flags.error = false) :
    Reaches s d ((s.reader d).goOn cs q) false (s.takeAll listens d cs) := by
  rw [takeAll_reading running reading heard nonempty quiet framed]
  refine ⟨?_, ?_, ?_, ?_⟩
  · rw [failed_follow, failed_setReader, running]
  · rw [reader_follow, reader_setReader_self]
    rfl
  · rw [raised_follow, raised_setReader, List.append_nil]
  · rw [opposite_reader_follow, reader_setReader_opposite]
    rfl

theorem takeAll_passed {s : Exchange} (running : s.failed = false)
    (reading : (s.reader d).isReading = true) (heard : listens d = true) {line data : List UInt8}
    (nonempty : line ≠ []) {q : Progress}
    (read : ((s.reader d).current d).read line = ({ progress := q, verdict := .skip }, []))
    (framed : q.flags.error = false) (told : q.length.toNat = data.length) :
    Reaches s d
      { (s.reader d).hold (line ++ data) with status := .skip, left := 0, progress := some q }
      (q.flags.noBody && q.flags.request) (s.takeAll listens d (line ++ data)) := by
  have taken := takeAll_reading running reading heard nonempty read framed
  generalize hs : s.takeAll listens d line = s₁ at taken
  have running₁ : s₁.failed = false := by rw [taken, failed_follow, failed_setReader, running]
  have reader₁ : s₁.reader d =
      { (s.reader d).hold line with
        status := .skip, left := data.length, progress := some q } := by
    rw [taken, reader_follow, reader_setReader_self, ← told]
    rfl
  have raised₁ : s₁.raised = s.raised := by
    rw [taken, raised_follow, raised_setReader, List.append_nil]
  have peer₁ : s₁.reader d.opposite =
      if q.flags.noBody && q.flags.request then (s.reader d.opposite).expectNoBody
      else s.reader d.opposite := by
    rw [taken, opposite_reader_follow, reader_setReader_opposite]
    rfl
  rw [takeAll_append, hs, takeAll_skip listens running₁ (by rw [reader₁]) data (by rw [reader₁])]
  refine ⟨?_, ?_, ?_, ?_⟩
  · rw [failed_setReader, running₁]
  · rw [reader_setReader_self, reader₁]
    simp only [Reader.hold, List.append_assoc, Nat.sub_self]
  · rw [raised_setReader, raised₁]
  · rw [reader_setReader_opposite, peer₁]

/-- A direction stands between two chunks, or before the first of them; `u` is what it has of their
message, and `head` tells whether that is a HEAD request. The other direction may know of it. -/
def AmongChunks (s : Exchange) (d : Direction) (head : Bool) (u : List UInt8) (s' : Exchange) :
    Prop :=
  ∃ p ended, Progress.InChunks head p ∧ (ended || head) = head ∧
    Reaches s d ((s.reader d).goOn u (p.moveTo .chunkStart)) ended s'

theorem Ready.takeAll_chunkedHead {s : Exchange} (ready : s.Ready d false)
    (heard : listens d = true) {h : Head d} (chunked : h.isChunked = true)
    (bodied : h.start.lacksBody false = false) :
    AmongChunks s d (d == .toServer && h.start.isHead) h.bytes (s.takeAll listens d h.bytes) := by
  have inChunks := Progress.inChunks_startChunks bodied
  have quiet := Head.quiet_chunkedHead chunked bodied
  rw [← ready.opening] at quiet
  exact ⟨_, false, inChunks, rfl, takeAll_quiet ready.running ready.reading heard h.bytes_ne_nil
    quiet inChunks.error⟩

/-- A chunk is taken whatever its data are. -/
theorem AmongChunks.takeAll_chunk {s s' : Exchange} {head : Bool} {u : List UInt8}
    (among : AmongChunks s d head u s') (heard : listens d = true) (c : Chunk) :
    AmongChunks s d head (u ++ c.bytes) (s'.takeAll listens d c.bytes) := by
  obtain ⟨p, ended, inChunks, known, reached⟩ := among
  have size : (numeral 16 c.size).toUInt32.toNat = c.data.length := by
    rw [c.told]
    exact UInt32.toNat_ofNat_of_lt' (Nat.lt_trans c.small (by decide))
  have positive : (numeral 16 c.size).toUInt32 ≠ 0 := by
    intro zero
    rw [zero] at size
    exact c.nonempty (List.eq_nil_of_length_eq_zero size.symm)
  have read := inChunks.amid.read_sizeLine inChunks.length c.digits (by rw [c.told]; exact c.small)
    c.sizeEnd []
  rw [List.append_nil] at read
  have current : (s'.reader d).current d = p.moveTo .chunkStart := by rw [reached.reader]; rfl
  rw [Progress.note_size _ positive, ← current] at read
  have passed := takeAll_passed reached.running (by rw [reached.reader]; rfl) heard
    (by simp [LineEnd.bytes_ne_nil]) read inChunks.error size
  -- a line end, and the next chunk may begin
  have next := inChunks.mark_hasLength
  have quiet := next.quiet_dataEnd (numeral 16 c.size).toUInt32 c.dataEnd
  have closed := takeAll_quiet passed.running (by rw [passed.reader]; rfl) heard
    c.dataEnd.bytes_ne_nil
    (q := (p.mark fun f => { f with hasLength := true }).moveTo .chunkStart)
    (by rw [passed.reader]; exact quiet) next.error
  have whole := reached.trans (passed.trans closed)
  rw [passed.reader, reached.reader, ← takeAll_append] at whole
  refine ⟨_, _, next, ?_, by
    simpa only [Reader.goOn, Reader.hold, Chunk.bytes, Chunk.sizeLine, List.append_assoc]
      using whole⟩
  have told : ((p.mark fun f => { f with hasLength := true }).flags.noBody &&
      (p.mark fun f => { f with hasLength := true }).flags.request) = head := next.head
  show (ended || (((p.mark fun f => { f with hasLength := true }).flags.noBody &&
    (p.mark fun f => { f with hasLength := true }).flags.request) || false) || head) = head
  rw [told, Bool.or_false, known, Bool.or_self]

theorem AmongChunks.takeAll_chunks {s s' : Exchange} {head : Bool} {u : List UInt8}
    (among : AmongChunks s d head u s') (heard : listens d = true) (cs : List Chunk) :
    AmongChunks s d head (u ++ cs.flatMap Chunk.bytes)
      (s'.takeAll listens d (cs.flatMap Chunk.bytes)) := by
  induction cs generalizing s' u with
  | nil =>
    rw [List.flatMap_nil, List.append_nil]
    exact among
  | cons c cs ih =>
    rw [List.flatMap_cons, takeAll_append, ← List.append_assoc]
    exact ih (among.takeAll_chunk heard c)

/-- Behind the last chunk the message ends with the blank line. -/
theorem AmongChunks.takeAll_trailer {s s' : Exchange} {head : Bool} {u : List UInt8}
    (among : AmongChunks s d head u s') (heard : listens d = true) (t : Trailer) :
    Reaches s d
      { status := .search
        progress := some (Progress.fresh (d == .toServer))
        messages := (s.reader d).messages ++ [(s.reader d).unfinished ++ u ++ t.bytes] }
      head (s'.takeAll listens d t.bytes) := by
  obtain ⟨p, ended, inChunks, known, reached⟩ := among
  have read := inChunks.read_zeroLine t
  have current : (s'.reader d).current d = p.moveTo .chunkStart := by rw [reached.reader]; rfl
  rw [← current] at read
  have bodiless : p.behindChunks.length.toNat = ([] : List UInt8).length :=
    congrArg UInt32.toNat inChunks.length
  have told : (p.behindChunks.flags.noBody && p.behindChunks.flags.request) = head :=
    inChunks.head
  have passed := takeAll_passed reached.running (by rw [reached.reader]; rfl) heard
    t.zeroLine_ne_nil read inChunks.error bodiless
  rw [List.append_nil] at passed
  generalize hs : s'.takeAll listens d t.zeroLine = s₁ at passed
  -- trailer lines, and the blank line
  have closes := inChunks.endHeaders_behindChunks
  have rest := Progress.read_trailerRest (p := p.behindChunks) rfl t
    (by rw [closes]; exact Verdict.noConfusion)
  rw [closes] at rest
  have taken := takeAll_reading passed.running (by rw [passed.reader]; rfl) heard t.rest_ne_nil
    (t := { progress := p.behindChunks, verdict := .flush }) (by rw [passed.reader]; exact rest)
    inChunks.error
  have last : Reaches s₁ d
      { status := .search
        progress := some (Progress.fresh (d == .toServer))
        messages := (s.reader d).messages ++ [(s.reader d).unfinished ++ u ++ t.bytes] }
      head (s₁.takeAll listens d t.rest) := by
    rw [taken]
    refine ⟨?_, ?_, ?_, ?_⟩
    · rw [failed_follow, failed_setReader, passed.running]
    · rw [reader_follow, reader_setReader_self, passed.reader, reached.reader]
      simp only [Reader.follow, bodiless, List.length_nil, Reader.await, if_true, Reader.hold,
        Reader.goOn, Trailer.bytes, List.append_assoc]
    · rw [raised_follow, raised_setReader, List.append_nil]
    · rw [opposite_reader_follow, reader_setReader_opposite, ← told]
      rfl
  have whole := reached.trans (passed.trans last)
  rw [told, Bool.or_self, known, ← hs, ← takeAll_append] at whole
  exact whole

theorem Ready.takeAll_chunkedMessage {s : Exchange} (ready : s.Ready d false)
    (heard : listens d = true) (m : ChunkedMessage d) :
    Reaches s d
      { status := .search
        progress := some (Progress.fresh (d == .toServer))
        messages := (s.reader d).messages ++ [m.bytes] }
      (d == .toServer && m.head.start.isHead) (s.takeAll listens d m.bytes) := by
  have head := ready.takeAll_chunkedHead heard m.chunked m.bodied
  have chunks := head.takeAll_chunks heard m.chunks
  have whole := chunks.takeAll_trailer heard m.trailer
  rw [← takeAll_append, ← takeAll_append, ready.unfinished, List.nil_append,
    ← List.append_assoc] at whole
  exact whole

end Exchange

/-- Whatever comes behind a message with chunks, a host cuts it off whole; if nothing does, the host
is left as it began. -/
theorem run_chunkedMessage {α : Type} [Holds α Progress] {e : Engine α Tally}
    (http : e.registry.IsHttp) (port : UInt16) (heard : e.registry.listens port d = true)
    (m : ChunkedMessage d) (more : List UInt8) (segments : List (List UInt8))
    (sent : segments.flatten = m.bytes ++ more) (small : (m.bytes ++ more).length < 2 ^ 31) :
    let r := (Host.openOn e port).run (segments.map fun segment => (d, segment))
    [m.bytes] <+: r.messages d ∧
      (more = [] → r.messages d = [m.bytes] ∧ r.unfinished d = [] ∧ r.host.session.raised = [] ∧
        progress? r.host.session d = some (Progress.fresh (d == .toServer))) := by
  intro r
  have reached := (Exchange.ready_empty d).takeAll_chunkedMessage heard m
  have cut : ((({} : Exchange).takeAll (e.registry.listens port) d m.bytes).reader d).messages =
      [m.bytes] := by
    rw [reached.reader]
    cases d <;> rfl
  have taken := Exchange.run_same (e.registry.listens port) {} d segments
  rw [sent, Exchange.takeAll_append] at taken
  rw [← sent] at small
  have fits := stream_same_lt d small
  refine ⟨?_, fun nothing => ?_⟩
  · have first : [m.bytes] <+: ((({} : Exchange).run (e.registry.listens port)
        (segments.map fun segment => (d, segment))).reader d).messages := by
      rw [taken, ← cut]
      exact Exchange.messages_takeAll _ more
    exact first.trans (Host.messages_run http port fits d)
  · subst nothing
    obtain ⟨kept, -⟩ := Host.run_follows http port fits
    rw [taken, Exchange.takeAll_nil] at kept
    have follows := kept reached.running
    refine ⟨?_, ?_, ?_, ?_⟩
    · rw [follows.messages d]
      exact cut
    · rw [follows.unfinished d, reached.reader]
    · rw [follows.host.raised, reached.raised]
    · rw [follows.progress? d, reached.reader]

/-- A request in two segments, under a bound of four bytes. The data of its chunk look like the end
of a message, and a content length is beside the point. What comes behind it is no message. -/
theorem run_chunkedMessage_request :
    let e := (Engine.ofRegistry (Registry.httpOn 80)).withBound 4
    let whole := ("POST / HTTP/1.1\r\nTransfer-Encoding: chunked\r\nContent-Length: 9\r\n\r\n" ++
      "5\r\n0\r\n\r\n\r\n00\r\nA: b\n\r\n").toUTF8.toList
    let segments := [whole.take 70, whole.drop 70]
    let r := (Host.openOn e 80).run (segments.map fun segment => (.toServer, segment))
    let r' := (Host.openOn e 80).run
      ((segments ++ ["<>\n\n".toUTF8.toList]).map fun segment => (.toServer, segment))
    segments.flatten.length < 2 ^ 31 ∧ r.messages .toServer = [whole] ∧ r.host.session.raised = [] ∧
      progress? r.host.session .toServer = some Progress.request ∧
      [whole] <+: r'.messages .toServer := by
  intro e whole segments r r'
  have http : e.registry.IsHttp := (Registry.isHttp_httpOn 80).withBound 4
  let coding : HeaderField :=
    { line := ⟨"Transfer-Encoding: chunked".toUTF8.toList, by decide +kernel, .crlf⟩
      begins := by decide +kernel }
  let length : HeaderField :=
    { line := ⟨"Content-Length: 9".toUTF8.toList, by decide +kernel, .crlf⟩
      begins := by decide +kernel }
  let line : RequestLine :=
    { method := "POST".toUTF8.toList, target := "/".toUTF8.toList, rest := "HTTP/1.1".toUTF8.toList
      isBlank_indent := by decide +kernel, isWord_method := by decide +kernel
      isBlank_gap := by decide +kernel, isWord_target := by decide +kernel
      isBlank_gap' := by decide +kernel, plain := by decide +kernel, begins := by decide +kernel }
  let chunk : Chunk :=
    { size := "5".toUTF8.toList, data := "0\r\n\r\n".toUTF8.toList
      digits := by decide +kernel, told := by decide +kernel, nonempty := by decide +kernel
      small := by decide +kernel }
  let trailer : Trailer :=
    { zeros := "00".toUTF8.toList, nonempty := by decide +kernel, zero := by decide +kernel
      lines := [⟨"A: b".toUTF8.toList, by decide +kernel, .lf⟩], solid := by decide +kernel }
  let m : ChunkedMessage .toServer :=
    { head :=
        { start := .request line, fields := [coding, length]
          valid := ⟨by decide +kernel, by decide +kernel⟩ }
      chunked := by decide +kernel
      bodied := rfl
      chunks := [chunk]
      trailer }
  have same : whole = m.bytes := by decide +kernel
  have sent : segments.flatten = m.bytes ++ [] := by decide +kernel
  have small : (m.bytes ++ []).length < 2 ^ 31 := by decide +kernel
  obtain ⟨-, alone⟩ := run_chunkedMessage http 80 (by decide +kernel) m [] segments sent small
  obtain ⟨messages, -, raised, fresh⟩ := alone rfl
  obtain ⟨first, -⟩ := run_chunkedMessage http 80 (by decide +kernel) m "<>\n\n".toUTF8.toList
    (segments ++ ["<>\n\n".toUTF8.toList]) (by decide +kernel) (by decide +kernel)
  rw [same]
  exact ⟨by rw [sent]; exact small, messages, raised, fresh, first⟩

end StreamFraming
