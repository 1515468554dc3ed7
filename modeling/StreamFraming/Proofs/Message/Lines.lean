import StreamFraming.Proofs.Message.HeaderLines

/-!
# Lines and the byte behind them

A line end in a head is taken when the byte behind it is known: white space goes on with the line,
and another line end closes the head. What is read byte by byte is therefore what the unfolded lines
lead to in the table (`leads_line`), and a blank line decides (`read_blankLine`). How the lines came
to lead there makes no difference to what is read behind them (`Leads.read_congr`).
-/

namespace StreamFraming.Http.Progress

open Token

variable {p q r m : Progress} {c : UInt8} {u v : List UInt8} {es fs : List Anomaly}

def inPhase (p : Progress) (x : LinePhase) : Progress := { p with line := x }

theorem inPhase_line (p : Progress) {x : LinePhase} (h : p.line = x) : p.inPhase x = p := by
  subst h
  rfl

/-! ### Lines and the table -/

theorem note_inPhase {a : Action} (search : (p.note c a).verdict = .search) (x : LinePhase) :
    (p.inPhase x).note c a = { p.note c a with progress := (p.note c a).progress.inPhase x } := by
  cases a
  case lengthChunk => cases search
  case shiftDecimal =>
    by_cases error : p.flags.error = true <;> cases known : Digit.shiftDecimal? p.length c <;>
      simp [note, inPhase, mark, error, known]
  case shiftHex =>
    by_cases error : p.flags.error = true <;> cases known : Digit.shiftHex? p.length c <;>
      simp [note, inPhase, mark, error, known]
  all_goals rfl

theorem note_frame {a : Action} (search : (p.note c a).verdict = .search) :
    (p.note c a).progress.line = p.line ∧
      (p.note c a).progress.flags.seenEol = p.flags.seenEol ∧
      (p.note c a).progress.flags.inChunks = p.flags.inChunks := by
  cases a
  case lengthChunk => cases search
  case shiftDecimal =>
    by_cases error : p.flags.error = true <;> cases known : Digit.shiftDecimal? p.length c <;>
      simp [note, mark, error, known]
  case shiftHex =>
    by_cases error : p.flags.error = true <;> cases known : Digit.shiftHex? p.length c <;>
      simp [note, mark, error, known]
  all_goals exact ⟨rfl, rfl, rfl⟩

/-- The table does not look at the phase of the line. -/
theorem stepToken_inPhase (step : p.stepToken c = { progress := q, raised := es })
    (x : LinePhase) : (p.inPhase x).stepToken c = { progress := q.inPhase x, raised := es } := by
  unfold stepToken at step ⊢
  simp only at step ⊢
  have search := congrArg Turn.verdict step
  have moved := note_inPhase search x
  rw [step] at moved
  exact moved

theorem stepToken_frame (step : p.stepToken c = { progress := q, raised := es }) :
    q.line = p.line ∧ q.flags.seenEol = p.flags.seenEol ∧ q.flags.inChunks = p.flags.inChunks := by
  unfold stepToken at step
  simp only at step
  have search := congrArg Turn.verdict step
  have kept := note_frame search
  rw [step] at kept
  exact kept

theorem Tells.frame (tells : Tells p u es q) :
    q.line = p.line ∧ q.flags.seenEol = p.flags.seenEol ∧ q.flags.inChunks = p.flags.inChunks := by
  induction tells with
  | nil p => exact ⟨rfl, rfl, rfl⟩
  | cons step _ ih =>
    obtain ⟨line, seenEol, inChunks⟩ := stepToken_frame step
    obtain ⟨line', seenEol', inChunks'⟩ := ih
    exact ⟨line'.trans line, seenEol'.trans seenEol, inChunks'.trans inChunks⟩

theorem Tells.split (tells : Tells p (u ++ v) es r) :
    ∃ q fs gs, Tells p u fs q ∧ Tells q v gs r ∧ es = fs ++ gs := by
  induction u generalizing p es with
  | nil => exact ⟨p, [], es, .nil p, tells, rfl⟩
  | cons c u ih =>
    cases tells with
    | cons step rest =>
      obtain ⟨q, fs, gs, first, last, rfl⟩ := ih rest
      exact ⟨q, _, gs, .cons step first, last, (List.append_assoc ..).symm⟩

structure InHead (p : Progress) : Prop where
  line : p.line = .inLine
  seenEol : p.flags.seenEol = true
  outside : p.flags.inChunks = false

theorem Tells.inHead (tells : Tells p u es q) (h : InHead p) : InHead q := by
  obtain ⟨line, seenEol, inChunks⟩ := tells.frame
  exact ⟨line.trans h.line, seenEol.trans h.seenEol, inChunks.trans h.outside⟩

theorem InHead.stepToken (h : InHead p) (step : p.stepToken c = { progress := q, raised := es }) :
    InHead q :=
  (tells_single step).inHead h

/-! ### Reading a line -/

/-- The bytes are read from `p` to `q` without a verdict, and these anomalies are raised. -/
def Takes (p : Progress) (cs : List UInt8) (es : List Anomaly) (q : Progress) : Prop :=
  p.read cs = ({ progress := q, raised := es }, [])

theorem takes_single (h : p.readByte c = { progress := q, raised := es }) : Takes p [c] es q := by
  unfold Takes
  rw [read_cons_search (by rw [h]), h]
  simp [read]

theorem Takes.read_append (h : Takes p u es q) (v : List UInt8) :
    p.read (u ++ v) =
      ({ (q.read v).1 with raised := es ++ (q.read v).1.raised }, (q.read v).2) := by
  unfold Takes at h
  rw [read_append_of_search (by rw [h]), h]
  rfl

theorem Takes.append (first : Takes p u es q) (rest : Takes q v fs r) :
    Takes p (u ++ v) (es ++ fs) r := by
  unfold Takes
  rw [first.read_append, rest]

@[simp] theorem readByte_return (p : Progress) : p.readByte carriageReturn = { progress := p } := by
  unfold readByte
  rw [if_pos rfl]

theorem read_lineEnd (p : Progress) (ending : LineEnd) (rest : List UInt8) :
    p.read (ending.bytes ++ rest) = p.read (lineFeed :: rest) := by
  cases ending with
  | lf => rfl
  | crlf =>
    have skipped : Quiet p [carriageReturn] p := quiet_single (readByte_return p)
    exact skipped.read_append (lineFeed :: rest)

theorem takes_lineEnd (step : p.readByte lineFeed = { progress := q, raised := es })
    (ending : LineEnd) : Takes p ending.bytes es q := by
  have read := read_lineEnd p ending []
  rw [List.append_nil] at read
  exact read.trans (takes_single step)

theorem quiet_lineEnd (step : p.readByte lineFeed = { progress := q }) (ending : LineEnd) :
    Quiet p ending.bytes q :=
  takes_lineEnd step ending

theorem readByte_text (inLine : p.line = .inLine) (plain : c ≠ carriageReturn ∧ c ≠ lineFeed) :
    p.readByte c = p.stepToken c := by
  unfold readByte
  rw [if_neg plain.1]
  simp only [inLine, readInLine]
  rw [if_pos plain.2]

theorem takes_text (tells : Tells p u es q) (inLine : p.line = .inLine) (plain : IsLineText u) :
    Takes p u es q := by
  induction tells with
  | nil p => rfl
  | cons step _ ih =>
    have first := takes_single ((readByte_text inLine (plain _ List.mem_cons_self)).trans step)
    exact first.append (ih ((stepToken_frame step).1.trans inLine)
      fun b hb => plain b (List.mem_cons_of_mem _ hb))

/-- Carriage returns inside a line do not count. -/
theorem takes_returns (tells : Tells p (u.filter (· ≠ carriageReturn)) es q)
    (inLine : p.line = .inLine) (inside : lineFeed ∉ u) : Takes p u es q := by
  induction u generalizing p es with
  | nil =>
    cases tells
    rfl
  | cons c u ih =>
    rw [List.mem_cons, not_or] at inside
    by_cases counts : c = carriageReturn
    · rw [List.filter_cons_of_neg (by simpa using counts)] at tells
      subst counts
      exact (takes_single (readByte_return p)).append (ih tells inLine inside.2)
    · rw [List.filter_cons_of_pos (by simpa using counts)] at tells
      cases tells with
      | cons step rest =>
        have first := takes_single
          ((readByte_text inLine ⟨counts, Ne.symm inside.1⟩).trans step)
        exact first.append (ih rest ((stepToken_frame step).1.trans inLine) inside.2)

theorem Takes.scan (h : Takes p u es q) (fromClient : Bool) :
    p.scan fromClient u = { progress := q, consumed := u.length, raised := es } := by
  unfold Takes at h
  rw [scan_eq_read, h]
  rfl

theorem endHeaders_inPhase (p : Progress) (x : LinePhase) :
    (p.inPhase x).endHeaders =
      { p.endHeaders with progress := p.endHeaders.progress.inPhase x } := by
  unfold endHeaders inPhase startChunks mark
  simp only
  split_ifs <;> rfl

theorem endHeaders_line (p : Progress) : p.endHeaders.progress.line = p.line := by
  have same := endHeaders_inPhase p p.line
  rw [inPhase_line p rfl] at same
  exact congrArg (fun t => t.progress.line) same

/-- Where a head closes that has nothing wrong about it, and that is no POST request without a
length. -/
theorem endHeaders_eq (framed : p.flags.error = false) (words : p.flags.simple = false)
    (bounded : (p.flags.post && !p.flags.chunked && !p.flags.hasLength) = false) :
    p.endHeaders =
      if p.flags.noBody && p.flags.response then
        { progress := { p with length := 0 }, verdict := .flush }
      else if p.flags.chunked then { progress := p.startChunks }
      else if p.flags.request || p.flags.hasLength then { progress := p, verdict := .flush }
      else if p.flags.version11 && p.flags.response then
        { progress := { p with length := 0 }, verdict := .flush,
          raised := [.messageSize "response without length"] }
      else { progress := p, verdict := .abort } := by
  unfold endHeaders
  simp only [bounded, framed, words, Bool.false_eq_true, if_false, Bool.false_or, List.nil_append]

theorem endHeaders_spoilt (spoilt : p.flags.error = true) (words : p.flags.simple = false)
    (hasLength : p.flags.hasLength = true) :
    p.endHeaders = { progress := { p with length := 0 }, verdict := .flush } := by
  unfold endHeaders
  simp only [hasLength, spoilt, words, Bool.not_true, Bool.and_false, Bool.false_eq_true, if_false,
    Bool.true_or, if_true]

theorem not_space_or_tab (solid : isBlank c = false) : ¬ (c = space ∨ c = tab) := by
  intro either
  simp [isBlank] at solid
  exact either.elim solid.1 solid.2

namespace InHead

theorem readByte_end (h : InHead p) :
    p.readByte lineFeed = { progress := p.inPhase .afterEol } := by
  unfold Progress.readByte
  rw [if_neg (by decide)]
  simp only [h.line, readInLine, h.seenEol, h.outside]
  rfl

theorem readByte_ended (inside : c ≠ carriageReturn) :
    (p.inPhase .afterEol).readByte c = (p.inPhase .afterEol).readAfterEol c := by
  unfold Progress.readByte
  rw [if_neg inside]
  rfl

theorem readByte_blank (h : InHead p) (blank : isBlank c = true)
    (step : p.stepToken space = { progress := q, raised := es }) :
    (p.inPhase .afterEol).readByte c = { progress := q, raised := es } := by
  have inside : c ≠ carriageReturn ∧ c ≠ lineFeed := by
    constructor <;> rintro rfl <;> cases blank
  have either : c = space ∨ c = tab := by simpa [isBlank] using blank
  have taken := stepToken_inPhase step .afterEol
  rw [readByte_ended inside.1, readAfterEol, if_neg inside.2, if_pos either, taken]
  simp only [inPhase, if_true]
  rw [← (h.stepToken step).line]

theorem readByte_congr {p' : Progress} (ended : p.stepToken lineFeed = { progress := q })
    (ended' : p'.stepToken lineFeed = { progress := q }) (inside : c ≠ carriageReturn)
    (solid : isBlank c = false) :
    (p.inPhase .afterEol).readByte c = (p'.inPhase .afterEol).readByte c := by
  rw [readByte_ended inside, readByte_ended inside]
  simp only [readAfterEol, if_neg (not_space_or_tab solid), stepToken_inPhase ended .afterEol,
    stepToken_inPhase ended' .afterEol]

theorem readByte_solid (h : InHead p)
    (ended : p.stepToken lineFeed = { progress := q, raised := es })
    (plain : c ≠ carriageReturn ∧ c ≠ lineFeed) (solid : isBlank c = false)
    (step : q.stepToken c = { progress := r, raised := fs }) :
    (p.inPhase .afterEol).readByte c = { progress := r, raised := es ++ fs } := by
  have taken := stepToken_inPhase step .afterEol
  rw [readByte_ended plain.1, readAfterEol, if_neg plain.2, if_neg (not_space_or_tab solid),
    stepToken_inPhase ended .afterEol]
  simp only [if_true, Turn.andThen, taken]
  simp only [inPhase, if_true]
  rw [← ((h.stepToken ended).stepToken step).line]

theorem readByte_lineFeed (h : InHead p)
    (ended : p.stepToken lineFeed = { progress := q, raised := es }) :
    (p.inPhase .afterEol).readByte lineFeed =
      { q.endHeaders with raised := es ++ q.endHeaders.raised } := by
  rw [readByte_ended (by decide), readAfterEol, if_pos rfl, stepToken_inPhase ended .afterEol]
  simp only [Turn.andThen, endHeaders_inPhase]
  simp only [inPhase, if_true]
  rw [← (h.stepToken ended).line, ← endHeaders_line]

end InHead

/-! ### Lines one after the other -/

/-- The bytes of a line lead to its end, and the line feed there would lead to `q`, with these
anomalies raised by then. -/
def Leads (p : Progress) (u : List UInt8) (es : List Anomaly) (q : Progress) : Prop :=
  ∃ r fs gs, Takes p u fs (r.inPhase .afterEol) ∧ InHead r ∧
    r.stepToken lineFeed = { progress := q, raised := gs } ∧ es = fs ++ gs

theorem Takes.leads (first : Takes p u es q) (rest : Leads q v fs r) :
    Leads p (u ++ v) (es ++ fs) r := by
  obtain ⟨s, gs, gs', takes, inHead, ended, rfl⟩ := rest
  exact ⟨s, es ++ gs, gs', first.append takes, inHead, ended, (List.append_assoc ..).symm⟩

theorem readByte_firstEnd {z : Position} (inLine : p.line = .inLine)
    (first : p.flags.seenEol = false) (words : p.flags.simple = false)
    (ends : table.step p.position lineFeed = (z, .nop)) :
    p.readByte lineFeed = { progress :=
      ((p.mark fun f => { f with seenEol := true }).moveTo z).inPhase .afterEol } := by
  have taken : (p.mark fun f => { f with seenEol := true }).stepToken lineFeed =
      { progress := (p.mark fun f => { f with seenEol := true }).moveTo z } :=
    stepToken_nop (p.mark fun f => { f with seenEol := true }) ends
  unfold readByte
  rw [if_neg (by decide)]
  simp only [inLine, readInLine, first, taken]
  simp [mark, moveTo, words, inPhase]

/-- The first line is taken with its end, and the byte behind it is not a part of it. -/
theorem leads_firstLine {x y z : Position} (passes : Passes p u (q.moveTo x)) (plain : IsLineText u)
    (inLine : p.line = .inLine) (first : p.flags.seenEol = false)
    (outside : p.flags.inChunks = false) (words : q.flags.simple = false)
    (step : table.step x lineFeed = (y, .nop)) (step' : table.step y lineFeed = (z, .nop))
    (ending : LineEnd) :
    Leads p (u ++ ending.bytes) [] ((q.mark fun f => { f with seenEol := true }).moveTo z) := by
  obtain ⟨line, seenEol, inChunks⟩ := passes.tells.frame
  have read : (q.moveTo x).readByte lineFeed = { progress :=
      ((q.mark fun f => { f with seenEol := true }).moveTo y).inPhase .afterEol } :=
    readByte_firstEnd (line.trans inLine) (seenEol.trans first) words step
  refine ⟨(q.mark fun f => { f with seenEol := true }).moveTo y, [], [], ?_,
    ⟨line.trans inLine, rfl, inChunks.trans outside⟩, stepToken_nop _ step', rfl⟩
  exact (takes_text passes.tells inLine plain).append (takes_lineEnd read ending)

/-- The rest of a line inside a head, with what is folded into it. -/
theorem leads_folds {folds : List Fold} (h : InHead p) (plain : IsLineText u)
    (tells : Tells p (u ++ folds.flatMap Fold.text ++ [lineFeed]) es q) (ending : LineEnd) :
    Leads p (u ++ ending.bytes ++ folds.flatMap Fold.bytes) es q := by
  induction folds generalizing p u es ending with
  | nil =>
    simp only [List.flatMap_nil, List.append_nil] at tells ⊢
    obtain ⟨r, fs, gs, text, last, rfl⟩ := tells.split
    cases last with
    | cons step rest =>
      cases rest
      have inHead := text.inHead h
      have takes := (takes_text text h.line plain).append
        (takes_lineEnd inHead.readByte_end ending)
      exact ⟨r, _, _, takes, inHead, step, by simp⟩
  | cons f folds ih =>
    rw [List.flatMap_cons, List.append_assoc, List.append_assoc] at tells
    obtain ⟨r, fs, gs, text, later, rfl⟩ := tells.split
    cases later with
    | cons step rest =>
      have inHead := text.inHead h
      have folded := ih (u := f.line.text) (inHead.stepToken step) f.line.plain
        (by rw [List.append_assoc]; exact rest) f.line.ending
      have first := (takes_text text h.line plain).append
        (takes_lineEnd inHead.readByte_end ending)
      have blank := takes_single (inHead.readByte_blank f.isBlank step)
      have whole := (first.append blank).leads folded
      rw [List.flatMap_cons, Fold.bytes, Line.bytes]
      simpa only [List.append_assoc, List.nil_append, List.append_nil, List.cons_append] using whole

theorem leads_line {l : Line} {folds : List Fold} (before : Leads p u es q)
    (begins : l.text.head?.map isBlank = some false)
    (tells : Tells q (l.text ++ folds.flatMap Fold.text ++ [lineFeed]) fs r) :
    Leads p (u ++ (l.bytes ++ folds.flatMap Fold.bytes)) (es ++ fs) r := by
  obtain ⟨s, gs, gs', takes, inHead, ended, rfl⟩ := before
  cases begun : l.text with
  | nil =>
    rw [begun] at begins
    cases begins
  | cons c v =>
    rw [begun] at begins tells
    have plain := l.plain
    rw [begun] at plain
    cases tells with
    | cons step rest =>
      have first := takes_single (inHead.readByte_solid ended (plain c List.mem_cons_self)
        (Option.some.inj begins) step)
      have later := leads_folds ((inHead.stepToken ended).stepToken step)
        (fun b hb => plain b (List.mem_cons_of_mem c hb)) rest l.ending
      have whole := (takes.append first).leads later
      rw [Line.bytes, begun]
      simpa only [List.append_assoc, List.nil_append, List.cons_append] using whole

theorem leads_field {f : HeaderField} (before : Leads p u es q)
    (tells : Tells q (f.text ++ [lineFeed]) fs r) : Leads p (u ++ f.bytes) (es ++ fs) r :=
  leads_line before f.begins tells

/-! ### The blank line -/

theorem read_blankLine (before : Leads p u es q) (ending : LineEnd)
    (decides : q.endHeaders.verdict ≠ .search) (rest : List UInt8) :
    p.read (u ++ ending.bytes ++ rest) =
      ({ q.endHeaders with raised := es ++ q.endHeaders.raised }, rest) := by
  obtain ⟨r, fs, gs, takes, inHead, ended, rfl⟩ := before
  have last := inHead.readByte_lineFeed ended
  have taken : (r.inPhase .afterEol).read (lineFeed :: rest) =
      ({ q.endHeaders with raised := gs ++ q.endHeaders.raised }, rest) := by
    rw [read_cons_decided (by rw [last]; exact decides), last]
  rw [List.append_assoc, takes.read_append, read_lineEnd, taken, List.append_assoc]

theorem quiet_blankLine (before : Leads p u [] q) (ending : LineEnd)
    (goesOn : q.endHeaders = { progress := r }) : Quiet p (u ++ ending.bytes) r := by
  obtain ⟨s, fs, gs, takes, inHead, ended, quiet⟩ := before
  obtain ⟨rfl, rfl⟩ := List.append_eq_nil_iff.mp quiet.symm
  have last := inHead.readByte_lineFeed ended
  rw [goesOn] at last
  exact takes.append (takes_lineEnd last ending)

/-- Fields, a blank line and whatever follows are read alike behind lines that lead alike. -/
theorem Leads.read_congr {p' : Progress} {u' : List UInt8} (h : Leads p u [] q)
    (h' : Leads p' u' [] q) (fields : List HeaderField) (ending : LineEnd) (rest : List UInt8) :
    p.read (u ++ (fields.flatMap HeaderField.bytes ++ ending.bytes ++ rest)) =
      p'.read (u' ++ (fields.flatMap HeaderField.bytes ++ ending.bytes ++ rest)) := by
  obtain ⟨r, fs, gs, takes, inHead, ended, quiet⟩ := h
  obtain ⟨rfl, rfl⟩ := List.append_eq_nil_iff.mp quiet.symm
  obtain ⟨r', fs, gs, takes', inHead', ended', quiet⟩ := h'
  obtain ⟨rfl, rfl⟩ := List.append_eq_nil_iff.mp quiet.symm
  have same {c : UInt8} (inside : c ≠ carriageReturn) (solid : isBlank c = false)
      (cs : List UInt8) :
      (r.inPhase .afterEol).read (c :: cs) = (r'.inPhase .afterEol).read (c :: cs) := by
    rw [read, read, InHead.readByte_congr ended ended' inside solid]
  rw [takes.read_append, takes'.read_append]
  cases fields with
  | nil =>
    rw [List.flatMap_nil, List.nil_append, read_lineEnd, read_lineEnd, same (by decide) (by decide)]
  | cons f fields =>
    cases begun : f.line.text with
    | nil =>
      have begins := f.begins
      rw [begun] at begins
      cases begins
    | cons c v =>
      have begins := f.begins
      have plain := f.line.plain
      rw [begun] at begins plain
      rw [List.flatMap_cons, HeaderField.bytes, Line.bytes, begun]
      simp only [List.cons_append]
      rw [same (plain c List.mem_cons_self).1 (Option.some.inj begins)]

end StreamFraming.Http.Progress
