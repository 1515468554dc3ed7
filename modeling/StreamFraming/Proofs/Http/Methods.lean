import StreamFraming.Proofs.Http.Reading

/-!
# How a HEAD request begins

The table notes that a message has no body at a status line, or at a request line that begins with
`HEAD` and white space. So of a message that is read from the start of a request the flag says how
its bytes begin (`Reads.read`), and the flag that it is a request never changes (`request_read`).
-/

namespace StreamFraming.Http

open Token

def headWord : List UInt8 := ascii ['H', 'E', 'A', 'D', ' ']

/-- But for carriage returns and for the case of letters, the bytes begin with `HEAD` and white
space. -/
def BeginsHead (m : List UInt8) : Prop := headWord <+: (m.filter (· ≠ carriageReturn)).map fold

instance (m : List UInt8) : Decidable (BeginsHead m) :=
  inferInstanceAs (Decidable (_ <+: _))

theorem BeginsHead.append {m : List UInt8} (begins : BeginsHead m) (more : List UInt8) :
    BeginsHead (m ++ more) := by
  unfold BeginsHead at *
  rw [List.filter_append, List.map_append]
  exact begins.trans (List.prefix_append _ _)

namespace Token

/-- A place that is met behind the method of a request. -/
def Position.IsLate (p : Position) : Prop :=
  p.block ≠ .statusLine ∧ p.block ≠ .leadingBlank ∧ (p.block = .requestLine → 5 ≤ p.step)

instance (p : Position) : Decidable p.IsLate :=
  inferInstanceAs (Decidable (_ ∧ _ ∧ _))

/-- Late rows lead to late places, and note nothing about bodies. -/
theorem late_rows :
    ∀ b ∈ Block.all, ∀ i < b.size, ∀ row ∈ table.row? ⟨b, i⟩, Position.IsLate ⟨b, i⟩ →
      row.next.IsLate ∧ row.other.IsLate ∧ row.action ≠ .noBody := by
  decide +kernel

theorem late_row {p : Position} (late : p.IsLate) {row : Row} (found : table.row? p = some row) :
    row.next.IsLate ∧ row.other.IsLate ∧ row.action ≠ .noBody :=
  of_row? (P := fun p row => p.IsLate → row.next.IsLate ∧ row.other.IsLate ∧ row.action ≠ .noBody)
    late_rows found late

theorem late_seek {p : Position} (late : p.IsLate) (c : UInt8) (n : Nat) :
    (table.seek c n p).1.IsLate ∧ (table.seek c n p).2 ≠ .noBody := by
  refine seek_closed (T := fun q a => q.IsLate ∧ a ≠ .noBody) (fun late => ⟨late, by decide⟩)
    (fun late found => ?_) late n
  obtain ⟨next, other, action⟩ := late_row late found
  exact ⟨other, fun _ => ⟨next, action⟩⟩

theorem row_headWord (i : Fin 5) :
    table.row? ⟨.requestLine, i⟩ =
      some ⟨⟨.requestLine, i⟩, if i = 4 then .blank else .byte headWord[i],
        ⟨.requestLine, if i = 4 then 12 else i + 1⟩, ⟨.requestLine, if i = 0 then 5 else 10⟩,
        if i = 4 then .noBody else .nop⟩ := by
  revert i
  decide +kernel

theorem seek_headWord (i : Fin 5) (c : UInt8) (n : Nat) :
    table.seek c (n + 1) ⟨.requestLine, i⟩ =
      if c = headWord[i] then
        (⟨.requestLine, if i = 4 then 12 else i + 1⟩, if i = 4 then .noBody else .nop)
      else table.seek c n ⟨.requestLine, if i = 0 then 5 else 10⟩ := by
  have accepts : (if i = 4 then Pattern.blank else .byte headWord[i]).accepts c =
      (c == headWord[i]) := by
    split
    · rename_i last
      subst last
      rfl
    · rfl
  rw [seek_succ (row_headWord i)]
  simp only [accepts, beq_iff_eq]

theorem step_headWord {i : Fin 5} {c : UInt8} (fits : fold c = headWord[i]) :
    table.step ⟨.requestLine, i⟩ c =
      (⟨.requestLine, if i = 4 then 12 else i + 1⟩, if i = 4 then .noBody else .nop) := by
  rw [Table.step, size_table, seek_headWord, if_pos fits]

theorem late_step_headWord {i : Fin 5} {c : UInt8} (other : fold c ≠ headWord[i]) :
    (table.step ⟨.requestLine, i⟩ c).1.IsLate ∧ (table.step ⟨.requestLine, i⟩ c).2 ≠ .noBody := by
  rw [Table.step, size_table, seek_headWord, if_neg other]
  apply late_seek
  split <;> decide

theorem lineFeed_notin_headWord (i : Fin 5) : fold lineFeed ≠ headWord[i] := by
  revert i
  decide

end Token

namespace Progress

variable {p : Progress} {m : List UInt8}

theorem flags_note (p : Progress) (c : UInt8) (a : Action) :
    (p.note c a).progress.flags.request = p.flags.request ∧
      (a ≠ .noBody → (p.note c a).progress.flags.noBody = p.flags.noBody) := by
  cases a
  case noBody => exact ⟨rfl, fun other => absurd rfl other⟩
  case shiftDecimal =>
    simp only [note]
    split
    · exact ⟨rfl, fun _ => rfl⟩
    · split <;> exact ⟨rfl, fun _ => rfl⟩
  case shiftHex =>
    simp only [note]
    split
    · exact ⟨rfl, fun _ => rfl⟩
    · split <;> exact ⟨rfl, fun _ => rfl⟩
  case lengthChunk =>
    simp only [note]
    split <;> exact ⟨rfl, fun _ => rfl⟩
  all_goals exact ⟨rfl, fun _ => rfl⟩

theorem position_note (p : Progress) (c : UInt8) (a : Action) :
    (p.note c a).progress.position = p.position := by
  cases a
  case shiftDecimal =>
    simp only [note]
    split
    · rfl
    · split <;> rfl
  case shiftHex =>
    simp only [note]
    split
    · rfl
    · split <;> rfl
  case lengthChunk =>
    simp only [note]
    split <;> rfl
  all_goals rfl

/-- The end of the head changes neither flag, and the place only to that of a chunk. -/
theorem endHeaders_keeps (p : Progress) :
    p.endHeaders.progress.flags.request = p.flags.request ∧
      p.endHeaders.progress.flags.noBody = p.flags.noBody ∧
      (p.endHeaders.progress.position = p.position ∨
        p.endHeaders.progress.position = .chunkStart) := by
  unfold endHeaders
  extract_lets unbounded q raised
  have same : q.flags.request = p.flags.request ∧ q.flags.noBody = p.flags.noBody ∧
      q.position = p.position := by
    simp only [q]
    split <;> exact ⟨rfl, rfl, rfl⟩
  obtain ⟨request, noBody, position⟩ := same
  split
  · exact ⟨request, noBody, .inl position⟩
  · split
    · exact ⟨request, noBody, .inr rfl⟩
    · split
      · exact ⟨request, noBody, .inl position⟩
      · split
        · exact ⟨request, noBody, .inl position⟩
        · exact ⟨request, noBody, .inl position⟩

theorem request_readByte (p : Progress) (c : UInt8) :
    (p.readByte c).progress.flags.request = p.flags.request := by
  refine readByte_keeps (K := fun q => q.flags.request = p.flags.request) ?_ ?_ ?_ ?_ rfl c
  · intro q c kept
    unfold stepToken
    exact (flags_note _ _ _).1.trans kept
  · intro q kept
    exact (endHeaders_keeps q).1.trans kept
  · intro q line kept
    exact kept
  · intro q kept
    exact kept

theorem request_read (p : Progress) (cs : List UInt8) :
    (p.read cs).1.progress.flags.request = p.flags.request :=
  read_keeps (K := fun q => q.flags.request = p.flags.request)
    (fun q c kept => (request_readByte q c).trans kept) rfl cs

/-! ### Bytes read from the start of a request -/

/-- The place is behind the method, and whether the message has a body is known. -/
structure IsPast (noBody : Bool) (p : Progress) : Prop where
  late : p.position.IsLate
  noBody : p.flags.noBody = noBody

variable {b : Bool}

theorem IsPast.stepToken (past : p.IsPast b) (c : UInt8) : (p.stepToken c).progress.IsPast b := by
  obtain ⟨late, action⟩ := late_seek past.late (fold c) table.size
  unfold Progress.stepToken Table.step
  refine ⟨?_, ?_⟩
  · rw [position_note]
    exact late
  · exact ((flags_note _ _ _).2 action).trans past.noBody

theorem IsPast.endHeaders (past : p.IsPast b) : p.endHeaders.progress.IsPast b := by
  obtain ⟨-, noBody, position⟩ := endHeaders_keeps p
  refine ⟨?_, noBody.trans past.noBody⟩
  rcases position with position | position
  · rw [position]
    exact past.late
  · rw [position]
    decide

theorem IsPast.readByte (past : p.IsPast b) (c : UInt8) : (p.readByte c).progress.IsPast b :=
  readByte_keeps (fun _ c past => past.stepToken c) (fun _ past => past.endHeaders)
    (fun _ _ past => ⟨past.late, past.noBody⟩) (fun _ past => ⟨past.late, past.noBody⟩) past c

/-- The progress is in the method of a request line that began with these bytes. -/
structure IsInMethod (m : List UInt8) (i : Fin 5) (p : Progress) : Prop where
  place : p.position = ⟨.requestLine, i⟩
  noBody : p.flags.noBody = false
  bytes : (m.filter (· ≠ carriageReturn)).map fold = headWord.take i

/-- The bytes lead from the start of a request to the progress. -/
inductive Reads (m : List UInt8) (p : Progress) : Prop where
  | inMethod {i : Fin 5} (placed : p.IsInMethod m i) (line : p.line = .inLine)
      (seenEol : p.flags.seenEol = false)
  | head (begins : BeginsHead m) (past : p.IsPast true)
  | other (past : p.IsPast false)

theorem reads_request : request.Reads [] := .inMethod (i := 0) ⟨rfl, rfl, rfl⟩ rfl rfl

theorem Reads.beginsHead (reads : p.Reads m) (noBody : p.flags.noBody = true) : BeginsHead m := by
  cases reads with
  | inMethod placed =>
    rw [placed.noBody] at noBody
    cases noBody
  | head begins past => exact begins
  | other past =>
    rw [past.noBody] at noBody
    cases noBody

variable {i : Fin 5} {c : UInt8}

theorem IsInMethod.bytes_append (placed : p.IsInMethod m i) (counts : c ≠ carriageReturn)
    (fits : fold c = headWord[i]) :
    ((m ++ [c]).filter (· ≠ carriageReturn)).map fold = headWord.take (i + 1) := by
  rw [List.filter_append, List.map_append, placed.bytes,
    List.filter_cons_of_pos (by simpa using counts)]
  show headWord.take i ++ [fold c] = _
  rw [fits]
  exact List.take_concat_get' headWord i i.isLt

theorem IsInMethod.stepToken (placed : p.IsInMethod m i) (line : p.line = .inLine)
    (seenEol : p.flags.seenEol = false) (counts : c ≠ carriageReturn)
    (fits : fold c = headWord[i]) : (p.stepToken c).progress.Reads (m ++ [c]) := by
  have bytes := placed.bytes_append counts fits
  have step := step_headWord fits
  rw [← placed.place] at step
  unfold Progress.stepToken
  rw [step]
  by_cases last : i = 4
  · subst last
    refine .head ?_ ⟨(by decide : Position.IsLate ⟨.requestLine, 12⟩), rfl⟩
    unfold BeginsHead
    rw [bytes]
    exact List.prefix_refl _
  · rw [if_neg last, if_neg last]
    have inside : i.val + 1 < 5 := by omega
    exact .inMethod (i := ⟨i + 1, inside⟩) ⟨rfl, placed.noBody, bytes⟩ line seenEol

theorem IsInMethod.leaves (placed : p.IsInMethod m i) (other : fold c ≠ headWord[i]) :
    (p.stepToken c).progress.IsPast false := by
  obtain ⟨late, action⟩ := late_step_headWord other
  rw [← placed.place] at late action
  unfold Progress.stepToken
  refine ⟨?_, ?_⟩
  · rw [position_note]
    exact late
  · exact ((flags_note _ _ _).2 action).trans placed.noBody

/-- The first line end leads past the method. -/
theorem IsInMethod.readInLine_lineFeed (placed : p.IsInMethod m i)
    (seenEol : p.flags.seenEol = false) : (p.readInLine lineFeed).progress.IsPast false := by
  have marked : (p.mark fun f => { f with seenEol := true }).IsInMethod m i :=
    ⟨placed.place, placed.noBody, placed.bytes⟩
  have past := marked.leaves (lineFeed_notin_headWord i)
  rw [Progress.readInLine, if_neg (by simp), seenEol]
  simp only [Bool.not_false, if_true]
  split
  · exact past.endHeaders
  · exact ⟨past.late, past.noBody⟩

theorem Reads.readByte (reads : p.Reads m) (c : UInt8) :
    (p.readByte c).progress.Reads (m ++ [c]) := by
  cases reads with
  | head begins past => exact .head (begins.append [c]) (past.readByte c)
  | other past => exact .other (past.readByte c)
  | @inMethod i placed line seenEol =>
    unfold Progress.readByte
    by_cases counts : c = carriageReturn
    · rw [if_pos counts]
      refine .inMethod ⟨placed.place, placed.noBody, ?_⟩ line seenEol
      rw [List.filter_append, counts]
      simpa using placed.bytes
    · rw [if_neg counts, line]
      simp only
      by_cases ended : c = lineFeed
      · rw [ended]
        exact .other (placed.readInLine_lineFeed seenEol)
      · rw [readInLine, if_pos ended]
        by_cases fits : fold c = headWord[i]
        · exact placed.stepToken line seenEol counts fits
        · exact .other (placed.leaves fits)

/-- What is read up to a decision, and what it leads to. -/
theorem Reads.read (reads : p.Reads m) (cs : List UInt8) :
    (p.read cs).1.progress.Reads (m ++ cs.take (cs.length - (p.read cs).2.length)) := by
  induction cs generalizing m p with
  | nil => simpa [Progress.read] using reads
  | cons c cs ih =>
    by_cases search : (p.readByte c).verdict = .search
    · have later := ih (reads.readByte c)
      have shorter := (read_suffix (p.readByte c).progress cs).length_le
      rw [read_cons_search search]
      simp only [List.length_cons]
      rw [show cs.length + 1 - ((p.readByte c).progress.read cs).2.length =
        (cs.length - ((p.readByte c).progress.read cs).2.length) + 1 by omega, List.take_succ_cons]
      rw [List.append_assoc] at later
      exact later
    · rw [read_cons_decided search]
      simpa using reads.readByte c

/-- A scan of a message that was read this far: only a HEAD request is told of, and the next message
begins behind a flush. -/
theorem Reads.scan (reads : p.Reads m) (window : List UInt8) :
    let s := p.scan true window
    let m' := m ++ window.take s.consumed
    (s.headDone = true → s.verdict ≠ .search ∧ BeginsHead m') ∧
      (s.verdict ≠ .abort → s.progress.flags.error = true ∨
        s.progress.Reads (if s.verdict = .flush then [] else m')) := by
  have read := reads.read window
  rw [scan_eq_read]
  by_cases search : (p.read window).1.verdict = .search
  · rw [read_rest_of_search search] at read
    simp only [search, if_true, Bool.false_eq_true, reduceCtorEq, if_false]
    exact ⟨nofun, fun _ => .inr read⟩
  · generalize (p.read window).1 = t at read search ⊢
    rw [if_neg search, settle]
    cases error : t.progress.flags.error with
    | true =>
      simp only [if_true]
      exact ⟨nofun, fun _ => .inl error⟩
    | false =>
      simp only [Bool.false_eq_true, if_false]
      refine ⟨fun ended => ⟨search, ?_⟩, fun ongoing => .inr ?_⟩
      · exact read.beginsHead (Bool.and_eq_true_iff.mp ended).1
      · cases verdict : t.verdict with
        | search => exact absurd verdict search
        | abort => exact absurd verdict ongoing
        | skip =>
          simp only [if_true, reduceCtorEq, if_false]
          exact read
        | flush =>
          simp only [if_true, reduceCtorEq, if_false]
          exact reads_request

end Progress

end StreamFraming.Http
