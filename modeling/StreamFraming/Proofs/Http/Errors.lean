import StreamFraming.Proofs.Http.Methods

/-!
# Where errors arise

A number that does not fit or a line of two words makes a message one that cannot be framed, and the
reading goes on up to the end of the head. Sizes of chunks are read behind the head, where an error
is decided at once. So a chunk is announced of messages without an error alone
(`Progress.sound_of_skip`).
-/

namespace StreamFraming.Http

open Token

namespace Token

/-- A place that is met among chunks. -/
def Position.isChunk (p : Position) : Bool := p.block == .chunkSize || p.block == .chunkDataEol

/-- What may be noted at a place: among chunks no error that is left to the end of the head, and
elsewhere nothing about chunks. -/
def Position.Notes (p : Position) (a : Action) : Prop :=
  if p.isChunk then a ≠ .shiftDecimal ∧ a ≠ .simple else a ≠ .shiftHex ∧ a ≠ .lengthChunk

instance (p : Position) (a : Action) : Decidable (p.Notes a) := by
  unfold Position.Notes
  infer_instance

theorem chunk_rows :
    ∀ b ∈ Block.all, ∀ i < b.size, ∀ row ∈ table.row? ⟨b, i⟩,
      row.next.isChunk = Position.isChunk ⟨b, i⟩ ∧ row.other.isChunk = Position.isChunk ⟨b, i⟩ ∧
        Position.Notes ⟨b, i⟩ row.action := by
  decide +kernel

theorem Position.notes_nop (p : Position) : p.Notes .nop := by
  unfold Notes
  split <;> exact ⟨nofun, nofun⟩

/-- No byte leads to chunks or out of them. -/
theorem chunk_seek (p : Position) (c : UInt8) (n : Nat) :
    (table.seek c n p).1.isChunk = p.isChunk ∧ p.Notes (table.seek c n p).2 := by
  refine seek_closed (S := fun q => q.isChunk = p.isChunk)
    (T := fun q a => q.isChunk = p.isChunk ∧ p.Notes a) (fun same => ⟨same, p.notes_nop⟩)
    (fun same found => ?_) rfl n
  obtain ⟨next, other, notes⟩ := of_row? (P := fun q row =>
    row.next.isChunk = q.isChunk ∧ row.other.isChunk = q.isChunk ∧ q.Notes row.action)
    chunk_rows found
  unfold Position.Notes at notes ⊢
  rw [same] at next other notes
  exact ⟨other, fun _ => ⟨next, notes⟩⟩

end Token

/-- An error waits for the end of the head. -/
def Progress.Defers (p : Progress) : Prop := p.flags.error = true → p.position.isChunk = false

/-- Where the reading goes on an error waits for the end of the head, and no chunk is announced of a
message with an error. -/
structure Turn.Defers (t : Turn) : Prop where
  onward : t.verdict = .search → t.progress.Defers
  skip : t.verdict = .skip → t.progress.flags.error = false

namespace Progress

variable {p : Progress}

theorem defers_of_sound (sound : p.flags.error = false) : p.Defers := by
  intro error
  rw [sound] at error
  cases error

theorem sound_note (sound : p.flags.error = false) (c : UInt8) {a : Action}
    (notes : a ≠ .shiftDecimal ∧ a ≠ .simple) (other : (p.note c a).verdict ≠ .flush) :
    (p.note c a).progress.flags.error = false := by
  cases a
  case shiftDecimal => exact absurd rfl notes.1
  case simple => exact absurd rfl notes.2
  case shiftHex =>
    simp only [note, sound] at other ⊢
    split
    · rename_i same
      cases same
    · split
      · exact sound
      · rename_i overflow
        rw [if_neg Bool.false_ne_true, overflow] at other
        exact absurd rfl other
  case lengthChunk =>
    simp only [note]
    split <;> exact sound
  all_goals exact sound

theorem search_note (p : Progress) (c : UInt8) {a : Action}
    (notes : a ≠ .shiftHex ∧ a ≠ .lengthChunk) : (p.note c a).verdict = .search := by
  cases a
  case shiftHex => exact absurd rfl notes.1
  case lengthChunk => exact absurd rfl notes.2
  case shiftDecimal =>
    simp only [note]
    split
    · rfl
    · split <;> rfl
  all_goals rfl

theorem Defers.stepToken (defers : p.Defers) (c : UInt8) : (p.stepToken c).Defers := by
  unfold Progress.stepToken Table.step
  obtain ⟨kept, notes⟩ := chunk_seek p.position (fold c) table.size
  generalize table.seek (fold c) table.size p.position = found at kept notes
  obtain ⟨position, action⟩ := found
  simp only at kept notes ⊢
  unfold Position.Notes at notes
  cases among : p.position.isChunk with
  | true =>
    rw [among, if_pos rfl] at notes
    have sound : p.flags.error = false := by
      rw [Bool.eq_false_iff]
      intro error
      rw [defers error] at among
      cases among
    have kept := sound_note (p := { p with position }) sound (fold c) notes
    refine ⟨fun search => defers_of_sound (kept ?_), fun skip => kept ?_⟩
    · rw [search]
      nofun
    · rw [skip]
      nofun
  | false =>
    rw [among, if_neg Bool.false_ne_true] at notes
    have search := search_note { p with position } (fold c) notes
    refine ⟨fun _ _ => ?_, fun skip => ?_⟩
    · rw [position_note]
      exact kept.trans among
    · rw [search] at skip
      cases skip

/-- The end of the head goes on with chunks of messages without an error alone. -/
theorem defers_endHeaders (p : Progress) : p.endHeaders.Defers := by
  unfold endHeaders
  extract_lets unbounded q raised
  split
  · exact ⟨nofun, nofun⟩
  · rename_i decided
    rw [Bool.or_eq_true, not_or, Bool.not_eq_true] at decided
    split
    · exact ⟨fun _ => defers_of_sound decided.1, nofun⟩
    · split
      · exact ⟨nofun, nofun⟩
      · split <;> exact ⟨nofun, nofun⟩

theorem Defers.readByte (defers : p.Defers) (c : UInt8) : (p.readByte c).Defers := by
  refine readByte_turns (K := Progress.Defers) ?_ ?_ ?_ ?_ ?_ ?_ ?_ defers c
  · exact fun c defers => defers.stepToken c
  · intro p c defers search
    obtain ⟨onward, skip⟩ := ((defers.stepToken lineFeed).onward search).stepToken c
    exact ⟨onward, skip⟩
  · exact fun {p} _ => defers_endHeaders p
  · intro p _
    obtain ⟨onward, skip⟩ := defers_endHeaders (p.stepToken lineFeed).progress
    exact ⟨onward, skip⟩
  · exact fun _ defers => ⟨defers.onward, defers.skip⟩
  · exact fun defers => ⟨fun _ => defers, nofun⟩
  · exact id

theorem Defers.read (defers : p.Defers) (cs : List UInt8) : (p.read cs).1.Defers := by
  refine read_turns (K := Progress.Defers) ?_ ?_ ?_ ?_ defers cs
  · exact fun defers => ⟨fun _ => defers, nofun⟩
  · exact fun c defers => defers.readByte c
  · exact fun turn => turn.onward
  · exact fun _ _ later => ⟨later.onward, later.skip⟩

/-! ### What a scan says of errors -/

variable (fromClient : Bool) (window : List UInt8)

theorem sound_of_skip (sound : p.flags.error = false)
    (skip : (p.scan fromClient window).verdict = .skip) :
    (p.scan fromClient window).progress.flags.error = false := by
  rw [scan_eq_read] at skip ⊢
  split
  · rename_i search
    rw [if_pos search] at skip
    cases skip
  · rename_i decided
    rw [if_neg decided] at skip
    have read : (p.read window).1.verdict = .skip := by
      unfold settle at skip
      split at skip <;> exact skip
    have sound := ((defers_of_sound sound).read window).skip read
    unfold settle
    rw [if_neg (by rw [sound]; exact Bool.false_ne_true)]
    simp only [read, if_true]
    exact sound

/-- A message that cannot be framed takes the whole window along. -/
theorem point_of_error (decided : (p.scan fromClient window).verdict ≠ .search)
    (error : (p.scan fromClient window).progress.flags.error = true) :
    (p.scan fromClient window).point = Length.ofNat window.length := by
  have settled : (p.read window).1.verdict ≠ .search := by
    intro search
    rw [scan_eq_read, if_pos search] at decided
    exact decided rfl
  rw [scan_eq_read, if_neg settled] at error ⊢
  unfold settle at error ⊢
  split at error
  · rename_i spoilt
    rw [if_pos spoilt]
  · rename_i framed
    simp only at error
    split at error
    · exact absurd error framed
    · cases fromClient <;> cases error

end Progress

/-! ### Requests of two words -/

/-- A turn that finds a request to have had two words ends it. -/
def Turn.Classifies (t : Turn) : Prop :=
  .simpleRequest ∈ t.raised → t.verdict = .flush ∧ t.progress.flags.simple = true

namespace Progress

variable {p : Progress}

theorem not_simple_note (p : Progress) (c : UInt8) (a : Action) :
    .simpleRequest ∉ (p.note c a).raised := by
  cases a
  case shiftDecimal | shiftHex =>
    simp only [note]
    split
    · exact List.not_mem_nil
    · split
      · exact List.not_mem_nil
      · simp [Anomaly.simpleRequest, Anomaly.messageSize]
  all_goals exact List.not_mem_nil

theorem not_simple_stepToken (p : Progress) (c : UInt8) :
    .simpleRequest ∉ (p.stepToken c).raised :=
  not_simple_note _ _ _

theorem classifies_endHeaders (p : Progress) : p.endHeaders.Classifies := by
  unfold endHeaders Turn.Classifies
  extract_lets unbounded q raised
  have untold : .simpleRequest ∉ raised := by
    simp only [raised]
    split <;> simp [Anomaly.simpleRequest, Anomaly.unboundedPost]
  split
  · intro told
    refine ⟨rfl, ?_⟩
    by_contra longer
    have told : .simpleRequest ∈
        if q.flags.simple = true then raised ++ [.simpleRequest] else raised := told
    rw [if_neg longer] at told
    exact untold told
  · split
    · exact fun told => absurd told untold
    · split
      · exact fun told => absurd told untold
      · split
        · intro told
          have other := (List.mem_append.mp told).resolve_left untold
          simp [Anomaly.simpleRequest, Anomaly.messageSize] at other
        · exact fun told => absurd told untold

theorem classifies_readByte (p : Progress) (c : UInt8) : (p.readByte c).Classifies := by
  have token {p : Progress} (c : UInt8) : (p.stepToken c).Classifies :=
    fun told => absurd told (p.not_simple_stepToken c)
  have joined {t : Turn} (untold : .simpleRequest ∉ t.raised) {next : Progress → Turn}
      (later : (next t.progress).Classifies) : (t.andThen next).Classifies :=
    fun told => later ((List.mem_append.mp told).resolve_left untold)
  refine readByte_turns (K := fun _ => True) ?_ ?_ ?_ ?_ ?_ ?_ ?_ trivial c
  · exact fun c _ => token c
  · exact fun {p} c _ _ => joined (p.not_simple_stepToken lineFeed) (token c)
  · exact fun {p} _ => classifies_endHeaders p
  · exact fun {p} _ => joined (p.not_simple_stepToken lineFeed) (classifies_endHeaders _)
  · exact fun _ turn => turn
  · exact fun _ => nofun
  · exact fun _ => trivial

theorem classifies_read (p : Progress) (cs : List UInt8) : (p.read cs).1.Classifies := by
  refine read_turns (K := fun _ => True) ?_ ?_ ?_ ?_ trivial cs
  · exact fun _ => nofun
  · exact fun {p} c _ => classifies_readByte p c
  · exact fun _ _ => trivial
  · intro t u first search later told
    refine later ((List.mem_append.mp told).resolve_left fun told => ?_)
    rw [(first told).1] at search
    cases search

/-- Two words are an error. -/
def ErrsIfSimple (p : Progress) : Prop := p.flags.simple = true → p.flags.error = true

theorem errsIfSimple_fresh (fromClient : Bool) : (fresh fromClient).ErrsIfSimple := by
  cases fromClient <;> nofun

theorem ErrsIfSimple.note (errs : p.ErrsIfSimple) (c : UInt8) (a : Action) :
    (p.note c a).progress.ErrsIfSimple := by
  cases a
  case simple => exact fun _ => rfl
  case shiftDecimal | shiftHex =>
    simp only [Progress.note]
    split
    · exact errs
    · split
      · exact errs
      · exact fun _ => rfl
  case lengthChunk =>
    simp only [Progress.note]
    split <;> exact errs
  all_goals exact errs

theorem ErrsIfSimple.endHeaders (errs : p.ErrsIfSimple) : p.endHeaders.progress.ErrsIfSimple := by
  unfold Progress.endHeaders
  extract_lets unbounded q raised
  have errs : q.ErrsIfSimple := by
    simp only [q]
    split
    · exact fun _ => rfl
    · exact errs
  split
  · exact errs
  · split
    · exact errs
    · split
      · exact errs
      · split <;> exact errs

theorem ErrsIfSimple.read (errs : p.ErrsIfSimple) (cs : List UInt8) :
    (p.read cs).1.progress.ErrsIfSimple := by
  refine read_keeps (fun p c errs => ?_) errs cs
  refine readByte_keeps (fun p c errs => ?_) (fun p errs => errs.endHeaders) (fun _ _ errs => errs)
    (fun _ errs => errs) errs c
  exact ErrsIfSimple.note (p := { p with position := (table.step p.position c).1 }) errs _ _

theorem ErrsIfSimple.scan (errs : p.ErrsIfSimple) (fromClient : Bool) (window : List UInt8) :
    (p.scan fromClient window).progress.ErrsIfSimple := by
  have read := errs.read window
  rw [scan_eq_read]
  split
  · exact read
  · unfold settle
    split
    · exact read
    · simp only
      split
      · exact read
      · exact errsIfSimple_fresh fromClient

/-- A request of two words stays in the scan that finds it. -/
theorem simple_of_scan (errs : p.ErrsIfSimple) {fromClient : Bool} {window : List UInt8}
    (told : .simpleRequest ∈ (p.scan fromClient window).raised) :
    (p.scan fromClient window).verdict = .flush ∧
      (p.scan fromClient window).progress.isSimple = true := by
  have classifies := p.classifies_read window
  have errs := errs.read window
  rw [scan_eq_read] at told ⊢
  split at told
  · rename_i search
    rw [(classifies told).1] at search
    cases search
  · rename_i decided
    rw [if_neg decided]
    unfold settle at told ⊢
    split at told
    · rename_i error
      rw [if_pos error]
      exact classifies told
    · rename_i framed
      exact absurd (errs (classifies told).2) framed

end Progress

end StreamFraming.Http
