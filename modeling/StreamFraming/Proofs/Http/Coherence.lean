import StreamFraming.Http.Scanner
import StreamFraming.Proofs.Http.Errors

/-!
# The progress that scans lead to

Flags, length, place and line of a progress depend on each other, and `Progress.Coherent` says how,
for every progress that scans lead to. What carries it from byte to byte is told apart by the line
(`Progress.Steady`): up to the last chunk the flags fit the place in the table, and a length that is
not zero has its reason (`Progress.Sound`); behind the last chunk nothing is left open
(`Progress.Trails`). So a decision of a scan has a point that the rest of the program can go by.
-/

namespace StreamFraming

/-- The points that a verdict on so many bytes may have. -/
def Verdict.Admits (verdict : Verdict) (point : UInt32) (size : Nat) : Prop :=
  match verdict with
  | .search => point = 0
  | .flush | .skip => point ≠ 0
  | .abort => point.toNat ≤ size

namespace Http

open Token

namespace Token.Position

def isStatusLine (p : Position) : Bool := p.block == .statusLine || p.block == .leadingBlank

def isRequestLine (p : Position) : Bool := p.block == .requestLine

/-- Where a byte that is tried or taken at a place may lead: to a row, and neither into a first line
nor among chunks nor out of them. -/
@[mk_iff]
structure Leads (p q : Position) : Prop where
  placed : (table.row? q).isSome = true
  statusLine : q.isStatusLine = true → p.isStatusLine = true
  requestLine : q.isRequestLine = true → p.isRequestLine = true
  isChunk : q.isChunk = p.isChunk

/-- What a byte taken at a place may have noted once it led to another one. -/
@[mk_iff]
structure Permits (p q : Position) (a : Action) : Prop where
  notes : p.Notes a
  simple : a = .simple → p.isRequestLine = true
  response : a = .response → p.isStatusLine = true
  chunked : a = .chunked → p.isChunk = false
  /-- Digits begin where one is noted, and end where their number is. -/
  digit : a = .shiftDecimal → q.block = .lengthDigits
  number : p.block = .lengthDigits → q.block = .lengthDigits ∨ a = .lengthBody

instance (p q : Position) : Decidable (p.Leads q) := decidable_of_iff' _ (leads_iff p q)

instance (p q : Position) (a : Action) : Decidable (p.Permits q a) :=
  decidable_of_iff' _ (permits_iff p q a)

theorem leads_rows :
    ∀ b ∈ Block.all, ∀ i < b.size, ∀ row ∈ table.row? ⟨b, i⟩,
      Leads ⟨b, i⟩ row.next ∧ Leads ⟨b, i⟩ row.other ∧ Permits ⟨b, i⟩ row.next row.action ∧
        (b = .lengthDigits → row.other.block = .lengthDigits) := by
  decide +kernel

/-- A line end among the digits of a number is noted as one of them, or ends the number. -/
theorem lineFeed_rows :
    ∀ b ∈ Block.all, ∀ i < b.size,
      (table.step ⟨b, i⟩ lineFeed).1.block = .lengthDigits →
        (table.step ⟨b, i⟩ lineFeed).2 = .shiftDecimal := by
  decide +kernel

theorem leads_row {p : Position} {row : Row} (found : table.row? p = some row) :
    p.Leads row.next ∧ p.Leads row.other ∧ p.Permits row.next row.action ∧
      (p.block = .lengthDigits → row.other.block = .lengthDigits) :=
  of_row? (P := fun p row => p.Leads row.next ∧ p.Leads row.other ∧ p.Permits row.next row.action ∧
    (p.block = .lengthDigits → row.other.block = .lengthDigits)) leads_rows found

theorem Leads.trans {p q r : Position} (first : p.Leads q) (next : q.Leads r) : p.Leads r where
  placed := next.placed
  statusLine h := first.statusLine (next.statusLine h)
  requestLine h := first.requestLine (next.requestLine h)
  isChunk := next.isChunk.trans first.isChunk

theorem Permits.of_leads {p q r : Position} {a : Action} (permits : q.Permits r a)
    (leads : p.Leads q) (digits : p.block = .lengthDigits → q.block = .lengthDigits) :
    p.Permits r a where
  notes := by
    have notes := permits.notes
    unfold Position.Notes at notes ⊢
    rwa [leads.isChunk] at notes
  simple h := leads.requestLine (permits.simple h)
  response h := leads.statusLine (permits.response h)
  chunked h := leads.isChunk.symm.trans (permits.chunked h)
  digit := permits.digit
  number h := permits.number (digits h)

theorem leads_step {p : Position} (placed : (table.row? p).isSome = true) (c : UInt8) :
    p.Leads (table.step p c).1 ∧ p.Permits (table.step p c).1 (table.step p c).2 := by
  refine seek_closed (S := fun q => p.Leads q ∧ (p.block = .lengthDigits → q.block = .lengthDigits))
    (T := fun q a => p.Leads q ∧ p.Permits q a) ?_ ?_ ⟨⟨placed, id, id, rfl⟩, id⟩ table.size
  · rintro q ⟨leads, digits⟩
    exact ⟨leads, p.notes_nop, nofun, nofun, nofun, nofun, fun h => .inl (digits h)⟩
  · rintro q row ⟨leads, digits⟩ found
    obtain ⟨next, other, permits, digit⟩ := leads_row found
    exact ⟨⟨leads.trans other, fun h => digit (digits h)⟩,
      fun _ => ⟨leads.trans next, permits.of_leads leads digits⟩⟩

theorem digit_of_lineFeed {p : Position} (placed : (table.row? p).isSome = true)
    (digits : (table.step p lineFeed).1.block = .lengthDigits) :
    (table.step p lineFeed).2 = .shiftDecimal := by
  obtain ⟨row, found⟩ := Option.isSome_iff_exists.mp placed
  exact of_row? (P := fun p _ => (table.step p lineFeed).1.block = .lengthDigits →
    (table.step p lineFeed).2 = .shiftDecimal)
    (fun b inBlock i inside _ _ => lineFeed_rows b inBlock i inside) found digits

end Token.Position

namespace Progress

variable {p : Progress}

/-- What holds of a progress whatever its line. -/
structure Rooted (p : Progress) : Prop where
  placed : (table.row? p.position).isSome = true
  side : p.flags.request = !p.flags.response
  simple : p.flags.simple = true → p.flags.error = true ∧ p.flags.request = true

/-- Up to the last chunk the flags fit the place, and a length that is not zero was read, or its
digits are being read. -/
structure Sound (p : Progress) : Prop extends p.Rooted where
  requestLine : p.position.isRequestLine = true → p.flags.request = true
  statusLine : p.position.isStatusLine = true → p.flags.response = true
  among : p.flags.inChunks = p.position.isChunk
  seenEol : p.flags.inChunks = true → p.flags.seenEol = true
  chunked : p.flags.inChunks = true → p.flags.chunked = false
  length : p.length ≠ 0 →
    p.flags.hasLength = true ∨ p.flags.inChunks = true ∨ p.position.block = .lengthDigits

/-- Behind the last chunk all is known of the message, and none of its body is left. -/
structure Trails (p : Progress) : Prop extends p.Rooted where
  hasLength : p.flags.hasLength = true
  length : p.length = 0
  inChunks : p.flags.inChunks = false
  chunked : p.flags.chunked = false
  error : p.flags.error = false

/-- What every byte keeps, told apart by the line. -/
inductive Steady (p : Progress) : Prop
  | inLine (line : p.line = .inLine) (sound : p.Sound)
  | afterEol (line : p.line = .afterEol) (sound : p.Sound) (seenEol : p.flags.seenEol = true)
      (inChunks : p.flags.inChunks = false)
  | trailer (line : p.line = .trailerStart ∨ p.line = .trailerLine) (trails : p.Trails)

theorem sound_fresh (fromClient : Bool) : (fresh fromClient).Sound := by
  cases fromClient <;>
    exact ⟨⟨by decide, rfl, nofun⟩, by decide, by decide, rfl, nofun, nofun, fun h => absurd rfl h⟩

/-! ### Tokens -/

section Noting

variable {q : Position} {c : UInt8} {a : Action}

theorem note_keeps (p : Progress) (c : UInt8) (other : a ≠ .lengthChunk) :
    (p.note c a).progress.line = p.line ∧
      (p.note c a).progress.flags.seenEol = p.flags.seenEol ∧
      (p.note c a).progress.flags.inChunks = p.flags.inChunks := by
  cases a
  case lengthChunk => exact absurd rfl other
  case shiftDecimal | shiftHex =>
    simp only [note]
    split
    · exact ⟨rfl, rfl, rfl⟩
    · split <;> exact ⟨rfl, rfl, rfl⟩
  all_goals exact ⟨rfl, rfl, rfl⟩

theorem note_ne_abort (p : Progress) (c : UInt8) (a : Action) : (p.note c a).verdict ≠ .abort := by
  intro abort
  cases a
  case shiftDecimal | shiftHex =>
    simp only [note] at abort
    split at abort
    · cases abort
    · split at abort <;> cases abort
  all_goals cases abort

theorem Sound.moved (sound : p.Sound) (leads : p.position.Leads q) (f : Flags)
    (request : f.request = p.flags.request) (response : f.response = p.flags.response)
    (inChunks : f.inChunks = p.flags.inChunks) (seenEol : f.seenEol = p.flags.seenEol)
    (simple : f.simple = true → f.error = true ∧ f.request = true)
    (chunked : f.inChunks = true → f.chunked = false) {n : UInt32}
    (length : n ≠ 0 →
      f.hasLength = true ∨ f.inChunks = true ∨ q.block = .lengthDigits) :
    Sound { p with length := n, flags := f, position := q } where
  placed := leads.placed
  side := by
    simp only [request, response]
    exact sound.side
  simple := simple
  requestLine h := request.trans (sound.requestLine (leads.requestLine h))
  statusLine h := response.trans (sound.statusLine (leads.statusLine h))
  among := inChunks.trans (sound.among.trans leads.isChunk.symm)
  seenEol h := seenEol.trans (sound.seenEol (inChunks.symm.trans h))
  chunked := chunked
  length := length

theorem Sound.failed (sound : p.Sound) (leads : p.position.Leads q)
    (length : p.length ≠ 0 →
      p.flags.hasLength = true ∨ p.flags.inChunks = true ∨ q.block = .lengthDigits) :
    Sound { p with flags := { p.flags with error := true }, position := q } :=
  sound.moved leads { p.flags with error := true } rfl rfl rfl rfl
    (fun h => ⟨rfl, (sound.simple h).2⟩) sound.chunked length

theorem Sound.note (sound : p.Sound) (leads : p.position.Leads q)
    (permits : p.position.Permits q a) (c : UInt8) (other : a ≠ .lengthChunk) :
    (Progress.note { p with position := q } c a).progress.Sound := by
  have request : a = .simple → p.flags.request = true :=
    fun h => sound.requestLine (permits.simple h)
  have response : a = .response → p.flags.response = true :=
    fun h => sound.statusLine (permits.response h)
  have chunked : a = .chunked → p.flags.inChunks = false :=
    fun h => sound.among.trans (permits.chunked h)
  have length : a ≠ .lengthBody → p.length ≠ 0 →
      p.flags.hasLength = true ∨ p.flags.inChunks = true ∨ q.block = .lengthDigits := by
    intro goesOn more
    rcases sound.length more with h | h | h
    · exact .inl h
    · exact .inr (.inl h)
    · exact .inr (.inr ((permits.number h).resolve_right goesOn))
  cases a with
  | nop => exact sound.moved leads _ rfl rfl rfl rfl sound.simple sound.chunked (length (by decide))
  | noBody =>
    exact sound.moved leads { p.flags with noBody := true } rfl rfl rfl rfl sound.simple
      sound.chunked (length (by decide))
  | post =>
    exact sound.moved leads { p.flags with post := true } rfl rfl rfl rfl sound.simple
      sound.chunked (length (by decide))
  | version10 =>
    exact sound.moved leads { p.flags with version10 := true } rfl rfl rfl rfl sound.simple
      sound.chunked (length (by decide))
  | version11 =>
    exact sound.moved leads { p.flags with version11 := true } rfl rfl rfl rfl sound.simple
      sound.chunked (length (by decide))
  | simple =>
    exact sound.moved leads { p.flags with simple := true, error := true } rfl rfl rfl rfl
      (fun _ => ⟨rfl, request rfl⟩) sound.chunked (length (by decide))
  | response =>
    exact sound.moved leads { p.flags with response := true } rfl (response rfl).symm rfl rfl
      sound.simple sound.chunked (length (by decide))
  | shiftDecimal =>
    simp only [Progress.note]
    have digits := permits.digit rfl
    split
    · exact sound.moved leads _ rfl rfl rfl rfl sound.simple sound.chunked (length (by decide))
    · split
      · exact sound.moved leads _ rfl rfl rfl rfl sound.simple sound.chunked
          fun _ => .inr (.inr digits)
      · exact sound.failed leads (length (by decide))
  | shiftHex =>
    simp only [Progress.note]
    -- Digits of chunk sizes are noted nowhere else, so the length has its reason in `inChunks`.
    have among : p.flags.inChunks = true := by
      rw [sound.among]
      by_contra outside
      have notes := permits.notes
      rw [Position.Notes, if_neg outside] at notes
      exact notes.1 rfl
    split
    · exact sound.moved leads _ rfl rfl rfl rfl sound.simple sound.chunked (length (by decide))
    · split
      · exact sound.moved leads _ rfl rfl rfl rfl sound.simple sound.chunked
          fun _ => .inr (.inl among)
      · exact sound.failed leads (length (by decide))
  | lengthBody =>
    exact sound.moved leads { p.flags with hasLength := true } rfl rfl rfl rfl sound.simple
      sound.chunked fun _ => .inl rfl
  | lengthChunk => exact absurd rfl other
  | lengthZero =>
    exact sound.moved leads _ rfl rfl rfl rfl sound.simple sound.chunked fun h => absurd rfl h
  | chunked =>
    refine sound.moved leads { p.flags with chunked := true } rfl rfl rfl rfl sound.simple
      (fun among => ?_) (length (by decide))
    rw [chunked rfl] at among
    cases among

end Noting

structure Onward (p : Progress) (t : Turn) : Prop where
  sound : t.progress.Sound
  line : t.progress.line = p.line
  seenEol : t.progress.flags.seenEol = p.flags.seenEol
  inChunks : t.progress.flags.inChunks = false
  search : t.verdict = .search

theorem Sound.stepToken (sound : p.Sound) (outside : p.flags.inChunks = false) (c : UInt8) :
    p.Onward (p.stepToken c) := by
  obtain ⟨leads, permits⟩ := Position.leads_step sound.placed c
  have notes := permits.notes
  rw [Position.Notes, if_neg (by rw [← sound.among, outside]; exact Bool.false_ne_true)] at notes
  unfold Progress.stepToken
  obtain ⟨line, seenEol, inChunks⟩ :=
    note_keeps { p with position := (table.step p.position c).1 } (fold c) notes.2
  exact ⟨sound.note leads permits (fold c) notes.2, line, seenEol, inChunks.trans outside,
    search_note _ (fold c) notes⟩

theorem Sound.stepToken_lineFeed (sound : p.Sound) (outside : p.flags.inChunks = false)
    (more : (p.stepToken lineFeed).progress.length ≠ 0) :
    (p.stepToken lineFeed).progress.flags.hasLength = true ∨
      (p.stepToken lineFeed).progress.flags.error = true := by
  obtain ⟨after, -, -, inChunks, -⟩ := sound.stepToken outside lineFeed
  rcases after.length more with h | h | digits
  · exact .inl h
  · rw [inChunks] at h
    cases h
  · unfold Progress.stepToken at digits ⊢
    rw [position_note] at digits
    simp only [Position.digit_of_lineFeed sound.placed digits, Progress.note]
    split
    · rename_i error
      exact .inr error
    · have refused : Digit.shiftDecimal? p.length (fold lineFeed) = none := rfl
      rw [refused]
      exact .inr rfl

/-! ### The end of the head -/

theorem Sound.withoutLength (sound : p.Sound) : Sound { p with length := 0 } :=
  { sound with length := fun h => absurd rfl h }

theorem Sound.withError (sound : p.Sound) :
    Sound (p.mark fun f => { f with error := true }) :=
  sound.failed ⟨sound.placed, id, id, rfl⟩ sound.length

theorem Sound.startChunks (sound : p.Sound) (seen : p.flags.seenEol = true) :
    p.startChunks.Sound where
  placed := show (table.row? .chunkStart).isSome = true by decide
  side := sound.side
  simple := sound.simple
  requestLine := nofun
  statusLine := nofun
  among := rfl
  seenEol _ := seen
  chunked _ := rfl
  length h := absurd rfl h

theorem Sound.endHeaders (sound : p.Sound) (seen : p.flags.seenEol = true)
    (told : p.length ≠ 0 → p.flags.hasLength = true ∨ p.flags.error = true) :
    p.endHeaders.progress.Sound ∧ p.endHeaders.progress.line = p.line ∧
      (p.endHeaders.verdict = .abort → p.endHeaders.progress.length = 0) := by
  unfold Progress.endHeaders
  extract_lets unbounded q raised
  have kept : q.Sound ∧ q.line = p.line ∧ q.flags.seenEol = true ∧
      (q.length ≠ 0 → q.flags.hasLength = true ∨ q.flags.error = true) := by
    simp only [q]
    split
    · exact ⟨sound.withError, rfl, seen, fun _ => .inr rfl⟩
    · exact ⟨sound, rfl, seen, told⟩
  obtain ⟨sound, line, seen, told⟩ := kept
  -- The branches are those of `endHeaders`; the last one alone gives the message up.
  split
  · exact ⟨sound.withoutLength, line, nofun⟩
  · rename_i framed
    split
    · exact ⟨sound.startChunks seen, line, nofun⟩
    · split
      · exact ⟨sound, line, nofun⟩
      · rename_i goesOn
        split
        · exact ⟨sound.withoutLength, line, nofun⟩
        · refine ⟨sound, line, fun _ => ?_⟩
          by_contra more
          rcases told more with h | h
          · exact goesOn (by rw [h, Bool.or_true])
          · exact framed (by rw [h, Bool.true_or])

theorem Trails.endHeaders (trails : p.Trails) :
    p.endHeaders = { progress := p, verdict := .flush } := by
  obtain ⟨length, flags, position, line⟩ := p
  obtain ⟨⟨-, -, simple⟩, hasLength, rfl, -, chunked, error⟩ := trails
  have long : flags.simple = false := by
    rw [Bool.eq_false_iff]
    intro h
    have failed := (simple h).1
    rw [error] at failed
    cases failed
  simp only at hasLength chunked error
  simp only [Progress.endHeaders, hasLength, chunked, error, long, Bool.not_true, Bool.and_false,
    Bool.false_eq_true, if_false, Bool.or_true, if_true, ite_self]

end Progress

/-! ### Bytes -/

/-- What bytes lead to. A message that is given up where its head ends has no number open. -/
structure Turn.Steady (t : Turn) : Prop where
  progress : t.progress.Steady
  abort : t.verdict = .abort → t.progress.length = 0

namespace Progress

variable {p : Progress}

theorem Sound.stepToken_among (sound : p.Sound) (line : p.line = .inLine)
    (among : p.flags.inChunks = true) (framed : p.flags.error = false) (c : UInt8) :
    (p.stepToken c).Steady := by
  obtain ⟨leads, permits⟩ := Position.leads_step sound.placed c
  unfold Progress.stepToken
  generalize table.step p.position c = found at leads permits
  obtain ⟨q, a⟩ := found
  simp only at leads permits ⊢
  by_cases last : a = .lengthChunk
  · subst last
    by_cases empty : p.length = 0
    · simp only [Progress.note, mark, empty, if_true]
      exact ⟨.trailer (.inl rfl) ⟨⟨leads.placed, sound.side, sound.simple⟩, rfl, rfl, rfl,
        sound.chunked among, framed⟩, fun abort => by cases abort⟩
    · simp only [Progress.note, mark, empty, if_false]
      refine ⟨.inLine line ?_, fun abort => by cases abort⟩
      exact sound.moved leads { p.flags with hasLength := true } rfl rfl rfl rfl sound.simple
        sound.chunked fun _ => .inl rfl
  · obtain ⟨same, -, -⟩ := note_keeps { p with position := q } (fold c) last
    refine ⟨.inLine (same.trans line) (sound.note leads permits _ last), fun abort => ?_⟩
    exact absurd abort (note_ne_abort _ _ _)

theorem Sound.readAfterEol (sound : p.Sound) (line : p.line = .afterEol)
    (seen : p.flags.seenEol = true) (outside : p.flags.inChunks = false) (c : UInt8) :
    (p.readAfterEol c).Steady := by
  have ended := sound.stepToken outside lineFeed
  unfold Progress.readAfterEol
  extract_lets first t
  have turn : t.progress.Sound ∧ t.progress.line = .afterEol ∧
      (t.verdict = .abort → t.progress.length = 0) := by
    simp only [t, first]
    split
    · obtain ⟨sound, same, abort⟩ := ended.sound.endHeaders (ended.seenEol.trans seen)
        (sound.stepToken_lineFeed outside)
      exact ⟨sound, same.trans (ended.line.trans line), abort⟩
    · split
      · have onward := sound.stepToken outside space
        exact ⟨onward.sound, onward.line.trans line, fun abort => by simp [onward.search] at abort⟩
      · rw [if_pos ended.search]
        have onward := ended.sound.stepToken ended.inChunks c
        exact ⟨onward.sound, onward.line.trans (ended.line.trans line),
          fun abort => by simp [Turn.andThen, onward.search] at abort⟩
  obtain ⟨sound, line, abort⟩ := turn
  rw [if_pos line]
  exact ⟨.inLine rfl { sound with }, abort⟩

theorem Sound.readInLine (sound : p.Sound) (line : p.line = .inLine) (defers : p.Defers)
    (c : UInt8) : (p.readInLine c).Steady := by
  have framed (among : p.flags.inChunks = true) : p.flags.error = false := by
    rw [Bool.eq_false_iff]
    intro error
    rw [sound.among, defers error] at among
    cases among
  have token (c : UInt8) : (p.stepToken c).Steady := by
    by_cases among : p.flags.inChunks = true
    · exact sound.stepToken_among line among (framed among) c
    · have onward := sound.stepToken (Bool.eq_false_iff.mpr among) c
      exact ⟨.inLine (onward.line.trans line) onward.sound,
        fun abort => by simp [onward.search] at abort⟩
  unfold Progress.readInLine
  split
  · exact token c
  · split
    · rename_i unseen
      have outside : p.flags.inChunks = false := by
        rw [Bool.eq_false_iff]
        intro among
        rw [sound.seenEol among] at unseen
        cases unseen
      let q := p.mark fun f => { f with seenEol := true }
      have marked : q.Sound := { sound with seenEol := fun _ => rfl }
      have ended := marked.stepToken outside lineFeed
      simp only
      split
      · rename_i simple
        obtain ⟨sound, same, abort⟩ := ended.sound.endHeaders ended.seenEol
          fun _ => .inr (ended.sound.simple simple).1
        exact ⟨.inLine (same.trans (ended.line.trans line)) sound, abort⟩
      · exact ⟨.afterEol rfl { ended.sound with } ended.seenEol ended.inChunks,
          fun abort => by simp [q, ended.search] at abort⟩
    · rename_i seen
      rw [Bool.not_eq_true, Bool.not_eq_false'] at seen
      split
      · exact token lineFeed
      · rename_i outside
        exact ⟨.afterEol rfl { sound with } seen (Bool.eq_false_iff.mpr outside), nofun⟩

theorem Steady.readByte (steady : p.Steady) (defers : p.Defers) (c : UInt8) :
    (p.readByte c).Steady := by
  have still {p : Progress} (steady : p.Steady) : ({ progress := p } : Turn).Steady :=
    ⟨steady, nofun⟩
  unfold Progress.readByte
  split
  · exact still steady
  · cases steady with
    | inLine line sound =>
      rw [line]
      exact sound.readInLine line defers c
    | afterEol line sound seenEol inChunks =>
      rw [line]
      exact sound.readAfterEol line seenEol inChunks c
    | trailer line trails =>
      rcases line with line | line <;> rw [line] <;> simp only
      · split
        · rw [trails.endHeaders]
          exact ⟨.trailer (.inl line) trails, nofun⟩
        · exact still (.trailer (.inr rfl) { trails with })
      · split
        · exact still (.trailer (.inl rfl) { trails with })
        · exact still (.trailer (.inr line) trails)

theorem Steady.read (steady : p.Steady) (framed : p.flags.error = false) (cs : List UInt8) :
    (p.read cs).1.Steady := by
  -- A byte keeps the one property only together with the other: among chunks there is no error.
  have run := read_turns (K := fun p => p.Steady ∧ p.Defers) (T := fun t => t.Steady ∧ t.Defers)
    ?_ ?_ ?_ ?_ (p := p) ⟨steady, defers_of_sound framed⟩ cs
  · exact run.1
  · exact fun ⟨steady, defers⟩ => ⟨⟨steady, nofun⟩, fun _ => defers, nofun⟩
  · exact fun c ⟨steady, defers⟩ => ⟨steady.readByte defers c, defers.readByte c⟩
  · exact fun ⟨steady, defers⟩ search => ⟨steady.progress, defers.onward search⟩
  · exact fun _ _ ⟨steady, defers⟩ => ⟨⟨steady.progress, steady.abort⟩, defers.onward, defers.skip⟩

/-! ### Scans -/

theorem Steady.scan (steady : p.Steady) (framed : p.flags.error = false) (fromClient : Bool)
    (window : List UInt8) : (p.scan fromClient window).progress.Steady := by
  have read := (steady.read framed window).progress
  rw [scan_eq_read]
  split
  · exact read
  · unfold settle
    split
    · exact read
    · simp only
      split
      · exact read
      · exact .inLine (by cases fromClient <;> rfl) (sound_fresh fromClient)

theorem Steady.told (steady : p.Steady) :
    Steady (p.mark fun f => { f with noBody := true }) := by
  cases steady with
  | inLine line sound => exact .inLine line { sound with }
  | afterEol line sound seenEol inChunks => exact .afterEol line { sound with } seenEol inChunks
  | trailer line trails => exact .trailer line { trails with }

/-- A scan that is open has no point, and a decision has one behind its first byte. A message that
is given up ends where the scan did. -/
theorem Steady.admits (steady : p.Steady) (framed : p.flags.error = false) (fromClient : Bool)
    {window : List UInt8} (short : window.length < 2 ^ 31) :
    (p.scan fromClient window).verdict.Admits (p.scan fromClient window).point
      window.length := by
  cases verdict : (p.scan fromClient window).verdict with
  | search =>
    rw [scan_verdict] at verdict
    rw [Verdict.Admits, scan_eq_read, if_pos verdict]
  | flush | skip => exact point_scan_ne_zero short (by rw [verdict]; nofun)
  | abort =>
    rw [scan_verdict] at verdict
    have empty := (steady.read framed window).abort verdict
    have decided : ¬ (p.read window).1.verdict = .search := by
      rw [verdict]
      nofun
    rw [Verdict.Admits, scan_eq_read, if_neg decided, settle]
    split
    · simp only [Length.toNat_ofNat]
      omega
    · simp only [empty, Length.zero_add]
      rw [Length.toNat_toUInt32 (by omega)]
      omega

/-- The blank line behind trailer lines ends the scan and the message. -/
theorem Steady.scan_trailers (steady : p.Steady) (framed : p.flags.error = false)
    {fromClient : Bool} {before : List UInt8}
    (search : (p.scan fromClient before).verdict = .search)
    (line : (p.scan fromClient before).progress.line = .trailerStart) (rest : List UInt8) :
    p.scan fromClient (before ++ lineFeed :: rest) =
      { progress := fresh fromClient
        verdict := .flush
        point := (before.length + 1).toUInt32
        consumed := before.length + 1
        headDone := (p.scan fromClient before).progress.flags.noBody &&
          (p.scan fromClient before).progress.flags.request
        raised := (p.scan fromClient before).raised } := by
  have kept := scan_progress p fromClient before (.inl (by rwa [scan_verdict] at search))
  rw [scan_verdict] at search
  rw [kept] at line ⊢
  rw [scan_raised]
  have trails : (p.read before).1.progress.Trails := by
    cases (steady.read framed before).progress with
    | inLine other | afterEol other =>
      rw [line] at other
      cases other
    | trailer _ trails => exact trails
  have ended : (p.read before).1.progress.readByte lineFeed =
      { progress := (p.read before).1.progress, verdict := .flush } := by
    rw [Progress.readByte, if_neg (by decide), line]
    exact trails.endHeaders
  have read : p.read ((before ++ [lineFeed]) ++ rest) =
      ({ (p.read before).1 with verdict := .flush }, rest) := by
    have decided : ((p.read before).1.progress.readByte lineFeed).verdict ≠ .search := by
      rw [ended]
      exact (by decide : Verdict.flush ≠ .search)
    rw [List.append_assoc, List.singleton_append, read_append_of_search search, Turn.andThen,
      read_cons_decided decided, ended, List.append_nil]
  have whole : before ++ lineFeed :: rest = (before ++ [lineFeed]) ++ rest := by
    rw [List.append_assoc, List.singleton_append]
  rw [whole, scan_decided read (by decide : Verdict.flush ≠ .search), settle,
    if_neg (by rw [trails.error]; exact Bool.false_ne_true)]
  simp only [trails.length, Length.zero_add, List.length_append, List.length_singleton,
    reduceCtorEq, if_false]

/-! ### Progress that is reached -/

/-- The progress that scans lead to from the start of a message. A message that cannot be framed is
scanned no more, and either side may be told that no body follows. -/
inductive Reached : Progress → Prop
  | fresh (fromClient : Bool) : Reached (fresh fromClient)
  | scanned {p : Progress} (reached : Reached p) (framed : p.flags.error = false)
      (fromClient : Bool) (window : List UInt8) : Reached (p.scan fromClient window).progress
  | told {p : Progress} (reached : Reached p) :
      Reached (p.mark fun f => { f with noBody := true })

theorem Reached.steady (reached : p.Reached) : p.Steady := by
  induction reached with
  | fresh fromClient =>
    exact .inLine (by cases fromClient <;> rfl) (sound_fresh fromClient)
  | scanned _ framed fromClient window steady => exact steady.scan framed fromClient window
  | told _ steady => exact steady.told

/-- How flags, length, place and line depend on each other. -/
structure Coherent (p : Progress) : Prop where
  side : p.flags.request = !p.flags.response
  simple : p.flags.simple = true → p.flags.error = true ∧ p.flags.request = true
  afterEol : p.line = .afterEol → p.flags.seenEol = true ∧ p.flags.inChunks = false
  inChunks : p.flags.inChunks = true → p.flags.seenEol = true ∧ p.flags.chunked = false ∧
    p.line = .inLine ∧ (p.position.block = .chunkSize ∨ p.position.block = .chunkDataEol)
  trailer : p.line = .trailerStart ∨ p.line = .trailerLine →
    p.flags.hasLength = true ∧ p.length = 0 ∧ p.flags.inChunks = false ∧
      p.flags.chunked = false ∧ p.flags.error = false
  length : p.length ≠ 0 →
    p.flags.hasLength = true ∨ p.flags.inChunks = true ∨ p.position.block = .lengthDigits
  placed : (table.row? p.position).isSome = true

theorem Sound.coherent (sound : p.Sound) (line : p.line = .inLine ∨ p.line = .afterEol)
    (ended : p.line = .afterEol → p.flags.seenEol = true ∧ p.flags.inChunks = false) :
    p.Coherent where
  side := sound.side
  simple := sound.simple
  afterEol := ended
  inChunks among := by
    refine ⟨sound.seenEol among, sound.chunked among, line.resolve_right fun h => ?_, ?_⟩
    · rw [(ended h).2] at among
      cases among
    · rw [sound.among] at among
      simpa [Position.isChunk] using among
  trailer behind := by
    rcases line with line | line <;> rw [line] at behind <;> simp at behind
  length := sound.length
  placed := sound.placed

theorem Trails.coherent (trails : p.Trails)
    (line : p.line = .trailerStart ∨ p.line = .trailerLine) : p.Coherent where
  side := trails.side
  simple := trails.simple
  afterEol h := by
    rw [h] at line
    simp at line
  inChunks among := by
    rw [trails.inChunks] at among
    cases among
  trailer _ := ⟨trails.hasLength, trails.length, trails.inChunks, trails.chunked, trails.error⟩
  length more := absurd trails.length more
  placed := trails.placed

theorem Steady.coherent (steady : p.Steady) : p.Coherent := by
  cases steady with
  | inLine line sound => exact sound.coherent (.inl line) (by rw [line]; nofun)
  | afterEol line sound seenEol inChunks =>
    exact sound.coherent (.inr line) fun _ => ⟨seenEol, inChunks⟩
  | trailer line trails => exact trails.coherent line

end Progress

open Holds

def HoldsReached {α : Type} [Holds α Progress] (cell : Option α) : Prop :=
  ∀ p : Progress, cell = some (keep p) → p.Reached

section Scanning

variable {α : Type} [Holds α Progress] {byteCap : UInt32} {memory : Tally} {sight : Sight α}

theorem holdsReached_keep {p : Progress} (reached : p.Reached) :
    HoldsReached (some (keep p : α)) := by
  intro q same
  have kept := congrArg (·.bind (kept? (τ := Progress))) same
  simp only [Option.bind_some, kept?_keep, Option.some.injEq] at kept
  rwa [← kept]

theorem HoldsReached.claim {cell : Option α} (holds : HoldsReached cell) {fromClient : Bool}
    {p : Progress} (claimed : Holds.claim (Progress.fresh fromClient) cell = some p) :
    p.Reached := by
  cases cell with
  | none =>
    cases claimed
    exact .fresh fromClient
  | some a => exact holds p (congrArg some (kept?_eq_some_iff.mp claimed))

theorem HoldsReached.expectNoBody {cell : Option α} (holds : HoldsReached cell) :
    HoldsReached (expectNoBody cell) := by
  unfold Http.expectNoBody
  split
  · rename_i p claimed
    have fresh : Holds.claim (Progress.fresh false) cell = some p := claimed
    exact holdsReached_keep (.told (holds.claim fresh))
  · exact holds

/-- A scan of a direction whose progress is reached leaves both cells with progress that is. -/
theorem scan_reached {p : Progress} (reached : p.Reached)
    (claimed : claim (Progress.fresh sight.marks.fromClient) sight.own = some p)
    (peer : HoldsReached sight.peer) (window : List UInt8) :
    (∃ q : Progress, (scan byteCap memory sight window).own = some (keep q) ∧ q.Reached) ∧
      HoldsReached (scan byteCap memory sight window).peer := by
  simp only [scan, claimed]
  split
  · exact ⟨⟨p, rfl, reached⟩, peer⟩
  · rename_i asked
    rw [Bool.or_eq_true, not_or, Bool.not_eq_true] at asked
    refine ⟨⟨_, rfl, reached.scanned asked.1 _ window⟩, ?_⟩
    simp only
    split
    · exact peer.expectNoBody
    · exact peer

theorem scan_admits {p : Progress} (reached : p.Reached)
    (claimed : claim (Progress.fresh sight.marks.fromClient) sight.own = some p)
    {window : List UInt8} (short : window.length < 2 ^ 31) :
    (scan byteCap memory sight window).verdict.Admits
      (scan byteCap memory sight window).point window.length := by
  simp only [scan, claimed]
  split
  · exact Nat.zero_le _
  · rename_i asked
    rw [Bool.or_eq_true, not_or, Bool.not_eq_true] at asked
    exact reached.steady.admits asked.1 _ short

end Scanning

/-- Progress that scans lead to is coherent. A scan of it, under any cap, leaves both directions
with progress of this kind, and where the bytes are not too many for a word its point agrees with
its verdict. And where the bytes of a window so far lead to the start of a trailer line, a line end
ends the message there. -/
theorem reached_coherent {p : Progress} (reached : p.Reached) :
    p.Coherent ∧
      (∀ {α : Type} [Holds α Progress] (byteCap : UInt32) (memory : Tally) (sight : Sight α)
        (window : List UInt8),
        claim (Progress.fresh sight.marks.fromClient) sight.own = some p →
        HoldsReached sight.peer →
        let report := scan byteCap memory sight window
        (∃ q : Progress, report.own = some (keep q) ∧ q.Reached) ∧
          HoldsReached report.peer ∧
          (window.length < 2 ^ 31 → report.verdict.Admits report.point window.length)) ∧
      (p.flags.error = false → ∀ (fromClient : Bool) (before rest : List UInt8),
        let first := p.scan fromClient before
        first.verdict = .search → first.progress.line = .trailerStart →
        p.scan fromClient (before ++ lineFeed :: rest) =
          { progress := .fresh fromClient
            verdict := .flush
            point := (before.length + 1).toUInt32
            consumed := before.length + 1
            headDone := first.progress.flags.noBody && first.progress.flags.request
            raised := first.raised }) := by
  refine ⟨reached.steady.coherent, ?_, ?_⟩
  · intro α _ byteCap memory sight window claimed peer report
    have kept : (∃ q : Progress, report.own = some (keep q) ∧ q.Reached) ∧
        HoldsReached report.peer := scan_reached reached claimed peer window
    exact ⟨kept.1, kept.2, scan_admits reached claimed⟩
  · intro framed fromClient before rest first search line
    exact reached.steady.scan_trailers framed search line rest

/-- A request whose last chunk was read, told that no body follows: its trailer lines are passed
over up to the blank line, which ends the message in front of the next one. -/
theorem reached_coherent_trailers :
    let opened := (Progress.request.scan true
      "POST / HTTP/1.1\r\nTransfer-Encoding: chunked\r\n\r\n0\r\n".toUTF8.toList).progress
    let p := opened.mark fun f => { f with noBody := true }
    let window := "a: b\r\n\r\nGET".toUTF8.toList
    let sight : Sight Progress :=
      { id := 0, marks := .ofDirection .toServer, own := some p, peer := none }
    let report := scan 0 {} sight window
    p.Reached ∧ p.Coherent ∧ p.line = .trailerStart ∧
      report.verdict.Admits report.point window.length ∧
      p.scan true window =
        { progress := .request, verdict := .flush, point := 8, consumed := 8,
          headDone := true } := by
  intro opened p window sight report
  have reached : p.Reached := .told (.scanned (.fresh true) rfl true _)
  obtain ⟨coherent, scans, ended⟩ := reached_coherent reached
  have found : opened =
      { flags := { request := true, hasLength := true, post := true, seenEol := true }
        position := ⟨.chunkDataEol, 0⟩, line := .trailerStart } := by
    show (Progress.request.scan true _).progress = _
    rw [Progress.scan_eq_scanEach]
    decide +kernel
  have marked : p =
      { flags :=
          { request := true, hasLength := true, noBody := true, post := true, seenEol := true }
        position := ⟨.chunkDataEol, 0⟩, line := .trailerStart } := by
    simp only [p, found, Progress.mark]
  have first : p.scan true "a: b\r\n\r".toUTF8.toList = { progress := p, consumed := 7 } := by
    rw [Progress.scan_eq_scanEach, marked]
    decide +kernel
  have whole : window = "a: b\r\n\r".toUTF8.toList ++ lineFeed :: "GET".toUTF8.toList := by
    decide +kernel
  have line : p.line = .trailerStart := by rw [marked]
  have framed : p.flags.error = false := by rw [marked]
  refine ⟨reached, coherent, line, ?_, ?_⟩
  · have claimed : claim (Progress.fresh sight.marks.fromClient) sight.own = some p :=
      kept?_keep p
    have peer : HoldsReached sight.peer := fun _ same => by cases same
    exact (scans 0 {} sight window claimed peer).2.2 (by decide +kernel)
  · rw [whole, ended framed true _ _ (by rw [first]) (by rw [first]; exact line), first, marked]
    decide +kernel

end Http

end StreamFraming
