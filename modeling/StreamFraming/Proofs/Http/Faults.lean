import StreamFraming.Catalogue
import StreamFraming.Proofs.Faults

/-!
# No faults in the HTTP scanner

The scanner counts a length digit by digit and looks at its window by index. Here a digit whose
length leaves the word and an index past the window are faults, as in `StreamFraming.Proofs.Faults`.
The limits of `Digit` and the search for a line end keep the scanner from both.
-/

namespace StreamFraming.Http

open Token Holds

/-! ### Digits -/

namespace Digit

/-- A length with one more digit, if it is a digit and below the limit; the digits before it are
scaled by an operation that may fault. -/
def extend? (limit : UInt32) (scale? : UInt32 → Option UInt32) (length : UInt32)
    (digit : Option UInt32) : Option (Option UInt32) :=
  match digit with
  | some x =>
    if length < limit then ((scale? length).bind (Length.add? · x)).map some else some none
  | none => some none

theorem extend?_decimal (length : UInt32) (c : UInt8) :
    extend? decimalLimit (Length.mul? · 10) length (decimal? c) =
      some (shiftDecimal? length c) := by
  unfold extend? shiftDecimal?
  cases digit : decimal? c with
  | none => rfl
  | some x =>
    simp only
    split
    · rename_i room
      have small := toNat_decimal digit
      have below : length.toNat < 429496728 := UInt32.lt_iff_toNat_lt.mp room
      have ten : (10 : UInt32).toNat = 10 := rfl
      have product : (length * 10).toNat = length.toNat * 10 := by
        rw [UInt32.toNat_mul, ten]
        omega
      rw [Length.mul?, ten, if_pos (by omega), Option.bind_some, Length.add?, if_pos (by omega)]
      rfl
    · rfl

theorem extend?_hex (length : UInt32) (c : UInt8) :
    extend? hexLimit (Length.shiftLeft? · 4) length (hex? c) = some (shiftHex? length c) := by
  unfold extend? shiftHex?
  cases digit : hex? c with
  | none => rfl
  | some x =>
    simp only
    split
    · rename_i room
      have small := toNat_hex digit
      have below : length.toNat < 0x8000000 := UInt32.lt_iff_toNat_lt.mp room
      have four : (4 : UInt32).toNat = 4 := rfl
      have product : (length * 16).toNat = length.toNat * 16 := by
        rw [UInt32.toNat_mul, show (16 : UInt32).toNat = 16 from rfl]
        omega
      have shifted : length <<< 4 = length * 16 := by
        apply UInt32.toNat_inj.mp
        rw [product, UInt32.toNat_shiftLeft, four, Nat.shiftLeft_eq,
          show 2 ^ (4 % 32) = 16 from rfl]
        omega
      rw [Length.shiftLeft?, four, if_pos (by omega), Option.bind_some, shifted, Length.add?,
        if_pos (by omega)]
      rfl
    · rfl

end Digit

/-! ### Bytes -/

namespace Progress

def note? (p : Progress) (c : UInt8) : Action → Option Turn
  | .shiftDecimal =>
    if p.flags.error then some { progress := p }
    else
      (Digit.extend? Digit.decimalLimit (Length.mul? · 10) p.length (Digit.decimal? c)).map fun
        | some length => { progress := { p with length } }
        | none =>
          { progress := p.mark fun f => { f with error := true }
            raised := [.messageSize "invalid content-length"] }
  | .shiftHex =>
    if p.flags.error then some { progress := p }
    else
      (Digit.extend? Digit.hexLimit (Length.shiftLeft? · 4) p.length (Digit.hex? c)).map fun
        | some length => { progress := { p with length } }
        | none =>
          { progress := p.mark fun f => { f with error := true }
            verdict := .flush
            raised := [.messageSize "invalid chunk size"] }
  | action => some (p.note c action)

def stepToken? (p : Progress) (c : UInt8) : Option Turn :=
  let (position, action) := table.step p.position c
  { p with position }.note? (fold c) action

def readInLine? (p : Progress) (c : UInt8) : Option Turn :=
  if c ≠ lineFeed then p.stepToken? c
  else if !p.flags.seenEol then
    ((p.mark fun f => { f with seenEol := true }).stepToken? lineFeed).map fun t =>
      if t.progress.flags.simple then t.andThen endHeaders
      else { t with progress := { t.progress with line := .afterEol } }
  else if p.flags.inChunks then p.stepToken? lineFeed
  else some { progress := { p with line := .afterEol } }

def readAfterEol? (p : Progress) (c : UInt8) : Option Turn :=
  let t? :=
    if c = lineFeed then (p.stepToken? lineFeed).map (·.andThen endHeaders)
    else if c = space ∨ c = tab then p.stepToken? space
    else
      (p.stepToken? lineFeed).bind fun t =>
        if t.verdict = .search then
          (t.progress.stepToken? c).map fun u => { u with raised := t.raised ++ u.raised }
        else some t
  t?.map fun t =>
    if t.progress.line = .afterEol then { t with progress := { t.progress with line := .inLine } }
    else t

def readByte? (p : Progress) (c : UInt8) : Option Turn :=
  if c = carriageReturn then some { progress := p }
  else
    match p.line with
    | .inLine => p.readInLine? c
    | .afterEol => p.readAfterEol? c
    | .trailerStart | .trailerLine => some (p.readByte c)

theorem note?_eq (p : Progress) (c : UInt8) (action : Action) :
    p.note? c action = some (p.note c action) := by
  cases action with
  | shiftDecimal =>
    simp only [note?, note, Digit.extend?_decimal, Option.map_some]
    cases p.flags.error <;> cases Digit.shiftDecimal? p.length c <;> rfl
  | shiftHex =>
    simp only [note?, note, Digit.extend?_hex, Option.map_some]
    cases p.flags.error <;> cases Digit.shiftHex? p.length c <;> rfl
  | nop | noBody | post | simple | version10 | version11 | response | lengthBody | lengthChunk |
    lengthZero | chunked => rfl

theorem stepToken?_eq (p : Progress) (c : UInt8) : p.stepToken? c = some (p.stepToken c) :=
  note?_eq _ _ _

theorem readInLine?_eq (p : Progress) (c : UInt8) :
    p.readInLine? c = some (p.readInLine c) := by
  unfold readInLine? readInLine
  simp only [stepToken?_eq, Option.map_some]
  split
  · rfl
  · split
    · rfl
    · split <;> rfl

theorem readAfterEol?_eq (p : Progress) (c : UInt8) :
    p.readAfterEol? c = some (p.readAfterEol c) := by
  unfold readAfterEol? readAfterEol
  simp only [stepToken?_eq, Option.map_some, Option.bind_some]
  split
  · rfl
  · split
    · rfl
    · split <;> rfl

theorem readByte?_eq (p : Progress) (c : UInt8) : p.readByte? c = some (p.readByte c) := by
  unfold readByte? readByte
  split
  · rfl
  · cases p.line with
    | inLine => exact p.readInLine?_eq c
    | afterEol => exact p.readAfterEol?_eq c
    | trailerStart | trailerLine => rfl

/-! ### Windows -/

/-- Where the next byte to read stands, if there is one, with a slice that may fault. -/
def seek? (p : Progress) (window : List UInt8) (n : Nat) : Option (Option Nat) :=
  if p.passesLine then
    (slice? window n).map fun rest => (rest.findIdx? (· == lineFeed)).map (n + ·)
  else some (some n)

theorem le_of_seek? {p : Progress} {window : List UInt8} {n m : Nat}
    (found : p.seek? window n = some (some m)) : n ≤ m := by
  unfold seek? at found
  split at found
  · obtain ⟨rest, -, found⟩ := Option.map_eq_some_iff.mp found
    obtain ⟨i, -, rfl⟩ := Option.map_eq_some_iff.mp found
    exact Nat.le_add_right n i
  · cases found
    exact Nat.le_refl n

def scanAt? (fromClient : Bool) (window : List UInt8) (p : Progress) (raised : List Anomaly)
    (n : Nat) : Option Scan :=
  if _ : n < window.length then
    match found : p.seek? window n with
    | none => none
    | some none => some { progress := p, consumed := window.length, raised }
    | some (some m) =>
      have := le_of_seek? found
      (window[m]?).bind fun c => (p.readByte? c).bind fun t =>
        if t.verdict = .search then
          scanAt? fromClient window t.progress (raised ++ t.raised) (m + 1)
        else some (settle fromClient window (m + 1) { t with raised := raised ++ t.raised })
  else some { progress := p, consumed := n, raised }
termination_by window.length - n

theorem toLineEnd_eq (n : Nat) (cs : List UInt8) :
    toLineEnd n cs =
      match cs.findIdx? (· == lineFeed) with
      | some i => (n + i, cs.drop i)
      | none => (n + cs.length, []) := by
  induction cs generalizing n with
  | nil => rfl
  | cons c cs ih =>
    unfold toLineEnd
    rw [List.findIdx?_cons]
    by_cases ends : c = lineFeed
    · subst ends
      rfl
    · rw [if_neg ends, ih]
      simp only [beq_eq_false_iff_ne.mpr ends, Bool.false_eq_true, if_false]
      cases cs.findIdx? (· == lineFeed) with
      | none => simp [Nat.add_comm, Nat.add_left_comm]
      | some i => simp [Nat.add_comm, Nat.add_left_comm]

/-- The search for the next byte finds what the scan goes on with. -/
theorem seek?_cases (p : Progress) {window : List UInt8} {n : Nat} (inside : n < window.length) :
    let rest := if p.passesLine then toLineEnd n (window.drop n) else (n, window.drop n)
    (p.seek? window n = some none ∧ rest = (window.length, [])) ∨
      ∃ m c, p.seek? window n = some (some m) ∧ window[m]? = some c ∧
        rest = (m, c :: window.drop (m + 1)) := by
  have place {m : Nat} (below : m < window.length) :
      window[m]? = some window[m] ∧ window.drop m = window[m] :: window.drop (m + 1) :=
    ⟨List.getElem?_eq_getElem below, List.drop_eq_getElem_cons below⟩
  unfold seek?
  by_cases passing : p.passesLine = true
  · rw [if_pos passing, if_pos passing, slice?_eq inside.le, Option.map_some, toLineEnd_eq]
    cases found : (window.drop n).findIdx? (· == lineFeed) with
    | none =>
      refine .inl ⟨rfl, ?_⟩
      simp only [List.length_drop, Prod.mk.injEq, and_true]
      omega
    | some i =>
      have below := (List.findIdx?_eq_some_iff_getElem.mp found).1
      rw [List.length_drop] at below
      obtain ⟨byte, rest⟩ := place (m := n + i) (by omega)
      exact .inr ⟨n + i, _, rfl, byte, by simp only [List.drop_drop, rest]⟩
  · rw [if_neg passing, if_neg passing]
    obtain ⟨byte, rest⟩ := place inside
    exact .inr ⟨n, _, rfl, byte, by rw [rest]⟩

theorem scanFrom_of_rest {fromClient : Bool} {window cs rest : List UInt8} {p : Progress}
    {raised : List Anomaly} {n m : Nat}
    (found : (if p.passesLine then toLineEnd n cs else (n, cs)) = (m, rest)) :
    scanFrom fromClient window p raised n cs =
      match rest with
      | [] => { progress := p, consumed := m, raised }
      | c :: rest =>
        let t := p.readByte c
        if t.verdict = .search then
          scanFrom fromClient window t.progress (raised ++ t.raised) (m + 1) rest
        else settle fromClient window (m + 1) { t with raised := raised ++ t.raised } := by
  rw [scanFrom]
  split <;> rename_i sought <;> rw [found] at sought <;> cases sought <;> rfl

theorem scanAt?_of_seek {fromClient : Bool} {window : List UInt8} {p : Progress}
    {raised : List Anomaly} {n : Nat} (inside : n < window.length) {m? : Option Nat}
    (sought : p.seek? window n = some m?) :
    scanAt? fromClient window p raised n =
      match m? with
      | none => some { progress := p, consumed := window.length, raised }
      | some m =>
        (window[m]?).bind fun c => (p.readByte? c).bind fun t =>
          if t.verdict = .search then
            scanAt? fromClient window t.progress (raised ++ t.raised) (m + 1)
          else some (settle fromClient window (m + 1) { t with raised := raised ++ t.raised }) := by
  rw [scanAt?, dif_pos inside]
  split <;> rename_i found <;> rw [sought] at found <;> cases found <;> rfl

theorem scanAt?_eq (fromClient : Bool) {window : List UInt8} (p : Progress)
    (raised : List Anomaly) {n : Nat} (inside : n ≤ window.length) :
    scanAt? fromClient window p raised n =
      some (scanFrom fromClient window p raised n (window.drop n)) := by
  induction left : window.length - n using Nat.strongRecOn generalizing p raised n with
  | _ left ih =>
    subst left
    by_cases below : n < window.length
    · rcases p.seek?_cases below with ⟨sought, rest⟩ | ⟨m, c, sought, byte, rest⟩
      · rw [scanAt?_of_seek below sought, scanFrom_of_rest rest]
      · have ahead := le_of_seek? sought
        have bound : m < window.length := (List.getElem?_eq_some_iff.mp byte).1
        rw [scanAt?_of_seek below sought, scanFrom_of_rest rest]
        simp only [byte, Option.bind_some, readByte?_eq]
        split
        · exact ih _ (by omega) _ _ (by omega) rfl
        · rfl
    · have whole : n = window.length := by omega
      have nothing : (if p.passesLine then toLineEnd n (window.drop n) else (n, window.drop n)) =
          (n, []) := by
        rw [whole, List.drop_length]
        split <;> rfl
      rw [scanAt?, dif_neg below, scanFrom_of_rest nothing]

def scan? (p : Progress) (fromClient : Bool) (window : List UInt8) : Option Scan :=
  scanAt? fromClient window p [] 0

theorem scan?_eq (p : Progress) (fromClient : Bool) (window : List UInt8) :
    p.scan? fromClient window = some (p.scan fromClient window) :=
  scanAt?_eq fromClient p [] (Nat.zero_le _)

/-- Passing over the rest of a line comes to what a look at its bytes comes to: with the index of
the next line end, or with what is left of the window from there on. -/
theorem scan_looks_at_each (p : Progress) (fromClient : Bool) (window : List UInt8) :
    p.scan? fromClient window = some (p.scanEach fromClient window) ∧
      p.scan fromClient window = p.scanEach fromClient window := by
  have each := p.scan_eq_scanEach fromClient window
  exact ⟨(p.scan?_eq fromClient window).trans (congrArg some each), each⟩

end Progress

variable {α μ : Type} [Holds α Progress]

def scan? (byteCap : UInt32) (memory : Tally) (sight : Sight α) (window : List UInt8) :
    Option (Report α Tally) :=
  let fromClient := sight.marks.fromClient
  match claim (Progress.fresh fromClient) sight.own with
  | none => some (.plain memory sight .abort 0)
  | some p =>
    if p.flags.error || (byteCap != 0 && decide (byteCap.toUInt64 < memory.bytes)) then
      some (.plain memory { sight with own := some (keep p) } .abort 0)
    else
      (p.scan? fromClient window).map fun s =>
        { verdict := s.verdict
          point := s.point
          own := some (keep s.progress)
          peer := if s.headDone then expectNoBody sight.peer else sight.peer
          memory := memory.count s.consumed
          raised := s.raised }

theorem scan?_eq (byteCap : UInt32) (memory : Tally) (sight : Sight α) (window : List UInt8) :
    scan? byteCap memory sight window = some (scan byteCap memory sight window) := by
  cases claimed : claim (Progress.fresh sight.marks.fromClient) sight.own with
  | none => simp only [scan?, scan, claimed]
  | some p =>
    simp only [scan?, scan, claimed, Progress.scan?_eq, Option.map_some]
    split <;> rfl

end StreamFraming.Http

namespace StreamFraming

/-- A check never faults. Its scanners may answer what they like; the session may be any, so none
that lanes are set up, given up and checked into is left out; and the segment's count of queued
bytes, its place and its slack need not agree with its bytes or with the session. Nor does the HTTP
scanner fault, whatever progress it finds in its cell. -/
theorem check_never_faults {α μ : Type} [Holds α Http.Progress] (e : Engine α μ) (s : Session α)
    (d : Direction) {segment : Segment} (small : segment.data.length < 2 ^ 32) :
    e.check? s d segment = some (e.check s d segment) ∧
      ∀ (byteCap : UInt32) (memory : Tally) (sight : Sight α) (window : List UInt8),
        Http.scan? byteCap memory sight window = some (Http.scan byteCap memory sight window) :=
  ⟨e.check?_eq s d small, Http.scan?_eq⟩

/-- A lane that skips to an offset among the queued bytes, and a segment that begins in front of
what the lane has read and counts more queued bytes than there can be: one byte is left out as read
before, and one is passed over. -/
theorem check_never_faults_inconsistent :
    let e : Engine Memo Tally := .ofRegistry (Registry.httpOn 80)
    let opened := e.openSession 1 80
    let s := opened.setLane .toServer
      { opened.lane .toServer with status := .skip, target := 5 }
    let segment : Segment :=
      { data := "abc".toUTF8.toList, queued := 6, seq := 0xFFFFFFFF, marks := .none }
    segment.data.length < 2 ^ 32 ∧
      e.check? s .toServer segment = some (e.check s .toServer segment) ∧
      (e.check s .toServer segment).calls.map (·.window.bytes) = ["c".toUTF8.toList] := by
  intro e opened s segment
  have small : segment.data.length < 2 ^ 32 := by decide +kernel
  exact ⟨small, (check_never_faults e s .toServer small).1, by decide +kernel⟩

end StreamFraming
