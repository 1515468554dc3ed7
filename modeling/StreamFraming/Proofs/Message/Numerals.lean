import StreamFraming.Proofs.Message.Chunks

/-!
# Numbers are read exactly

A content length and the size of a chunk are taken digit by digit, and whether there is room for one
more digit is decided before it is taken. What is accepted is nevertheless decided by the whole
number alone, and the length is then that number; no digit takes a length out of its word
(`scan_numbers`).
-/

namespace StreamFraming.Http

open Token

/-- A number that can be read as the size of a chunk. -/
def IsSize (v : List UInt8) : Prop :=
  (∀ c ∈ v, isHexDigit c = true) ∧ numeral 16 v < 2 ^ 31

instance (v : List UInt8) : Decidable (IsSize v) :=
  inferInstanceAs (Decidable ((∀ c ∈ v, isHexDigit c = true) ∧ numeral 16 v < 2 ^ 31))

namespace Progress

variable {p : Progress} {u v b : List UInt8}

/-! ### Content lengths -/

/-- The value of a content length comes next, and no length is known. -/
structure AwaitsLength (p : Progress) : Prop where
  position : p.position = ⟨.contentLength, 16⟩
  line : p.line = .inLine
  length : p.length = 0
  error : p.flags.error = false

theorem Tells.valueText {es : List Anomaly} {q : Progress}
    (value : Tells (p.moveTo ⟨.lengthDigits, 0⟩) v es q)
    (begins : ∀ c, v.head? = some c → isBlank c = false) :
    ∃ y, Tells (p.moveTo ⟨.contentLength, 16⟩) v es (q.moveTo y) := by
  cases v with
  | nil =>
    cases value
    exact ⟨_, .nil _⟩
  | cons c v => exact ⟨q.position, value.beforeDigits (begins c rfl)⟩

theorem tells_numeral (framed : p.flags.error = false) (unset : p.length = 0)
    (plain : IsLineText v) :
    ∃ es q, Tells (p.moveTo ⟨.lengthDigits, 0⟩) v es q ∧
      (IsLength v → q.length.toNat = numeral 10 v ∧ q.flags.error = false ∧ es = []) ∧
      (¬ IsLength v → q.flags.error = true ∧ es = [.messageSize "invalid content-length"]) := by
  have nought : p.length.toNat = 0 := by
    rw [unset]
    rfl
  by_cases known : IsLength v
  · have value := passes_digits counts_decimal (by decide) p framed known.1
      (by rw [nought]; exact known.2)
    rw [nought] at value
    refine ⟨_, _, value.tells, fun _ => ⟨?_, framed, rfl⟩, fun bad => absurd known bad⟩
    exact UInt32.toNat_ofNat_of_lt' (Nat.lt_trans known.2 (by decide))
  · obtain ⟨m, value⟩ := tells_badDigits framed (fun ends => (plain _ ends).2 rfl)
      (by rw [nought]; decide) (by rw [nought]; exact known)
    exact ⟨_, _, value, fun good => absurd good known, fun _ => ⟨rfl, rfl⟩⟩

theorem AwaitsLength.tells (h : AwaitsLength p) (blank : IsBlank b) (plain : IsLineText v)
    (begins : ∀ c, v.head? = some c → isBlank c = false) :
    ∃ es q, Tells p (b ++ v) es q ∧
      (IsLength v → q.length.toNat = numeral 10 v ∧ q.flags.error = false ∧ es = []) ∧
      (¬ IsLength v → q.flags.error = true ∧ es = [.messageSize "invalid content-length"]) := by
  obtain ⟨es, q, value, good, bad⟩ := tells_numeral h.error h.length plain
  obtain ⟨y, value⟩ := value.valueText begins
  have blanks := (passes_beforeDigits p blank).tells
  have same : (if b.isEmpty then p.length else 0) = p.length := by rw [h.length, ite_self]
  have start : p.moveTo ⟨.contentLength, 16⟩ = p := by rw [← h.position]; rfl
  rw [same] at blanks
  rw [start] at blanks value
  exact ⟨_, _, blanks.append value, good, bad⟩

/-! ### Sizes of chunks -/

/-- The size of a chunk comes next. -/
structure AwaitsSize (p : Progress) : Prop where
  position : p.position = .chunkStart
  length : p.length = 0
  amid : AmidChunks p

theorem AwaitsSize.moveTo_chunkStart (h : AwaitsSize p) : p.moveTo .chunkStart = p := by
  rw [← h.position]
  rfl

theorem AwaitsSize.read_good (h : AwaitsSize p) (size : IsSize v) (ending : LineEnd)
    (rest : List UInt8) :
    ∃ q, p.read (v ++ ending.bytes ++ rest) = ({ progress := q, verdict := .skip }, rest) ∧
      q.length.toNat = numeral 16 v ∧ q.flags.error = false := by
  have read := h.amid.read_sizeLine h.length size.1 size.2 ending rest
  rw [h.moveTo_chunkStart] at read
  have number : (numeral 16 v).toUInt32.toNat = numeral 16 v :=
    UInt32.toNat_ofNat_of_lt' (Nat.lt_trans size.2 (by decide))
  refine ⟨_, read, ?_, ?_⟩
  · simp only
    split <;> exact number
  · simp only
    split <;> exact h.amid.error

theorem AwaitsSize.read_bad (h : AwaitsSize p) (plain : IsLineText v) (bad : ¬ IsSize v) :
    ∃ u c w q, v = u ++ c :: w ∧ IsSize u ∧ ¬ IsSize (u ++ [c]) ∧ q.flags.error = true ∧
      ∀ rest, p.read (v ++ rest) =
        ({ progress := q, verdict := .flush, raised := [.messageSize "invalid chunk size"] },
          w ++ rest) := by
  obtain ⟨u, c, w, m, whole, good, offends, read⟩ := readSize_bad (n := 0) plain (by decide) bad
  have start : { p with length := 0 }.moveTo .chunkStart = p := by
    rw [← h.length]
    exact h.moveTo_chunkStart
  let q := ({ p with length := m }.moveTo .chunkStart).mark fun f => { f with error := true }
  refine ⟨u, c, w, q, whole, good, offends, rfl, fun rest => ?_⟩
  have sized := h.amid.read_size 0 (v ++ rest)
  rw [read rest, start] at sized
  exact sized

/-! ### Scans -/

/-- A text without line ends is read as a content length or as the size of a chunk just if the
number that it stands for has room, and no digit takes a length out of its word. -/
theorem scan_numbers (fromClient : Bool) (plain : IsLineText v) :
    (∀ p b, AwaitsLength p → IsBlank b → (∀ c, v.head? = some c → isBlank c = false) →
      let s := p.scan fromClient (b ++ v)
      s.verdict = .search ∧ s.consumed = (b ++ v).length ∧
        (IsLength v → s.progress.length.toNat = numeral 10 v ∧ s.progress.flags.error = false ∧
          s.raised = []) ∧
        (¬ IsLength v → s.progress.flags.error = true ∧
          s.raised = [.messageSize "invalid content-length"])) ∧
    (∀ p (ending : LineEnd) rest, AwaitsSize p →
      (IsSize v →
        let s := p.scan fromClient (v ++ ending.bytes ++ rest)
        s.verdict = .skip ∧ s.consumed = (v ++ ending.bytes).length ∧
          s.progress.length.toNat = numeral 16 v ∧ s.progress.flags.error = false ∧
          s.raised = []) ∧
      (¬ IsSize v → ∃ u c w, v = u ++ c :: w ∧ IsSize u ∧ ¬ IsSize (u ++ [c]) ∧
        let s := p.scan fromClient (v ++ rest)
        s.verdict = .flush ∧ s.point = Length.ofNat (v ++ rest).length ∧
          s.consumed = u.length + 1 ∧ s.progress.flags.error = true ∧
          s.raised = [.messageSize "invalid chunk size"])) ∧
    ∀ n c m,
      (Digit.shiftDecimal? n c = some m → ∃ x, Digit.decimal? c = some x ∧
        n.toNat * 10 + x.toNat < 2 ^ 32 ∧ m.toNat = n.toNat * 10 + x.toNat) ∧
      (Digit.shiftHex? n c = some m → ∃ x, Digit.hex? c = some x ∧
        n.toNat * 16 + x.toNat < 2 ^ 32 ∧ m.toNat = n.toNat * 16 + x.toNat) := by
  refine ⟨fun p b awaits blank begins => ?_, fun p ending rest awaits => ⟨fun size => ?_,
    fun bad => ?_⟩, fun n c m => ⟨fun shifted => ?_, fun shifted => ?_⟩⟩
  · obtain ⟨es, q, value, good, bad⟩ := awaits.tells blank plain begins
    have text : IsLineText (b ++ v) := isLineText_append.mpr ⟨isLineText_of_isBlank blank, plain⟩
    rw [(takes_text value awaits.line text).scan fromClient]
    exact ⟨rfl, rfl, good, bad⟩
  · obtain ⟨q, read, number, framed⟩ := awaits.read_good size ending rest
    rw [scan_decided read Verdict.noConfusion, settle, if_neg (by rw [framed]; decide)]
    exact ⟨rfl, rfl, number, framed, rfl⟩
  · obtain ⟨u, c, w, q, rfl, good, offends, spoilt, read⟩ := awaits.read_bad plain bad
    have taken : u ++ c :: w ++ rest = u ++ [c] ++ (w ++ rest) := by simp
    have decided := read rest
    rw [taken] at decided
    refine ⟨u, c, w, rfl, good, offends, ?_⟩
    rw [taken, scan_decided decided Verdict.noConfusion, settle, if_pos spoilt]
    exact ⟨rfl, rfl, List.length_append, spoilt, rfl⟩
  · obtain ⟨x, digit, value⟩ := Digit.toNat_shiftDecimal shifted
    exact ⟨x, digit, value ▸ m.toNat_lt, value⟩
  · obtain ⟨x, digit, value⟩ := Digit.toNat_shiftHex shifted
    exact ⟨x, digit, value ▸ m.toNat_lt, value⟩

/-- Digits that make a content length, and whose last one makes too large a size. -/
theorem scan_numbers_eightDigits :
    let v := "80000000".toUTF8.toList
    let p := (request.read "POST / HTTP/1.1\r\nContent-Length:".toUTF8.toList).1.progress
    let q := (request.read
      "POST / HTTP/1.1\r\nTransfer-Encoding: chunked\r\n\r\n".toUTF8.toList).1.progress
    IsLineText v ∧ AwaitsLength p ∧ AwaitsSize q ∧
      (p.scan true (ascii [' '] ++ v)).progress.length.toNat = 80000000 ∧
      (q.scan true (v ++ ascii ['\r', '\n'])).raised = [.messageSize "invalid chunk size"] := by
  intro v p q
  have plain : IsLineText v := by decide +kernel
  have awaits : AwaitsLength p :=
    ⟨by decide +kernel, by decide +kernel, by decide +kernel, by decide +kernel⟩
  have awaits' : AwaitsSize q :=
    ⟨by decide +kernel, by decide +kernel,
      by decide +kernel, by decide +kernel, by decide +kernel, by decide +kernel⟩
  obtain ⟨lengths, sizes, -⟩ := scan_numbers true plain
  obtain ⟨-, -, good, -⟩ := lengths p (ascii [' ']) awaits (by decide +kernel) (by decide +kernel)
  obtain ⟨-, bad⟩ := sizes q .crlf (ascii ['\r', '\n']) awaits'
  obtain ⟨-, -, -, -, -, -, -, -, -, -, raised⟩ := bad (by decide +kernel)
  have number : numeral 10 v = 80000000 := by decide +kernel
  exact ⟨plain, awaits, awaits', (good (by decide +kernel)).1.trans number, raised⟩

end Progress

end StreamFraming.Http
