import StreamFraming.Proofs.Http.Reading
import StreamFraming.Proofs.Message.FieldLines
import StreamFraming.Proofs.Message.Reckoning

/-!
# Header lines and progress

An unfolded header line, with its line end, leads back to where a field begins. What it leaves is
what the field declares: a length (`tells_lengthField`), chunks, or nothing (`passes_otherField`). A
length that is too large is told of, and no length is read behind it (`tells_largeField`,
`passes_spoiltField`).
-/

namespace StreamFraming.Http

namespace Progress

open Token

/-- The bytes lead through the table from `p` to `q`, and nothing else comes of them. -/
def Passes (p : Progress) : List UInt8 → Progress → Prop
  | [], q => p = q
  | c :: u, q => ∃ r, p.stepToken c = { progress := r } ∧ Passes r u q

/-- The bytes lead through the table from `p` to `q`, and these anomalies are raised. -/
inductive Tells : Progress → List UInt8 → List Anomaly → Progress → Prop
  | nil (p : Progress) : Tells p [] [] p
  | cons {p q r : Progress} {c : UInt8} {u : List UInt8} {es fs : List Anomaly} :
    p.stepToken c = { progress := q, raised := es } → Tells q u fs r → Tells p (c :: u) (es ++ fs) r

/-- The progress at another place of the table. -/
def moveTo (p : Progress) (x : Position) : Progress := { p with position := x }

variable {p q r : Progress} {x y : Position} {c : UInt8} {u v : List UInt8} {a : Action}
  {es fs : List Anomaly}

theorem passes_append (first : Passes p u q) (rest : Passes q v r) : Passes p (u ++ v) r := by
  induction u generalizing p with
  | nil =>
    cases first
    exact rest
  | cons c u ih =>
    obtain ⟨s, step, later⟩ := first
    exact ⟨s, step, ih later⟩

theorem Passes.tells (h : Passes p u q) : Tells p u [] q := by
  induction u generalizing p with
  | nil =>
    cases h
    exact .nil _
  | cons c u ih =>
    obtain ⟨s, step, rest⟩ := h
    exact .cons step (ih rest)

theorem Tells.passes (h : Tells p u es q) (silent : es = []) : Passes p u q := by
  induction h with
  | nil p => rfl
  | cons step rest ih =>
    obtain ⟨rfl, rfl⟩ := List.append_eq_nil_iff.mp silent
    exact ⟨_, step, ih rfl⟩

theorem Tells.append (first : Tells p u es q) (rest : Tells q v fs r) :
    Tells p (u ++ v) (es ++ fs) r := by
  induction first with
  | nil p => exact rest
  | cons step _ ih =>
    rw [List.append_assoc]
    exact .cons step (ih rest)

theorem tells_single (step : p.stepToken c = { progress := q, raised := es }) :
    Tells p [c] es q := by
  have single := Tells.cons step (.nil q)
  rwa [List.append_nil] at single

theorem stepToken_moveTo (p : Progress) (step : table.step x c = (y, a)) :
    (p.moveTo x).stepToken c = (p.moveTo y).note (fold c) a := by
  simp only [stepToken, moveTo, step]

theorem stepToken_nop (p : Progress) (step : table.step x c = (y, .nop)) :
    (p.moveTo x).stepToken c = { progress := p.moveTo y } := by
  rw [stepToken_moveTo p step]
  rfl

theorem stepToken_mark {mark : Flags → Flags} (p : Progress) (step : table.step x c = (y, a))
    (notes : ∀ (q : Progress) (c : UInt8), q.note c a = { progress := q.mark mark }) :
    (p.moveTo x).stepToken c = { progress := (p.mark mark).moveTo y } := by
  rw [stepToken_moveTo p step, notes]
  rfl

theorem stepToken_congr (p : Progress) (same : table.step x c = table.step y c) :
    (p.moveTo x).stepToken c = (p.moveTo y).stepToken c := by
  simp only [stepToken, moveTo, same]

theorem passes_congr (p : Progress) (same : table.step x c = table.step y c)
    (h : Passes (p.moveTo y) (c :: u) q) : Passes (p.moveTo x) (c :: u) q := by
  obtain ⟨r, step, rest⟩ := h
  exact ⟨r, (stepToken_congr p same).trans step, rest⟩

/-- Bytes of which nothing but marks is noted. -/
theorem passes_marks {as : List Action} (p : Progress) (mark : Flags → Flags)
    (h : Notes x u as y)
    (notes : ∀ a ∈ as, ∀ (q : Progress) (c : UInt8), q.note c a = { progress := q.mark mark }) :
    Passes (p.moveTo x) u ((as.foldl (fun q _ => q.mark mark) p).moveTo y) := by
  induction u generalizing x p as with
  | nil =>
    obtain ⟨all, fed, rfl⟩ := h
    cases fed
    rfl
  | cons c u ih =>
    obtain ⟨all, fed, rfl⟩ := h
    rw [Table.feed, Prod.mk.injEq] at fed
    obtain ⟨rfl, rfl⟩ := fed
    have rest : Notes (table.step x c).1 u _ _ := ⟨_, rfl, rfl⟩
    by_cases nothing : (table.step x c).2 = .nop
    · rw [List.filter_cons_of_neg (by simp [nothing])] at notes ⊢
      exact ⟨_, stepToken_nop p (Prod.ext rfl nothing), ih p rest notes⟩
    · rw [List.filter_cons_of_pos (by simpa using nothing)] at notes ⊢
      exact ⟨_, stepToken_mark p rfl (notes _ List.mem_cons_self),
        ih (p.mark mark) rest fun a ha => notes a (List.mem_cons_of_mem _ ha)⟩

theorem passes_notes (p : Progress) (h : Notes x u [] y) : Passes (p.moveTo x) u (p.moveTo y) :=
  passes_marks p id h nofun

theorem passes_stay (p : Progress) (stay : ∀ c ∈ u, table.step x c = (x, .nop)) :
    Passes (p.moveTo x) u (p.moveTo x) :=
  passes_notes p (notes_stay stay)

/-! ### Numbers -/

theorem le_numeralFrom {base : Nat} (positive : 0 < base) (n : Nat) (v : List UInt8) :
    n ≤ numeralFrom base n v := by
  induction v generalizing n with
  | nil => exact Nat.le_refl n
  | cons c v ih =>
    have later := ih (n * base + digitValue c)
    have grows : n ≤ n * base := Nat.le_mul_of_pos_right n positive
    rw [numeralFrom_cons]
    omega

/-- A place that reads digits of a base as long as there is room for another one. -/
def Counts (x : Position) (base limit : Nat) (digit : UInt8 → Bool) : Prop :=
  ∀ (p : Progress) (c : UInt8), p.flags.error = false → digit c = true → p.length.toNat < limit →
    ∃ next : UInt32, next.toNat = p.length.toNat * base + digitValue c ∧
      (p.moveTo x).stepToken c = { progress := { p with length := next }.moveTo x }

theorem passes_digits {x : Position} {base limit : Nat} {digit : UInt8 → Bool}
    (counts : Counts x base limit digit) (positive : 0 < base) (p : Progress)
    (framed : p.flags.error = false) {v : List UInt8} (digits : ∀ c ∈ v, digit c = true)
    (small : numeralFrom base p.length.toNat v < limit * base) :
    Passes (p.moveTo x) v
      ({ p with length := (numeralFrom base p.length.toNat v).toUInt32 }.moveTo x) := by
  induction v generalizing p with
  | nil =>
    have same : p.length.toNat.toUInt32 = p.length := by simp
    rw [numeralFrom_nil, same]
    rfl
  | cons c v ih =>
    rw [numeralFrom_cons] at small ⊢
    have grows := le_numeralFrom positive (p.length.toNat * base + digitValue c) v
    have room : p.length.toNat < limit := by
      apply Nat.lt_of_mul_lt_mul_right (a := base)
      omega
    obtain ⟨next, length, step⟩ := counts p c framed (digits c List.mem_cons_self) room
    have later := ih { p with length := next } framed
      (fun b hb => digits b (List.mem_cons_of_mem c hb)) (by simp only [length]; exact small)
    simp only [length] at later
    exact ⟨_, step, later⟩

theorem decimal?_fold {c : UInt8} (digit : isDigit c = true) :
    ∃ x, Digit.decimal? (fold c) = some x ∧ x.toNat = digitValue c := by
  have known : Digit.decimal? (fold c) = some (c - 0x30).toUInt32 ∧
      (c - 0x30).toUInt32.toNat = digitValue c := by
    unfold digitValue
    revert c
    decide +kernel
  exact ⟨_, known⟩

theorem decimal?_other {c : UInt8} (other : isDigit c = false) :
    Digit.decimal? (fold c) = none := by
  revert c
  decide +kernel

theorem isDigit_solid {c : UInt8} (digit : isDigit c = true) :
    fold c = c ∧ isBlank c = false ∧ c ≠ lineFeed := by
  revert c
  decide +kernel

theorem digitValue_le {c : UInt8} (digit : isDigit c = true) : digitValue c ≤ 9 := by
  unfold digitValue
  revert c
  decide +kernel

/-- A length takes a digit as long as it can be read with the digit. -/
theorem shiftDecimal?_cases (n : UInt32) (c : UInt8) :
    (∃ m, Digit.shiftDecimal? n (fold c) = some m ∧ Fits isDigit 10 lengthBound n.toNat [c] ∧
      m.toNat = n.toNat * 10 + digitValue c) ∨
    Digit.shiftDecimal? n (fold c) = none ∧ ¬ Fits isDigit 10 lengthBound n.toNat [c] := by
  rw [fits_single]
  cases digit : isDigit c with
  | false =>
    refine .inr ⟨?_, by simp⟩
    rw [Digit.shiftDecimal?, decimal?_other digit]
  | true =>
    have most := digitValue_le digit
    obtain ⟨x, value, number⟩ := decimal?_fold digit
    by_cases room : n.toNat < 429496728
    · obtain ⟨m, shifted⟩ : ∃ m, Digit.shiftDecimal? n (fold c) = some m := by
        have below : n < Digit.decimalLimit := room
        rw [Digit.shiftDecimal?, value]
        simp only [if_pos below]
        exact ⟨_, rfl⟩
      obtain ⟨x', found, length⟩ := Digit.toNat_shiftDecimal shifted
      rw [value, Option.some.injEq] at found
      rw [← found, number] at length
      exact .inl ⟨m, shifted, ⟨rfl, by unfold lengthBound; omega⟩, length⟩
    · have full : ¬ n < Digit.decimalLimit := room
      refine .inr ⟨?_, fun fits => absurd fits.2 (by unfold lengthBound; omega)⟩
      rw [Digit.shiftDecimal?, value]
      simp only [if_neg full]

theorem counts_decimal : Counts ⟨.lengthDigits, 0⟩ 10 429496728 isDigit := by
  intro p c framed digit room
  have most := digitValue_le digit
  have taken : table.step ⟨.lengthDigits, 0⟩ c = (⟨.lengthDigits, 0⟩, .shiftDecimal) := by
    rw [step_lengthDigits, if_neg (isDigit_solid digit).2.2]
  rcases shiftDecimal?_cases p.length c with ⟨next, shifted, -, length⟩ | ⟨-, large⟩
  · refine ⟨next, length, ?_⟩
    rw [stepToken_moveTo p taken]
    simp only [note, moveTo, framed, Bool.false_eq_true, if_false, shifted]
  · exact absurd (fits_single.mpr ⟨digit, by unfold lengthBound; omega⟩) large

/-! ### Fields -/

/-- Blanks in front of a value clear the length. -/
theorem passes_beforeDigits (p : Progress) (blank : IsBlank u) :
    Passes (p.moveTo ⟨.contentLength, 16⟩) u
      ({ p with length := if u.isEmpty then p.length else 0 }.moveTo ⟨.contentLength, 16⟩) := by
  induction u generalizing p with
  | nil => rfl
  | cons c u ih =>
    have step : table.step ⟨.contentLength, 16⟩ c = (⟨.contentLength, 16⟩, .lengthZero) := by
      rw [step_beforeDigits, if_pos (blank c List.mem_cons_self)]
    have rest := ih { p with length := 0 } fun b hb => blank b (List.mem_cons_of_mem c hb)
    simp only [ite_self] at rest
    exact ⟨_, stepToken_moveTo p step, rest⟩

/-- A byte behind the blanks is tried among the digits. -/
theorem Tells.beforeDigits (h : Tells (p.moveTo ⟨.lengthDigits, 0⟩) (c :: u) es q)
    (solid : isBlank c = false) : Tells (p.moveTo ⟨.contentLength, 16⟩) (c :: u) es q := by
  cases h with
  | cons first rest =>
    refine .cons ((stepToken_congr p ?_).trans first) rest
    rw [step_beforeDigits, solid, if_neg (by decide)]

theorem tells_value (value : Tells (p.moveTo ⟨.lengthDigits, 0⟩) v es (q.moveTo ⟨.lengthDigits, 0⟩))
    (begins : ∀ c, v.head? = some c → isBlank c = false) :
    Tells (p.moveTo ⟨.contentLength, 16⟩) (v ++ [lineFeed]) es
      ((q.mark fun f => { f with hasLength := true }).moveTo .fieldStart) := by
  have step : table.step ⟨.lengthDigits, 0⟩ lineFeed = (.fieldStart, .lengthBody) := by
    rw [step_lengthDigits, if_pos rfl]
  have last := tells_single (stepToken_mark q step fun _ _ => rfl)
  have whole := value.append last
  rw [List.append_nil] at whole
  cases v with
  | nil => exact whole.beforeDigits (by decide)
  | cons c v => exact whole.beforeDigits (begins c rfl)

/-- A field that declares a length: its value is taken where digits are, with the length cleared if
a blank follows the colon. -/
theorem tells_lengthField {f : HeaderField} (known : f.contentLength? = some v)
    (value : Tells ({ p with length := if f.isSpaced then 0 else p.length }.moveTo
      ⟨.lengthDigits, 0⟩) v es (q.moveTo ⟨.lengthDigits, 0⟩)) :
    Tells (p.moveTo .fieldStart) (f.text ++ [lineFeed]) es
      ((q.mark fun f => { f with hasLength := true }).moveTo .fieldStart) := by
  obtain ⟨word, b, b', whole, spelled, blank, blank', begins⟩ := fieldValue?_some known
  have name := passes_notes p (notes_contentLengthName spelled)
  have colon := passes_notes p (awaitsColon_contentLength.colon blank)
  have cleared := passes_beforeDigits p blank'
  have spaced := HeaderField.isSpaced_eq whole spelled blank blank' begins
  have same : (if b'.isEmpty then p.length else 0) = if f.isSpaced then 0 else p.length := by
    rw [spaced]
    cases b' <;> rfl
  rw [same] at cleared
  have line := (passes_append name (passes_append colon cleared)).tells.append
    (tells_value value begins)
  rw [whole]
  simpa using line

theorem passes_otherField (p : Progress) {f : HeaderField} (noLength : f.contentLength? = none) :
    Passes (p.moveTo .fieldStart) (f.text ++ [lineFeed])
      ((if f.isChunked then p.mark fun g => { g with chunked := true } else p).moveTo
        .fieldStart) := by
  have inside : lineFeed ∉ f.text := fun h => (f.isLineText_text _ h).2 rfl
  have line := passes_marks p (fun g => { g with chunked := true })
    (notesLine_otherField inside noLength).notes
  have same : announcesChunks f.text = f.isChunked := rfl
  rw [same] at line
  generalize f.isChunked = chunks at line ⊢
  cases chunks with
  | false => exact line nofun
  | true =>
    refine line fun a ha => ?_
    cases List.mem_singleton.mp ha
    exact fun _ _ => rfl

theorem toNat_cleared (f : HeaderField) (n : UInt32) :
    (if f.isSpaced then 0 else n).toNat = if f.isSpaced then 0 else n.toNat := by
  split <;> rfl

theorem passes_lengthField {f : HeaderField} (known : f.contentLength? = some v)
    (digits : ∀ c ∈ v, isDigit c = true) (framed : p.flags.error = false)
    (small : f.extend p.length.toNat v < lengthBound) :
    Passes (p.moveTo .fieldStart) (f.text ++ [lineFeed])
      (({ p with length := (f.extend p.length.toNat v).toUInt32 }.mark fun f =>
        { f with hasLength := true }).moveTo .fieldStart) := by
  have base := toNat_cleared f p.length
  have value := passes_digits counts_decimal (by decide)
    { p with length := if f.isSpaced then 0 else p.length } framed digits
    (by rw [base]; exact small)
  rw [base] at value
  exact (tells_lengthField known value.tells).passes rfl

/-- Behind a length that cannot be read no digit counts. -/
theorem passes_spoiltDigits (spoilt : p.flags.error = true) (inside : lineFeed ∉ v) :
    Passes (p.moveTo ⟨.lengthDigits, 0⟩) v (p.moveTo ⟨.lengthDigits, 0⟩) := by
  induction v with
  | nil => rfl
  | cons c v ih =>
    rw [List.mem_cons, not_or] at inside
    have step : table.step ⟨.lengthDigits, 0⟩ c = (⟨.lengthDigits, 0⟩, .shiftDecimal) := by
      rw [step_lengthDigits, if_neg (Ne.symm inside.1)]
    refine ⟨_, ?_, ih inside.2⟩
    rw [stepToken_moveTo p step]
    simp only [note, moveTo, spoilt, if_true]

/-- The first byte that makes no length with the digits in front of it is told of, and the ones
behind it are passed over. -/
theorem tells_badDigits (framed : p.flags.error = false) (inside : lineFeed ∉ v)
    (small : p.length.toNat < lengthBound) (bad : ¬ Fits isDigit 10 lengthBound p.length.toNat v) :
    ∃ m, Tells (p.moveTo ⟨.lengthDigits, 0⟩) v [.messageSize "invalid content-length"]
      (({ p with length := m }.mark fun f => { f with error := true }).moveTo
        ⟨.lengthDigits, 0⟩) := by
  induction v generalizing p with
  | nil => exact absurd ⟨nofun, small⟩ bad
  | cons c v ih =>
    rw [List.mem_cons, not_or] at inside
    have taken : table.step ⟨.lengthDigits, 0⟩ c = (⟨.lengthDigits, 0⟩, .shiftDecimal) := by
      rw [step_lengthDigits, if_neg (Ne.symm inside.1)]
    rcases shiftDecimal?_cases p.length c with ⟨next, shifted, fits, length⟩ | ⟨full, -⟩
    · obtain ⟨digit, below⟩ := fits_single.mp fits
      obtain ⟨m, rest⟩ := ih (p := { p with length := next }) framed inside.2
        (by simp only [length]; exact below)
        (by simp only [length]; exact fun fits => bad (fits_cons.mpr ⟨digit, fits⟩))
      have step : (p.moveTo ⟨.lengthDigits, 0⟩).stepToken c =
          { progress := { p with length := next }.moveTo ⟨.lengthDigits, 0⟩ } := by
        rw [stepToken_moveTo p taken]
        simp only [note, moveTo, framed, Bool.false_eq_true, if_false, shifted]
      exact ⟨m, .cons step rest⟩
    · have step : (p.moveTo ⟨.lengthDigits, 0⟩).stepToken c =
          { progress := (p.mark fun f => { f with error := true }).moveTo ⟨.lengthDigits, 0⟩
            raised := [.messageSize "invalid content-length"] } := by
        rw [stepToken_moveTo p taken]
        simp only [note, moveTo, framed, Bool.false_eq_true, if_false, full]
        rfl
      have rest : Passes ((p.mark fun f => { f with error := true }).moveTo ⟨.lengthDigits, 0⟩) v
          ((p.mark fun f => { f with error := true }).moveTo ⟨.lengthDigits, 0⟩) :=
        passes_spoiltDigits rfl inside.2
      exact ⟨p.length, .cons step rest.tells⟩

theorem tells_largeField {f : HeaderField} (known : f.contentLength? = some v)
    (digits : ∀ c ∈ v, isDigit c = true) (framed : p.flags.error = false)
    (small : p.length.toNat < lengthBound) (large : lengthBound ≤ f.extend p.length.toNat v) :
    ∃ m, Tells (p.moveTo .fieldStart) (f.text ++ [lineFeed]) [.messageSize "invalid content-length"]
      (({ p with length := m }.mark fun f => { f with error := true, hasLength := true }).moveTo
        .fieldStart) := by
  have base := toNat_cleared f p.length
  obtain ⟨m, value⟩ := tells_badDigits (v := v) (p := { p with
      length := if f.isSpaced then 0 else p.length }) framed
    (fun ends => (isDigit_solid (digits _ ends)).2.2 rfl)
    (by rw [base]; split <;> [decide; exact small])
    (by rw [base]; exact fun fits => absurd fits.2 (Nat.not_lt.mpr large))
  exact ⟨m, tells_lengthField known value⟩

theorem passes_spoiltField {f : HeaderField} (known : f.contentLength? = some v)
    (digits : ∀ c ∈ v, isDigit c = true) (spoilt : p.flags.error = true) :
    ∃ m, Passes (p.moveTo .fieldStart) (f.text ++ [lineFeed])
      (({ p with length := m }.mark fun f => { f with hasLength := true }).moveTo .fieldStart) := by
  have value := passes_spoiltDigits (p := { p with
      length := if f.isSpaced then 0 else p.length }) (v := v) spoilt
    fun ends => (isDigit_solid (digits _ ends)).2.2 rfl
  exact ⟨_, (tells_lengthField known value.tells).passes rfl⟩

end Progress

end StreamFraming.Http
