import StreamFraming.Proofs.Message.Chunks

/-!
# Fields with several lengths

A message may declare its length in any number of fields. It is cut at the length that they make
together (`read_lengths`), or given up where that one is too large (`read_largeLengths`). So blanks
behind a colon move the cut, unless there are no digits in front of them or none of these last
(`scan_lengths`).
-/

namespace StreamFraming.Http

variable {d : Direction}

/-- The bytes of a head with any fields. -/
def StartLine.headBytes (l : StartLine d) (ending : LineEnd) (fs : List HeaderField)
    (blank : LineEnd) : List UInt8 :=
  l.text ++ ending.bytes ++ fs.flatMap HeaderField.bytes ++ blank.bytes

theorem isSome_declared? {f : HeaderField} {v : List UInt8} (known : f.contentLength? = some v)
    (pre post : List HeaderField) : (declared? (pre ++ f :: post)).isSome = true := by
  rw [declared?, List.filterMap_append, List.filterMap_cons_some known]
  simp

/-- The lengths that fields make come to the same. They are not looked at where there is no body and
where there are chunks, but for one that is too large. -/
def SameCut (l : StartLine d) (noBody : Bool) (fs gs : List HeaderField) : Prop :=
  reckoned fs = reckoned gs ∨
    (l.lacksBody noBody = true ∨ fs.any HeaderField.isChunked = true) ∧
      (reckoned fs).isSome = true ∧ (reckoned gs).isSome = true

namespace Progress

variable {p q : Progress} {u body : List UInt8} {es : List Anomaly} {fs : List HeaderField}

theorem leads_spoiltFields (before : Leads p u es (q.moveTo .fieldStart))
    (spoilt : q.flags.error = true)
    (lengths : ∀ v ∈ fs.filterMap HeaderField.contentLength?, IsLength v) :
    ∃ m, Leads p (u ++ fs.flatMap HeaderField.bytes) es ((q.learn fs m).moveTo .fieldStart) := by
  induction fs generalizing q u with
  | nil =>
    have same : q.learn [] q.length = q := by rw [learn, tell_nil]
    exact ⟨q.length, by simpa [same] using before⟩
  | cons f fs ih =>
    simp only [List.flatMap_cons, ← List.append_assoc, learn]
    cases known : f.contentLength? with
    | none =>
      rw [List.filterMap_cons_none known] at lengths
      rw [tell_cons_none known]
      refine ih (leads_otherField before known) ?_ lengths
      simp only [mark]
      split <;> exact spoilt
    | some v =>
      rw [List.filterMap_cons_some known, List.forall_mem_cons] at lengths
      obtain ⟨m, passes⟩ := passes_spoiltField known lengths.1.1 spoilt
      have field := leads_field before passes.tells
      rw [List.append_nil] at field
      rw [tell_cons_some known]
      exact ih field spoilt lengths.2

theorem leads_largeFields (before : Leads p u es (q.moveTo .fieldStart))
    (framed : q.flags.error = false) (small : q.length.toNat < lengthBound)
    (lengths : ∀ v ∈ fs.filterMap HeaderField.contentLength?, IsLength v)
    (made : reckonedFrom q.length.toNat fs = none) :
    ∃ m, Leads p (u ++ fs.flatMap HeaderField.bytes) (es ++ [.messageSize "invalid content-length"])
      (((q.learn fs m).mark fun f => { f with error := true }).moveTo .fieldStart) := by
  -- the first length that is too large is told of, and no length is read behind it
  induction fs generalizing q u with
  | nil => cases made
  | cons f fs ih =>
    simp only [List.flatMap_cons, ← List.append_assoc, learn]
    cases known : f.contentLength? with
    | none =>
      rw [List.filterMap_cons_none known] at lengths
      rw [reckonedFrom_cons_none known] at made
      rw [tell_cons_none known]
      refine ih (leads_otherField before known) ?_ small lengths made
      simp only [mark]
      split <;> exact framed
    | some v =>
      rw [List.filterMap_cons_some known, List.forall_mem_cons] at lengths
      rw [reckonedFrom_cons_some known] at made
      rw [tell_cons_some known]
      by_cases fits : f.extend q.length.toNat v < lengthBound
      · rw [if_pos fits] at made
        have field := leads_field before (passes_lengthField known lengths.1.1 framed fits).tells
        rw [List.append_nil] at field
        have length : (f.extend q.length.toNat v).toUInt32.toNat = f.extend q.length.toNat v := by
          rw [lengthBound] at fits
          exact Length.toNat_toUInt32 (by omega)
        refine ih field framed ?_ lengths.2 ?_
        · simp only [mark, length]
          exact fits
        · simp only [mark, length]
          exact made
      · obtain ⟨m, tells⟩ :=
          tells_largeField known lengths.1.1 framed small (Nat.le_of_not_lt fits)
        exact leads_spoiltFields (leads_field before tells) rfl lengths.2

/-! ### The end of the head -/

variable (l : StartLine d) (noBody : Bool) {n : Nat}

theorem endHeaders_closed (declares : (declared? fs).isSome = true) (n : UInt32) :
    (closed l noBody fs n).endHeaders =
      if l.lacksBody noBody then { progress := closed l noBody fs 0, verdict := .flush }
      else if fs.any HeaderField.isChunked then
        { progress := (closed l noBody fs 0).startChunks }
      else { progress := closed l noBody fs n, verdict := .flush } := by
  have hasLength := (hasLength_closed l noBody fs n).trans declares
  rw [(l.told_closed noBody fs n).endHeaders_eq fun _ => .inr hasLength, hasLength, chunked_closed,
    Bool.or_true]
  rfl

section

variable (lengths : ∀ v ∈ fs.filterMap HeaderField.contentLength?, IsLength v)
  (declares : (declared? fs).isSome = true) (ending blank : LineEnd) (body : List UInt8)

include lengths declares

theorem read_lengths (made : reckoned fs = some n) :
    (opening d noBody).read (l.headBytes ending fs blank ++ body) =
      if l.lacksBody noBody then
        ({ progress := closed l noBody fs 0, verdict := .flush }, body)
      else if fs.any HeaderField.isChunked then
        (readSize 0 body).reading (closed l noBody fs 0).startChunks
      else ({ progress := closed l noBody fs n.toUInt32, verdict := .flush }, body) := by
  have leads := leads_closed l noBody lengths made ending
  have ends := endHeaders_closed l noBody declares n.toUInt32
  by_cases lacks : l.lacksBody noBody = true
  · rw [if_pos lacks] at ends ⊢
    have read := read_blankLine leads blank (by rw [ends]; exact Verdict.noConfusion) body
    rw [ends] at read
    exact read
  rw [if_neg lacks] at ends ⊢
  by_cases chunks : fs.any HeaderField.isChunked = true
  · rw [if_pos chunks] at ends ⊢
    have quiet := quiet_blankLine leads blank ends
    have sizes := inChunks_closed (Bool.eq_false_iff.mpr lacks) fs 0
    exact (quiet.read_append body).trans (sizes.amid.read_size 0 body)
  · rw [if_neg chunks] at ends ⊢
    have read := read_blankLine leads blank (by rw [ends]; exact Verdict.noConfusion) body
    rw [ends] at read
    exact read

theorem read_largeLengths (made : reckoned fs = none) :
    (opening d noBody).read (l.headBytes ending fs blank ++ body) =
      ({ progress := (closed l noBody fs 0).mark fun f => { f with error := true }
         verdict := .flush
         raised := [.messageSize "invalid content-length"] }, body) := by
  obtain ⟨unset, -, framed⟩ := started_fresh l noBody
  obtain ⟨m, leads⟩ := leads_largeFields (leads_startLine l noBody ending) framed
    (by rw [unset]; decide) lengths (by rw [unset]; exact made)
  have told := l.told_closed noBody fs m
  have hasLength := (hasLength_closed l noBody fs m).trans declares
  have ends := endHeaders_spoilt
    (p := (closed l noBody fs m).mark fun f => { f with error := true }) rfl told.simple hasLength
  have read := read_blankLine (q := (closed l noBody fs m).mark fun f => { f with error := true })
    leads blank (by rw [ends]; exact Verdict.noConfusion) body
  rw [ends] at read
  exact read

/-- Where a length can be read, no one tells that it is too large. -/
theorem raised_lengths (made : reckoned fs = some n) :
    ((opening d noBody).read (l.headBytes ending fs blank ++ body)).1.raised ≠
      [.messageSize "invalid content-length"] := by
  rw [read_lengths l noBody lengths declares ending blank body made]
  split
  · nofun
  · split
    · cases readSize 0 body with
      | unfinished n => nofun
      | invalid n rest => simp [SizeOutcome.reading, Anomaly.messageSize]
      | ended n rest => nofun
    · nofun

/-! ### Cuts -/

/-- A message without chunks is cut at the length that its fields make. -/
theorem scan_cut (made : reckoned fs = some n)
    (unchunked : fs.any HeaderField.isChunked = false) :
    let head := l.headBytes ending fs blank
    (opening d noBody).scan (d == .toServer) (head ++ body) =
      { progress := fresh (d == .toServer)
        verdict := .flush
        point := Length.add (if l.lacksBody noBody then 0 else n).toUInt32 head.length.toUInt32
        consumed := head.length
        headDone := d == .toServer && (noBody || l.isHead) } := by
  intro head
  have told := l.told_closed noBody fs
  have read := read_lengths l noBody lengths declares ending blank body made
  have settled (m : UInt32) : settle (d == .toServer) (head ++ body) head.length
      { progress := closed l noBody fs m, verdict := .flush } =
        { progress := fresh (d == .toServer)
          verdict := .flush
          point := Length.add m head.length.toUInt32
          consumed := head.length
          headDone := d == .toServer && (noBody || l.isHead) } := by
    simp only [settle, (told m).error, (told m).head, Bool.false_eq_true, if_false]
    rfl
  by_cases lacks : l.lacksBody noBody = true
  · rw [if_pos lacks] at read ⊢
    rw [scan_decided read Verdict.noConfusion, settled]
    rfl
  · rw [if_neg lacks, if_neg (Bool.eq_false_iff.mp unchunked)] at read
    rw [if_neg lacks, scan_decided read Verdict.noConfusion, settled]

/-- A message with a length that is too large is given up. -/
theorem scan_large (made : reckoned fs = none) :
    let head := l.headBytes ending fs blank
    (opening d noBody).scan (d == .toServer) (head ++ body) =
      { progress := (closed l noBody fs 0).mark fun f => { f with error := true }
        verdict := .flush
        point := Length.ofNat (head ++ body).length
        consumed := head.length
        raised := [.messageSize "invalid content-length"] } := by
  intro head
  have read := read_largeLengths l noBody lengths declares ending blank body made
  rw [scan_decided read Verdict.noConfusion]
  rfl

end

theorem point_inj {a b a' b' : Nat} {m n : Nat} (small : m + a + b < 2 ^ 32)
    (small' : n + a' + b' < 2 ^ 32) (sizes : a + b = a' + b')
    (same : Length.add (Length.add m.toUInt32 a.toUInt32) b.toUInt32 =
      Length.add (Length.add n.toUInt32 a'.toUInt32) b'.toUInt32) : m = n := by
  have points := congrArg UInt32.toNat same
  rw [Length.toNat_add, Length.toNat_add, Length.toNat_add, Length.toNat_add,
    Length.toNat_toUInt32 (by omega), Length.toNat_toUInt32 (by omega),
    Length.toNat_toUInt32 (by omega), Length.toNat_toUInt32 (by omega),
    Length.toNat_toUInt32 (by omega), Length.toNat_toUInt32 (by omega)] at points
  omega

/-! ### Blanks behind a colon -/

variable {f g : HeaderField} {v : List UInt8} {pre post : List HeaderField}

theorem length_respaced (f g : HeaderField) (pre post : List HeaderField) (ending blank : LineEnd)
    (body : List UInt8) :
    (l.headBytes ending (pre ++ f :: post) blank ++ body).length + g.bytes.length =
      (l.headBytes ending (pre ++ g :: post) blank ++ body).length + f.bytes.length := by
  simp only [StartLine.headBytes, List.length_append, List.flatMap_append, List.flatMap_cons]
  omega

section

variable (known : f.contentLength? = some v) (known' : g.contentLength? = some v)

include known known'

theorem chunked_respaced : (pre ++ f :: post).any HeaderField.isChunked =
    (pre ++ g :: post).any HeaderField.isChunked := by
  simp only [List.any_append, List.any_cons, HeaderField.isChunked_of_contentLength? known,
    HeaderField.isChunked_of_contentLength? known']

theorem lengths_respaced : (pre ++ f :: post).filterMap HeaderField.contentLength? =
    (pre ++ g :: post).filterMap HeaderField.contentLength? := by
  simp only [List.filterMap_append, List.filterMap_cons_some known,
    List.filterMap_cons_some known']

theorem closed_respaced (n : UInt32) :
    closed l noBody (pre ++ f :: post) n = closed l noBody (pre ++ g :: post) n := by
  simp only [closed, learn, Flags.tell, isSome_declared? known, isSome_declared? known',
    chunked_respaced known known']

variable (lengths : ∀ w ∈ (pre ++ f :: post).filterMap HeaderField.contentLength?, IsLength w)
  (ending blank : LineEnd) (body : List UInt8)

include lengths

theorem read_respaced (same : SameCut l noBody (pre ++ f :: post) (pre ++ g :: post)) :
    (opening d noBody).read (l.headBytes ending (pre ++ g :: post) blank ++ body) =
      (opening d noBody).read (l.headBytes ending (pre ++ f :: post) blank ++ body) := by
  have lengths' := lengths
  rw [lengths_respaced known known'] at lengths'
  have declares := isSome_declared? known pre post
  have declares' := isSome_declared? known' pre post
  rcases same with same | ⟨passed, readable, readable'⟩
  · cases made : reckoned (pre ++ f :: post) with
    | none =>
      rw [read_largeLengths l noBody lengths declares _ _ _ made,
        read_largeLengths l noBody lengths' declares' _ _ _ (same ▸ made),
        closed_respaced l noBody known known']
    | some n =>
      rw [read_lengths l noBody lengths declares _ _ _ made,
        read_lengths l noBody lengths' declares' _ _ _ (same ▸ made),
        closed_respaced l noBody known known', closed_respaced l noBody known known',
        chunked_respaced known known']
  · obtain ⟨n, made⟩ := Option.isSome_iff_exists.mp readable
    obtain ⟨m, made'⟩ := Option.isSome_iff_exists.mp readable'
    rw [read_lengths l noBody lengths declares _ _ _ made,
      read_lengths l noBody lengths' declares' _ _ _ made',
      closed_respaced l noBody known known', ← chunked_respaced known known']
    rcases passed with lacks | chunks
    · rw [if_pos lacks, if_pos lacks]
    · rw [if_pos chunks, if_pos chunks]

/-- A cut that moves by the bytes of the blanks alone tells that the lengths come to the same. -/
theorem sameCut_of_delayed
    (equal : ((opening d noBody).scan (d == .toServer)
        (l.headBytes ending (pre ++ f :: post) blank ++ body)).delayed g.bytes.length =
      ((opening d noBody).scan (d == .toServer)
        (l.headBytes ending (pre ++ g :: post) blank ++ body)).delayed f.bytes.length)
    (small : ∀ n ∈ reckoned (pre ++ f :: post),
      n + (l.headBytes ending (pre ++ f :: post) blank).length + g.bytes.length < 2 ^ 32)
    (small' : ∀ n ∈ reckoned (pre ++ g :: post),
      n + (l.headBytes ending (pre ++ g :: post) blank).length + f.bytes.length < 2 ^ 32) :
    SameCut l noBody (pre ++ f :: post) (pre ++ g :: post) := by
  have lengths' := lengths
  rw [lengths_respaced known known'] at lengths'
  have declares := isSome_declared? known pre post
  have declares' := isSome_declared? known' pre post
  -- an anomaly tells a length that is too large from one that is not, and the cut tells the others
  have raised := congrArg Scan.raised equal
  simp only [Scan.delayed, scan_raised] at raised
  cases made : reckoned (pre ++ f :: post) with
  | none =>
    cases made' : reckoned (pre ++ g :: post) with
    | none => exact .inl (made.trans made'.symm)
    | some m =>
      rw [read_largeLengths l noBody lengths declares _ _ _ made] at raised
      exact absurd raised.symm (raised_lengths l noBody lengths' declares' ending blank body made')
  | some n =>
    cases made' : reckoned (pre ++ g :: post) with
    | none =>
      rw [read_largeLengths l noBody lengths' declares' _ _ _ made'] at raised
      exact absurd raised (raised_lengths l noBody lengths declares ending blank body made)
    | some m =>
      by_cases passed : l.lacksBody noBody = true ∨
          (pre ++ f :: post).any HeaderField.isChunked = true
      · exact .inr ⟨passed, by rw [made]; rfl, by rw [made']; rfl⟩
      obtain ⟨bodied, unchunked⟩ := not_or.mp passed
      rw [Bool.not_eq_true] at unchunked
      have unchunked' := (chunked_respaced known known').symm.trans unchunked
      have points := congrArg Scan.point equal
      rw [scan_cut l noBody lengths declares ending blank body made unchunked,
        scan_cut l noBody lengths' declares' ending blank body made' unchunked'] at points
      simp only [Scan.delayed, if_neg bodied, reduceCtorEq, if_false] at points
      have sizes := length_respaced l f g pre post ending blank []
      rw [List.append_nil, List.append_nil] at sizes
      exact .inl (by rw [made, made', point_inj (small n made) (small' m made') sizes points])

end

/-- A message with any number of lengths in its head is cut at the length that they make, or given
up. That length is the one of the last field just if a blank clears the digits in front of it or
these make nothing. So blanks that are put behind a colon or taken from there move the cut by more
than their own bytes, unless the lengths that are made come to the same: there is nothing to clear,
or a field behind them clears the length, or nobody looks at it. -/
theorem scan_lengths (pre post : List HeaderField) (known : f.contentLength? = some v)
    (known' : g.contentLength? = some v)
    (lengths : ∀ w ∈ (pre ++ f :: post).filterMap HeaderField.contentLength?, IsLength w)
    (ending blank : LineEnd) (body : List UInt8) :
    let fields (f : HeaderField) := pre ++ f :: post
    let head (f : HeaderField) := l.headBytes ending (fields f) blank
    let scan (f : HeaderField) := (opening d noBody).scan (d == .toServer) (head f ++ body)
    let same := (scan f).delayed g.bytes.length = (scan g).delayed f.bytes.length
    (∀ n, reckoned (fields f) = some n → (fields f).any HeaderField.isChunked = false →
      scan f =
        { progress := fresh (d == .toServer)
          verdict := .flush
          point := Length.add (if l.lacksBody noBody then 0 else n).toUInt32
            (head f).length.toUInt32
          consumed := (head f).length
          headDone := d == .toServer && (noBody || l.isHead) }) ∧
    (reckoned (fields f) = none → ∃ p : Progress, p.flags.error = true ∧
      scan f =
        { progress := p
          verdict := .flush
          point := Length.ofNat (head f ++ body).length
          consumed := (head f).length
          raised := [.messageSize "invalid content-length"] }) ∧
    (post.filterMap HeaderField.contentLength? = [] →
      (reckoned (fields f) = some (numeral 10 v) ↔
        ∃ m, reckoned pre = some m ∧ (m = 0 ∨ f.isSpaced = true))) ∧
    (SameCut l noBody (fields f) (fields g) → (scan f).consumed + g.bytes.length < 2 ^ 32 → same) ∧
    (same →
      (∀ n ∈ reckoned (fields f), n + (head f).length + g.bytes.length < 2 ^ 32) →
      (∀ n ∈ reckoned (fields g), n + (head g).length + f.bytes.length < 2 ^ 32) →
      SameCut l noBody (fields f) (fields g)) ∧
    (∀ m n, reckoned (fields f) = some m → reckoned (fields g) = some n →
      (m = n ↔ f.isSpaced = g.isSpaced ∨ reckoned pre = some 0 ∨
        post.any HeaderField.clears = true)) := by
  intro fields head scan same
  have declares := isSome_declared? known pre post
  have length : IsLength v := by
    apply lengths
    simp [List.filterMap_cons_some known]
  refine ⟨fun n => scan_cut l noBody lengths declares ending blank body,
    fun made => ⟨_, rfl, scan_large l noBody lengths declares ending blank body made⟩,
    reckoned_last known length, fun cut small => ?_,
    sameCut_of_delayed l noBody known known' lengths ending blank body,
    fun m n => reckoned_respaced known known'⟩
  have reads := read_respaced l noBody known known' lengths ending blank body cut
  have alike := Turn.Alike.refl ((opening d noBody).read (head f ++ body)).1
  exact scan_alike _ (by rw [reads]; exact alike) (congrArg Prod.snd reads)
    (length_respaced l f g pre post ending blank body) small

/-- A response with two lengths. The digits of the second one go behind those of the first one
unless a blank is in front of them. -/
theorem scan_lengths_twoFields :
    let message (last : String) :=
      ("HTTP/1.1 200 OK\r\nContent-Length: 1\r\n" ++ last ++ "\r\n\r\nhi").toUTF8.toList
    let tight := response.scan false (message "Content-Length:2")
    let spaced := response.scan false (message "Content-Length: 2")
    tight = { progress := response, verdict := .flush, point := 68, consumed := 56 } ∧
      spaced = { progress := response, verdict := .flush, point := 59, consumed := 57 } ∧
      tight.delayed 19 ≠ spaced.delayed 18 := by
  intro message tight spaced
  let line : StatusLine :=
    { minor := 0x31, hundreds := 0x32, tens := 0x30, ones := 0x30, reason := "OK".toUTF8.toList
      isDigit_minor := by decide, isBlank_gap := by decide +kernel, isDigit_hundreds := by decide
      isDigit_tens := by decide, isDigit_ones := by decide, isBlank_blank := by decide
      plain := by decide +kernel }
  let one : HeaderField :=
    { line := ⟨"Content-Length: 1".toUTF8.toList, by decide +kernel, .crlf⟩
      begins := by decide +kernel }
  let two : HeaderField :=
    { line := ⟨"Content-Length:2".toUTF8.toList, by decide +kernel, .crlf⟩
      begins := by decide +kernel }
  let two' : HeaderField :=
    { line := ⟨"Content-Length: 2".toUTF8.toList, by decide +kernel, .crlf⟩
      begins := by decide +kernel }
  have known : two.contentLength? = some "2".toUTF8.toList ∧
      two'.contentLength? = some "2".toUTF8.toList := by
    decide +kernel
  have made : reckoned [one, two] = some 12 ∧ reckoned [one, two'] = some 2 := by
    decide +kernel
  have lengths : ∀ v ∈ [one, two].filterMap HeaderField.contentLength?, IsLength v := by
    decide +kernel
  have lengths' : ∀ v ∈ [one, two'].filterMap HeaderField.contentLength?, IsLength v := by
    decide +kernel
  let head (f : HeaderField) := (StartLine.status line).headBytes .crlf [one, f] .crlf
  have windows : head two ++ "hi".toUTF8.toList = message "Content-Length:2" ∧
      head two' ++ "hi".toUTF8.toList = message "Content-Length: 2" := by
    decide +kernel
  have sizes : (head two).length = 56 ∧ (head two').length = 57 ∧ two.bytes.length = 18 ∧
      two'.bytes.length = 19 := by
    decide +kernel
  obtain ⟨cut, -, -, -, differs, -⟩ :=
    scan_lengths (.status line) false [one] [] known.1 known.2 lengths .crlf
      .crlf "hi".toUTF8.toList
  obtain ⟨cut', -⟩ :=
    scan_lengths (.status line) false [one] [] known.2 known.1 lengths' .crlf
      .crlf "hi".toUTF8.toList
  have first := cut 12 made.1 (by decide +kernel)
  have second := cut' 2 made.2 (by decide +kernel)
  refine ⟨?_, ?_, fun same => ?_⟩
  · show response.scan false (message "Content-Length:2") = _
    rw [← windows.1]
    refine first.trans ?_
    decide +kernel
  · show response.scan false (message "Content-Length: 2") = _
    rw [← windows.2]
    refine second.trans ?_
    decide +kernel
  · have small (n : Nat) (found : n ∈ reckoned [one, two]) :
        n + (head two).length + two'.bytes.length < 2 ^ 32 := by
      cases found.symm.trans made.1
      rw [sizes.1, sizes.2.2.2]
      decide
    have small' (n : Nat) (found : n ∈ reckoned [one, two']) :
        n + (head two').length + two.bytes.length < 2 ^ 32 := by
      cases found.symm.trans made.2
      rw [sizes.2.1, sizes.2.2.1]
      decide
    simp only [tight, spaced, ← windows, ← sizes.2.2.1, ← sizes.2.2.2] at same
    rcases differs same small small' with equal | ⟨lacks | chunks, -⟩
    · have wrong : reckoned [one, two] = reckoned [one, two'] := equal
      rw [made.1, made.2] at wrong
      cases wrong
    · exact absurd lacks (by decide +kernel)
    · exact absurd chunks (by decide +kernel)

end Progress

end StreamFraming.Http
