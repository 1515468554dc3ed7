import StreamFraming.Proofs.Message.Grammar

/-!
# Lines of header fields in the token table

Bytes are fed to the table one after the other. An unfolded header line leads from where a field
begins, with its end, back to there. On the way the digits of a content length are taken and a
coding of chunks is noted, and no other line notes anything (`feed_fieldLine`).
-/

namespace StreamFraming.Http.Token

/-- Where bytes lead from a place, and what each of them notes. -/
def Table.feed (t : Table) (p : Position) : List UInt8 → Position × List Action
  | [] => (p, [])
  | c :: cs => ((t.feed (t.step p c).1 cs).1, (t.step p c).2 :: (t.feed (t.step p c).1 cs).2)

theorem feed_append (t : Table) (p : Position) (u v : List UInt8) :
    t.feed p (u ++ v) =
      ((t.feed (t.feed p u).1 v).1, (t.feed p u).2 ++ (t.feed (t.feed p u).1 v).2) := by
  induction u generalizing p with
  | nil => rfl
  | cons c u ih => simp only [List.cons_append, Table.feed, ih]

theorem feed_congr {x y : Position} {c : UInt8} (same : table.step x c = table.step y c)
    (u : List UInt8) : table.feed x (c :: u) = table.feed y (c :: u) := by
  rw [Table.feed, Table.feed, same]

/-- The bytes lead from `x` to `y`, and but for bytes that note nothing they note these actions. -/
def Notes (x : Position) (u : List UInt8) (as : List Action) (y : Position) : Prop :=
  ∃ all, table.feed x u = (y, all) ∧ all.filter (· ≠ .nop) = as

/-- A line leads from `x`, with its end, to where a field begins. It notes these actions, and its
end notes `a`. -/
def NotesLine (x : Position) (u : List UInt8) (as : List Action) (a : Action) : Prop :=
  ∃ all, table.feed x (u ++ [lineFeed]) = (.fieldStart, all ++ [a]) ∧ all.filter (· ≠ .nop) = as

variable {x y z : Position} {c : UInt8} {u v : List UInt8} {as bs : List Action} {a : Action}

theorem notes_nil (x : Position) : Notes x [] [] x := ⟨[], rfl, rfl⟩

theorem Notes.cons (step : table.step x c = (y, .nop)) (rest : Notes y u as z) :
    Notes x (c :: u) as z := by
  obtain ⟨all, fed, noted⟩ := rest
  refine ⟨.nop :: all, ?_, ?_⟩
  · rw [Table.feed, step, fed]
  · rw [List.filter_cons_of_neg (by simp), noted]

theorem Notes.append (first : Notes x u as y) (rest : Notes y v bs z) :
    Notes x (u ++ v) (as ++ bs) z := by
  obtain ⟨all, fed, rfl⟩ := first
  obtain ⟨more, fed', rfl⟩ := rest
  refine ⟨all ++ more, ?_, List.filter_append ..⟩
  rw [feed_append, fed, fed']

theorem Notes.line (first : Notes x u as y) (rest : NotesLine y v bs a) :
    NotesLine x (u ++ v) (as ++ bs) a := by
  obtain ⟨all, fed, rfl⟩ := first
  obtain ⟨more, fed', rfl⟩ := rest
  refine ⟨all ++ more, ?_, List.filter_append ..⟩
  rw [List.append_assoc, feed_append, fed, fed', List.append_assoc]

theorem NotesLine.notes (h : NotesLine x u as .nop) : Notes x (u ++ [lineFeed]) as .fieldStart := by
  obtain ⟨all, fed, rfl⟩ := h
  exact ⟨_, fed, by simp⟩

theorem Notes.of_feed (same : table.feed x u = table.feed y u) (h : Notes y u as z) :
    Notes x u as z := by
  obtain ⟨all, fed, noted⟩ := h
  exact ⟨all, same.trans fed, noted⟩

theorem NotesLine.of_feed (same : table.feed x (u ++ [lineFeed]) = table.feed y (u ++ [lineFeed]))
    (h : NotesLine y u as a) : NotesLine x u as a := by
  obtain ⟨all, fed, noted⟩ := h
  exact ⟨all, same.trans fed, noted⟩

/-- The line is tried elsewhere from its first byte on, which is its end when it is empty. -/
theorem NotesLine.congr (same : ∀ c, (u ++ [lineFeed]).head? = some c →
    table.step x c = table.step y c) (h : NotesLine y u as a) : NotesLine x u as a := by
  refine h.of_feed ?_
  cases u with
  | nil => exact feed_congr (same lineFeed rfl) []
  | cons c u => exact feed_congr (same c rfl) (u ++ [lineFeed])

/-! ### Stretches of a line -/

theorem notes_stay (stay : ∀ c ∈ u, table.step x c = (x, .nop)) : Notes x u [] x := by
  induction u with
  | nil => exact notes_nil x
  | cons c u ih =>
    exact .cons (stay c List.mem_cons_self) (ih fun b hb => stay b (List.mem_cons_of_mem c hb))

theorem notes_repeat (acts : a ≠ .nop) (stay : ∀ c ∈ u, table.step x c = (x, a)) :
    Notes x u (List.replicate u.length a) x := by
  induction u with
  | nil => exact notes_nil x
  | cons c u ih =>
    obtain ⟨all, fed, noted⟩ := ih fun b hb => stay b (List.mem_cons_of_mem c hb)
    refine ⟨a :: all, ?_, ?_⟩
    · rw [Table.feed, stay c List.mem_cons_self, fed]
    · rw [List.filter_cons_of_pos (by simpa using acts), noted]
      rfl

theorem notesLine_end (step : table.step x lineFeed = (.fieldStart, a)) : NotesLine x [] [] a := by
  refine ⟨[], ?_, rfl⟩
  rw [List.nil_append, Table.feed, step]
  rfl

theorem step_lineEnd : table.step .skipLine lineFeed = (.fieldStart, .nop) := by
  rw [step_skipLine, if_pos rfl]

/-- A line end where a field begins. -/
theorem step_noField : table.step .fieldStart lineFeed = (.fieldStart, .nop) := by
  rw [step_fieldStart, if_neg (by decide), if_neg (by decide), step_lineEnd]

theorem notesLine_skipLine (inside : lineFeed ∉ u) : NotesLine .skipLine u [] .nop := by
  have stay : Notes .skipLine u [] .skipLine := by
    refine notes_stay fun c hc => ?_
    rw [step_skipLine, if_neg]
    rintro rfl
    exact inside hc
  simpa using stay.line (notesLine_end step_lineEnd)

/-! ### Words -/

/-- The places from `n` on accept the bytes of a word in turn; another byte is tried at `other`. -/
def Spells (block : Block) (n : Nat) (other : Position) (w : List UInt8) : Prop :=
  ∀ i (h : i < w.length) (c : UInt8), table.step ⟨block, n + i⟩ c =
    if fold c = w[i] then (⟨block, n + i + 1⟩, .nop) else table.step other c

variable {block : Block} {n : Nat} {w : List UInt8}

theorem Spells.tail {b : UInt8} (h : Spells block n x (b :: w)) : Spells block (n + 1) x w := by
  intro i hi c
  have := h (i + 1) (Nat.succ_lt_succ hi) c
  rw [show n + (i + 1) = n + 1 + i by omega] at this
  exact this

theorem Spells.head {b : UInt8} (h : Spells block n x (b :: w)) (c : UInt8) :
    table.step ⟨block, n⟩ c = if fold c = b then (⟨block, n + 1⟩, .nop) else table.step x c :=
  h 0 (Nat.succ_pos _) c

theorem notes_word (spells : Spells block n x w) (same : u.map fold = w) :
    Notes ⟨block, n⟩ u [] ⟨block, n + w.length⟩ := by
  induction w generalizing n u with
  | nil =>
    rw [List.map_eq_nil_iff] at same
    subst same
    exact notes_nil _
  | cons b w ih =>
    obtain ⟨c, v, rfl, first, rest⟩ := List.map_eq_cons_iff.mp same
    have step : table.step ⟨block, n⟩ c = (⟨block, n + 1⟩, .nop) := by
      rw [spells.head, if_pos first]
    rw [List.length_cons, show n + (w.length + 1) = n + 1 + w.length by omega]
    exact .cons step (ih spells.tail rest)

/-- Bytes that do not begin with the word, up to one that is not in it, go where they would go if
they were tried at the other place from the first one on. -/
theorem feed_other (spells : Spells block n x w)
    (absorbs : ∀ b, fold b ∈ w → table.step x b = (x, .nop)) (differs : ¬ w <+: u.map fold)
    (ends : fold c ∉ w) : table.feed ⟨block, n⟩ (u ++ c :: v) = table.feed x (u ++ c :: v) := by
  induction w generalizing n u with
  | nil => exact absurd List.nil_prefix differs
  | cons b w ih =>
    cases u with
    | nil =>
      refine feed_congr ?_ v
      rw [spells.head, if_neg]
      intro same
      exact ends (same ▸ List.mem_cons_self)
    | cons d u =>
      by_cases same : fold d = b
      · have stays := absorbs d (same ▸ List.mem_cons_self)
        have step : table.step ⟨block, n⟩ d = (⟨block, n + 1⟩, .nop) := by
          rw [spells.head, if_pos same]
        have later : ¬ w <+: u.map fold := by
          intro begun
          apply differs
          rw [List.map_cons, same]
          exact (List.prefix_cons_inj b).mpr begun
        have rest := ih spells.tail (fun d hd => absorbs d (.tail _ hd)) later
          fun hc => ends (.tail _ hc)
        rw [List.cons_append, Table.feed, Table.feed, step, stays, rest]
      · refine feed_congr ?_ (u ++ c :: v)
        rw [spells.head, if_neg same]

theorem spells_contentLength : Spells .contentLength 1 .skipLine
    (ascii ['O', 'N', 'T', 'E', 'N', 'T', '-', 'L', 'E', 'N', 'G', 'T', 'H']) :=
  fun i h c => step_word (row_word .contentLength (by simp [Word.all]) i h) c

theorem spells_transferEncoding : Spells .transferEncoding 1 .skipLine
    (ascii ['R', 'A', 'N', 'S', 'F', 'E', 'R', '-', 'E', 'N', 'C', 'O', 'D', 'I', 'N', 'G']) :=
  fun i h c => step_word (row_word .transferEncoding (by simp [Word.all]) i h) c

theorem spells_chunked : Spells .chunked 0 .skipLine (ascii ['C', 'H', 'U', 'N', 'K', 'E']) :=
  fun i h c => step_word (row_word .chunked (by simp [Word.all]) i h) c

/-- In a line that does not matter the letters of a word do not matter either. -/
theorem absorbs_skipLine (inside : lineFeed ∉ w) (b : UInt8) (hb : fold b ∈ w) :
    table.step .skipLine b = (.skipLine, .nop) := by
  rw [step_skipLine, if_neg]
  rintro rfl
  exact inside hb

/-! ### Names and colons -/

theorem notesLine_unnamed (inside : lineFeed ∉ u) (noLength : ¬ contentLengthName <+: u.map fold)
    (noCoding : ¬ transferEncodingName <+: u.map fold) : NotesLine .fieldStart u [] .nop := by
  have skipped := notesLine_skipLine inside
  cases u with
  | nil => exact skipped.of_feed (feed_congr (by decide +kernel) [])
  | cons c u =>
    refine skipped.of_feed ?_
    have stays : table.step .skipLine c = (.skipLine, .nop) := by
      rw [step_skipLine, if_neg]
      rintro rfl
      exact inside List.mem_cons_self
    rw [List.cons_append, Table.feed, Table.feed, stays]
    by_cases first : fold c = 0x43
    · have step : table.step .fieldStart c = (⟨.contentLength, 1⟩, .nop) := by
        rw [step_fieldStart, if_pos first]
      rw [step, feed_other spells_contentLength (absorbs_skipLine (by decide)) ?_ (by decide)]
      intro begun
      apply noLength
      rw [List.map_cons, first]
      exact (List.prefix_cons_inj _).mpr begun
    · by_cases second : fold c = 0x54
      · have step : table.step .fieldStart c = (⟨.transferEncoding, 1⟩, .nop) := by
          rw [step_fieldStart, if_neg first, if_pos second]
        rw [step, feed_other spells_transferEncoding (absorbs_skipLine (by decide)) ?_ (by decide)]
        intro begun
        apply noCoding
        rw [List.map_cons, second]
        exact (List.prefix_cons_inj _).mpr begun
      · rw [step_fieldStart, if_neg first, if_neg second, stays]

theorem notes_contentLengthName (spelled : u.map fold = contentLengthName) :
    Notes .fieldStart u [] ⟨.contentLength, 14⟩ := by
  obtain ⟨c, rest, rfl, first, spelled⟩ := List.map_eq_cons_iff.mp spelled
  have step : table.step .fieldStart c = (⟨.contentLength, 1⟩, .nop) := by
    rw [step_fieldStart, if_pos (by rw [first]; rfl)]
  exact .cons step (notes_word spells_contentLength spelled)

theorem notes_transferEncodingName (spelled : u.map fold = transferEncodingName) :
    Notes .fieldStart u [] ⟨.transferEncoding, 17⟩ := by
  obtain ⟨c, rest, rfl, first, spelled⟩ := List.map_eq_cons_iff.mp spelled
  have step : table.step .fieldStart c = (⟨.transferEncoding, 1⟩, .nop) := by
    rw [step_fieldStart, if_neg (by rw [first]; decide), if_pos (by rw [first]; rfl)]
  exact .cons step (notes_word spells_transferEncoding spelled)

theorem fold_eq_colon {c : UInt8} : fold c = 0x3A ↔ c = 0x3A := by
  revert c
  decide +kernel

/-- Behind a name: blanks, and then a colon or another line. -/
structure AwaitsColon (x colon : Position) : Prop where
  step : ∀ c, table.step x c =
    if isBlank c then (x, .nop) else if fold c = 0x3A then (colon, .nop)
    else table.step .skipLine c

theorem awaitsColon_contentLength :
    AwaitsColon ⟨.contentLength, 14⟩ ⟨.contentLength, 16⟩ :=
  ⟨step_afterContentLength⟩

theorem awaitsColon_transferEncoding :
    AwaitsColon ⟨.transferEncoding, 17⟩ ⟨.transferEncoding, 19⟩ :=
  ⟨step_afterTransferEncoding⟩

theorem AwaitsColon.blanks (h : AwaitsColon x y) (blank : IsBlank u) : Notes x u [] x :=
  notes_stay fun c hc => by rw [h.step, if_pos (blank c hc)]

theorem AwaitsColon.colon (h : AwaitsColon x y) (blank : IsBlank u) :
    Notes x (u ++ [0x3A]) [] y := by
  refine (h.blanks blank).append (.cons ?_ (notes_nil y))
  rw [h.step, if_neg (by decide), if_pos (by decide)]

theorem AwaitsColon.other (h : AwaitsColon x y) (blank : IsBlank u)
    (differs : ∀ c, v.head? = some c → isBlank c = false ∧ c ≠ 0x3A) (inside : lineFeed ∉ v) :
    NotesLine x (u ++ v) [] .nop := by
  refine (h.blanks blank).line (NotesLine.congr (fun c first => ?_) (notesLine_skipLine inside))
  cases v with
  | nil =>
    cases first
    rw [h.step]
    rfl
  | cons d v =>
    obtain ⟨solid, noColon⟩ := differs c first
    rw [h.step, solid, if_neg (by decide), if_neg (mt fold_eq_colon.mp noColon)]

/-! ### Values -/

theorem notesLine_length (blank : IsBlank u) (begins : ∀ c, v.head? = some c → isBlank c = false)
    (inside : lineFeed ∉ v) :
    NotesLine ⟨.contentLength, 16⟩ (u ++ v)
      (List.replicate u.length .lengthZero ++ List.replicate v.length .shiftDecimal)
      .lengthBody := by
  have blanks : Notes ⟨.contentLength, 16⟩ u (List.replicate u.length .lengthZero)
      ⟨.contentLength, 16⟩ :=
    notes_repeat (by decide) fun c hc => by rw [step_beforeDigits, if_pos (blank c hc)]
  have digits : Notes ⟨.lengthDigits, 0⟩ v (List.replicate v.length .shiftDecimal)
      ⟨.lengthDigits, 0⟩ := by
    refine notes_repeat (by decide) fun c hc => ?_
    rw [step_lengthDigits, if_neg]
    rintro rfl
    exact inside hc
  have ended : table.step ⟨.lengthDigits, 0⟩ lineFeed = (.fieldStart, .lengthBody) := by
    rw [step_lengthDigits, if_pos rfl]
  have value := digits.line (notesLine_end ended)
  simp only [List.append_nil] at value
  refine blanks.line (NotesLine.congr (fun c first => ?_) value)
  cases v with
  | nil =>
    cases first
    rw [step_beforeDigits]
    rfl
  | cons d v =>
    cases first
    rw [step_beforeDigits, begins c rfl, if_neg (by decide)]

theorem notesLine_codingEnd (inside : lineFeed ∉ v) :
    NotesLine ⟨.chunked, 6⟩ v (if (ascii ['D']).isPrefixOf (v.map fold) then [.chunked] else [])
      .nop := by
  cases v with
  | nil => exact (notesLine_skipLine inside).of_feed (feed_congr (by rw [step_chunkedEnd]; rfl) [])
  | cons c v =>
    have last : (ascii ['D']).isPrefixOf ((c :: v).map fold) = (0x44 == fold c) := by
      show ((0x44 : UInt8) == fold c && true) = _
      rw [Bool.and_true]
    rw [last]
    by_cases ends : fold c = 0x44
    · have rest : lineFeed ∉ v := fun h => inside (List.mem_cons_of_mem c h)
      obtain ⟨all, fed, noted⟩ := notesLine_skipLine rest
      have step : table.step ⟨.chunked, 6⟩ c = (.skipLine, .chunked) := by
        rw [step_chunkedEnd, if_pos ends]
      rw [ends, beq_self_eq_true, if_pos rfl]
      refine ⟨.chunked :: all, ?_, ?_⟩
      · rw [List.cons_append, Table.feed, step, fed]
        rfl
      · rw [List.filter_cons_of_pos (by decide), noted]
    · rw [show (0x44 == fold c) = false by
          rw [beq_eq_false_iff_ne]; exact fun h => ends h.symm, if_neg (by decide)]
      refine (notesLine_skipLine inside).of_feed (feed_congr ?_ _)
      rw [step_chunkedEnd, if_neg ends]

theorem notesLine_codingName (inside : lineFeed ∉ v) :
    NotesLine ⟨.chunked, 0⟩ v (if chunkedName.isPrefixOf (v.map fold) then [.chunked] else [])
      .nop := by
  by_cases starts : ascii ['C', 'H', 'U', 'N', 'K', 'E'] <+: v.map fold
  · obtain ⟨word, rest, rfl, spelled, -⟩ := exists_word_of_prefix starts
    have whole : chunkedName.isPrefixOf ((word ++ rest).map fold) =
        (ascii ['D']).isPrefixOf (rest.map fold) := by
      rw [List.map_append, spelled, Bool.eq_iff_iff, List.isPrefixOf_iff_prefix,
        List.isPrefixOf_iff_prefix,
        show chunkedName = ascii ['C', 'H', 'U', 'N', 'K', 'E'] ++ ascii ['D'] from rfl,
        List.prefix_append_right_inj]
    rw [whole]
    exact (notes_word spells_chunked spelled).line
      (notesLine_codingEnd fun h => inside (List.mem_append_right _ h))
  · have missed : chunkedName.isPrefixOf (v.map fold) = false := by
      rw [← Bool.not_eq_true, List.isPrefixOf_iff_prefix]
      exact fun whole => starts ((List.prefix_append _ (ascii ['D'])).trans whole)
    rw [missed, if_neg (by decide)]
    exact (notesLine_skipLine inside).of_feed
      (feed_other spells_chunked (absorbs_skipLine (by decide)) starts (by decide))

theorem notesLine_coding (blank : IsBlank u) (begins : ∀ c, v.head? = some c → isBlank c = false)
    (inside : lineFeed ∉ v) :
    NotesLine ⟨.transferEncoding, 19⟩ (u ++ v)
      (if chunkedName.isPrefixOf (v.map fold) then [.chunked] else []) .nop := by
  have blanks : Notes ⟨.transferEncoding, 19⟩ u [] ⟨.transferEncoding, 19⟩ :=
    notes_stay fun c hc => by rw [step_beforeCoding, if_pos (blank c hc)]
  -- the byte behind the blanks is tried where the coding begins
  refine blanks.line (NotesLine.congr (fun c first => ?_) (notesLine_codingName inside))
  cases v with
  | nil =>
    cases first
    rw [step_beforeCoding]
    rfl
  | cons d v =>
    cases first
    rw [step_beforeCoding, begins c rfl, if_neg (by decide)]

/-! ### Lines -/

/-- A line that gives a length: the name, a colon between blanks, and the value. -/
theorem notesLine_lengthField {word b b' : List UInt8} (spelled : word.map fold = contentLengthName)
    (blank : IsBlank b) (blank' : IsBlank b')
    (begins : ∀ c, v.head? = some c → isBlank c = false)
    (inside : lineFeed ∉ word ++ (b ++ 0x3A :: (b' ++ v))) :
    NotesLine .fieldStart (word ++ (b ++ 0x3A :: (b' ++ v)))
      (List.replicate b'.length .lengthZero ++ List.replicate v.length .shiftDecimal)
      .lengthBody := by
  have inside' : lineFeed ∉ v := fun found => inside (by simp [found])
  have colon := (notes_contentLengthName spelled).append
    (awaitsColon_contentLength.colon blank)
  simpa using colon.line (notesLine_length blank' begins inside')

theorem notesLine_codingField {word b b' : List UInt8}
    (spelled : word.map fold = transferEncodingName) (blank : IsBlank b) (blank' : IsBlank b')
    (begins : ∀ c, v.head? = some c → isBlank c = false)
    (inside : lineFeed ∉ word ++ (b ++ 0x3A :: (b' ++ v))) :
    NotesLine .fieldStart (word ++ (b ++ 0x3A :: (b' ++ v)))
      (if chunkedName.isPrefixOf (v.map fold) then [.chunked] else []) .nop := by
  have inside' : lineFeed ∉ v := fun found => inside (by simp [found])
  have colon := (notes_transferEncodingName spelled).append
    (awaitsColon_transferEncoding.colon blank)
  simpa using colon.line (notesLine_coding blank' begins inside')

/-- The line announces chunks. -/
def announcesChunks (u : List UInt8) : Bool :=
  (fieldValue? transferEncodingName u).any fun v => chunkedName.isPrefixOf (v.map fold)

theorem not_announcesChunks (named : contentLengthName <+: u.map fold) :
    announcesChunks u = false := by
  have uncoded : ¬ transferEncodingName <+: u.map fold := by
    intro coded
    obtain ⟨rest, first⟩ := named
    obtain ⟨rest', second⟩ := coded
    rw [← first] at second
    cases second
  rw [announcesChunks, fieldValue?, if_neg uncoded]
  rfl

theorem notesLine_otherField (inside : lineFeed ∉ u)
    (noLength : fieldValue? contentLengthName u = none) :
    NotesLine .fieldStart u (if announcesChunks u then [.chunked] else []) .nop := by
  by_cases named : contentLengthName <+: u.map fold
  · rw [not_announcesChunks named]
    obtain ⟨word, b, rest, rfl, spelled, blank, differs⟩ := fieldValue?_none noLength named
    have inside' : lineFeed ∉ rest := fun found => inside (by simp [found])
    simpa using (notes_contentLengthName spelled).line
      (awaitsColon_contentLength.other blank differs inside')
  · unfold announcesChunks
    by_cases coded : transferEncodingName <+: u.map fold
    · cases known : fieldValue? transferEncodingName u with
      | some v =>
        obtain ⟨word, b, b', rfl, spelled, blank, blank', begins⟩ := fieldValue?_some known
        exact notesLine_codingField spelled blank blank' begins inside
      | none =>
        obtain ⟨word, b, rest, rfl, spelled, blank, differs⟩ := fieldValue?_none known coded
        have inside' : lineFeed ∉ rest := fun found => inside (by simp [found])
        simpa using (notes_transferEncodingName spelled).line
          (awaitsColon_transferEncoding.other blank differs inside')
    · rw [fieldValue?, if_neg coded]
      exact notesLine_unnamed inside named coded

/-- A folded line gives a length, with `j` spaces in front of the value. -/
def GivesLength (u : List UInt8) (j : Nat) (v : List UInt8) : Prop :=
  (∃ i, u = contentLengthName ++ (List.replicate i space ++
    0x3A :: (List.replicate j space ++ v))) ∧ v.head? ≠ some space

/-- A folded line gives chunks as the first coding. -/
def GivesChunks (u : List UInt8) : Prop :=
  ∃ i j, transferEncodingName ++ (List.replicate i space ++
    0x3A :: (List.replicate j space ++ chunkedName)) <+: u

theorem map_fold_eq_replicate {b : List UInt8} {i : Nat} :
    b.map fold = List.replicate i space ↔ b.length = i ∧ IsBlank b := by
  rw [List.eq_replicate_iff, List.length_map]
  simp only [List.forall_mem_map, fold_eq_space, IsBlank]

theorem notesLine_givesLength {j : Nat} (inside : lineFeed ∉ w)
    (gives : GivesLength (w.map fold) j v) :
    NotesLine .fieldStart w (List.replicate j .lengthZero ++ List.replicate v.length .shiftDecimal)
      .lengthBody := by
  obtain ⟨⟨i, whole⟩, begins⟩ := gives
  obtain ⟨word, rest, rfl, spelled, whole⟩ := List.map_eq_append_iff.mp whole
  obtain ⟨b, rest, rfl, first, whole⟩ := List.map_eq_append_iff.mp whole
  obtain ⟨c, rest, rfl, colon, whole⟩ := List.map_eq_cons_iff.mp whole
  obtain ⟨b', v, rfl, second, rfl⟩ := List.map_eq_append_iff.mp whole
  obtain ⟨-, blank⟩ := map_fold_eq_replicate.mp first
  obtain ⟨rfl, blank'⟩ := map_fold_eq_replicate.mp second
  cases fold_eq_colon.mp colon
  rw [List.length_map]
  refine notesLine_lengthField spelled blank blank' (fun c first => ?_) inside
  rw [← Bool.not_eq_true, ← fold_eq_space]
  intro spaced
  apply begins
  rw [List.head?_map, first, Option.map_some, spaced]

theorem notesLine_givesChunks (inside : lineFeed ∉ w) (gives : GivesChunks (w.map fold)) :
    NotesLine .fieldStart w [.chunked] .nop := by
  obtain ⟨i, j, more, whole⟩ := gives
  simp only [List.append_assoc, List.cons_append] at whole
  obtain ⟨word, rest, rfl, spelled, whole⟩ := List.map_eq_append_iff.mp whole.symm
  obtain ⟨b, rest, rfl, first, whole⟩ := List.map_eq_append_iff.mp whole
  obtain ⟨c, rest, rfl, colon, whole⟩ := List.map_eq_cons_iff.mp whole
  obtain ⟨b', v, rfl, second, value⟩ := List.map_eq_append_iff.mp whole
  cases fold_eq_colon.mp colon
  have chunks : chunkedName.isPrefixOf (v.map fold) = true := by
    rw [List.isPrefixOf_iff_prefix, value]
    exact List.prefix_append _ _
  have line := notesLine_codingField spelled (map_fold_eq_replicate.mp first).2
    (map_fold_eq_replicate.mp second).2 (fun c first => ?_) inside
  · rwa [chunks, if_pos rfl] at line
  · have letter : (v.map fold).head? = some 0x43 := by rw [value]; rfl
    rw [List.head?_map, first, Option.map_some, Option.some.injEq] at letter
    rw [← Bool.not_eq_true, ← fold_eq_space, letter]
    decide

theorem notesLine_givesNothing (inside : lineFeed ∉ w)
    (noLength : ∀ j v, ¬ GivesLength (w.map fold) j v) (noChunks : ¬ GivesChunks (w.map fold)) :
    NotesLine .fieldStart w [] .nop := by
  have spaces {b : List UInt8} (blank : IsBlank b) : b.map fold = List.replicate b.length space :=
    map_fold_eq_replicate.mpr ⟨rfl, blank⟩
  have foreign : fieldValue? contentLengthName w = none := by
    cases known : fieldValue? contentLengthName w with
    | none => rfl
    | some v =>
      obtain ⟨word, b, b', rfl, spelled, blank, blank', begins⟩ := fieldValue?_some known
      refine absurd ⟨⟨b.length, ?_⟩, ?_⟩ (noLength b'.length (v.map fold))
      · simp [spelled, spaces blank, spaces blank', fold_eq_colon.mpr]
      · rw [List.head?_map]
        intro spaced
        obtain ⟨c, first, blank⟩ := Option.map_eq_some_iff.mp spaced
        have solid := begins c first
        rw [fold_eq_space.mp blank] at solid
        cases solid
  have plain : announcesChunks w = false := by
    rw [← Bool.not_eq_true, announcesChunks, Option.any_eq_true]
    rintro ⟨v, known, chunks⟩
    obtain ⟨word, b, b', rfl, spelled, blank, blank', begins⟩ := fieldValue?_some known
    obtain ⟨more, chunks⟩ := List.isPrefixOf_iff_prefix.mp chunks
    refine noChunks ⟨b.length, b'.length, more, ?_⟩
    simp [spelled, spaces blank, spaces blank', fold_eq_colon.mpr, ← chunks]
  have line := notesLine_otherField inside foreign
  rwa [plain, if_neg Bool.false_ne_true] at line

/-- What the table takes from a line that begins where a field begins. A value is taken digit by
digit, and blanks in front of it clear the length each. Only a first coding of chunks is noted. Any
other line says nothing, and each line leads back to where a field begins. -/
theorem feed_fieldLine (w : List UInt8) (inside : lineFeed ∉ w) :
    let fed := table.feed .fieldStart w
    let ended := table.step fed.1 lineFeed
    let noted := fed.2.filter (· ≠ .nop)
    ended.1 = .fieldStart ∧
      (∀ j v, GivesLength (w.map fold) j v →
        noted = List.replicate j .lengthZero ++ List.replicate v.length .shiftDecimal ∧
          ended.2 = .lengthBody) ∧
      (GivesChunks (w.map fold) → noted = [.chunked] ∧ ended.2 = .nop) ∧
      ((∀ j v, ¬ GivesLength (w.map fold) j v) → ¬ GivesChunks (w.map fold) →
        noted = [] ∧ ended.2 = .nop) := by
  intro fed ended noted
  have line {as : List Action} {a : Action} (h : NotesLine .fieldStart w as a) :
      ended.1 = .fieldStart ∧ noted = as ∧ ended.2 = a := by
    obtain ⟨all, whole, rfl⟩ := h
    rw [feed_append, Table.feed, Table.feed, Prod.mk.injEq] at whole
    obtain ⟨same, last⟩ := List.append_inj' whole.2 rfl
    exact ⟨whole.1, congrArg (List.filter _) same, (List.cons.inj last).1⟩
  refine ⟨?_, fun j v gives => (line (notesLine_givesLength inside gives)).2,
    fun gives => (line (notesLine_givesChunks inside gives)).2,
    fun noLength noChunks => (line (notesLine_givesNothing inside noLength noChunks)).2⟩
  by_cases length : ∃ j v, GivesLength (w.map fold) j v
  · obtain ⟨j, v, gives⟩ := length
    exact (line (notesLine_givesLength inside gives)).1
  · have noLength : ∀ j v, ¬ GivesLength (w.map fold) j v :=
      fun j v gives => length ⟨j, v, gives⟩
    by_cases chunks : GivesChunks (w.map fold)
    · exact (line (notesLine_givesChunks inside chunks)).1
    · exact (line (notesLine_givesNothing inside noLength chunks)).1

/-- A length behind a tab and a space. -/
theorem feed_fieldLine_length :
    let w := "content-Length:\t 12".toUTF8.toList
    let fed := table.feed .fieldStart w
    lineFeed ∉ w ∧ GivesLength (w.map fold) 2 [0x31, 0x32] ∧
      fed.2.filter (· ≠ .nop) = [.lengthZero, .lengthZero, .shiftDecimal, .shiftDecimal] ∧
      table.step fed.1 lineFeed = (.fieldStart, .lengthBody) := by
  intro w fed
  have inside : lineFeed ∉ w := by decide +kernel
  have gives : GivesLength (w.map fold) 2 [0x31, 0x32] := ⟨⟨0, by decide +kernel⟩, by decide⟩
  obtain ⟨next, length, -, -⟩ := feed_fieldLine w inside
  obtain ⟨noted, last⟩ := length 2 _ gives
  exact ⟨inside, gives, noted, Prod.ext next last⟩

end StreamFraming.Http.Token
