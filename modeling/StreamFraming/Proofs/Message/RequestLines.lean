import StreamFraming.Proofs.Http.Methods
import StreamFraming.Proofs.Message.FirstLines
import StreamFraming.Proofs.Message.Recognition

/-!
# What a request line is taken for

Whatever a client sends as its first line, the table tells of it whether its method is `HEAD` or
`POST`, and whether it has two words (`scan_requestLine`). The places of the two methods note
nothing about the number of words that the place of any other method does not note.
-/

namespace StreamFraming.Http

open Token

def postWord : List UInt8 := ascii ['P', 'O', 'S', 'T', ' ']

/-- Two words, either of which may be empty, with white space between them and perhaps at the
end. -/
def IsTwoWords (r : List UInt8) : Prop :=
  ∃ a i b j, space ∉ a ∧ space ∉ b ∧
    r = a ++ List.replicate (i + 1) space ++ b ++ List.replicate j space

namespace Token

/-! ### The number of words -/

/-- White space up to the end. -/
def EndsBlank (r : List UInt8) : Prop := ∀ c ∈ r, c = space

/-- A word, and white space up to the end. -/
def EndsInWord (r : List UInt8) : Prop := EndsBlank (r.dropWhile (· != space))

/-- Perhaps white space, a word, and white space up to the end. -/
def EndsInTarget (r : List UInt8) : Prop := EndsInWord (r.dropWhile (· == space))

theorem endsInTarget_iff {r : List UInt8} :
    EndsInTarget r ↔ ∃ i b j, space ∉ b ∧
      r = List.replicate i space ++ b ++ List.replicate j space := by
  constructor
  · intro ends
    obtain ⟨i, r', whole, rest⟩ := exists_blanks r
    obtain ⟨b, r'', word, whole', rest'⟩ := exists_word r'
    rw [rest] at rest'
    have last : r'' = List.replicate r''.length space :=
      List.eq_replicate_of_mem fun c hc => ends c (rest' ▸ hc)
    refine ⟨i, b, r''.length, word, ?_⟩
    rw [← last, List.append_assoc, ← whole', ← whole]
  · rintro ⟨i, b, j, word, rfl⟩ c hc
    rw [List.append_assoc, dropWhile_blanks] at hc
    cases b with
    | nil =>
      have found := ((List.dropWhile_suffix _).trans (List.dropWhile_suffix _)).subset hc
      exact List.eq_of_mem_replicate found
    | cons d b =>
      have solid : ¬ (d == space) = true := by
        simpa using fun same : d = space => word (same ▸ List.mem_cons_self)
      rw [List.cons_append, List.dropWhile_cons_of_neg (p := (· == space)) solid,
        ← List.cons_append, dropWhile_word word] at hc
      exact List.eq_of_mem_replicate ((List.dropWhile_suffix _).subset hc)

theorem isTwoWords_iff {r : List UInt8} :
    IsTwoWords r ↔ ∃ r', r.dropWhile (· != space) = space :: r' ∧ EndsInTarget r' := by
  constructor
  · rintro ⟨a, i, b, j, word, word', rfl⟩
    refine ⟨_, ?_, endsInTarget_iff.mpr ⟨i, b, j, word', rfl⟩⟩
    rw [List.append_assoc, List.append_assoc, dropWhile_word word, List.replicate_succ]
    simp
  · rintro ⟨r', found, ends⟩
    obtain ⟨a, rest, word, whole, same⟩ := exists_word r
    obtain ⟨i, b, j, word', rfl⟩ := endsInTarget_iff.mp ends
    refine ⟨a, i, b, j, word, word', ?_⟩
    rw [whole, same, found, List.replicate_succ]
    simp

variable {x : Position} {c : UInt8} {r : List UInt8} {a : Action}

theorem endsBlank_cons : EndsBlank (c :: r) ↔ c = space ∧ EndsBlank r := List.forall_mem_cons

theorem endsInWord_space : EndsInWord (space :: r) ↔ EndsBlank r := by
  rw [EndsInWord, List.dropWhile_cons_of_neg (p := (· != space)) (by simp), endsBlank_cons]
  exact and_iff_right rfl

theorem endsInWord_cons (solid : c ≠ space) : EndsInWord (c :: r) ↔ EndsInWord r := by
  rw [EndsInWord, List.dropWhile_cons_of_pos (p := (· != space)) (by simpa using solid)]
  rfl

theorem endsInTarget_space : EndsInTarget (space :: r) ↔ EndsInTarget r := by
  rw [EndsInTarget, List.dropWhile_cons_of_pos (p := (· == space)) (by simp)]
  rfl

theorem endsInTarget_cons (solid : c ≠ space) : EndsInTarget (c :: r) ↔ EndsInWord (c :: r) := by
  rw [EndsInTarget, List.dropWhile_cons_of_neg (p := (· == space)) (by simpa using solid)]

theorem isTwoWords_space : IsTwoWords (space :: r) ↔ EndsInTarget r := by
  rw [isTwoWords_iff, List.dropWhile_cons_of_neg (p := (· != space)) (by simp)]
  simp

theorem isTwoWords_append {w : List UInt8} (inside : space ∉ w) :
    IsTwoWords (w ++ r) ↔ IsTwoWords r := by
  rw [isTwoWords_iff, isTwoWords_iff, dropWhile_word inside]

theorem not_isTwoWords_nil : ¬ IsTwoWords [] := by
  rw [isTwoWords_iff]
  rintro ⟨r', found, -⟩
  cases found

theorem fold_solid (solid : ¬ isBlank c = true) : fold c ≠ space := mt fold_eq_space.mp solid

theorem notedFor_afterTarget : NotedFor .simple ⟨.requestLine, 16⟩ EndsBlank := by
  intro u inside
  induction u with
  | nil =>
    rw [List.nil_append, mem_feed_cons, step_afterTarget]
    exact iff_of_true (.inl rfl) nofun
  | cons c u ih =>
    rw [List.mem_cons, not_or] at inside
    rw [List.cons_append, mem_feed_cons, step_afterTarget, List.map_cons, endsBlank_cons]
    by_cases blank : isBlank c = true
    · rw [if_pos blank, ih inside.2]
      simp [fold_eq_space.mpr blank]
    · rw [if_neg blank, if_neg (Ne.symm inside.1), notedFor_skipLine (by decide) u inside.2]
      simp [fold_solid blank]

theorem notedFor_target : NotedFor .simple ⟨.requestLine, 13⟩ EndsInWord := by
  intro u inside
  induction u with
  | nil =>
    rw [List.nil_append, mem_feed_cons, step_target]
    exact iff_of_true (.inl rfl) nofun
  | cons c u ih =>
    rw [List.mem_cons, not_or] at inside
    rw [List.cons_append, mem_feed_cons, step_target, List.map_cons]
    by_cases blank : isBlank c = true
    · rw [if_pos blank, notedFor_afterTarget u inside.2, fold_eq_space.mpr blank, endsInWord_space]
      simp
    · rw [if_neg blank, if_neg (Ne.symm inside.1), ih inside.2, endsInWord_cons (fold_solid blank)]
      simp

theorem notedFor_afterMethod : NotedFor .simple ⟨.requestLine, 12⟩ EndsInTarget := by
  intro u inside
  induction u with
  | nil =>
    rw [List.nil_append, mem_feed_cons, step_afterMethod, step_target]
    exact iff_of_true (.inl rfl) nofun
  | cons c u ih =>
    by_cases blank : isBlank c = true
    · rw [List.mem_cons, not_or] at inside
      rw [List.cons_append, mem_feed_cons, step_afterMethod, if_pos blank, ih inside.2,
        List.map_cons, fold_eq_space.mpr blank, endsInTarget_space]
      simp
    · rw [List.map_cons, endsInTarget_cons (fold_solid blank), ← List.map_cons]
      refine notedFor_target.mem_congr inside fun d first => ?_
      cases first
      rw [step_afterMethod, if_neg blank]

theorem notedFor_method : NotedFor .simple ⟨.requestLine, 10⟩ IsTwoWords := by
  intro u inside
  induction u with
  | nil =>
    rw [List.nil_append, mem_feed_cons, step_method]
    exact iff_of_false (by rintro (same | other) <;> contradiction) not_isTwoWords_nil
  | cons c u ih =>
    rw [List.mem_cons, not_or] at inside
    rw [List.cons_append, mem_feed_cons, step_method, List.map_cons]
    by_cases blank : isBlank c = true
    · rw [if_pos blank, notedFor_afterMethod u inside.2, fold_eq_space.mpr blank, isTwoWords_space]
      simp
    · rw [if_neg blank, ih inside.2, ← List.singleton_append (l := u.map fold),
        isTwoWords_append (by simpa using (fold_solid blank).symm)]
      simp

/-! ### Methods -/

variable {n : Nat} {w : List UInt8} {P Q R : List UInt8 → Prop}

/-- The name of a method is taken in turn, and the white space behind it is noted. -/
structure Names (n : Nat) (w : List UInt8) (a : Action) : Prop where
  spells : Spells .requestLine n ⟨.requestLine, 10⟩ w
  ends : table.row? ⟨.requestLine, n + w.length⟩ =
    some ⟨⟨.requestLine, n + w.length⟩, .blank, ⟨.requestLine, 12⟩, ⟨.requestLine, 10⟩, a⟩
  solid : space ∉ w
  inside : lineFeed ∉ w

theorem names_head : Names 1 (ascii ['E', 'A', 'D']) .noBody :=
  ⟨Progress.spells_head, row_headEnd, by decide, by decide⟩

theorem names_post : Names 6 (ascii ['O', 'S', 'T']) .post :=
  ⟨Progress.spells_post, row_postEnd, by decide, by decide⟩

namespace Names

variable {m : Action}

theorem notedFor_end (names : Names n w m) (after : NotedFor a ⟨.requestLine, 12⟩ P)
    (other : NotedFor a ⟨.requestLine, 10⟩ Q) :
    NotedFor a ⟨.requestLine, n + w.length⟩ fun r =>
      (∃ r', r = space :: r' ∧ (a = m ∨ P r')) ∨ r.head? ≠ some space ∧ Q r := by
  have step := step_methodEnd names.ends
  intro u inside
  cases u with
  | nil =>
    rw [other.mem_congr inside fun c first => ?_]
    · simp
    · cases first
      exact step lineFeed
  | cons c u =>
    by_cases blank : isBlank c = true
    · rw [List.mem_cons, not_or] at inside
      rw [List.cons_append, mem_feed_cons, step, if_pos blank, after u inside.2, List.map_cons,
        fold_eq_space.mpr blank]
      simp
    · rw [other.mem_congr inside fun d first => ?_]
      · simp [fold_solid blank]
      · cases first
        rw [step, if_neg blank]

theorem notedFor_simple (names : Names n w m) (other : m ≠ .simple) :
    NotedFor .simple ⟨.requestLine, n⟩ IsTwoWords := by
  have ends := (names.notedFor_end notedFor_afterMethod notedFor_method).of_iff
    (Q := IsTwoWords) fun r => by
      cases r with
      | nil => simp
      | cons c r =>
        by_cases blank : c = space
        · simp [blank, isTwoWords_space, Ne.symm other]
        · simp [blank]
  -- The name has no white space in it, so the words are counted as those of any other method.
  refine (names.spells.notedFor (by decide) (Progress.absorbs_method names.solid) names.inside
    notedFor_method ends).of_iff fun r => ?_
  constructor
  · rintro (⟨r', rfl, words⟩ | ⟨-, words⟩)
    · exact (isTwoWords_append names.solid).mpr words
    · exact words
  · intro words
    by_cases begun : w <+: r
    · obtain ⟨r', rfl⟩ := begun
      exact .inl ⟨r', rfl, (isTwoWords_append names.solid).mp words⟩
    · exact .inr ⟨begun, words⟩

theorem notedFor_mark (names : Names n w m) (mark : m ∈ marks) :
    NotedFor m ⟨.requestLine, n⟩ (w ++ [space] <+: ·) := by
  have acts : m ≠ .nop := fun idle => absurd (idle ▸ mark) (by decide)
  -- Once the name is taken or missed, nothing leaves a mark any more.
  have other : NotedFor m ⟨.requestLine, 10⟩ fun _ => False :=
    notedFor_none rfl mark List.not_mem_nil
  have after : NotedFor m ⟨.requestLine, 12⟩ fun _ => False :=
    notedFor_none rfl mark List.not_mem_nil
  refine (names.spells.notedFor acts (Progress.absorbs_method names.solid) names.inside other
    (names.notedFor_end after other)).of_iff fun r => ?_
  constructor
  · rintro (⟨r', rfl, ⟨r'', rfl, -⟩ | ⟨-, never⟩⟩ | ⟨-, never⟩)
    · exact ⟨r'', by simp⟩
    · exact never.elim
    · exact never.elim
  · rintro ⟨r', rfl⟩
    exact .inl ⟨space :: r', by simp, .inl ⟨r', rfl, .inl rfl⟩⟩

end Names

theorem notedFor_requestStart (acts : a ≠ .nop) (head : NotedFor a ⟨.requestLine, 1⟩ P)
    (post : NotedFor a ⟨.requestLine, 6⟩ Q) (other : NotedFor a ⟨.requestLine, 10⟩ R) :
    NotedFor a .requestStart fun r =>
      (∃ r', r = 0x48 :: r' ∧ P r') ∨ (∃ r', r = 0x50 :: r' ∧ Q r') ∨
        r.head? ≠ some 0x48 ∧ r.head? ≠ some 0x50 ∧ R r := by
  intro u inside
  cases u with
  | nil =>
    rw [other.mem_congr inside fun c first => ?_]
    · simp
    · cases first
      exact step_requestStart lineFeed
  | cons c u =>
    have later : lineFeed ∉ u := fun ends => inside (List.mem_cons_of_mem c ends)
    by_cases first : fold c = 0x48
    · rw [List.cons_append, mem_feed_cons, step_requestStart, if_pos first, head u later,
        List.map_cons, first]
      simp [acts]
    · by_cases second : fold c = 0x50
      · rw [List.cons_append, mem_feed_cons, step_requestStart, if_neg first, if_pos second,
          post u later, List.map_cons, second]
        simp [acts]
      · rw [other.mem_congr inside fun d begins => ?_]
        · simp [first, second]
        · cases begins
          rw [step_requestStart, if_neg first, if_neg second]

theorem notedFor_twoWords : NotedFor .simple .requestStart IsTwoWords := by
  refine (notedFor_requestStart (by decide) (names_head.notedFor_simple (by decide))
    (names_post.notedFor_simple (by decide)) notedFor_method).of_iff fun r => ?_
  cases r with
  | nil => simp
  | cons c r =>
    have letter (x : UInt8) (solid : x ≠ space) : IsTwoWords (x :: r) ↔ IsTwoWords r :=
      isTwoWords_append (w := [x]) (by simpa using solid.symm)
    by_cases first : c = 0x48
    · simp [first, letter 0x48 (by decide)]
    · by_cases second : c = 0x50
      · simp [second, letter 0x50 (by decide)]
      · simp [first, second]

theorem notedFor_head : NotedFor .noBody .requestStart (headWord <+: ·) := by
  refine (notedFor_requestStart (by decide) (names_head.notedFor_mark (by decide))
    (notedFor_none rfl (by decide) (by decide))
    (notedFor_none rfl (by decide) (by decide))).of_iff fun r => ?_
  constructor
  · rintro (⟨r', rfl, begun⟩ | ⟨-, -, never⟩ | ⟨-, -, never⟩)
    · exact (List.prefix_cons_inj 0x48).mpr begun
    · exact never.elim
    · exact never.elim
  · rintro ⟨t, rfl⟩
    exact .inl ⟨_, rfl, t, rfl⟩

theorem notedFor_post : NotedFor .post .requestStart (postWord <+: ·) := by
  refine (notedFor_requestStart (by decide) (notedFor_none rfl (by decide) (by decide))
    (names_post.notedFor_mark (by decide))
    (notedFor_none rfl (by decide) (by decide))).of_iff fun r => ?_
  constructor
  · rintro (⟨-, -, never⟩ | ⟨r', rfl, begun⟩ | ⟨-, -, never⟩)
    · exact never.elim
    · exact (List.prefix_cons_inj 0x50).mpr begun
    · exact never.elim
  · rintro ⟨t, rfl⟩
    exact .inr (.inl ⟨_, rfl, t, rfl⟩)

/-! ### The end of the line -/

theorem step_textEnd {u : List UInt8} (inside : lineFeed ∉ u) :
    let x := (table.feed .requestStart u).1
    IsTwoWords (u.map fold) ∧ table.step x lineFeed = (.skipLine, .simple) ∨
      ¬ IsTwoWords (u.map fold) ∧ ∃ z, table.step x lineFeed = (z, .nop) := by
  intro x
  obtain ⟨start, only⟩ := feed_ahead (x := .requestStart) rfl inside
  have missed : .simple ∉ (table.feed .requestStart u).2 := fun found =>
    absurd (only found) (by decide)
  have words := notedFor_twoWords u inside
  rw [mem_feed_end, or_iff_right missed] at words
  rcases step_firstLineEnd start with silent | simple
  · refine .inr ⟨?_, _, Prod.ext rfl silent⟩
    rw [← words, silent]
    decide
  · exact .inl ⟨words.mp (by rw [simple]), simple⟩

end Token

namespace Progress

def begun (r : List UInt8) : Flags :=
  { request := true, noBody := decide (headWord <+: r), post := decide (postWord <+: r) }

theorem passes_requestText {u : List UInt8} (inside : lineFeed ∉ u) :
    Passes request u
      { flags := begun (u.map fold), position := (table.feed .requestStart u).1 } := by
  have start : Position.requestStart.inFirstLine = true := rfl
  have only : (table.feed .requestStart u).2 ⊆ [.nop, .noBody, .post] := (feed_ahead start inside).2
  have passes := passes_firstLine request start inside
  have head := notedFor_head u inside
  have post := notedFor_post u inside
  rw [mem_feed_line start inside (by decide)] at head post
  have missed {a : Action} (other : a ∉ [Action.nop, .noBody, .post]) :
      a ∉ (table.feed .requestStart u).2 := fun found => other (only found)
  have marked : markAll (table.feed .requestStart u).2 { request := true } =
      begun (u.map fold) := by
    simp [markAll, begun, head, post, missed (a := .version10) (by decide),
      missed (a := .version11) (by decide), missed (a := .response) (by decide)]
  rw [← marked]
  exact passes

theorem readByte_twoWords {p : Progress} (inLine : p.line = .inLine)
    (first : p.flags.seenEol = false) (noCoding : p.flags.chunked = false)
    (noLength : p.flags.hasLength = false)
    (ends : table.step p.position lineFeed = (.skipLine, .simple)) :
    p.readByte lineFeed =
      { progress :=
          { (p.mark fun f => { f with seenEol := true, simple := true, error := true }) with
            length := 0, position := .skipLine }
        verdict := .flush
        raised :=
          if p.flags.post then [.unboundedPost, .simpleRequest] else [.simpleRequest] } := by
  have taken : (p.mark fun f => { f with seenEol := true }).stepToken lineFeed =
      { progress :=
          (p.mark fun f => { f with seenEol := true, simple := true, error := true }).moveTo
            .skipLine } :=
    stepToken_mark (p.mark fun f => { f with seenEol := true }) ends fun _ _ => rfl
  unfold readByte
  rw [if_neg (by decide)]
  simp only [inLine, readInLine, first, taken]
  cases post : p.flags.post <;>
    simp [Turn.andThen, endHeaders, mark, moveTo, noCoding, noLength, inLine, post]

/-- A first line of two words ends the message there, and the scan takes the whole window with it.
Of any other first line the marks are all that is left. -/
theorem scan_requestLine {w : List UInt8} (inside : lineFeed ∉ w) :
    let r := folded w
    let window := w ++ [lineFeed]
    let s := request.scan true window
    (IsTwoWords r → s =
      { progress :=
          { flags := { begun r with seenEol := true, simple := true, error := true }
            position := .skipLine }
        verdict := .flush
        point := Length.ofNat window.length
        consumed := window.length
        raised := if postWord <+: r then [.unboundedPost, .simpleRequest] else [.simpleRequest] }) ∧
    (¬ IsTwoWords r → ∃ x, s =
      { progress := { flags := { begun r with seenEol := true }, position := x, line := .afterEol }
        consumed := window.length }) := by
  intro r window s
  have inside' : lineFeed ∉ w.filter (· ≠ carriageReturn) :=
    fun found => inside (List.mem_of_mem_filter found)
  have text : Quiet request w { flags := begun r, position := _ } :=
    takes_returns (passes_requestText inside').tells rfl inside
  rcases step_textEnd inside' with ⟨two, simple⟩ | ⟨other, z, silent⟩
  · refine ⟨fun _ => ?_, fun other => absurd two other⟩
    have last := readByte_twoWords (p := { flags := begun r, position := _ }) rfl rfl rfl rfl simple
    have read := text.read_append [lineFeed]
    rw [read_cons_decided (by rw [last]; exact Verdict.noConfusion), last] at read
    show request.scan true window = _
    rw [scan_eq_read, read]
    simp [settle, mark, begun, window]
  · have last := quiet_single (readByte_firstEnd (p := { flags := begun r, position := _ })
      rfl rfl rfl silent)
    exact ⟨fun two => absurd two other, fun _ => ⟨z, Takes.scan (text.append last) true⟩⟩

/-- A POST request of two words, written in both cases and with a tab. -/
theorem scan_requestLine_post :
    let w := "PosT \t/a\r".toUTF8.toList
    let window := w ++ [lineFeed]
    lineFeed ∉ w ∧ IsTwoWords (folded w) ∧ request.scan true window =
      { progress :=
          { flags := { begun (folded w) with seenEol := true, simple := true, error := true }
            position := .skipLine }
        verdict := .flush
        point := Length.ofNat window.length
        consumed := window.length
        raised := [.unboundedPost, .simpleRequest] } := by
  intro w window
  have inside : lineFeed ∉ w := by decide +kernel
  have two : IsTwoWords (folded w) :=
    ⟨ascii ['P', 'O', 'S', 'T'], 1, ascii ['/', 'A'], 0, by decide, by decide, by decide +kernel⟩
  have post : postWord <+: folded w := by decide +kernel
  have scanned := (scan_requestLine inside).1 two
  rw [if_pos post] at scanned
  exact ⟨inside, two, scanned⟩

end Progress

end StreamFraming.Http
