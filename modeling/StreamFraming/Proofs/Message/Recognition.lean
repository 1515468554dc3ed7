import StreamFraming.Proofs.Message.Lines

/-!
# What is noted of a line

The table sees the text of a line without carriage returns, in upper case, and with tabs as spaces.
`NotedFor` says of which texts an action is noted from a place on. Within a first line one look at
the rows tells what can still come (`staysInLine`), hence where an action is never noted
(`notedFor_none`); along a word the texts are those that go on with the word (`Spells.notedFor`).
The marks are all that is left of the text of a first line (`passes_firstLine`).
-/

namespace StreamFraming.Http

/-- The text of a line as the table sees it. -/
def folded (w : List UInt8) : List UInt8 := (w.filter (· ≠ carriageReturn)).map fold

theorem exists_word (r : List UInt8) :
    ∃ a r', space ∉ a ∧ r = a ++ r' ∧ r' = r.dropWhile (· != space) := by
  refine ⟨r.takeWhile (· != space), _, fun found => ?_, List.takeWhile_append_dropWhile.symm, rfl⟩
  simpa using List.all_eq_true.mp List.all_takeWhile space found

theorem dropWhile_word {a : List UInt8} (inside : space ∉ a) (r : List UInt8) :
    (a ++ r).dropWhile (· != space) = r.dropWhile (· != space) :=
  List.dropWhile_append_of_pos fun c hc => by
    simpa using fun same : c = space => inside (same ▸ hc)

theorem exists_blanks (r : List UInt8) :
    ∃ n r', r = List.replicate n space ++ r' ∧ r' = r.dropWhile (· == space) := by
  have blanks : r.takeWhile (· == space) = List.replicate _ space :=
    List.eq_replicate_of_mem fun c hc => by
      simpa using List.all_eq_true.mp List.all_takeWhile c hc
  refine ⟨(r.takeWhile (· == space)).length, _, ?_, rfl⟩
  rw [← blanks, List.takeWhile_append_dropWhile]

theorem dropWhile_blanks (n : Nat) (r : List UInt8) :
    (List.replicate n space ++ r).dropWhile (· == space) = r.dropWhile (· == space) :=
  List.dropWhile_append_of_pos fun c hc => by simpa using List.eq_of_mem_replicate hc

namespace Token

variable {x y z : Position} {c : UInt8} {u : List UInt8} {a : Action}

theorem mem_feed_cons :
    a ∈ (table.feed x (c :: u)).2 ↔
      a = (table.step x c).2 ∨ a ∈ (table.feed (table.step x c).1 u).2 :=
  List.mem_cons

theorem mem_feed_end :
    a ∈ (table.feed x (u ++ [lineFeed])).2 ↔
      a ∈ (table.feed x u).2 ∨ a = (table.step (table.feed x u).1 lineFeed).2 := by
  rw [feed_append, List.mem_append]
  exact or_congr_right List.mem_singleton

/-! ### What is still to come in a first line -/

/-- Actions that come to nothing but a mark. -/
def marks : List Action := [.noBody, .post, .version10, .version11, .response]

/-- A place that is met in the first line of a message. -/
def Position.inFirstLine (x : Position) : Bool :=
  x.block ∈ [.skipLine, .requestLine, .statusLine, .leadingBlank]

/-- The marks that the rest of a first line can still leave. -/
def Position.ahead (x : Position) : List Action :=
  match x.block with
  | .requestLine =>
    if x.step = 0 then [.noBody, .post]
    else if x.step ≤ 4 then [.noBody]
    else if x.step ≤ 9 then [.post]
    else []
  | .statusLine =>
    if x.step ≤ 8 then [.noBody, .version10, .version11, .response]
    else if x.step ≤ 15 then [.noBody, .response]
    else [.response]
  | .leadingBlank => [.noBody, .version10, .version11, .response]
  | _ => []

theorem ahead_subset_marks (x : Position) : x.ahead ⊆ marks := by
  unfold Position.ahead
  split
  · split_ifs <;> decide
  · split_ifs <;> decide
  · decide
  · decide

/-- Nothing comes that was not still to come, and a line end at most tells that the line is of two
words. -/
@[mk_iff]
structure StaysInLine (x : Position) (row : Row) : Prop where
  other : row.other.inFirstLine = true ∧ row.other.ahead ⊆ x.ahead
  next : row.accepts ≠ .eol → row.next.inFirstLine = true ∧ row.next.ahead ⊆ x.ahead ∧
    row.action ∈ .nop :: x.ahead
  ended : row.accepts.accepts lineFeed = true →
    row.action = .nop ∨ row.action = .simple ∧ row.next = .skipLine

instance (x : Position) (row : Row) : Decidable (StaysInLine x row) :=
  decidable_of_iff' _ (staysInLine_iff x row)

theorem firstLine_rows :
    ∀ b ∈ Block.all, ∀ i < b.size, ∀ row ∈ table.row? ⟨b, i⟩,
      Position.inFirstLine ⟨b, i⟩ = true → StaysInLine ⟨b, i⟩ row := by
  decide +kernel

theorem staysInLine {row : Row} (start : x.inFirstLine = true) (found : table.row? x = some row) :
    StaysInLine x row :=
  of_row? (P := fun x row => x.inFirstLine = true → StaysInLine x row) firstLine_rows found start

theorem step_ahead (start : x.inFirstLine = true) (inside : c ≠ lineFeed) :
    (table.step x c).1.inFirstLine = true ∧ (table.step x c).1.ahead ⊆ x.ahead ∧
      (table.step x c).2 ∈ .nop :: x.ahead := by
  refine seek_closed (S := fun y => y.inFirstLine = true ∧ y.ahead ⊆ x.ahead)
    (T := fun y a => y.inFirstLine = true ∧ y.ahead ⊆ x.ahead ∧ a ∈ .nop :: x.ahead)
    (fun still => ⟨still.1, still.2, List.mem_cons_self⟩) (fun {p row} here found => ?_)
    ⟨start, List.Subset.refl _⟩ _
  have stays := staysInLine here.1 found
  refine ⟨⟨stays.other.1, List.Subset.trans stays.other.2 here.2⟩, fun accepted => ?_⟩
  have solid : row.accepts ≠ .eol := fun ends => inside <| by
    rw [ends] at accepted
    exact fold_eq_lineFeed.mp (beq_iff_eq.mp accepted)
  obtain ⟨next, later, noted⟩ := stays.next solid
  exact ⟨next, List.Subset.trans later here.2, List.cons_subset_cons _ here.2 noted⟩

theorem feed_ahead (start : x.inFirstLine = true) (inside : lineFeed ∉ u) :
    (table.feed x u).1.inFirstLine = true ∧ (table.feed x u).2 ⊆ .nop :: x.ahead := by
  induction u generalizing x with
  | nil => exact ⟨start, nofun⟩
  | cons c u ih =>
    rw [List.mem_cons, not_or] at inside
    obtain ⟨next, fewer, noted⟩ := step_ahead start (Ne.symm inside.1)
    obtain ⟨last, later⟩ := ih next inside.2
    have still := List.Subset.trans later (List.cons_subset_cons _ fewer)
    exact ⟨last, List.cons_subset.mpr ⟨noted, still⟩⟩

theorem step_firstLineEnd (start : x.inFirstLine = true) :
    (table.step x lineFeed).2 = .nop ∨ table.step x lineFeed = (.skipLine, .simple) := by
  have ends := seek_closed (S := fun x => x.inFirstLine = true)
    (T := fun x a => a = .nop ∨ a = .simple ∧ x = .skipLine) (c := lineFeed) (fun _ => .inl rfl)
    (fun here found => ⟨(staysInLine here found).other.1, (staysInLine here found).ended⟩)
    start table.size
  exact ends.imp_right fun simple => Prod.ext simple.2 simple.1

theorem mem_feed_line (start : x.inFirstLine = true) (inside : lineFeed ∉ u) (mark : a ∈ marks) :
    a ∈ (table.feed x (u ++ [lineFeed])).2 ↔ a ∈ (table.feed x u).2 := by
  rw [mem_feed_end, or_iff_left]
  -- The line end itself leaves no mark.
  rintro rfl
  rcases step_firstLineEnd (feed_ahead start inside).1 with silent | simple
  · exact absurd (silent ▸ mark) (by decide)
  · exact absurd (simple ▸ mark) (by decide)

/-! ### Texts of which an action is noted -/

/-- From `x` on, up to the end of the line, the action is noted of just those texts of which `P`
holds. -/
def NotedFor (a : Action) (x : Position) (P : List UInt8 → Prop) : Prop :=
  ∀ u, lineFeed ∉ u → (a ∈ (table.feed x (u ++ [lineFeed])).2 ↔ P (u.map fold))

variable {w : List UInt8} {P Q : List UInt8 → Prop}

theorem NotedFor.of_iff (h : NotedFor a x P) (same : ∀ r, P r ↔ Q r) : NotedFor a x Q :=
  fun u inside => (h u inside).trans (same _)

theorem NotedFor.mem_congr (h : NotedFor a y P) {u : List UInt8} (inside : lineFeed ∉ u)
    (same : ∀ c, (u ++ [lineFeed]).head? = some c → table.step x c = table.step y c) :
    a ∈ (table.feed x (u ++ [lineFeed])).2 ↔ P (u.map fold) := by
  rw [← h u inside]
  cases u with
  | nil => rw [List.nil_append, feed_congr (same lineFeed rfl)]
  | cons c u => rw [List.cons_append, feed_congr (same c rfl)]

theorem Notes.notMem (h : Notes x u [] y) (acts : a ≠ .nop) : a ∉ (table.feed x u).2 := by
  obtain ⟨all, fed, silent⟩ := h
  intro found
  rw [fed] at found
  have kept : a ∈ all.filter (· ≠ .nop) := List.mem_filter.mpr ⟨found, by simpa using acts⟩
  rw [silent] at kept
  cases kept

theorem notedFor_skipLine (acts : a ≠ .nop) : NotedFor a .skipLine fun _ => False := by
  intro u inside
  rw [iff_false]
  exact (notesLine_skipLine inside).notes.notMem acts

theorem missed_skipLine (acts : a ≠ .nop) (c : UInt8) :
    a ≠ (table.step .skipLine c).2 ∧
      (c ≠ lineFeed → NotedFor a (table.step .skipLine c).1 fun _ => False) := by
  rw [step_skipLine]
  constructor
  · split <;> exact acts
  · intro inside
    rw [if_neg inside]
    exact notedFor_skipLine acts

theorem NotedFor.byte {d : UInt8} {m : Action} (taken : ∀ c, fold c = d → table.step x c = (y, m))
    (missed : ∀ c, fold c ≠ d →
      a ≠ (table.step x c).2 ∧ (c ≠ lineFeed → NotedFor a (table.step x c).1 fun _ => False))
    (inside : d ≠ lineFeed) (rest : NotedFor a y P) :
    NotedFor a x fun r => ∃ r', r = d :: r' ∧ (a = m ∨ P r') := by
  intro u text
  cases u with
  | nil =>
    obtain ⟨other, -⟩ := missed lineFeed inside.symm
    simp [Table.feed, other]
  | cons c u =>
    rw [List.mem_cons, not_or] at text
    rw [List.cons_append, mem_feed_cons, List.map_cons]
    by_cases same : fold c = d
    · rw [taken c same, rest u text.2, same]
      simp
    · obtain ⟨other, silent⟩ := missed c same
      rw [silent (Ne.symm text.1) u text.2]
      simp [other, same]

variable {block : Block} {n : Nat}

/-- Texts that go on with a word are noted as they are behind it, and other ones as they are where
their bytes are tried. -/
theorem Spells.notedFor (spells : Spells block n z w) (acts : a ≠ .nop)
    (absorbs : ∀ c, fold c ∈ w → table.step z c = (z, .nop)) (inside : lineFeed ∉ w)
    (other : NotedFor a z Q) (rest : NotedFor a ⟨block, n + w.length⟩ P) :
    NotedFor a ⟨block, n⟩ fun r => (∃ r', r = w ++ r' ∧ P r') ∨ ¬ w <+: r ∧ Q r := by
  intro u text
  by_cases begun : w <+: u.map fold
  · obtain ⟨word, u', rfl, spelled, -⟩ := exists_word_of_prefix begun
    have silent := notes_word spells spelled
    have missed := silent.notMem acts
    obtain ⟨all, fed, -⟩ := silent
    have text' : lineFeed ∉ u' := fun ends => text (List.mem_append_right _ ends)
    rw [fed] at missed
    rw [List.append_assoc, feed_append, fed, List.mem_append, rest u' text', List.map_append,
      spelled]
    simp [missed]
  · have ends : fold lineFeed ∉ w := inside
    rw [feed_other spells absorbs begun ends, other u text]
    refine ⟨fun found => .inr ⟨begun, found⟩, fun either => ?_⟩
    rcases either with ⟨r', same, -⟩ | ⟨-, found⟩
    · exact absurd (same ▸ List.prefix_append w r') begun
    · exact found

theorem notedFor_none (start : x.inFirstLine = true) (mark : a ∈ marks) (other : a ∉ x.ahead) :
    NotedFor a x fun _ => False := by
  intro u inside
  rw [mem_feed_line start inside mark, iff_false]
  intro noted
  rcases List.mem_cons.mp ((feed_ahead start inside).2 noted) with rfl | still
  · exact absurd mark (by decide)
  · exact other still

end Token

namespace Progress

open Token

variable {p : Progress} {x : Position} {u : List UInt8}

/-! ### Flags -/

def markAll (as : List Action) (f : Flags) : Flags :=
  { f with
    noBody := f.noBody || as.contains .noBody
    post := f.post || as.contains .post
    version10 := f.version10 || as.contains .version10
    version11 := f.version11 || as.contains .version11
    response := f.response || as.contains .response }

theorem markAll_cons (a : Action) (as : List Action) (f : Flags) :
    markAll as (markAll [a] f) = markAll (a :: as) f := by
  simp only [markAll, List.contains_cons, List.contains_nil, Bool.or_false, Bool.or_assoc]

theorem note_mark {a : Action} (only : a ∈ .nop :: marks) (p : Progress) (c : UInt8) :
    p.note c a = { progress := p.mark (markAll [a]) } := by
  simp only [marks, List.mem_cons, List.not_mem_nil, or_false] at only
  rcases only with rfl | rfl | rfl | rfl | rfl | rfl <;>
    simp [note, mark, markAll]

theorem passes_marked (p : Progress) (only : ∀ a ∈ (table.feed x u).2, a ∈ .nop :: marks) :
    Passes (p.moveTo x) u
      ((p.mark (markAll (table.feed x u).2)).moveTo (table.feed x u).1) := by
  induction u generalizing x p with
  | nil =>
    have unmarked : p.mark (markAll []) = p := by simp [mark, markAll]
    rw [Table.feed, unmarked]
    rfl
  | cons c u ih =>
    rw [Table.feed] at only ⊢
    obtain ⟨first, later⟩ := List.forall_mem_cons.mp only
    have rest := ih (p.mark (markAll [(table.step x c).2])) later
    have both : (p.mark (markAll [(table.step x c).2])).mark
        (markAll (table.feed (table.step x c).1 u).2) =
        p.mark (markAll ((table.step x c).2 :: (table.feed (table.step x c).1 u).2)) :=
      congrArg (fun flags => { p with flags }) (markAll_cons _ _ _)
    rw [both] at rest
    exact ⟨_, stepToken_mark p rfl (note_mark first), rest⟩

theorem passes_firstLine (p : Progress) (start : x.inFirstLine = true) (inside : lineFeed ∉ u) :
    Passes (p.moveTo x) u
      ((p.mark (markAll (table.feed x u).2)).moveTo (table.feed x u).1) :=
  passes_marked p fun _ noted =>
    List.cons_subset_cons _ (ahead_subset_marks x) ((feed_ahead start inside).2 noted)

end Progress

end StreamFraming.Http
