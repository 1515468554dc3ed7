import StreamFraming.Proofs.Message.HeaderLines

/-!
# First lines in the token table

A request line of three words and a status line lead to where the rest of a line is passed over
(`passes_requestLine`, `passes_statusLine`). They tell whether the message is a HEAD or POST
request, and whether a response has no body.
-/

namespace StreamFraming.Http.Progress

open Token

/-! ### Request lines -/

/-- In a method whose name does not matter its bytes do not matter. -/
theorem absorbs_method {w : List UInt8} (inside : space ∉ w) (b : UInt8) (hb : fold b ∈ w) :
    table.step ⟨.requestLine, 10⟩ b = (⟨.requestLine, 10⟩, .nop) := by
  rw [step_method, if_neg]
  intro blank
  rw [fold_eq_space.mpr blank] at hb
  exact inside hb

theorem passes_afterMethod (p : Progress) {gap : List UInt8} (blank : IsBlank gap) :
    Passes (p.moveTo ⟨.requestLine, 12⟩) gap (p.moveTo ⟨.requestLine, 12⟩) :=
  passes_stay p fun c hc => by rw [step_afterMethod, if_pos (blank c hc)]

theorem notes_otherMethod {u gap : List UInt8} (solid : ∀ c ∈ u, isBlank c = false)
    (blank : gap ≠ [] ∧ IsBlank gap) :
    Notes ⟨.requestLine, 10⟩ (u ++ gap) [] ⟨.requestLine, 12⟩ := by
  have word : Notes ⟨.requestLine, 10⟩ u [] ⟨.requestLine, 10⟩ :=
    notes_stay fun c hc => by rw [step_method, solid c hc, if_neg (by decide)]
  obtain ⟨c, gap, rfl⟩ := List.exists_cons_of_ne_nil blank.1
  have step : table.step ⟨.requestLine, 10⟩ c = (⟨.requestLine, 12⟩, .nop) := by
    rw [step_method, if_pos (blank.2 c List.mem_cons_self)]
  have after : Notes ⟨.requestLine, 12⟩ gap [] ⟨.requestLine, 12⟩ := by
    refine notes_stay fun b hb => ?_
    rw [step_afterMethod, if_pos (blank.2 b (List.mem_cons_of_mem c hb))]
  exact word.append (.cons step after)

theorem passes_methodLetters (p : Progress) (mark : Flags → Flags) {n : Nat} {w : List UInt8}
    {a : Action} (spells : Spells .requestLine n ⟨.requestLine, 10⟩ w)
    (ends : ∀ c, table.step ⟨.requestLine, n + w.length⟩ c =
      if isBlank c then (⟨.requestLine, 12⟩, a) else table.step ⟨.requestLine, 10⟩ c)
    (notes : ∀ (q : Progress) (c : UInt8), q.note c a = { progress := q.mark mark })
    (letters : space ∉ w)
    {u gap : List UInt8} (solid : ∀ c ∈ u, isBlank c = false) (blank : gap ≠ [] ∧ IsBlank gap) :
    Passes (p.moveTo ⟨.requestLine, n⟩) (u ++ gap)
      ((if u.map fold = w then p.mark mark else p).moveTo ⟨.requestLine, 12⟩) := by
  have other := notes_otherMethod solid blank
  obtain ⟨c, gap, rfl⟩ := List.exists_cons_of_ne_nil blank.1
  have last := blank.2 c List.mem_cons_self
  have later : IsBlank gap := fun b hb => blank.2 b (List.mem_cons_of_mem c hb)
  by_cases begun : w <+: u.map fold
  · obtain ⟨word, rest, rfl, spelled, -⟩ := exists_word_of_prefix begun
    have spelt := passes_notes p (notes_word spells spelled)
    rw [List.append_assoc]
    refine passes_append spelt ?_
    cases rest with
    | nil =>
      have step := ends c
      rw [if_pos last] at step
      rw [List.append_nil, if_pos spelled]
      exact ⟨_, stepToken_mark p step notes, passes_afterMethod (p.mark mark) later⟩
    | cons b rest =>
      have longer : (word ++ b :: rest).map fold ≠ w := by
        intro same
        rw [List.map_append, spelled] at same
        cases List.append_right_eq_self.mp same
      rw [if_neg longer]
      refine passes_congr p ?_ (passes_notes p (notes_otherMethod
        (fun d hd => solid d (List.mem_append_right _ hd)) blank))
      have inside := solid b (List.mem_append_right _ List.mem_cons_self)
      rw [ends, inside, if_neg (by decide)]
  · have differs : u.map fold ≠ w := fun same => begun (same ▸ List.prefix_refl _)
    rw [if_neg differs]
    refine passes_notes p (other.of_feed (feed_other spells (absorbs_method letters) begun ?_))
    rw [fold_eq_space.mpr last]
    exact letters

theorem spells_head : Spells .requestLine 1 ⟨.requestLine, 10⟩ (ascii ['E', 'A', 'D']) :=
  fun i h c => step_methodName (row_word .head (by simp [Word.all]) i h) c

theorem spells_post : Spells .requestLine 6 ⟨.requestLine, 10⟩ (ascii ['O', 'S', 'T']) :=
  fun i h c => step_methodName (row_word .post (by simp [Word.all]) i h) c

/-- What the name of a method tells about the message. -/
def markMethod (name : List UInt8) (f : Flags) : Flags :=
  { f with
    noBody := f.noBody || name == ascii ['H', 'E', 'A', 'D']
    post := f.post || name == ascii ['P', 'O', 'S', 'T'] }

theorem markMethod_head :
    markMethod (ascii ['H', 'E', 'A', 'D']) = fun f => { f with noBody := true } := by
  funext f
  have noPost : (ascii ['H', 'E', 'A', 'D'] == ascii ['P', 'O', 'S', 'T']) = false := by decide
  simp only [markMethod, noPost, beq_self_eq_true, Bool.or_true, Bool.or_false]

theorem markMethod_post :
    markMethod (ascii ['P', 'O', 'S', 'T']) = fun f => { f with post := true } := by
  funext f
  have noHead : (ascii ['P', 'O', 'S', 'T'] == ascii ['H', 'E', 'A', 'D']) = false := by decide
  simp only [markMethod, noHead, beq_self_eq_true, Bool.or_true, Bool.or_false]

theorem markMethod_other {name : List UInt8} (noHead : name ≠ ascii ['H', 'E', 'A', 'D'])
    (noPost : name ≠ ascii ['P', 'O', 'S', 'T']) : markMethod name = id := by
  funext f
  simp only [markMethod, beq_eq_false_iff_ne.mpr noHead, beq_eq_false_iff_ne.mpr noPost,
    Bool.or_false, id]

theorem passes_method (p : Progress) {u gap : List UInt8} (word : IsWord u)
    (blank : gap ≠ [] ∧ IsBlank gap) :
    Passes (p.moveTo .requestStart) (u ++ gap)
      ((p.mark (markMethod (u.map fold))).moveTo ⟨.requestLine, 12⟩) := by
  obtain ⟨c, u, rfl⟩ := List.exists_cons_of_ne_nil word.1
  have solid : ∀ b ∈ u, isBlank b = false := fun b hb => word.2.2 b (List.mem_cons_of_mem c hb)
  rw [List.map_cons]
  by_cases first : fold c = 0x48
  · have step : table.step .requestStart c = (⟨.requestLine, 1⟩, .nop) := by
      rw [step_requestStart, if_pos first]
    have rest := passes_methodLetters p (fun f => { f with noBody := true }) spells_head
      (step_methodEnd row_headEnd) (fun _ _ => rfl) (by decide) solid blank
    refine ⟨_, stepToken_nop p step, ?_⟩
    rw [first]
    by_cases named : u.map fold = ascii ['E', 'A', 'D']
    · rw [if_pos named, ← markMethod_head] at rest
      rw [named]
      exact rest
    · rw [if_neg named] at rest
      have other : markMethod (0x48 :: u.map fold) = id :=
        markMethod_other (fun same => named (List.cons.inj same).2) nofun
      rw [other]
      exact rest
  · by_cases second : fold c = 0x50
    · have step : table.step .requestStart c = (⟨.requestLine, 6⟩, .nop) := by
        rw [step_requestStart, if_neg first, if_pos second]
      have rest := passes_methodLetters p (fun f => { f with post := true }) spells_post
        (step_methodEnd row_postEnd) (fun _ _ => rfl) (by decide) solid blank
      refine ⟨_, stepToken_nop p step, ?_⟩
      rw [second]
      by_cases named : u.map fold = ascii ['O', 'S', 'T']
      · rw [if_pos named, ← markMethod_post] at rest
        rw [named]
        exact rest
      · rw [if_neg named] at rest
        have other : markMethod (0x50 :: u.map fold) = id :=
          markMethod_other nofun fun same => named (List.cons.inj same).2
        rw [other]
        exact rest
    · have other : markMethod (fold c :: u.map fold) = id :=
        markMethod_other (fun same => first (List.cons.inj same).1)
          fun same => second (List.cons.inj same).1
      rw [other]
      refine passes_congr p ?_ (passes_notes p (notes_otherMethod word.2.2 blank))
      rw [step_requestStart, if_neg first, if_neg second]

theorem passes_target (p : Progress) {u gap : List UInt8} (word : IsWord u)
    (blank : gap ≠ [] ∧ IsBlank gap) :
    Passes (p.moveTo ⟨.requestLine, 12⟩) (u ++ gap) (p.moveTo ⟨.requestLine, 16⟩) := by
  have inside (c : UInt8) (hc : c ∈ u) :
      table.step ⟨.requestLine, 13⟩ c = (⟨.requestLine, 13⟩, .nop) := by
    rw [step_target, word.2.2 c hc, if_neg (by decide), if_neg (word.2.1 c hc).2]
  have letters : Passes (p.moveTo ⟨.requestLine, 12⟩) u (p.moveTo ⟨.requestLine, 13⟩) := by
    have stay := passes_stay p inside
    obtain ⟨c, u, rfl⟩ := List.exists_cons_of_ne_nil word.1
    refine passes_congr p ?_ stay
    rw [step_afterMethod, word.2.2 c List.mem_cons_self, if_neg (by decide)]
  refine passes_append letters ?_
  obtain ⟨c, gap, rfl⟩ := List.exists_cons_of_ne_nil blank.1
  have step : table.step ⟨.requestLine, 13⟩ c = (⟨.requestLine, 16⟩, .nop) := by
    rw [step_target, if_pos (blank.2 c List.mem_cons_self)]
  exact ⟨_, stepToken_nop p step, passes_stay p fun b hb => by
    rw [step_afterTarget, if_pos (blank.2 b (List.mem_cons_of_mem c hb))]⟩

theorem passes_thirdWord (p : Progress) {u : List UInt8} (plain : IsLineText u)
    (begins : u.head?.map Http.isBlank = some false) :
    Passes (p.moveTo ⟨.requestLine, 16⟩) u (p.moveTo .skipLine) := by
  cases u with
  | nil => cases begins
  | cons c u =>
    have solid : isBlank c = false := Option.some.inj begins
    have step : table.step ⟨.requestLine, 16⟩ c = (.skipLine, .nop) := by
      rw [step_afterTarget, solid, if_neg (by decide), if_neg (plain c List.mem_cons_self).2]
    exact ⟨_, stepToken_nop p step, passes_stay p fun b hb => by
      rw [step_skipLine, if_neg (plain b (List.mem_cons_of_mem c hb)).2]⟩

theorem passes_requestLine (p : Progress) (l : RequestLine) :
    Passes (p.moveTo .requestStart) l.text ((p.mark l.mark).moveTo .skipLine) := by
  have third := fun p : Progress => passes_thirdWord p l.plain l.begins
  unfold RequestLine.text
  cases indented : l.indent with
  | nil =>
    have marks : l.mark = markMethod (l.method.map fold) := by
      funext f
      simp only [RequestLine.mark, RequestLine.isHead, RequestLine.isPost, RequestLine.isNamed,
        indented, List.isEmpty_nil, Bool.true_and, markMethod]
    have first := passes_method p l.isWord_method l.isBlank_gap
    have second := passes_target (p.mark l.mark) l.isWord_target l.isBlank_gap'
    rw [← marks] at first
    simpa only [List.nil_append, List.append_assoc] using
      passes_append first (passes_append second (third _))
  | cons c indent =>
    have blank : IsBlank (c :: indent) := indented ▸ l.isBlank_indent
    have marks : l.mark = id := by
      funext f
      simp only [RequestLine.mark, RequestLine.isHead, RequestLine.isPost, RequestLine.isNamed,
        indented, List.isEmpty_cons, Bool.false_and, Bool.or_false, id]
    rw [marks]
    have step : table.step .requestStart c = (⟨.requestLine, 12⟩, .nop) := by
      have first := fold_eq_space.mpr (blank c List.mem_cons_self)
      rw [step_requestStart, if_neg (by rw [first]; decide), if_neg (by rw [first]; decide),
        step_method, if_pos (blank c List.mem_cons_self)]
    have lead : Passes (p.moveTo .requestStart) (c :: indent) (p.moveTo ⟨.requestLine, 12⟩) :=
      ⟨_, stepToken_nop p step,
        passes_afterMethod p fun b hb => blank b (List.mem_cons_of_mem c hb)⟩
    -- the method stands where another one has its second word, and the target where it ends
    have first := passes_target p l.isWord_method l.isBlank_gap
    have plain : IsLineText (l.target ++ l.gap' ++ l.rest) := by
      refine isLineText_append.mpr ⟨isLineText_append.mpr ⟨l.isWord_target.2.1, ?_⟩, l.plain⟩
      exact isLineText_of_isBlank l.isBlank_gap'.2
    have begins : (l.target ++ l.gap' ++ l.rest).head?.map Http.isBlank = some false := by
      obtain ⟨b, u, parts⟩ := List.exists_cons_of_ne_nil l.isWord_target.1
      rw [parts]
      exact congrArg some (l.isWord_target.2.2 b (parts ▸ List.mem_cons_self))
    have whole := passes_append lead (passes_append first (passes_thirdWord p plain begins))
    rw [show p.mark id = p from rfl]
    simpa only [List.append_assoc] using whole

/-! ### Status lines -/

theorem spells_version : Spells .statusLine 1 .skipLine (ascii ['T', 'T', 'P', '/', '1', '.']) :=
  fun i h c => step_word (row_word .version (by simp [Word.all]) i h) c

theorem passes_afterVersion (p : Progress) {gap : List UInt8} (blank : gap ≠ [] ∧ IsBlank gap) :
    Passes (p.moveTo ⟨.statusLine, 9⟩) gap (p.moveTo ⟨.statusLine, 10⟩) := by
  obtain ⟨c, gap, rfl⟩ := List.exists_cons_of_ne_nil blank.1
  have step : table.step ⟨.statusLine, 9⟩ c = (⟨.statusLine, 10⟩, .nop) := by
    rw [step_afterVersion, if_pos (blank.2 c List.mem_cons_self)]
  refine ⟨_, stepToken_nop p step, passes_stay p fun b hb => ?_⟩
  rw [step_beforeStatus, if_pos (blank.2 b (List.mem_cons_of_mem c hb))]

theorem passes_code (p : Progress) (l : StatusLine) :
    Passes (p.moveTo ⟨.statusLine, 10⟩) [l.hundreds, l.tens, l.ones]
      ((if l.isBodiless then p.mark fun f => { f with noBody := true } else p).moveTo
        ⟨.statusLine, 17⟩) := by
  obtain ⟨first, solid, -⟩ := isDigit_solid l.isDigit_hundreds
  obtain ⟨second, solid', -⟩ := isDigit_solid l.isDigit_tens
  obtain ⟨third, solid'', -⟩ := isDigit_solid l.isDigit_ones
  have stays : table.step ⟨.statusLine, 17⟩ l.tens = (⟨.statusLine, 17⟩, .nop) := by
    rw [step_status, solid', if_neg (by decide)]
  have stays' : table.step ⟨.statusLine, 17⟩ l.ones = (⟨.statusLine, 17⟩, .nop) := by
    rw [step_status, solid'', if_neg (by decide)]
  have step := step_beforeStatus l.hundreds
  rw [solid, if_neg (by decide), first] at step
  by_cases one : l.hundreds = 0x31
  · rw [if_pos one] at step
    have bodiless : l.isBodiless = true := by simp [StatusLine.isBodiless, one]
    rw [if_pos bodiless]
    exact ⟨_, stepToken_mark p step fun _ _ => rfl, _, stepToken_nop _ (step_anyDigit l.tens), _,
      stepToken_nop _ stays', rfl⟩
  · rw [if_neg one] at step
    by_cases two : l.hundreds = 0x32 ∨ l.hundreds = 0x33
    · have step : table.step ⟨.statusLine, 10⟩ l.hundreds = (⟨.statusLine, 14⟩, .nop) := by
        rcases two with two | three
        · rw [step, if_pos two]
        · rw [step, if_neg (by rw [three]; decide), if_pos three]
      have step' := step_secondDigit l.tens
      rw [second] at step'
      by_cases zero : l.tens = 0x30
      · rw [if_pos zero] at step'
        have step'' := step_thirdDigit l.ones
        rw [third] at step''
        by_cases four : l.ones = 0x34
        · rw [if_pos four] at step''
          have bodiless : l.isBodiless = true := by simp [StatusLine.isBodiless, two, zero, four]
          rw [if_pos bodiless]
          exact ⟨_, stepToken_nop p step, _, stepToken_nop p step', _,
            stepToken_mark p step'' fun _ _ => rfl, rfl⟩
        · rw [if_neg four] at step''
          have bodied : l.isBodiless = false := by simp [StatusLine.isBodiless, one, four]
          rw [bodied]
          exact ⟨_, stepToken_nop p step, _, stepToken_nop p step', _, stepToken_nop p step'', rfl⟩
      · rw [if_neg zero] at step'
        have bodied : l.isBodiless = false := by simp [StatusLine.isBodiless, one, zero]
        rw [bodied]
        exact ⟨_, stepToken_nop p step, _, stepToken_nop p step', _, stepToken_nop p stays', rfl⟩
    · obtain ⟨noTwo, noThree⟩ := not_or.mp two
      rw [if_neg noTwo, if_neg noThree] at step
      have bodied : l.isBodiless = false := by simp [StatusLine.isBodiless, one, noTwo, noThree]
      rw [bodied]
      exact ⟨_, stepToken_nop p step, _, stepToken_nop p stays, _, stepToken_nop p stays', rfl⟩

theorem passes_versionName (p : Progress) :
    Passes (p.moveTo .responseStart) (ascii ['H', 'T', 'T', 'P', '/', '1', '.'])
      (p.moveTo ⟨.statusLine, 7⟩) := by
  have step : table.step .responseStart 0x48 = (⟨.statusLine, 1⟩, .nop) := by
    rw [step_responseStart, if_pos (by decide)]
  exact ⟨_, stepToken_nop p step, passes_notes p (notes_word spells_version (by decide))⟩

/-- What a known version tells. -/
def markVersion (l : StatusLine) (f : Flags) : Flags :=
  { f with
    version10 := f.version10 || l.minor == 0x30
    version11 := f.version11 || l.minor == 0x31 }

/-- What a known version and the status tell. -/
def markStatus (l : StatusLine) (f : Flags) : Flags :=
  { markVersion l f with noBody := f.noBody || l.isBodiless }

theorem passes_minor (p : Progress) {l : StatusLine} (known : l.isKnown = true) :
    Passes (p.moveTo ⟨.statusLine, 7⟩) [l.minor]
      ((p.mark (markVersion l)).moveTo ⟨.statusLine, 9⟩) := by
  have step := step_minor l.minor
  rw [(isDigit_solid l.isDigit_minor).1] at step
  by_cases zero : l.minor = 0x30
  · rw [if_pos zero] at step
    have marks : markVersion l = fun f => { f with version10 := true } := by
      funext f
      simp [markVersion, zero]
    rw [marks]
    exact ⟨_, stepToken_mark p step fun _ _ => rfl, rfl⟩
  · have one : l.minor = 0x31 := by simpa [StatusLine.isKnown, zero] using known
    rw [if_neg zero, if_pos one] at step
    have marks : markVersion l = fun f => { f with version11 := true } := by
      funext f
      simp [markVersion, one]
    rw [marks]
    exact ⟨_, stepToken_mark p step fun _ _ => rfl, rfl⟩

/-- A known version and a status. -/
theorem passes_bare (p : Progress) {l : StatusLine} (known : l.isKnown = true) :
    Passes (p.moveTo .responseStart) l.bare ((p.mark (markStatus l)).moveTo ⟨.statusLine, 17⟩) := by
  have version := passes_append (passes_versionName p) (passes_minor p known)
  have gap := passes_afterVersion (p.mark (markVersion l)) l.isBlank_gap
  have status := passes_code (p.mark (markVersion l)) l
  have marks : (if l.isBodiless then
        (p.mark (markVersion l)).mark fun f => { f with noBody := true }
      else p.mark (markVersion l)) = p.mark (markStatus l) := by
    unfold markStatus
    cases l.isBodiless <;> simp [mark, markVersion]
  rw [marks] at status
  simpa [StatusLine.bare] using passes_append version (passes_append gap status)

/-- A blank and a reason. -/
theorem passes_reason (p : Progress) (l : StatusLine) :
    Passes (p.moveTo ⟨.statusLine, 17⟩) (l.blank :: l.reason)
      ((p.mark fun f => { f with response := true }).moveTo .skipLine) := by
  have step : table.step ⟨.statusLine, 17⟩ l.blank = (.skipLine, .response) := by
    rw [step_status, if_pos l.isBlank_blank]
  exact ⟨_, stepToken_mark p step fun _ _ => rfl,
    passes_stay _ fun c hc => by rw [step_skipLine, if_neg (l.plain c hc).2]⟩

theorem passes_statusLine (p : Progress) (l : StatusLine) :
    Passes (p.moveTo .responseStart) l.text ((p.mark l.mark).moveTo .skipLine) := by
  cases known : l.isKnown with
  | true =>
    have marks : l.mark = (fun f => { f with response := true }) ∘ markStatus l := by
      funext f
      simp only [StatusLine.mark, known, if_true, markStatus, markVersion, Function.comp]
    rw [l.text_eq, marks]
    exact passes_append (passes_bare p known) (passes_reason (p.mark (markStatus l)) l)
  | false =>
    obtain ⟨zero, one⟩ := Bool.or_eq_false_iff.mp known
    obtain ⟨same, -, inside⟩ := isDigit_solid l.isDigit_minor
    have step := step_minor l.minor
    rw [same, if_neg (beq_eq_false_iff_ne.mp zero), if_neg (beq_eq_false_iff_ne.mp one),
      step_skipLine, if_neg inside] at step
    have marks : l.mark = id := by
      funext f
      simp only [StatusLine.mark, known, Bool.false_eq_true, if_false, id]
    have split : l.text = ascii ['H', 'T', 'T', 'P', '/', '1', '.'] ++
        (l.minor :: (l.gap ++ l.hundreds :: l.tens :: l.ones :: l.blank :: l.reason)) := by
      simp only [StatusLine.text, List.append_assoc, List.cons_append]
    have plain := l.isLineText_text
    rw [split] at plain ⊢
    have rest := (isLineText_append.mp plain).2
    rw [marks]
    refine passes_append (passes_versionName p) ⟨_, stepToken_nop p step, passes_stay p ?_⟩
    intro c hc
    rw [step_skipLine, if_neg (rest c (List.mem_cons_of_mem _ hc)).2]

/-! ### First lines -/

/-- Where a message of a direction begins; `noBody` tells that the request before it was a HEAD. -/
def opening (d : Direction) (noBody : Bool) : Progress :=
  (fresh (d == .toServer)).mark fun f => { f with noBody }

theorem flags_opening (d : Direction) (noBody : Bool) :
    (opening d noBody).flags =
      { request := d == .toServer, response := d == .toClient, noBody } := by
  cases d <;> rfl

theorem passes_startLine {d : Direction} (l : StartLine d) (noBody : Bool) :
    Passes (opening d noBody) l.text (((opening d noBody).mark l.mark).moveTo .skipLine) := by
  cases l with
  | request l => exact passes_requestLine (opening .toServer noBody) l
  | status l => exact passes_statusLine (opening .toClient noBody) l

end StreamFraming.Http.Progress
