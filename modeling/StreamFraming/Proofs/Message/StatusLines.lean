import StreamFraming.Proofs.Message.FirstLines
import StreamFraming.Proofs.Message.Recognition

/-!
# What a status line is taken for

Whatever a server sends as the text of its first line, the table tells of it whether its version is
1.0 or 1.1, and whether its status is one that goes without a body (`scan_statusLine`). Nothing
comes of a line that begins otherwise.
-/

namespace StreamFraming.Http

open Token

def versionName : List UInt8 := ascii ['H', 'T', 'T', 'P', '/', '1', '.']

def http10 : List UInt8 := ascii ['H', 'T', 'T', 'P', '/', '1', '.', '0']

def http11 : List UInt8 := ascii ['H', 'T', 'T', 'P', '/', '1', '.', '1']

/-- How a status begins that goes without a body. -/
def bodilessCodes : List (List UInt8) := [ascii ['1'], ascii ['2', '0', '4'], ascii ['3', '0', '4']]

/-- White space, and a status that goes without a body. -/
def BeginsBodiless (r : List UInt8) : Prop :=
  ∃ n, ∃ code ∈ bodilessCodes, List.replicate n space ++ code <+: r

namespace Token

variable {c : UInt8} {r : List UInt8} {a : Action} {P : List UInt8 → Prop}

theorem beginsBodiless_space : BeginsBodiless (space :: r) ↔ BeginsBodiless r := by
  constructor
  · rintro ⟨n, code, known, begins⟩
    cases n with
    | zero =>
      have digits : ∀ code ∈ bodilessCodes, code ≠ [] ∧ code.head? ≠ some space := by decide
      obtain ⟨nonempty, solid⟩ := digits code known
      obtain ⟨d, code, rfl⟩ := List.exists_cons_of_ne_nil nonempty
      exact absurd (congrArg some (List.cons_prefix_cons.mp begins).1) solid
    | succ n => exact ⟨n, code, known, (List.prefix_cons_inj space).mp begins⟩
  · rintro ⟨n, code, known, begins⟩
    exact ⟨n + 1, code, known, (List.prefix_cons_inj space).mpr begins⟩

theorem beginsBodiless_solid (solid : r.head? ≠ some space) :
    BeginsBodiless r ↔ ∃ code ∈ bodilessCodes, code <+: r := by
  constructor
  · rintro ⟨n, code, known, begins⟩
    cases n with
    | zero => exact ⟨code, known, begins⟩
    | succ n =>
      obtain ⟨r', rfl⟩ := begins
      exact absurd rfl solid
  · rintro ⟨code, known, begins⟩
    exact ⟨0, code, known, begins⟩

theorem codes_cons : (∃ code ∈ bodilessCodes, code <+: c :: r) ↔
    c = 0x31 ∨ (c = 0x32 ∨ c = 0x33) ∧ [0x30, 0x34] <+: r := by
  have codes : bodilessCodes = [[0x31], [0x32, 0x30, 0x34], [0x33, 0x30, 0x34]] := by decide
  rw [codes, or_and_right]
  simp [eq_comm]

/-! ### Statuses -/

theorem silent_status : NotedFor .noBody ⟨.statusLine, 17⟩ fun _ => False :=
  notedFor_none rfl (by decide) (by decide)

theorem notedFor_thirdDigit : NotedFor .noBody ⟨.statusLine, 15⟩ ([0x34] <+: ·) := by
  refine (NotedFor.byte (d := 0x34) (m := .noBody) (fun c four => ?_) (fun c other => ?_)
    (by decide) silent_status).of_iff fun r => ?_
  · rw [step_thirdDigit, if_pos four]
  · rw [step_thirdDigit, if_neg other]
    exact ⟨by decide, fun _ => silent_status⟩
  · simp [List.cons_prefix_iff]

theorem notedFor_secondDigit : NotedFor .noBody ⟨.statusLine, 14⟩ ([0x30, 0x34] <+: ·) := by
  refine (NotedFor.byte (d := 0x30) (m := .nop) (fun c zero => ?_) (fun c other => ?_) (by decide)
    notedFor_thirdDigit).of_iff fun r => ?_
  · rw [step_secondDigit, if_pos zero]
  · rw [step_secondDigit, if_neg other]
    exact ⟨by decide, fun _ => silent_status⟩
  · simp [List.cons_prefix_iff]

theorem notedFor_beforeStatus : NotedFor .noBody ⟨.statusLine, 10⟩ BeginsBodiless := by
  intro u inside
  induction u with
  | nil =>
    rw [List.map_nil, beginsBodiless_solid (by simp)]
    refine iff_of_false ?_ (by decide)
    rw [List.nil_append, mem_feed_cons, step_beforeStatus]
    rintro (same | other) <;> contradiction
  | cons c u ih =>
    rw [List.mem_cons, not_or] at inside
    rw [List.cons_append, mem_feed_cons, step_beforeStatus, List.map_cons]
    by_cases blank : isBlank c = true
    · rw [if_pos blank, ih inside.2, fold_eq_space.mpr blank, beginsBodiless_space]
      simp
    · have solid : fold c ≠ space := mt fold_eq_space.mp blank
      rw [if_neg blank, beginsBodiless_solid (by simpa using solid), codes_cons]
      by_cases one : fold c = 0x31
      · simp [one]
      · by_cases two : fold c = 0x32
        · rw [if_neg one, if_pos two, notedFor_secondDigit u inside.2]
          simp [two]
        · by_cases three : fold c = 0x33
          · rw [if_neg one, if_neg two, if_pos three, notedFor_secondDigit u inside.2]
            simp [three]
          · rw [if_neg one, if_neg two, if_neg three, silent_status u inside.2]
            simp [one, two, three]

theorem notedFor_afterVersion :
    NotedFor .noBody ⟨.statusLine, 9⟩ fun r => ∃ r', r = space :: r' ∧ BeginsBodiless r' := by
  refine (NotedFor.byte (d := space) (m := .nop) (fun c blank => ?_) (fun c other => ?_) (by decide)
    notedFor_beforeStatus).of_iff fun r => ?_
  · rw [step_afterVersion, if_pos (fold_eq_space.mp blank)]
  · rw [step_afterVersion, if_neg (mt fold_eq_space.mpr other)]
    exact missed_skipLine (by decide) c
  · simp

/-! ### Versions -/

theorem notedFor_version10 : NotedFor .version10 ⟨.statusLine, 7⟩ ([0x30] <+: ·) := by
  have behind : NotedFor .version10 ⟨.statusLine, 9⟩ fun _ => False :=
    notedFor_none rfl (by decide) (by decide)
  refine (NotedFor.byte (d := 0x30) (m := .version10) (fun c zero => ?_) (fun c other => ?_)
    (by decide) behind).of_iff fun r => ?_
  · rw [step_minor, if_pos zero]
  · rw [step_minor, if_neg other]
    split
    · exact ⟨by decide, fun _ => behind⟩
    · exact missed_skipLine (by decide) c
  · simp [List.cons_prefix_iff]

theorem notedFor_version11 : NotedFor .version11 ⟨.statusLine, 7⟩ ([0x31] <+: ·) := by
  have behind : NotedFor .version11 ⟨.statusLine, 9⟩ fun _ => False :=
    notedFor_none rfl (by decide) (by decide)
  refine (NotedFor.byte (d := 0x31) (m := .version11) (fun c one => ?_) (fun c other => ?_)
    (by decide) behind).of_iff fun r => ?_
  · rw [step_minor, if_neg (by rw [one]; decide), if_pos one]
  · rw [step_minor, if_neg other]
    split
    · exact ⟨by decide, fun _ => behind⟩
    · exact missed_skipLine (by decide) c
  · simp [List.cons_prefix_iff]

theorem notedFor_minor : NotedFor .noBody ⟨.statusLine, 7⟩ fun r =>
    ∃ minor ∈ [0x30, 0x31], ∃ r', r = minor :: space :: r' ∧ BeginsBodiless r' := by
  intro u inside
  cases u with
  | nil =>
    rw [List.nil_append, mem_feed_cons, step_minor, if_neg (by decide), if_neg (by decide)]
    simp [Table.feed, missed_skipLine]
  | cons c u =>
    rw [List.mem_cons, not_or] at inside
    rw [List.cons_append, mem_feed_cons, step_minor, List.map_cons]
    by_cases zero : fold c = 0x30
    · rw [if_pos zero, notedFor_afterVersion u inside.2]
      simp [zero]
    · by_cases one : fold c = 0x31
      · rw [if_neg zero, if_pos one, notedFor_afterVersion u inside.2]
        simp [one]
      · obtain ⟨other, silent⟩ := missed_skipLine (a := .noBody) (by decide) c
        rw [if_neg zero, if_neg one, silent (Ne.symm inside.1) u inside.2]
        simp [other, zero, one]

theorem notedFor_responseStart (acts : a ≠ .nop) (behind : NotedFor a ⟨.statusLine, 7⟩ P) :
    NotedFor a .responseStart fun r =>
      ∃ r', r.dropWhile (· == space) = versionName ++ r' ∧ P r' := by
  have silent := notedFor_skipLine (a := a) acts
  have name := Progress.spells_version.notedFor acts (absorbs_skipLine (by decide)) (by decide)
    silent behind
  have whole : versionName = 0x48 :: ascii ['T', 'T', 'P', '/', '1', '.'] := rfl
  intro u inside
  induction u with
  | nil =>
    rw [List.nil_append, mem_feed_cons, step_responseStart]
    simp [Table.feed, whole, acts, show fold lineFeed ≠ 0x48 by decide]
  | cons c u ih =>
    rw [List.mem_cons, not_or] at inside
    rw [List.cons_append, mem_feed_cons, step_responseStart, List.map_cons]
    by_cases letter : fold c = 0x48
    · rw [if_pos letter, name u inside.2, letter]
      simp [acts, whole, show (0x48 : UInt8) ≠ space by decide]
    · by_cases blank : isBlank c = true
      -- White space in front of a version leads back to the start.
      · rw [if_neg letter, if_pos blank, ih inside.2, fold_eq_space.mpr blank]
        simp [acts]
      · rw [if_neg letter, if_neg blank, if_neg (Ne.symm inside.1), silent u inside.2]
        simp [acts, whole, letter, mt fold_eq_space.mp blank]

theorem notedFor_version {minor : UInt8} (acts : a ≠ .nop)
    (behind : NotedFor a ⟨.statusLine, 7⟩ ([minor] <+: ·)) :
    NotedFor a .responseStart fun r => versionName ++ [minor] <+: r.dropWhile (· == space) := by
  refine (notedFor_responseStart acts behind).of_iff fun r => ?_
  constructor
  · rintro ⟨r', whole, t, rfl⟩
    exact ⟨t, by rw [whole, List.append_assoc]⟩
  · rintro ⟨t, whole⟩
    exact ⟨[minor] ++ t, by rw [← whole, List.append_assoc], t, rfl⟩

theorem notedFor_http10 :
    NotedFor .version10 .responseStart fun r => http10 <+: r.dropWhile (· == space) :=
  notedFor_version (by decide) notedFor_version10

theorem notedFor_http11 :
    NotedFor .version11 .responseStart fun r => http11 <+: r.dropWhile (· == space) :=
  notedFor_version (by decide) notedFor_version11

/-- A known version, white space, and a status that goes without a body. -/
def TellsBodiless (r : List UInt8) : Prop :=
  ∃ version ∈ [http10, http11], ∃ n, ∃ code ∈ bodilessCodes,
    version ++ List.replicate (n + 1) space ++ code <+: r

theorem notedFor_bodiless :
    NotedFor .noBody .responseStart fun r => TellsBodiless (r.dropWhile (· == space)) := by
  refine (notedFor_responseStart (by decide) notedFor_minor).of_iff fun r => ?_
  have versions : [http10, http11] = [0x30, 0x31].map (versionName ++ [·]) := rfl
  constructor
  · rintro ⟨-, whole, minor, known, -, rfl, n, code, known', t, rfl⟩
    refine ⟨_, versions ▸ List.mem_map_of_mem known, n, code, known', t, ?_⟩
    rw [whole, List.replicate_succ]
    simp
  · rintro ⟨version, known, n, code, known', t, whole⟩
    rw [versions, List.mem_map] at known
    obtain ⟨minor, known, rfl⟩ := known
    refine ⟨_, ?_, minor, known, _, rfl, n, code, known', t, rfl⟩
    rw [← whole, List.replicate_succ]
    simp

end Token

namespace Progress

theorem passes_responseText {u : List UInt8} (inside : lineFeed ∉ u) :
    let r := (u.map fold).dropWhile (· == space)
    ∃ x bodiless, Passes response u
      { flags :=
          { response := true, version10 := decide (http10 <+: r), version11 := decide (http11 <+: r)
            noBody := bodiless }
        position := x } ∧ (bodiless = true ↔ TellsBodiless r) := by
  intro r
  have start : Position.responseStart.inFirstLine = true := rfl
  have passes := passes_firstLine response start inside
  have older := notedFor_http10 u inside
  have newer := notedFor_http11 u inside
  have bodiless := notedFor_bodiless u inside
  rw [mem_feed_line start inside (by decide)] at older newer bodiless
  have noPost : .post ∉ (table.feed .responseStart u).2 := fun found =>
    absurd ((feed_ahead start inside).2 found) (by decide)
  refine ⟨(table.feed .responseStart u).1, decide (.noBody ∈ (table.feed .responseStart u).2), ?_,
    decide_eq_true_iff.trans bodiless⟩
  have marked : markAll (table.feed .responseStart u).2 { response := true } =
      { response := true, version10 := decide (http10 <+: r), version11 := decide (http11 <+: r)
        noBody := decide (.noBody ∈ (table.feed .responseStart u).2) } := by
    simp [markAll, older, newer, noPost, r]
  rw [← marked]
  exact passes

/-- Of the text of a first line the version and a status that goes without a body are all that is
left. -/
theorem scan_statusLine {w : List UInt8} (inside : lineFeed ∉ w) :
    let r := (folded w).dropWhile (· == space)
    ∃ x bodiless, response.scan false w =
      { progress :=
          { flags :=
              { response := true, version10 := decide (http10 <+: r)
                version11 := decide (http11 <+: r), noBody := bodiless }
            position := x }
        consumed := w.length } ∧ (bodiless = true ↔ TellsBodiless r) := by
  intro r
  have inside' : lineFeed ∉ w.filter (· ≠ carriageReturn) :=
    fun found => inside (List.mem_of_mem_filter found)
  obtain ⟨x, bodiless, passes, told⟩ := passes_responseText inside'
  exact ⟨x, bodiless, (takes_returns passes.tells rfl inside).scan false, told⟩

/-- A version behind white space, and a status that goes without a body. -/
theorem scan_statusLine_notModified :
    let w := " \thttp/1.1\t \r3045".toUTF8.toList
    lineFeed ∉ w ∧ ∃ x, response.scan false w =
      { progress :=
          { flags := { response := true, version11 := true, noBody := true }, position := x }
        consumed := w.length } := by
  intro w
  have inside : lineFeed ∉ w := by decide +kernel
  have other : ¬ http10 <+: (folded w).dropWhile (· == space) := by decide +kernel
  have known : http11 <+: (folded w).dropWhile (· == space) := by decide +kernel
  have told : TellsBodiless ((folded w).dropWhile (· == space)) :=
    ⟨http11, by decide, 1, ascii ['3', '0', '4'], by decide, by decide +kernel⟩
  obtain ⟨x, bodiless, scanned, tells⟩ := scan_statusLine inside
  rw [tells.mpr told, decide_eq_false other, decide_eq_true known] at scanned
  exact ⟨inside, x, scanned⟩

end Progress

end StreamFraming.Http
