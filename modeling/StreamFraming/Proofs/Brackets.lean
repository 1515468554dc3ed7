import Mathlib.Algebra.GroupWithZero.Nat
import Mathlib.Data.List.DropRight
import StreamFraming.Catalogue
import StreamFraming.Proofs.Steps

/-!
# Brackets around messages

The cuts of a lane bracket its messages: the first one of a message bears the head mark, the last
one the tail mark, and what lies open between the two is counted in the lane. The boundary marks
that a segment comes with do not matter (`Engine.stepAll_brackets`).
-/

namespace StreamFraming

variable {α μ : Type}

/-! ### Sequences of cuts -/

/-- No message is in progress behind some cuts. -/
def isWhole (cuts : List (UInt32 × Marks)) : Bool := cuts.getLast?.all (·.2.tail)

/-- How many bytes were cut off since the last message ended. -/
def openLength (cuts : List (UInt32 × Marks)) : Nat :=
  ((cuts.rtakeWhile (!·.2.tail)).map (·.1.toNat)).sum

/-- A cut bears the head mark when no message is in progress in front of it. -/
def IsBracketed (cuts : List (UInt32 × Marks)) : Prop :=
  ∀ before c after, cuts = before ++ c :: after → c.2.head = isWhole before

theorem openLength_concat (cuts : List (UInt32 × Marks)) (c : UInt32 × Marks) :
    openLength (cuts ++ [c]) = if c.2.tail then 0 else openLength cuts + c.1.toNat := by
  unfold openLength
  rw [List.rtakeWhile_concat]
  cases c.2.tail with
  | true => rfl
  | false => simp

theorem isWhole_iff {cuts : List (UInt32 × Marks)} :
    isWhole cuts = true ↔
      cuts = [] ∨ ∃ last, cuts.getLast? = some last ∧ last.2.tail = true := by
  rcases List.eq_nil_or_concat cuts with rfl | ⟨cuts, c, rfl⟩
  · simp [isWhole]
  · simp [isWhole]

theorem isWhole_concat (cuts : List (UInt32 × Marks)) (c : UInt32 × Marks) :
    isWhole (cuts ++ [c]) = c.2.tail := by
  simp [isWhole]

theorem IsBracketed.concat {cuts : List (UInt32 × Marks)} (bracketed : IsBracketed cuts)
    {c : UInt32 × Marks} (head : c.2.head = isWhole cuts) : IsBracketed (cuts ++ [c]) := by
  intro before x after whole
  rcases split_concat whole with ⟨rfl, rfl, -⟩ | ⟨rest, rfl, -⟩
  · exact head
  · exact bracketed before x rest rfl

/-- No message is in progress exactly when nothing lies open, as no cut is empty. -/
theorem openLength_eq_zero {cuts : List (UInt32 × Marks)} (taken : ∀ c ∈ cuts, c.1 ≠ 0) :
    openLength cuts = 0 ↔ isWhole cuts = true := by
  induction cuts using List.reverseRecOn with
  | nil => exact ⟨fun _ => rfl, fun _ => rfl⟩
  | append_singleton cuts c _ =>
    rw [openLength_concat, isWhole_concat]
    cases c.2.tail with
    | true => exact ⟨fun _ => rfl, fun _ => rfl⟩
    | false =>
      have positive : c.1.toNat ≠ 0 := by
        rw [ne_eq, ← UInt32.toNat_zero, UInt32.toNat_inj]
        exact taken c (by simp)
      simp only [Bool.false_eq_true, if_false, iff_false]
      omega

/-! ### One cut -/

theorem Lane.carried_cutIf (l : Lane α) (cut? : Option Cut) (total : UInt32) (marks : Marks) :
    let r := l.cutIf cut? total marks
    (r.1 = 0 → r.2.2.carried = l.carried) ∧
      (r.1 ≠ 0 → r.2.1.head = (l.carried == 0) ∧
        r.2.2.carried = if r.2.1.tail then 0 else Length.add l.carried r.1) := by
  intro r
  rcases l.cutIf_cases cut? total marks with ⟨nothing, left⟩ | ⟨taken, -, cut⟩ | ⟨taken, -, cut⟩
  · exact ⟨fun _ => congrArg carried left, fun taken => absurd nothing taken⟩
  · refine ⟨fun nothing => absurd nothing taken, fun _ => ⟨congrArg (·.2.1.head) cut, ?_⟩⟩
    rw [show r.2.1.tail = true from congrArg (·.2.1.tail) cut]
    exact congrArg (·.2.2.carried) cut
  · refine ⟨fun nothing => absurd nothing taken, fun _ => ⟨congrArg (·.2.1.head) cut, ?_⟩⟩
    rw [show r.2.1.tail = false from congrArg (·.2.1.tail) cut]
    exact congrArg (·.2.2.carried) cut

/-- What a run leaves counted is what lies open, and its cuts are bracketed. -/
structure Lane.Brackets (l : Lane α) (cuts : List (UInt32 × Marks)) : Prop where
  nonempty : ∀ c ∈ cuts, c.1 ≠ 0
  bracketed : IsBracketed cuts
  carried : l.carried.toNat = min (openLength cuts) (2 ^ 32 - 1)

theorem Lane.Brackets.whole_iff {l : Lane α} {cuts : List (UInt32 × Marks)}
    (brackets : l.Brackets cuts) :
    l.carried = 0 ↔ isWhole cuts = true := by
  have carried := brackets.carried
  rw [← openLength_eq_zero brackets.nonempty, ← UInt32.toNat_inj, UInt32.toNat_zero]
  omega

theorem Lane.Brackets.concat {l l' : Lane α} {cuts : List (UInt32 × Marks)}
    (brackets : l.Brackets cuts) {c : UInt32 × Marks} (nonempty : c.1 ≠ 0)
    (head : c.2.head = (l.carried == 0))
    (carried : l'.carried = if c.2.tail then 0 else Length.add l.carried c.1) :
    l'.Brackets (cuts ++ [c]) := by
  refine ⟨?_, brackets.bracketed.concat ?_, ?_⟩
  · intro x listed
    rcases List.mem_append.mp listed with before | last
    · exact brackets.nonempty x before
    · rwa [List.mem_singleton.mp last]
  · rw [head, Bool.eq_iff_iff, beq_iff_eq]
    exact brackets.whole_iff
  · rw [openLength_concat, carried]
    cases c.2.tail with
    | true => rfl
    | false =>
      have before := brackets.carried
      simp only [Bool.false_eq_true, if_false, Length.toNat_add]
      omega

namespace Engine

variable {e : Engine α μ} {s : Session α} {d : Direction} {x : Step} {steps : List Step}

theorem carried_check (e : Engine α μ) (s : Session α) (d : Direction) (segment : Segment) :
    let r := e.check s d segment
    (r.length = 0 → (r.session.lane d).carried = (s.lane d).carried) ∧
      (r.length ≠ 0 → r.marks.head = ((s.lane d).carried == 0) ∧
        (r.session.lane d).carried =
          if r.marks.tail then 0 else Length.add (s.lane d).carried r.length) := by
  unfold check
  cases arrived : (s.lane d).arrival segment.seq segment.data with
  | gap =>
    simp only [Session.lane_setLane_self]
    exact ⟨fun _ => rfl, fun taken => absurd rfl taken⟩
  | stale => exact ⟨fun _ => rfl, fun taken => absurd rfl taken⟩
  | fresh lane data =>
    have opened : lane.carried = (s.lane d).carried := by
      rw [Lane.arrival_fresh arrived]
    have carried : (e.pursuit s d lane data segment).2.lane.carried = (s.lane d).carried :=
      (Field.carried_pursue _ _ _ _).trans opened
    have cut := Lane.carried_cutIf (e.pursuit s d lane data segment).2.lane
      (due (e.inquiry d segment) (e.pursuit s d lane data segment)) segment.queued segment.marks
    rw [carried] at cut
    simp only
    rw [lane_evaluate, evaluate_eq]
    exact cut

/-! ### Runs -/

/-- What a step cuts off the lane's queue. -/
def cut? (e : Engine α μ) (s : Session α) (d : Direction) : Step → Option (UInt32 × Marks)
  | .check d' segment =>
    let r := e.check s d' segment
    if d' = d ∧ r.length ≠ 0 then some (r.length, r.marks) else none
  | _ => none

/-- What a run cuts off the lane's queue, in order. -/
def cuts (e : Engine α μ) (s : Session α) (d : Direction) : List Step → List (UInt32 × Marks)
  | [] => []
  | x :: steps =>
    let left := e.step s x
    (e.cut? s d x).toList ++ left.1.cuts left.2 d steps

theorem cuts_concat (e : Engine α μ) (s : Session α) (d : Direction) (steps : List Step)
    (x : Step) :
    e.cuts s d (steps ++ [x]) =
      e.cuts s d steps ++ ((e.stepAll s steps).1.cut? (e.stepAll s steps).2 d x).toList := by
  induction steps generalizing e s with
  | nil => exact List.append_nil _
  | cons y steps ih =>
    rw [List.cons_append, cuts, cuts, ih, List.append_assoc]
    rfl

/-- A step cuts nothing off and leaves what is counted, or makes one cut. -/
theorem carried_step (e : Engine α μ) (s : Session α) (kept : x.setsUp d = false) :
    let l := (e.step s x).2.lane d
    (e.cut? s d x = none ∧ l.carried = (s.lane d).carried) ∨
      ∃ c, e.cut? s d x = some c ∧ c.1 ≠ 0 ∧ c.2.head = ((s.lane d).carried == 0) ∧
        l.carried = if c.2.tail then 0 else Length.add (s.lane d).carried c.1 := by
  intro l
  by_cases checks : ∃ segment, x = .check d segment
  · obtain ⟨segment, rfl⟩ := checks
    obtain ⟨nothing, taken⟩ := e.carried_check s d segment
    by_cases found : (e.check s d segment).length = 0
    · exact .inl ⟨if_neg fun cut => cut.2 found, nothing found⟩
    · obtain ⟨head, carried⟩ := taken found
      exact .inr ⟨_, if_pos ⟨rfl, found⟩, found, head, carried⟩
  · have uncut : e.cut? s d x = none := by
      cases x with
      | check d' segment =>
        refine if_neg ?_
        rintro ⟨rfl, -⟩
        exact checks ⟨segment, rfl⟩
      | clear d' | setup d' port | reset => rfl
    exact .inl ⟨uncut, unchecked_step Lane.carried (fun _ _ => rfl) (fun _ => rfl) kept checks⟩

theorem brackets_stepAll (e : Engine α μ) (s : Session α) (d : Direction) (port : UInt16)
    (steps : List Step) (kept : ∀ x ∈ steps, x.setsUp d = false) :
    ((e.stepAll (e.setup s d port) steps).2.lane d).Brackets
      (e.cuts (e.setup s d port) d steps) := by
  induction steps using List.reverseRecOn with
  | nil =>
    refine ⟨List.forall_mem_nil _, ?_, ?_⟩
    · intro before c after absent
      simp [cuts] at absent
    · show ((e.setup s d port).lane d).carried.toNat = _
      rw [lane_setup]
      rfl
  | append_singleton steps x ih =>
    have before := ih fun y listed => kept y (List.mem_append_left _ listed)
    rw [stepAll_concat, cuts_concat]
    rcases (e.stepAll (e.setup s d port) steps).1.carried_step
      (e.stepAll (e.setup s d port) steps).2 (kept x (by simp)) with
      ⟨uncut, carried⟩ | ⟨c, cut, nonempty, head, carried⟩
    · rw [uncut, Option.toList_none, List.append_nil]
      exact ⟨before.nonempty, before.bracketed,
        (congrArg UInt32.toNat carried).trans before.carried⟩
    · rw [cut]
      exact before.concat nonempty head carried

end Engine

/-! ### The boundary marks of segments -/

/-- The marks without those of boundaries. -/
def Marks.bare (m : Marks) : Marks := { m with head := false, tail := false }

def Segment.bare (segment : Segment) : Segment := { segment with marks := segment.marks.bare }

def Step.bare : Step → Step
  | .check d segment => .check d segment.bare
  | x => x

/-- What a scanner answers does not depend on the boundary marks. -/
def Scanner.IgnoresEnds (s : Scanner α μ) : Prop :=
  ∀ (memory : μ) (sight : Sight α) (window : List UInt8),
    s.scan memory { sight with marks := sight.marks.bare } window = s.scan memory sight window

def Registry.IgnoresEnds (r : Registry α μ) : Prop :=
  ∀ id s, r.scanner? id = some s → s.IgnoresEnds

/-- None of the catalogue's scanners looks at the boundary marks. -/
theorem Catalogue.ignoresEnds (c : Catalogue) : c.scanner.IgnoresEnds := by
  intro memory sight window
  cases c with
  | http byteCap => rfl
  | delimited name delimiter => rfl
  | counted name => rfl
  | scripted name script => rfl

theorem Lane.cutIf_bare (l : Lane α) (cut? : Option Cut) (total : UInt32) (marks : Marks) :
    let r := l.cutIf cut? total marks
    let r' := l.cutIf cut? total marks.bare
    r'.1 = r.1 ∧ r'.2.2 = r.2.2 ∧ (r.1 ≠ 0 → r'.2.1 = r.2.1) := by
  cases cut? with
  | none => exact ⟨rfl, rfl, fun taken => absurd rfl taken⟩
  | some kind =>
    cases kind with
    | abort => exact ⟨rfl, rfl, fun _ => rfl⟩
    | boundary | bound =>
      simp only [cutIf, cut]
      split
      · exact ⟨rfl, rfl, fun taken => absurd rfl taken⟩
      · exact ⟨rfl, rfl, fun _ => rfl⟩

namespace Field

/-- Two fields that differ in the calls made so far. -/
structure Level (f g : Field α μ) : Prop where
  lane : f.lane = g.lane
  peer : f.peer = g.peer
  memories : f.memories = g.memories
  raised : f.raised = g.raised

variable {q : Inquiry α μ} {f g : Field α μ}

theorem Level.consult_bare (level : f.Level g) {s : Scanner α μ} (ignores : s.IgnoresEnds)
    (w : Window) (id : Nat) :
    let bare : Inquiry α μ := { q with marks := q.marks.bare }
    (f.consult q w id s).1 = (g.consult bare w id s).1 ∧
      (f.consult q w id s).2.Level (g.consult bare w id s).2 := by
  have same : s.scan ((g.memories.get? id).getD s.memory)
      ⟨id, q.marks.bare, g.lane.slots.get? id, g.peer.get? id⟩ w.bytes =
        s.scan ((g.memories.get? id).getD s.memory)
          ⟨id, q.marks, g.lane.slots.get? id, g.peer.get? id⟩ w.bytes :=
    ignores _ ⟨id, q.marks, g.lane.slots.get? id, g.peer.get? id⟩ w.bytes
  obtain ⟨lane, peer, memories, raised⟩ := level
  simp only [consult, Scanner.look, Call.storeOwn, Call.storePeer, lane, peer, memories, raised,
    same]
  exact ⟨trivial, rfl, rfl, rfl, rfl⟩

theorem pursue_bare (ignores : q.registry.IgnoresEnds) (idx : UInt32) (data : List UInt8)
    (f : Field α μ) :
    let bare : Inquiry α μ := { q with marks := q.marks.bare }
    (pursue q idx data f).1 = (pursue bare idx data f).1 ∧
      (pursue q idx data f).2.Level (pursue bare idx data f).2 := by
  refine pursue_related (R := Level) (W := Eq) rfl ?_ ?_ ?_ rfl rfl ?_ ?_ ?_ ?_ ?_
    ⟨rfl, rfl, rfl, rfl⟩
  · rintro w w' id s f g known rfl level
    exact level.consult_bare (ignores id s known) w id
  · exact fun id level =>
      ⟨congrArg (Lane.dismiss · id) level.lane, level.peer, level.memories, level.raised⟩
  · exact fun id level =>
      ⟨congrArg (fun l : Lane α => { l with eligible := .singleton id }) level.lane, level.peer,
        level.memories, level.raised⟩
  · intro f g idx data level
    rw [level.lane]
  · intro f g level
    rw [level.lane]
    exact ⟨rfl, rfl, rfl⟩
  · exact fun v level =>
      ⟨congrArg (Lane.conclude · v) level.lane, level.peer, level.memories, level.raised⟩
  · exact fun target level =>
      ⟨congrArg (fun l : Lane α => { l with target }) level.lane, level.peer, level.memories,
        level.raised⟩
  · exact fun level =>
      ⟨congrArg (fun l : Lane α => { l with status := .search }) level.lane, level.peer,
        level.memories, level.raised⟩

end Field

namespace Engine

variable {e : Engine α μ}

theorem check_bare (ignores : e.registry.IgnoresEnds) (s : Session α) (d : Direction)
    (segment : Segment) :
    let r := e.check s d segment
    let r' := e.check s d segment.bare
    r'.engine = r.engine ∧ r'.session = r.session ∧ r'.length = r.length ∧
      (r.length ≠ 0 → r'.marks = r.marks) := by
  unfold check
  rw [show segment.bare.seq = segment.seq from rfl, show segment.bare.data = segment.data from rfl]
  cases (s.lane d).arrival segment.seq segment.data with
  | gap => exact ⟨rfl, rfl, rfl, fun _ => rfl⟩
  | stale => exact ⟨rfl, rfl, rfl, fun taken => absurd rfl taken⟩
  | fresh lane data =>
    obtain ⟨cut, level⟩ := Field.pursue_bare (q := e.inquiry d segment) ignores
      (Length.sub segment.queued data.length.toUInt32) data (e.opening s d lane data.length)
    change _ = (e.pursuit s d lane data segment.bare).1 at cut
    change Field.Level (e.pursuit s d lane data segment).2
      (e.pursuit s d lane data segment.bare).2 at level
    have same : due (e.inquiry d segment.bare) (e.pursuit s d lane data segment.bare) =
        due (e.inquiry d segment) (e.pursuit s d lane data segment) := by
      unfold due
      rw [← cut, ← level.lane]
      rfl
    obtain ⟨length, left, marks⟩ := Lane.cutIf_bare (e.pursuit s d lane data segment).2.lane
      (due (e.inquiry d segment) (e.pursuit s d lane data segment)) segment.queued segment.marks
    simp only [evaluate_eq, same, ← level.lane, ← level.peer, ← level.memories, ← level.raised]
    refine ⟨trivial, ?_, length, marks⟩
    rw [show segment.bare.marks = segment.marks.bare from rfl,
      show segment.bare.queued = segment.queued from rfl, left]

theorem step_bare (ignores : e.registry.IgnoresEnds) (s : Session α) (d : Direction) (x : Step) :
    e.step s x.bare = e.step s x ∧ e.cut? s d x.bare = e.cut? s d x := by
  cases x with
  | clear d' | setup d' port | reset => exact ⟨rfl, rfl⟩
  | check d' segment =>
    obtain ⟨engine, session, length, marks⟩ := e.check_bare ignores s d' segment
    refine ⟨Prod.ext engine session, ?_⟩
    simp only [Step.bare, cut?, length]
    by_cases found : d' = d ∧ (e.check s d' segment).length ≠ 0
    · rw [if_pos found, if_pos found, marks found.2]
    · rw [if_neg found, if_neg found]

theorem cuts_bare (ignores : e.registry.IgnoresEnds) (s : Session α) (d : Direction)
    (steps : List Step) : e.cuts s d (steps.map Step.bare) = e.cuts s d steps := by
  induction steps generalizing e s with
  | nil => rfl
  | cons x steps ih =>
    obtain ⟨step, cut⟩ := step_bare ignores s d x
    have ignores' : (e.step s x).1.registry.IgnoresEnds := by
      rw [registry_step]
      exact ignores
    rw [List.map_cons, cuts, cuts, step, cut]
    exact congrArg _ (ih ignores' _)

/-- From when a lane is set up, a cut bears the head mark exactly when it is the first one or the
one before it bears the tail mark; what was cut since the last tail mark is counted, up to the
largest length; and scanners that do not go by the boundary marks of segments cut the same whatever
these are. -/
theorem stepAll_brackets (e : Engine α μ) (s : Session α) (d : Direction) (port : UInt16)
    (steps : List Step) (kept : ∀ x ∈ steps, x.setsUp d = false) :
    let opened := e.setup s d port
    let cuts := e.cuts opened d steps
    let carried := ((e.stepAll opened steps).2.lane d).carried
    (∀ before c after, cuts = before ++ c :: after →
      (c.2.head = true ↔ before = [] ∨ ∃ last, before.getLast? = some last ∧ last.2.tail = true)) ∧
    carried.toNat = min (openLength cuts) (2 ^ 32 - 1) ∧
    (carried = 0 ↔ cuts = [] ∨ ∃ last, cuts.getLast? = some last ∧ last.2.tail = true) ∧
    (e.registry.IgnoresEnds → ∀ steps', steps'.map Step.bare = steps.map Step.bare →
      e.cuts opened d steps' = cuts) := by
  intro opened cuts carried
  have brackets := e.brackets_stepAll s d port steps kept
  refine ⟨fun before c after whole => ?_, brackets.carried, ?_, fun ignores steps' same => ?_⟩
  · rw [brackets.bracketed before c after whole]
    exact isWhole_iff
  · exact brackets.whole_iff.trans isWhole_iff
  · rw [← e.cuts_bare ignores opened d steps', same]
    exact cuts_bare ignores opened d steps

/-- A line of forty-four bytes is cut in three pieces as the queue grows past its bound of sixteen,
and the line behind it in one; marks that the segments come with are not seen. -/
theorem stepAll_brackets_pieces :
    let e : Engine Memo Tally := .ofRegistry
      { scanners := [Delimiter.scanner "line" 0x0A {}]
        bindings := [(⟨80, .toServer⟩, { scanners := .singleton 0 })]
        maxFlushPoint := 16 }
    let steps (marks : Marks) : List Step :=
      [("aaaaaaaaaaaaaaaaaaaa", 20, 0), ("bbbbbbbbbbbbbbbbbbbb", 20, 20), ("ccc\n", 4, 40),
        ("d\n", 2, 44), ("eeeeeeeeeeeeeeeeeeee", 20, 46)].map fun x =>
          .check .toServer { data := x.1.toUTF8.toList, queued := x.2.1, seq := x.2.2, marks }
    let opened := e.setup (e.openSession 1 80) .toServer 80
    let cuts := e.cuts opened .toServer (steps .none)
    cuts = [(20, { head := true }), (20, {}), (4, { tail := true }),
        (2, { head := true, tail := true }), (20, { head := true })] ∧
      ((e.stepAll opened (steps .none)).2.lane .toServer).carried.toNat = openLength cuts ∧
      e.cuts opened .toServer (steps { head := true, tail := true }) = cuts := by
  intro e steps opened cuts
  have kept : ∀ x ∈ steps .none, x.setsUp .toServer = false := by decide
  have ignores : e.registry.IgnoresEnds := by
    intro id s known
    cases id with
    | zero =>
      cases known
      exact (Catalogue.delimited "line" 0x0A).ignoresEnds
    | succ id => cases known
  obtain ⟨-, carried, -, same⟩ :=
    e.stepAll_brackets (e.openSession 1 80) .toServer 80 (steps .none) kept
  have all : cuts = [(20, { head := true }), (20, {}), (4, { tail := true }),
      (2, { head := true, tail := true }), (20, { head := true })] := by decide +kernel
  refine ⟨all, carried.trans (Nat.min_eq_left ?_), same ignores _ rfl⟩
  rw [show e.cuts opened .toServer (steps .none) = _ from all]
  decide

end Engine

end StreamFraming
