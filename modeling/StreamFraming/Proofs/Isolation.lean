import StreamFraming.SessionTable
import StreamFraming.Proofs.Agreement

/-!
# Isolated sessions

The sessions of a table share an engine, but scanners that do not go by their memory keep nothing of
one session for another: what becomes of a key is decided by what is done with that key, from when
it was set up last (`SessionTable.performAll_isolated`).
-/

namespace StreamFraming

variable {α μ : Type}

theorem Session.ext_lane {s s' : Session α} (key : s.key = s'.key) (port : s.port = s'.port)
    {d : Direction} (lane : s.lane d = s'.lane d)
    (opposite : s.lane d.opposite = s'.lane d.opposite) (raised : s.raised = s'.raised) :
    s = s' := by
  obtain ⟨_, _, _, _, _⟩ := s
  obtain ⟨_, _, _, _, _⟩ := s'
  cases d
  · cases key; cases port; cases lane; cases opposite; cases raised; rfl
  · cases key; cases port; cases lane; cases opposite; cases raised; rfl

/-- A check of one session, whatever the memories of its engine. -/
theorem Engine.check_same {e e' : Engine α μ} (agrees : e.registry.Agrees Eq)
    (same : e'.registry = e.registry) (s : Session α) (d : Direction) (segment : Segment) :
    let r := e.check s d segment
    let r' := e'.check s d segment
    r.length = r'.length ∧ r.marks = r'.marks ∧ r.session = r'.session := by
  have replies : RepliesAgree Eq d s s (e.check s d segment) (e'.check s d segment) :=
    check_agree agrees same rfl (fun _ => rfl) segment
  obtain ⟨length, marks, lane, ⟨more, raised, raised'⟩, peer⟩ := replies
  obtain ⟨-, key, port, slots, kept⟩ := e.check_keeps s d segment
  obtain ⟨-, key', port', slots', kept'⟩ := e'.check_keeps s d segment
  refine ⟨length, marks, ?_⟩
  apply Session.ext_lane (key.trans key'.symm) (port.trans port'.symm) lane
  · have cells : slots = slots' := by
      apply Slots.ext_get?
      intro id
      have related := peer id
      rw [kept, kept'] at related
      exact related
    rw [kept, kept', cells]
  · rw [raised, raised']

/-- What a table can be asked to do. -/
inductive Operation where
  | openSession (key : UInt64) (port : UInt16)
  | check (key : UInt64) (d : Direction) (segment : Segment)
  | reset (key : UInt64)
  | close (key : UInt64)
  deriving DecidableEq, Repr

def Operation.key : Operation → UInt64
  | .openSession key _ | .check key _ _ | .reset key | .close key => key

/-- What an operation makes of the session under its key. -/
def Operation.outcome (e : Engine α μ) : Operation → Option (Session α) → Option (Session α)
  | .openSession key port, _ => some (e.openSession key port)
  | .check _ d segment, s => s.map fun s => (e.check s d segment).session
  | .reset _, s => s.map fun s => { e.resetSession s with raised := [] }
  | .close _, _ => none

/-- The outcome does not depend on the engine's memories. -/
theorem Operation.outcome_same {e e' : Engine α μ} (agrees : e.registry.Agrees Eq)
    (same : e'.registry = e.registry) (op : Operation) (s : Option (Session α)) :
    op.outcome e s = op.outcome e' s := by
  have fresh (port : UInt16) (d : Direction) : e'.freshLane port d = e.freshLane port d := by
    rw [Engine.freshLane, same, ← Engine.freshLane]
  cases op with
  | openSession key port =>
    simp only [outcome, Engine.openSession, fresh]
  | check key d segment =>
    refine Option.map_congr fun s _ => ?_
    exact (Engine.check_same agrees same s d segment).2.2
  | reset key => simp only [outcome, Engine.resetSession, fresh]
  | close key => rfl

theorem Operation.key_outcome {e : Engine α μ} {op : Operation} {before : Option (Session α)}
    (keyed : ∀ s, before = some s → s.key = op.key) {s : Session α}
    (known : op.outcome e before = some s) : s.key = op.key := by
  cases op with
  | openSession key port =>
    cases known
    rfl
  | check key d segment =>
    obtain ⟨s, opened, rfl⟩ := Option.map_eq_some_iff.mp known
    obtain ⟨-, kept, -⟩ := e.check_keeps s d segment
    exact kept.trans (keyed s opened)
  | reset key =>
    obtain ⟨s, opened, rfl⟩ := Option.map_eq_some_iff.mp known
    exact keyed s opened
  | close key => cases known

namespace SessionTable

def perform (t : SessionTable α μ) : Operation → SessionTable α μ
  | .openSession key port => t.openSession key port
  | .check key d segment => (t.check key d segment).2
  | .reset key => (t.reset key).2
  | .close key => (t.close key).2

def performAll (t : SessionTable α μ) (ops : List Operation) : SessionTable α μ :=
  ops.foldl perform t

/-- The cut and the marks that a check comes back with. -/
def answer (t : SessionTable α μ) (key : UInt64) (d : Direction) (segment : Segment) :
    UInt32 × Marks :=
  match (t.check key d segment).1 with
  | some r => (r.length, r.marks)
  | none => (0, segment.marks)

/-- What an operation comes back with if it is a check of the key. -/
def answer? (t : SessionTable α μ) (key : UInt64) : Operation → Option (UInt32 × Marks)
  | .check k d segment => if k = key then some (t.answer key d segment) else none
  | _ => none

/-- What the checks of a key come back with, one after the other. -/
def answers (t : SessionTable α μ) (key : UInt64) : List Operation → List (UInt32 × Marks)
  | [] => []
  | op :: ops => (t.answer? key op).toList ++ (t.perform op).answers key ops

/-- The operation gives the key an untouched session on the port. -/
def SetsUp (t : SessionTable α μ) (key : UInt64) (port : UInt16) (op : Operation) : Prop :=
  op = .openSession key port ∨ op = .reset key ∧ ∃ s, t.get? key = some s ∧ s.port = port

theorem performAll_append (t : SessionTable α μ) (a b : List Operation) :
    t.performAll (a ++ b) = (t.performAll a).performAll b :=
  List.foldl_append

variable {t t' : SessionTable α μ} {k : UInt64}

theorem get?_perform (t : SessionTable α μ) (op : Operation) (x : UInt64) :
    (t.perform op).get? x =
      if op.key = x then op.outcome t.engine (t.get? x) else t.get? x := by
  have idle {key : UInt64} (closed : t.get? key = none) :
      t.get? x = if key = x then none else t.get? x := by
    split
    · rename_i same
      rw [← same, closed]
    · rfl
  cases op with
  | openSession key port => exact get?_put t key x _
  | close key => exact get?_erase t key x
  | check key d segment =>
    show (t.check key d segment).2.get? x = if key = x then _ else t.get? x
    unfold check
    cases known : t.get? key with
    | none =>
      rw [idle known]
      split <;> rfl
    | some s =>
      simp only [get?_put]
      split
      · rename_i same
        rw [← same, known]
        rfl
      · rfl
  | reset key =>
    show (t.reset key).2.get? x = if key = x then _ else t.get? x
    unfold reset
    cases known : t.get? key with
    | none =>
      rw [idle known]
      split <;> rfl
    | some s =>
      simp only [get?_put]
      split
      · rename_i same
        rw [← same, known]
        rfl
      · rfl

theorem registry_perform (t : SessionTable α μ) (op : Operation) :
    (t.perform op).engine.registry = t.engine.registry := by
  cases op with
  | openSession key port => rfl
  | close key => rfl
  | reset key =>
    show (t.reset key).2.engine.registry = _
    unfold reset
    split <;> rfl
  | check key d segment =>
    show (t.check key d segment).2.engine.registry = _
    unfold check
    split
    · rename_i s known
      exact (t.engine.check_keeps s d segment).1
    · rfl

/-! ### One key in two tables -/

/-- The tables know the same of a key. -/
structure SameOn (k : UInt64) (t t' : SessionTable α μ) : Prop where
  registry : t'.engine.registry = t.engine.registry
  session : t.get? k = t'.get? k

theorem SameOn.perform_other (same : SameOn k t t') {op : Operation} (other : op.key ≠ k) :
    SameOn k (t.perform op) t' := by
  refine ⟨same.registry.trans (t.registry_perform op).symm, ?_⟩
  rw [get?_perform, if_neg other, same.session]

theorem SameOn.perform (same : SameOn k t t') (agrees : t.engine.registry.Agrees Eq)
    {op : Operation} (own : op.key = k) : SameOn k (t.perform op) (t'.perform op) := by
  refine ⟨?_, ?_⟩
  · rw [registry_perform, registry_perform, same.registry]
  · rw [get?_perform, get?_perform, if_pos own, if_pos own, same.session,
      op.outcome_same agrees same.registry]

theorem SameOn.answer (same : SameOn k t t') (agrees : t.engine.registry.Agrees Eq)
    (d : Direction) (segment : Segment) : t.answer k d segment = t'.answer k d segment := by
  unfold SessionTable.answer check
  rw [same.session]
  cases t'.get? k with
  | none => rfl
  | some s =>
    obtain ⟨length, marks, -⟩ := Engine.check_same agrees same.registry s d segment
    exact Prod.ext length marks

theorem answer?_other {op : Operation} (other : op.key ≠ k) : t.answer? k op = none := by
  cases op with
  | check key d segment => exact if_neg other
  | _ => rfl

theorem SameOn.answer? (same : SameOn k t t') (agrees : t.engine.registry.Agrees Eq)
    (op : Operation) : t.answer? k op = t'.answer? k op := by
  cases op with
  | check key d segment => simp only [SessionTable.answer?, same.answer agrees d segment]
  | _ => rfl

/-- What is done with other keys does not matter. -/
theorem SameOn.performAll (same : SameOn k t t') (agrees : t.engine.registry.Agrees Eq)
    (ops : List Operation) :
    t.answers k ops = t'.answers k (ops.filter (·.key = k)) ∧
      SameOn k (t.performAll ops) (t'.performAll (ops.filter (·.key = k))) := by
  induction ops generalizing t t' with
  | nil => exact ⟨rfl, same⟩
  | cons op ops ih =>
    have agrees' : (t.perform op).engine.registry.Agrees Eq := by
      rw [registry_perform]
      exact agrees
    by_cases own : op.key = k
    · obtain ⟨later, reached⟩ := ih (same.perform agrees own) agrees'
      rw [List.filter_cons_of_pos (by simpa using own)]
      refine ⟨?_, reached⟩
      simp only [answers, same.answer? agrees op, later]
    · obtain ⟨later, reached⟩ := ih (same.perform_other own) agrees'
      rw [List.filter_cons_of_neg (by simpa using own)]
      refine ⟨?_, reached⟩
      simp only [answers, answer?_other own, Option.toList_none, List.nil_append, later]

/-! ### Keys that are set up, and keys that are not open -/

/-- Each session lies under its own key. -/
def Keyed (t : SessionTable α μ) : Prop := ∀ key s, t.get? key = some s → s.key = key

theorem Keyed.perform (keyed : t.Keyed) (op : Operation) : (t.perform op).Keyed := by
  intro key s known
  rw [get?_perform] at known
  split at known
  · rename_i own
    subst own
    exact Operation.key_outcome (keyed op.key) known
  · exact keyed key s known

theorem keyed_performAll (e : Engine α μ) (ops : List Operation) :
    ((ofEngine e).performAll ops).Keyed := by
  have kept {t : SessionTable α μ} (keyed : t.Keyed) : (t.performAll ops).Keyed := by
    induction ops generalizing t with
    | nil => exact keyed
    | cons op ops ih => exact ih (keyed.perform op)
  apply kept
  intro key s known
  cases known

theorem registry_performAll (t : SessionTable α μ) (ops : List Operation) :
    (t.performAll ops).engine.registry = t.engine.registry := by
  induction ops generalizing t with
  | nil => rfl
  | cons op ops ih => exact (ih _).trans (t.registry_perform op)

theorem Keyed.setsUp (keyed : t.Keyed) {port : UInt16} {op : Operation}
    (setsUp : t.SetsUp k port op) :
    (t.perform op).get? k = some (t.engine.openSession k port) := by
  rw [get?_perform]
  rcases setsUp with rfl | ⟨rfl, s, opened, rfl⟩
  · exact if_pos rfl
  · have key := keyed k s opened
    rw [if_pos (show (Operation.reset k).key = k from rfl), opened]
    simp only [Operation.outcome, Option.map_some, Engine.resetSession, Engine.openSession, key]

theorem get?_performAll_closed (closed : t.get? k = none) {ops : List Operation}
    (unopened : ∀ port, .openSession k port ∉ ops) : (t.performAll ops).get? k = none := by
  induction ops generalizing t with
  | nil => exact closed
  | cons op ops ih =>
    refine ih ?_ fun port listed => unopened port (List.mem_cons_of_mem _ listed)
    rw [get?_perform, closed]
    split
    · rename_i own
      cases op with
      | openSession key port =>
        cases own
        exact absurd List.mem_cons_self (unopened port)
      | _ => rfl
    · rfl

theorem check_closed (closed : t.get? k = none) (d : Direction) (segment : Segment) :
    t.answer k d segment = (0, segment.marks) ∧ t.perform (.check k d segment) = t := by
  have unanswered : t.check k d segment = (none, t) := by
    unfold check
    rw [closed]
  refine ⟨?_, ?_⟩
  · rw [SessionTable.answer, unanswered]
  · show (t.check k d segment).2 = t
    rw [unanswered]

variable [Holds α Http.Progress]

/-- What becomes of a key from when it is set up is decided by what is done with that key from then
on, and a key that is not open is not touched by a check. -/
theorem performAll_isolated {e e' : Engine α Tally} (http : e.registry.IsHttp)
    (same : e'.registry = e.registry) (k : UInt64) :
    (∀ port before setup after, ((ofEngine e).performAll before).SetsUp k port setup →
      let t := (ofEngine e).performAll (before ++ [setup])
      let alone := (ofEngine e').openSession k port
      let later := after.filter (·.key = k)
      t.answers k after = alone.answers k later ∧
        (t.performAll after).get? k = (alone.performAll later).get? k) ∧
    ∀ before after, before = [] ∨ before.getLast? = some (.close k) →
      (∀ port, .openSession k port ∉ after) →
      let t := (ofEngine e).performAll (before ++ after)
      ∀ d segment, t.answer k d segment = (0, segment.marks) ∧
        t.perform (.check k d segment) = t := by
  constructor
  · intro port before setup after setsUp t alone later
    have registry : t.engine.registry = e.registry := registry_performAll _ _
    have agrees : t.engine.registry.Agrees Eq := by
      rw [registry]
      apply http.agrees
      rintro a b rfl
      rfl
    have opened : t.get? k = alone.get? k := by
      have reached : t.get? k =
          some (((ofEngine e).performAll before).engine.openSession k port) := by
        rw [show t = ((ofEngine e).performAll before).perform setup from performAll_append ..]
        exact (keyed_performAll e before).setsUp setsUp
      have first : alone.get? k = some (e'.openSession k port) := by
        show ((ofEngine e').put k _).get? k = _
        rw [get?_put, if_pos rfl]
        rfl
      simp only [reached, first, Engine.openSession, Engine.freshLane, registry_performAll, same]
      rfl
    have together : SameOn k t alone := ⟨same.trans registry.symm, opened⟩
    obtain ⟨answers, reached⟩ := together.performAll agrees after
    exact ⟨answers, reached.session⟩
  · intro before after ended unopened t d segment
    refine check_closed ?_ d segment
    rw [show t = ((ofEngine e).performAll before).performAll after from performAll_append ..]
    refine get?_performAll_closed ?_ unopened
    rcases ended with rfl | ended
    · rfl
    · obtain ⟨earlier, rfl⟩ := List.getLast?_eq_some_iff.mp ended
      rw [performAll_append]
      exact (get?_perform _ (.close k) k).trans (if_pos rfl)

/-- A session whose stream was left in the middle of a request is reset and sees another one, while
a second session runs through the same engine; a third was closed. -/
theorem performAll_isolated_reset :
    let e : Engine Memo Tally := .ofRegistry (Registry.httpOn 80)
    let segment (text : String) : Segment :=
      { data := text.toUTF8.toList, queued := text.toUTF8.size.toUInt32, seq := 5
        marks := .ofDirection .toServer }
    let before := [.openSession 1 80, .openSession 2 80, .openSession 3 80,
      .check 1 .toServer (segment "HEAD /"), .close 3]
    let after := [.check 2 .toServer (segment "PUT / HTTP/1.1\r\n\r\n"),
      .check 1 .toServer (segment "GET / HTTP/1.1\r\n\r\n")]
    let t := (ofEngine e).performAll (before ++ [.reset 1])
    let alone := (ofEngine e).openSession 1 80
    t.answers 1 after = [(18, { fromClient := true, head := true, tail := true })] ∧
      t.answers 1 after =
        alone.answers 1 [.check 1 .toServer (segment "GET / HTTP/1.1\r\n\r\n")] ∧
      ((ofEngine e).performAll before).answer 3 .toServer (segment "x") =
        (0, .ofDirection .toServer) := by
  intro e segment before after t alone
  have http : e.registry.IsHttp := Registry.isHttp_httpOn 80
  have same : e.registry = e.registry := rfl
  obtain ⟨setUp, -⟩ := performAll_isolated http same 1
  obtain ⟨-, closed⟩ := performAll_isolated http same 3
  have port : (((ofEngine e).performAll before).get? 1).map Session.port = some 80 := by
    decide +kernel
  obtain ⟨answers, -⟩ := setUp 80 before (.reset 1) after
    (.inr ⟨rfl, Option.map_eq_some_iff.mp port⟩)
  refine ⟨by decide +kernel, answers, ?_⟩
  exact (closed before [] (.inr rfl) (fun _ => nofun) .toServer (segment "x")).1

end SessionTable

end StreamFraming
