import StreamFraming.Proofs.GivenUp
import StreamFraming.Proofs.Isolation
import StreamFraming.Proofs.Noninterference

/-!
# What is left in lanes that were given up

A lane that is given up keeps no cells. But a HEAD request that ends from then on is noted in the
cells of the response side all the same, and the note stays there until the lane is set up or given
up anew (`SessionTable.actAll_leftovers`).
-/

namespace StreamFraming

open Http Holds

/-! ### Since something happened -/

section Since

variable {β : Type} {P Q : List β → β → Prop} {l : List β} {x : β}

/-- One item of a history does `P` to what came before it, and no item behind it does `Q`. -/
def Since (P Q : List β → β → Prop) (l : List β) : Prop :=
  ∃ before x after, l = before ++ x :: after ∧ P before x ∧
    ∀ mid y rest, after = mid ++ y :: rest → ¬ Q (before ++ x :: mid) y

theorem not_since_nil : ¬ Since P Q [] := by
  rintro ⟨before, x, after, whole, -⟩
  have lengths := congrArg List.length whole
  simp at lengths

theorem since_concat : Since P Q (l ++ [x]) ↔ P l x ∨ Since P Q l ∧ ¬ Q l x := by
  constructor
  · rintro ⟨before, y, after, whole, happened, kept⟩
    rcases split_concat whole with ⟨rfl, rfl, -⟩ | ⟨rest, rfl, rfl⟩
    · exact .inl happened
    · refine .inr ⟨⟨before, y, rest, rfl, happened, fun mid z more split => ?_⟩, kept rest x [] rfl⟩
      exact kept mid z (more ++ [x]) (by rw [split, List.append_assoc, List.cons_append])
  · rintro (happened | ⟨⟨before, y, after, rfl, happened, kept⟩, last⟩)
    · exact ⟨l, x, [], rfl, happened, fun mid z more split => by simp at split⟩
    · refine ⟨before, y, after ++ [x], by simp, happened, fun mid z more split => ?_⟩
      rcases split_concat split with ⟨rfl, rfl, -⟩ | ⟨rest, rfl, -⟩
      · exact last
      · exact kept mid z rest rfl

end Since

/-! ### What happens to tables -/

section Deeds

variable {α μ : Type}

/-- What happens to a table: an operation, or a lane that is given up from outside. -/
inductive Deed where
  | perform (op : Operation)
  | clear (key : UInt64) (d : Direction)
  deriving DecidableEq, Repr

namespace Deed

def key : Deed → UInt64
  | perform op => op.key
  | clear key _ => key

/-- What a deed makes of the session under its key. -/
def outcome (e : Engine α μ) : Deed → Option (Session α) → Option (Session α)
  | perform op, s => op.outcome e s
  | clear _ d, s => s.map (·.clear d)

theorem openSession_of_closed {e : Engine α μ} {deed : Deed} {s : Session α}
    (done : deed.outcome e none = some s) :
    ∃ key port, deed = .perform (.openSession key port) := by
  cases deed with
  | clear key d => cases done
  | perform op =>
    cases op with
    | openSession key port => exact ⟨key, port, rfl⟩
    | check key d segment | reset key | close key => cases done

theorem close_of_opened {e : Engine α μ} {deed : Deed} {s : Session α}
    (done : deed.outcome e (some s) = none) : ∃ key, deed = .perform (.close key) := by
  cases deed with
  | clear key d => cases done
  | perform op =>
    cases op with
    | close key => exact ⟨key, rfl⟩
    | openSession key port | check key d segment | reset key => cases done

end Deed

namespace SessionTable

/-- Give a lane up from outside, if its key is open. -/
def clear (t : SessionTable α μ) (key : UInt64) (d : Direction) : SessionTable α μ :=
  match t.get? key with
  | some s => t.put key (s.clear d)
  | none => t

def act (t : SessionTable α μ) : Deed → SessionTable α μ
  | .perform op => t.perform op
  | .clear key d => t.clear key d

def actAll (t : SessionTable α μ) (deeds : List Deed) : SessionTable α μ :=
  deeds.foldl act t

theorem get?_act (t : SessionTable α μ) (deed : Deed) (x : UInt64) :
    (t.act deed).get? x =
      if deed.key = x then deed.outcome t.engine (t.get? x) else t.get? x := by
  cases deed with
  | perform op => exact t.get?_perform op x
  | clear key d =>
    show (t.clear key d).get? x = if key = x then _ else t.get? x
    unfold clear
    by_cases own : key = x
    · subst own
      rw [if_pos rfl]
      cases known : t.get? key with
      | none => exact known
      | some s => exact (t.get?_put key key _).trans (if_pos rfl)
    · rw [if_neg own]
      cases t.get? key with
      | none => rfl
      | some s => exact (t.get?_put key x _).trans (if_neg own)

theorem registry_actAll (t : SessionTable α μ) (deeds : List Deed) :
    (t.actAll deeds).engine.registry = t.engine.registry := by
  induction deeds generalizing t with
  | nil => rfl
  | cons deed deeds ih =>
    refine (ih (t.act deed)).trans ?_
    cases deed with
    | perform op => exact t.registry_perform op
    | clear key d =>
      show (t.clear key d).engine.registry = _
      unfold clear
      split <;> rfl

end SessionTable

end Deeds

variable {α : Type} [Holds α Progress]

/-! ### HEAD requests that end -/

namespace Http

/-- The scan ends a HEAD request. -/
def endsHead (cap : UInt32) (c : Call α Tally) : Bool :=
  match claim (Progress.fresh c.sight.marks.fromClient) c.sight.own with
  | none => false
  | some p =>
    if p.flags.error || (cap != 0 && decide (cap.toUInt64 < c.memory.bytes)) then false
    else (p.scan c.sight.marks.fromClient c.window.bytes).headDone

variable {cap : UInt32} {c : Call α Tally}

theorem peer_scan (scanned : c.report = scan cap c.memory c.sight c.window.bytes) :
    c.report.peer = if endsHead cap c then expectNoBody c.sight.peer else c.sight.peer := by
  rw [scanned]
  cases claimed : claim (Progress.fresh c.sight.marks.fromClient) c.sight.own with
  | none => simp only [scan, endsHead, claimed, Report.plain, Bool.false_eq_true, if_false]
  | some p =>
    simp only [scan, endsHead, claimed]
    split <;> rfl

/-- A response side that was told of a HEAD request and knows nothing else. -/
def bodiless : Progress := Progress.response.mark fun f => { f with noBody := true }

theorem expectNoBody_cell (p : Option Progress) :
    expectNoBody (p.map (keep (α := α))) =
      some (keep ((p.getD Progress.response).mark fun f => { f with noBody := true })) := by
  rw [expectNoBody, claim_cell]

end Http

namespace Field

variable {q : Inquiry α Tally} {cap : UInt32} {calls : List (Call α Tally)} {f : Field α Tally}

/-- In the cells of the opposite lane nothing but HEAD requests that end are noted. -/
theorem contest_told (http : q.registry.OnlyHttp cap) {p : Option Progress}
    (vacant : p = none ∨ p = some bodiless)
    (kept : f.peer = if (calls ++ f.calls.reverse).any (endsHead cap) then cells (some bodiless)
      else cells p) (idx : UInt32) (data : List UInt8) :
    let g := (contest q idx data f).2
    g.peer = if (calls ++ g.calls.reverse).any (endsHead cap) then cells (some bodiless)
      else cells p := by
  refine contest_keeps (I := fun f => f.peer =
    if (calls ++ f.calls.reverse).any (endsHead cap) then cells (some bodiless) else cells p)
    ?_ ?_ ?_ ?_ ?_ kept
  · intro w id s f known kept
    obtain ⟨rfl, rfl⟩ := http.known known
    let call := (Http.scanner cap : Scanner α Tally).look
      ((f.memories.get? 0).getD (Http.scanner cap : Scanner α Tally).memory) 0 q.marks f.lane.slots
      f.peer w
    -- what is held already is nothing or the note, and a second note changes nothing
    obtain ⟨r, held, told⟩ : ∃ r, f.peer = cells r ∧ (r = none ∨ r = some bodiless) := by
      rw [kept]
      split
      · exact ⟨_, rfl, .inr rfl⟩
      · exact ⟨_, rfl, vacant⟩
    have peer : call.report.peer =
        if endsHead cap call then expectNoBody (f.peer.get? 0) else f.peer.get? 0 := peer_scan rfl
    have more : (calls ++ (call :: f.calls).reverse).any (endsHead cap) =
        ((calls ++ f.calls.reverse).any (endsHead cap) || endsHead cap call) := by
      simp [Bool.or_assoc]
    show f.peer.update 0 call.report.peer =
      if (calls ++ (call :: f.calls).reverse).any (endsHead cap) then _ else _
    rw [more, peer]
    cases endsHead cap call with
    | true =>
      rw [if_pos rfl, Bool.or_true, if_pos rfl, held, get?_cells_zero, expectNoBody_cell,
        update_cells_some]
      rcases told with rfl | rfl <;> rfl
    | false =>
      rw [if_neg Bool.false_ne_true, Bool.or_false, f.peer.update_get? 0]
      exact kept
  · exact fun f id kept => kept
  · exact fun f id kept => kept
  · exact fun f status target _ kept => kept
  · exact fun f target kept => kept

end Field

namespace Engine

variable {e : Engine α Tally} {s : Session α} {cap : UInt32}

theorem check_told (http : e.registry.OnlyHttp cap) (d : Direction) {p : Option Progress}
    (vacant : p = none ∨ p = some bodiless) (held : (s.lane d.opposite).slots = cells p)
    (segment : Segment) :
    let r := e.check s d segment
    (r.session.lane d.opposite).slots =
      if r.calls.any (endsHead cap) then cells (some bodiless) else cells p := by
  have kept := check_invariant e s d segment []
    (G := fun _ peer calls =>
      peer = if calls.any (endsHead cap) then cells (some bodiless) else cells p)
    (fun _ _ kept => kept) (fun kept => kept)
    (fun idx data f kept => Field.contest_told http vacant kept idx data) held
  exact kept

end Engine

/-! ### Sessions -/

namespace Deed

/-- A HEAD request ends while the response side is given up. -/
def Tells (cap : UInt32) (e : Engine α Tally) (s : Session α) (d : Direction) : Deed → Prop
  | perform (.check _ .toServer segment) =>
    d = .toClient ∧ (s.lane d).status = .abort ∧
      (e.check s .toServer segment).calls.any (endsHead cap) = true
  | _ => False

/-- The deed sets the lane up, or gives it up from outside or for a gap. -/
def Releases (s : Session α) (d : Direction) : Deed → Prop
  | perform (.check _ d' segment) =>
    d' = d ∧ (s.lane d).arrival segment.seq segment.data = .gap
  | perform _ => True
  | clear _ d' => d' = d

end Deed

/-- A lane that was given up holds no cells, unless it was told of a HEAD request since. -/
structure Session.Accounts (s : Session α) (d : Direction) (told : Prop) : Prop where
  aborted : told → (s.lane d).status = .abort
  noted : told → d = .toClient ∧ (s.lane d).slots = cells (some bodiless)
  vacant : (s.lane d).status = .abort → ¬ told → (s.lane d).slots = .empty

namespace Session.Accounts

variable {e : Engine α Tally} {s s' : Session α} {d : Direction} {cap : UInt32} {told : Prop}

theorem of_untold (untold : ¬ told)
    (vacant : (s.lane d).status = .abort → (s.lane d).slots = .empty) : s.Accounts d told :=
  ⟨fun h => absurd h untold, fun h => absurd h untold, fun aborted _ => vacant aborted⟩

theorem of_iff {told' : Prop} (accounts : s.Accounts d told) (same : told ↔ told') :
    s.Accounts d told' := by
  rwa [← propext same]

theorem check_own (accounts : s.Accounts d told) (segment : Segment) :
    (e.check s d segment).session.Accounts d
      (told ∧ (s.lane d).arrival segment.seq segment.data ≠ .gap) := by
  by_cases aborted : (s.lane d).status = .abort
  · obtain ⟨emptied, kept⟩ := e.slots_check_aborted aborted segment
    refine ⟨fun _ => (e.check_aborted aborted segment).1, ?_, ?_⟩
    · rintro ⟨told, other⟩
      obtain ⟨side, noted⟩ := accounts.noted told
      exact ⟨side, (kept other).trans noted⟩
    · intro _ untold
      by_cases gap : (s.lane d).arrival segment.seq segment.data = .gap
      · exact emptied gap
      · refine (kept gap).trans (accounts.vacant aborted ?_)
        exact fun told => untold ⟨told, gap⟩
  · refine of_untold ?_ (e.slots_given_up s d segment aborted)
    exact fun told => aborted (accounts.aborted told.1)

theorem check_toServer (http : e.registry.OnlyHttp cap) (accounts : s.Accounts .toClient told)
    (segment : Segment) :
    let r := e.check s .toServer segment
    r.session.Accounts .toClient
      ((s.lane .toClient).status = .abort ∧ r.calls.any (endsHead cap) = true ∨ told) := by
  intro r
  obtain ⟨-, -, -, slots, opposite⟩ := e.check_keeps s .toServer segment
  have status : (r.session.lane .toClient).status = (s.lane .toClient).status := by
    show (r.session.lane Direction.toServer.opposite).status = _
    rw [opposite]
    rfl
  by_cases aborted : (s.lane .toClient).status = .abort
  · obtain ⟨p, held, vacant, known⟩ : ∃ p, (s.lane .toClient).slots = cells p ∧
        (p = none ∨ p = some bodiless) ∧ (told ↔ p = some bodiless) := by
      by_cases told : told
      · exact ⟨some bodiless, (accounts.noted told).2, .inr rfl, fun _ => rfl, fun _ => told⟩
      · exact ⟨none, (accounts.vacant aborted told).trans cells_none.symm, .inl rfl,
          fun wrong => absurd wrong told, nofun⟩
    have after : (r.session.lane .toClient).slots =
        if r.calls.any (endsHead cap) then cells (some bodiless) else cells p :=
      Engine.check_told http .toServer vacant held segment
    refine ⟨fun _ => status.trans aborted, fun told => ⟨rfl, ?_⟩, fun _ untold => ?_⟩
    · rw [after]
      rcases told with ⟨-, ended⟩ | told
      · exact if_pos ended
      · rw [known.mp told, ite_self]
    · have quiet : ¬ r.calls.any (endsHead cap) = true :=
        fun ended => untold (.inl ⟨aborted, ended⟩)
      rw [after, if_neg quiet]
      rcases vacant with rfl | rfl
      · exact cells_none
      · exact absurd (.inr (known.mpr rfl)) untold
  · refine of_untold ?_ fun gone => absurd (status.symm.trans gone) aborted
    rintro (⟨gone, -⟩ | told)
    · exact aborted gone
    · exact aborted (accounts.aborted told)

theorem check_toClient (http : e.registry.OnlyHttp cap)
    (response : IsResponse ((s.lane .toClient).slots.get? 0))
    (accounts : s.Accounts .toServer told) (segment : Segment) :
    (e.check s .toClient segment).session.Accounts .toServer False := by
  have same := (Engine.check_response http response segment).2
  have untold : ¬ told := fun told => nomatch (accounts.noted told).1
  refine of_untold id fun aborted => ?_
  rw [same] at aborted ⊢
  exact accounts.vacant aborted untold

theorem clear (accounts : s.Accounts d told) (d' : Direction) :
    (s.clear d').Accounts d (told ∧ d' ≠ d) := by
  by_cases own : d' = d
  · subst own
    exact of_untold (fun told => told.2 rfl) fun _ => congrArg Lane.slots (s.lane_setLane_self d' _)
  · obtain rfl := Direction.eq_opposite_of_ne (Ne.symm own)
    have same : (s.clear d').lane d'.opposite = s.lane d'.opposite :=
      s.lane_setLane_opposite d' _
    refine of_iff ⟨?_, ?_, ?_⟩ ⟨fun told => ⟨told, own⟩, And.left⟩
    · rw [same]
      exact accounts.aborted
    · rw [same]
      exact accounts.noted
    · rw [same]
      exact accounts.vacant

theorem check (http : e.registry.OnlyHttp cap)
    (response : IsResponse ((s.lane .toClient).slots.get? 0)) (accounts : s.Accounts d told)
    (key : UInt64) (d' : Direction) (segment : Segment) :
    let deed : Deed := .perform (.check key d' segment)
    (e.check s d' segment).session.Accounts d
      (deed.Tells cap e s d ∨ told ∧ ¬ deed.Releases s d) := by
  by_cases own : d' = d
  · subst own
    refine (accounts.check_own segment).of_iff ⟨?_, ?_⟩
    · rintro ⟨told, other⟩
      exact .inr ⟨told, fun gap => other gap.2⟩
    · rintro (tells | ⟨told, kept⟩)
      · cases d' with
        | toServer => cases tells.1
        | toClient => exact tells.elim
      · exact ⟨told, fun gap => kept ⟨rfl, gap⟩⟩
  · obtain rfl := Direction.eq_opposite_of_ne (Ne.symm own)
    cases d' with
    | toServer =>
      refine (accounts.check_toServer http segment).of_iff ⟨?_, ?_⟩
      · rintro (⟨aborted, ended⟩ | told)
        · exact .inl ⟨rfl, aborted, ended⟩
        · exact .inr ⟨told, fun gap => nomatch gap.1⟩
      · rintro (⟨-, aborted, ended⟩ | ⟨told, -⟩)
        · exact .inl ⟨aborted, ended⟩
        · exact .inr told
    | toClient =>
      refine (accounts.check_toClient http response segment).of_iff ⟨False.elim, ?_⟩
      rintro (tells | ⟨told, -⟩)
      · exact tells
      · cases (accounts.noted told).1

/-- What a deed does to the account. -/
theorem outcome (http : e.registry.OnlyHttp cap)
    (response : IsResponse ((s.lane .toClient).slots.get? 0)) (accounts : s.Accounts d told)
    {deed : Deed} (done : deed.outcome e (some s) = some s') :
    s'.Accounts d (deed.Tells cap e s d ∨ told ∧ ¬ deed.Releases s d) := by
  cases deed with
  | clear key d' =>
    cases done
    exact (accounts.clear d').of_iff ⟨.inr, fun told' => told'.resolve_left id⟩
  | perform op =>
    cases op with
    | openSession key port | reset key =>
      cases done
      refine of_untold ?_ fun aborted => ?_
      · rintro (told | ⟨-, kept⟩)
        · exact told
        · exact kept trivial
      · cases d <;> cases aborted
    | close key => cases done
    | check key d' segment =>
      cases done
      exact accounts.check http response key d' segment

end Session.Accounts

/-- Whatever is done with a session, its response side holds no request. -/
theorem Deed.response_outcome {e : Engine α Tally} {cap : UInt32}
    (http : e.registry.OnlyHttp cap) {deed : Deed} {before : Option (Session α)} {s : Session α}
    (kept : ∀ s, before = some s → IsResponse ((s.lane .toClient).slots.get? 0))
    (done : deed.outcome e before = some s) : IsResponse ((s.lane .toClient).slots.get? 0) := by
  cases deed with
  | clear key d =>
    obtain ⟨s, opened, rfl⟩ := Option.map_eq_some_iff.mp done
    cases d with
    | toServer => exact kept s opened
    | toClient => exact isResponse_none
  | perform op =>
    cases op with
    | openSession key port =>
      cases done
      exact isResponse_none
    | reset key =>
      obtain ⟨s, -, rfl⟩ := Option.map_eq_some_iff.mp done
      exact isResponse_none
    | close key => cases done
    | check key d segment =>
      obtain ⟨s, opened, rfl⟩ := Option.map_eq_some_iff.mp done
      cases d with
      | toServer => exact Engine.check_request http (kept s opened) segment
      | toClient => exact (Engine.check_response http (kept s opened) segment).1

/-! ### Tables -/

namespace SessionTable

/-- The deed is one of the key's, and tells its lane of a HEAD request. -/
def Tells (t : SessionTable α Tally) (cap : UInt32) (key : UInt64) (d : Direction)
    (deed : Deed) : Prop :=
  deed.key = key ∧ ∃ s, t.get? key = some s ∧ deed.Tells cap t.engine s d

/-- The deed is one of the key's, and sets its lane up or gives it up anew. -/
def Releases {μ : Type} (t : SessionTable α μ) (key : UInt64) (d : Direction) (deed : Deed) :
    Prop :=
  deed.key = key ∧ ∃ s, t.get? key = some s ∧ deed.Releases s d

variable {e : Engine α Tally} {cap : UInt32}

/-- The response side of a key was told of a HEAD request while it was given up, and was not set up
or given up anew since. -/
def ToldSince (e : Engine α Tally) (cap : UInt32) (key : UInt64) (d : Direction)
    (deeds : List Deed) : Prop :=
  Since (fun before => ((ofEngine e).actAll before).Tells cap key d)
    (fun before => ((ofEngine e).actAll before).Releases key d) deeds

/-- What is known of a key's lane: no request is in its response side, and whether it was told of a
HEAD request since it was given up. -/
structure Accounts (t : SessionTable α Tally) (key : UInt64) (d : Direction) (told : Prop) :
    Prop where
  response : ∀ s, t.get? key = some s → IsResponse ((s.lane .toClient).slots.get? 0)
  opened : ∀ s, t.get? key = some s → s.Accounts d told
  closed : t.get? key = none → ¬ told

theorem Accounts.act {t : SessionTable α Tally} {key : UInt64} {d : Direction} {told : Prop}
    (http : t.engine.registry.OnlyHttp cap) (accounts : t.Accounts key d told) (deed : Deed) :
    (t.act deed).Accounts key d (t.Tells cap key d deed ∨ told ∧ ¬ t.Releases key d deed) := by
  by_cases own : deed.key = key
  · have reached : (t.act deed).get? key = deed.outcome t.engine (t.get? key) :=
      (t.get?_act deed key).trans (if_pos own)
    have response (s : Session α) (done : (t.act deed).get? key = some s) :
        IsResponse ((s.lane .toClient).slots.get? 0) :=
      Deed.response_outcome http accounts.response (reached.symm.trans done)
    cases before : t.get? key with
    | none =>
      have untold : ¬ (t.Tells cap key d deed ∨ told ∧ ¬ t.Releases key d deed) := by
        rintro (⟨-, s, known, -⟩ | ⟨told, -⟩)
        · rw [before] at known
          cases known
        · exact accounts.closed before told
      refine ⟨response, fun s done => ?_, fun _ => untold⟩
      rw [reached, before] at done
      obtain ⟨key, port, rfl⟩ := Deed.openSession_of_closed done
      cases done
      refine .of_untold untold fun aborted => ?_
      cases d <;> cases aborted
    | some s =>
      refine ⟨response, fun s' done => ?_, fun done => ?_⟩
      · rw [reached, before] at done
        refine ((accounts.opened s before).outcome http (accounts.response s before) done).of_iff ?_
        rw [Tells, Releases]
        simp only [own, before, Option.some.injEq, exists_eq_left', true_and]
      · rw [reached, before] at done
        obtain ⟨key', rfl⟩ := Deed.close_of_opened done
        rintro (⟨-, s, -, tells⟩ | ⟨-, kept⟩)
        · exact tells
        · exact kept ⟨own, s, before, trivial⟩
  · have same : (t.act deed).get? key = t.get? key := (t.get?_act deed key).trans (if_neg own)
    have told_iff : told ↔ t.Tells cap key d deed ∨ told ∧ ¬ t.Releases key d deed := by
      refine ⟨fun told => .inr ⟨told, fun release => own release.1⟩, ?_⟩
      rintro (tells | ⟨told, -⟩)
      · exact absurd tells.1 own
      · exact told
    rw [← propext told_iff]
    refine ⟨?_, ?_, ?_⟩
    · rw [same]
      exact accounts.response
    · rw [same]
      exact accounts.opened
    · rw [same]
      exact accounts.closed

theorem accounts_actAll (http : e.registry.OnlyHttp cap) (deeds : List Deed) (key : UInt64)
    (d : Direction) :
    ((ofEngine e).actAll deeds).Accounts key d (ToldSince e cap key d deeds) := by
  induction deeds using List.reverseRecOn with
  | nil => exact ⟨nofun, nofun, fun _ => not_since_nil⟩
  | append_singleton deeds deed ih =>
    have http' : ((ofEngine e).actAll deeds).engine.registry.OnlyHttp cap := by
      rw [registry_actAll]
      exact http
    have last : (ofEngine e).actAll (deeds ++ [deed]) = ((ofEngine e).actAll deeds).act deed :=
      List.foldl_append
    rw [last, ToldSince, propext since_concat]
    exact ih.act http' deed

/-- A lane that was given up holds something exactly when it is the response side and a HEAD request
ended on the request side since, unless a gap or a call from outside gave the lane up again behind
that; what it holds then is the note of the request. -/
theorem actAll_leftovers (http : e.registry.OnlyHttp cap) (deeds : List Deed) (key : UInt64)
    (d : Direction) {s : Session α} (opened : ((ofEngine e).actAll deeds).get? key = some s)
    (aborted : (s.lane d).status = .abort) :
    ((s.lane d).slots ≠ .empty ↔ ToldSince e cap key d deeds) ∧
      ((s.lane d).slots ≠ .empty → d = .toClient ∧ (s.lane d).slots = cells (some bodiless)) := by
  have accounts := (accounts_actAll http deeds key d).opened s opened
  have told (used : (s.lane d).slots ≠ .empty) : ToldSince e cap key d deeds := by
    by_contra untold
    exact used (accounts.vacant aborted untold)
  refine ⟨⟨told, fun told empty => ?_⟩, fun used => accounts.noted (told used)⟩
  have held := congrArg (Slots.get? · 0) ((accounts.noted told).2.symm.trans empty)
  rw [get?_cells_zero, Slots.get?_empty] at held
  cases held

/-- A response breaks off with a gap. The HEAD request behind it leaves its note in the lane that is
given up, until that is given up from outside as well. -/
theorem actAll_leftovers_gap :
    let e : Engine Memo Tally := .ofRegistry (Registry.httpOn 80)
    let check (d : Direction) (text : String) (queued seq : UInt32) : Deed :=
      .perform (.check 1 d { data := text.toUTF8.toList, queued, seq, marks := .ofDirection d })
    let deeds := [.perform (.openSession 1 80), check .toClient "HTTP/1.1 200 OK\r\n" 17 0,
      check .toClient "x" 18 20, check .toServer "HEAD / HTTP/1.1\r\n\r\n" 19 0]
    let cleared := deeds ++ [.clear 1 .toClient]
    ∃ s s', ((ofEngine e).actAll deeds).get? 1 = some s ∧
      ((ofEngine e).actAll cleared).get? 1 = some s' ∧
      (s.lane .toClient).status = .abort ∧ (s'.lane .toClient).status = .abort ∧
      (s.lane .toClient).slots = cells (some bodiless) ∧ (s'.lane .toClient).slots = .empty ∧
      ToldSince e 0 1 .toClient deeds ∧ ¬ ToldSince e 0 1 .toClient cleared := by
  intro e check deeds cleared
  have http : e.registry.OnlyHttp 0 := (Registry.isHttp_httpOn 80).only
  have found : (((ofEngine e).actAll deeds).get? 1).map (fun s => (s.lane .toClient).status) =
      some .abort := by decide +kernel
  have held : (((ofEngine e).actAll deeds).get? 1).map (fun s => (s.lane .toClient).slots) ≠
      some .empty := by decide +kernel
  have found' : (((ofEngine e).actAll cleared).get? 1).map
      (fun s => ((s.lane .toClient).status, (s.lane .toClient).slots)) = some (.abort, .empty) := by
    decide +kernel
  obtain ⟨s, opened, aborted⟩ := Option.map_eq_some_iff.mp found
  obtain ⟨s', opened', after⟩ := Option.map_eq_some_iff.mp found'
  obtain ⟨aborted', empty⟩ := Prod.mk.inj after
  rw [opened] at held
  have used : (s.lane .toClient).slots ≠ .empty := fun empty => held (congrArg some empty)
  obtain ⟨told, noted⟩ := actAll_leftovers http deeds 1 .toClient opened aborted
  obtain ⟨told', -⟩ := actAll_leftovers http cleared 1 .toClient opened' aborted'
  exact ⟨s, s', opened, opened', aborted, aborted', (noted used).2, empty, told.mp used,
    fun since => told'.mpr since empty⟩

end SessionTable

end StreamFraming
