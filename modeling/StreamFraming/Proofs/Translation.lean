import StreamFraming.Proofs.Checks

/-!
# Translated sequence numbers

Sequence numbers have no zero of their own. A session in which every lane that has begun lies `c`
further along the circle answers segments that come `c` further along as the session itself answers
them in their place: what is compared are differences, and what is moved is moved by lengths
(`Engine.check_translate`).
-/

namespace StreamFraming

variable {α μ : Type}

/-! ### What is moved along -/

namespace Lane

/-- The lane, `c` further along. -/
def advance (c : UInt32) (l : Lane α) : Lane α :=
  { l with expected := l.expected + c, origin := l.origin + c }

/-- The lane, `c` further along once it has a place. -/
def translate (c : UInt32) (l : Lane α) : Lane α :=
  if l.status = .start then l else l.advance c

end Lane

def Session.translate (c : UInt32) (s : Session α) : Session α :=
  { s with toServer := s.toServer.translate c, toClient := s.toClient.translate c }

def Segment.translate (c : UInt32) (segment : Segment) : Segment :=
  { segment with seq := segment.seq + c }

/-- The same bytes, `c` further along. -/
def Call.translate (c : UInt32) (call : Call α μ) : Call α μ :=
  { call with window := { call.window with seq := call.window.seq + c } }

def Reply.translate (c : UInt32) (r : Reply α μ) : Reply α μ :=
  { r with session := r.session.translate c, calls := r.calls.map (Call.translate c) }

def Field.advance (c : UInt32) (f : Field α μ) : Field α μ :=
  { f with lane := f.lane.advance c, calls := f.calls.map (Call.translate c) }

def Arrival.translate (c : UInt32) : Arrival α → Arrival α
  | .gap => .gap
  | .stale => .stale
  | .fresh l data => .fresh (l.advance c) data

/-! ### Arrival and cuts -/

namespace Lane

variable (c : UInt32) (l : Lane α)

@[simp] theorem status_translate : (l.translate c).status = l.status := by
  unfold translate
  split <;> rfl

theorem translate_of_started (started : l.status ≠ .start) : l.translate c = l.advance c :=
  if_neg started

theorem translate_slots (slots : Slots α) :
    { l with slots }.translate c = { l.translate c with slots } := by
  unfold translate
  simp only
  split <;> rfl

theorem translate_abort (started : l.status ≠ .start) :
    l.abort.translate c = (l.translate c).abort := by
  rw [l.translate_of_started c started, l.abort.translate_of_started c nofun]
  rfl

theorem arrival_translate (seq : UInt32) (data : List UInt8) :
    (l.translate c).arrival (seq + c) data = (l.arrival seq data).translate c := by
  by_cases start : l.status = .start
  · rw [translate, if_pos start, arrival, arrival, if_pos start, if_pos start]
    rfl
  · have ends : seq + c + Length.ofNat data.length = seq + Length.ofNat data.length + c := by grind
    rw [l.translate_of_started c start, arrival, arrival, if_neg start]
    simp only [advance, start, if_false, ends, Serial.after_add_right, Serial.atOrBefore_add_right,
      Serial.before_add_right, Serial.sub_add_right]
    split
    · rfl
    · split
      · rfl
      · split <;> rfl

theorem cutIf_advance (cut? : Option Cut) (total : UInt32) (marks : Marks) :
    (l.advance c).cutIf cut? total marks =
      let r := l.cutIf cut? total marks
      (r.1, r.2.1, r.2.2.advance c) := by
  have moved (length : UInt32) : l.origin + c + length = l.origin + length + c := by grind
  cases cut? with
  | none => rfl
  | some kind =>
    cases kind with
    | abort => rfl
    | boundary =>
      simp only [cutIf, cut, advance, moved]
      split <;> rfl
    | bound =>
      simp only [cutIf, cut, advance, moved]
      split <;> rfl

theorem conclude_advance (v : Verdict) : (l.advance c).conclude v = (l.conclude v).advance c := by
  unfold conclude advance
  simp only
  split
  · rfl
  · cases v <;> rfl

end Lane

/-! ### Races and pursuits -/

namespace Field

variable (c : UInt32) (q : Inquiry α μ) (f : Field α μ)

theorem consult_advance (w : Window) (id : Nat) (s : Scanner α μ) :
    (f.advance c).consult q { w with seq := w.seq + c } id s =
      ((f.consult q w id s).1, (f.consult q w id s).2.advance c) := rfl

/-- Scanners see the bytes of a window and not its place. -/
theorem pursue_advance (idx : UInt32) (data : List UInt8) :
    pursue q idx data (f.advance c) =
      ((pursue q idx data f).1, (pursue q idx data f).2.advance c) := by
  obtain ⟨cut, reached⟩ : (pursue q idx data f).1 = (pursue q idx data (f.advance c)).1 ∧
      (pursue q idx data (f.advance c)).2 = (pursue q idx data f).2.advance c := by
    refine pursue_related (R := fun f g => g = f.advance c)
      (W := fun w w' => w' = { w with seq := w.seq + c }) rfl ?_ ?_ ?_ rfl rfl ?_ ?_ ?_ ?_ ?_ rfl
    · rintro w _ id s f _ - rfl rfl
      rw [consult_advance]
      exact ⟨rfl, rfl⟩
    · rintro f _ id rfl
      rfl
    · rintro f _ id rfl
      rfl
    · rintro f _ idx data rfl
      simp only [advance, Lane.advance, Window.mk.injEq, and_true]
      grind
    · rintro f _ rfl
      exact ⟨rfl, rfl, rfl⟩
    · rintro f _ v rfl
      simp only [advance, Lane.conclude_advance]
    · rintro f _ target rfl
      rfl
    · rintro f _ rfl
      rfl
  exact Prod.ext cut.symm reached

end Field

/-! ### Checks -/

namespace Session

variable (c : UInt32) (s : Session α) (d : Direction)

theorem lane_translate : (s.translate c).lane d = (s.lane d).translate c := by
  cases d <;> rfl

theorem translate_setLane (l : Lane α) :
    (s.setLane d l).translate c = (s.translate c).setLane d (l.translate c) := by
  cases d <;> rfl

/-- What a check of a lane makes of a session. -/
theorem translate_replied {l : Lane α} (started : l.status ≠ .start) (slots : Slots α)
    (raised : List Anomaly) :
    Session.translate c
        { (s.setLane d l).setLane d.opposite { s.lane d.opposite with slots } with raised } =
      { ((s.translate c).setLane d (l.advance c)).setLane d.opposite
          { (s.translate c).lane d.opposite with slots } with raised } := by
  have moved := l.translate_of_started c started
  cases d
  · simp only [translate, setLane, lane, Direction.opposite, Lane.translate_slots, moved]
  · simp only [translate, setLane, lane, Direction.opposite, Lane.translate_slots, moved]

/-- A session without a place anywhere stays as it is. -/
theorem translate_of_untouched (untouched : ∀ d, (s.lane d).status = .start) :
    s.translate c = s := by
  have server : s.toServer.translate c = s.toServer := if_pos (untouched .toServer)
  have client : s.toClient.translate c = s.toClient := if_pos (untouched .toClient)
  rw [translate, server, client]

end Session

namespace Engine

variable (c : UInt32) (e : Engine α μ) (s : Session α) (d : Direction)

theorem evaluate_translate {lane : Lane α} (started : lane.status ≠ .start) (data : List UInt8)
    (segment : Segment) :
    e.evaluate (s.translate c) d (lane.advance c) data (segment.translate c) =
      (e.evaluate s d lane data segment).translate c := by
  have opened : e.opening (s.translate c) d (lane.advance c) data.length =
      (e.opening s d lane data.length).advance c := by
    have cells : ((s.translate c).lane d.opposite).slots = (s.lane d.opposite).slots := by
      rw [Session.lane_translate, Lane.translate]
      split <;> rfl
    have place : lane.expected + c + data.length.toUInt32 =
        lane.expected + data.length.toUInt32 + c := by grind
    simp only [opening, cells, Field.advance, Lane.advance, Lane.read, place, List.map_nil]
  have pursued : e.pursuit (s.translate c) d (lane.advance c) data (segment.translate c) =
      ((e.pursuit s d lane data segment).1, (e.pursuit s d lane data segment).2.advance c) := by
    rw [pursuit, opened]
    exact Field.pursue_advance c (e.inquiry d segment) _ _ data
  have kept : (e.pursuit s d lane data segment).2.lane.status ≠ .start :=
    Field.started_pursue started _ _
  simp only [evaluate_eq, pursued]
  generalize e.pursuit s d lane data segment = result at kept
  obtain ⟨cut?, f⟩ := result
  have due' : due (e.inquiry d (segment.translate c)) (cut?, f.advance c) =
      due (e.inquiry d segment) (cut?, f) := rfl
  have landed : (f.lane.cutIf (due (e.inquiry d segment) (cut?, f)) segment.queued
      segment.marks).2.2.status ≠ .start := by
    rw [Lane.status_cutIf]
    exact kept
  simp only [due', show (f.advance c).lane = f.lane.advance c from rfl,
    show (segment.translate c).queued = segment.queued from rfl,
    show (segment.translate c).marks = segment.marks from rfl, Lane.cutIf_advance]
  generalize f.lane.cutIf (due (e.inquiry d segment) (cut?, f)) segment.queued segment.marks =
    cut at landed
  obtain ⟨length, marks, lane⟩ := cut
  simp only [Reply.translate, Reply.mk.injEq, true_and, List.map_reverse]
  exact ⟨rfl, (s.translate_replied c d landed _ _).symm, rfl⟩

/-- A check `c` further along comes to the same, `c` further along. -/
theorem check_translate (segment : Segment) :
    e.check (s.translate c) d (segment.translate c) = (e.check s d segment).translate c := by
  have arrived := (s.lane d).arrival_translate c segment.seq segment.data
  unfold check
  rw [Session.lane_translate, show (segment.translate c).seq = segment.seq + c from rfl,
    show (segment.translate c).data = segment.data from rfl, arrived]
  cases found : (s.lane d).arrival segment.seq segment.data with
  | gap =>
    have started : (s.lane d).status ≠ .start := by
      intro start
      rw [Lane.arrival, if_pos start] at found
      cases found
    simp only [Arrival.translate, Reply.translate, Session.translate_setLane,
      Lane.translate_abort _ _ started, List.map_nil]
  | stale => rfl
  | fresh lane data =>
    have started : lane.status ≠ .start := by
      rw [Lane.arrival_fresh found]
      exact Status.begun_ne_start _
    exact e.evaluate_translate c s d started data segment

theorem checkAll_advanced (run : List (Direction × Segment)) :
    e.checkAll (s.translate c) (run.map fun x => (x.1, x.2.translate c)) =
      (e.checkAll s run).map (Reply.translate c) := by
  induction run generalizing e s with
  | nil => rfl
  | cons x run ih =>
    simp only [checkAll, List.map_cons, check_translate]
    exact congrArg _ (ih _ _)

variable {s} in
/-- From a fresh session on, adding `c` to the sequence number of every check adds it to the places
of the lanes that have begun and of the windows that scanners see, and changes nothing else that a
check leaves or answers. -/
theorem checkAll_translate (untouched : ∀ d, (s.lane d).status = .start)
    (run : List (Direction × Segment)) :
    e.checkAll s (run.map fun x => (x.1, x.2.translate c)) =
      (e.checkAll s run).map (Reply.translate c) := by
  have moved := e.checkAll_advanced c s run
  rwa [s.translate_of_untouched c untouched] at moved

/-- A line whose bytes lie on both sides of the highest sequence number, bytes that come again, and
a gap behind them. -/
theorem checkAll_translate_wrapped :
    let lines : Scanner Memo Tally := Delimiter.scanner "lines" 0x0a {}
    let registry : Registry Memo Tally :=
      { scanners := [lines], bindings := [(⟨7, .toServer⟩, { scanners := .singleton 0 })] }
    let e : Engine Memo Tally := .ofRegistry registry
    let s := e.openSession 1 7
    let segment (text : String) (queued seq : UInt32) : Direction × Segment :=
      (.toServer, { data := text.toUTF8.toList, queued, seq, marks := .ofDirection .toServer })
    let run := [segment "ab" 2 0, segment "b" 2 1, segment "c\n" 4 2, segment "d" 5 5]
    (∀ d, (s.lane d).status = .start) ∧
      (e.checkAll s (run.map fun x => (x.1, x.2.translate 0xFFFFFFFE))).map
          (fun r => (r.length, (r.session.lane .toServer).origin,
            (r.session.lane .toServer).expected, (r.session.lane .toServer).status)) =
        [(0, 0xFFFFFFFE, 0, .search), (0, 0xFFFFFFFE, 0, .search), (4, 2, 2, .search),
          (0, 2, 2, .abort)] := by
  intro lines registry e s segment run
  have untouched : ∀ d, (s.lane d).status = .start := by
    intro d
    cases d <;> rfl
  refine ⟨untouched, ?_⟩
  rw [checkAll_translate 0xFFFFFFFE e untouched run]
  decide +kernel

end Engine

end StreamFraming
