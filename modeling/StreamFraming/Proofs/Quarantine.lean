import StreamFraming.Proofs.Buffering
import StreamFraming.Proofs.DeferredErrors
import StreamFraming.Proofs.Http.Errors

/-!
# Quarantine

A message that cannot be framed puts its direction out of use. If the scan that meets the error
decides, the check cuts all that is queued. And whether it does or not, the next check that brings
bytes gives the lane up unread (`Engine.check_quarantine`).
-/

namespace StreamFraming

open Http Holds

variable {α : Type} [Holds α Progress]

/-! ### Errors in cells -/

namespace Http

/-- The cells hold one progress or none, with an error or without. -/
def HasError (slots : Slots α) (error : Bool) : Prop :=
  ∃ p, slots = cells p ∧ p.any (·.flags.error) = error

theorem hasError_empty : HasError (.empty : Slots α) false := ⟨none, cells_none.symm, rfl⟩

theorem hasError_cells (p : Progress) : HasError (cells (some p) : Slots α) p.flags.error :=
  ⟨some p, rfl, rfl⟩

theorem HasError.unique {slots : Slots α} {a b : Bool} (ha : HasError slots a)
    (hb : HasError slots b) : a = b := by
  obtain ⟨p, rfl, rfl⟩ := ha
  obtain ⟨p', same, rfl⟩ := hb
  rw [← first?_cells (α := α) p, same, first?_cells]

theorem error_start {p : Option Progress} (sound : p.any (·.flags.error) = false)
    (fromClient : Bool) : (start p fromClient).flags.error = false := by
  cases p with
  | none => cases fromClient <;> rfl
  | some p => exact sound

/-- The note of a HEAD request is neither an error nor a remedy for one. -/
theorem HasError.noted {p : Option Progress} {error : Bool}
    (h : HasError (cells p : Slots α) error) (ended : Bool) :
    HasError (cells (if ended then
      some ((p.getD Progress.response).mark fun f => { f with noBody := true }) else p) : Slots α)
      error := by
  cases ended with
  | false => exact h
  | true =>
    obtain rfl := h.unique ⟨p, rfl, rfl⟩
    cases p <;> exact ⟨_, rfl, rfl⟩

end Http

/-! ### Pursuits -/

namespace Field

variable {q : Inquiry α Tally} {idx place : UInt32} {data bytes : List UInt8}
  {f g h : Field α Tally} {m : Move} {cut? : Option Cut} {c : Call α Tally}

/-- The HTTP scanner has the lane to itself and has met no error, and the bytes at hand end the
queue. -/
structure Reads (q : Inquiry α Tally) (idx : UInt32) (data : List UInt8) (f : Field α Tally) :
    Prop where
  eligible : f.lane.eligible = .singleton 0
  own : HasError f.lane.slots false
  peer : ∃ error, HasError f.peer error
  ahead : f.lane.status = .skip → idx ≤ f.lane.target
  size : idx.toNat + data.length = q.total.toNat

/-- What becomes of a lane without errors in a contest with the call `c`. -/
inductive Read (q : Inquiry α Tally) (c : Call α Tally) : Move → Field α Tally → Prop where
  /-- The bytes are read, and there may be an error among them. -/
  | search {g : Field α Tally} {error : Bool} : c.report.verdict = .search →
      g.lane.status = .search → g.lane.eligible = .singleton 0 →
      HasError g.lane.slots error → Read q c .wait g
  | sound {m : Move} {g : Field α Tally} : (c.report.verdict = .flush → setsError c = false) →
      g.lane.eligible = .singleton 0 → HasError g.lane.slots false → Read q c m g
  /-- A message that cannot be framed ends with the queue. -/
  | spoilt {g : Field α Tally} : g.lane.status = .flush → g.lane.target = q.total →
      g.lane.eligible = .singleton 0 → HasError g.lane.slots true → Read q c (.again q.total) g
  | abort {m : Move} {g : Field α Tally} : c.report.verdict = .abort →
      g.lane.status = .abort → g.lane.slots = .empty → Read q c m g

theorem contest_read (http : q.registry.IsHttp) (eligible : f.lane.eligible = .singleton 0)
    (own : HasError f.lane.slots false) (peer : ∃ error, HasError f.peer error)
    (size : place.toNat + bytes.length = q.total.toNat)
    (asks : contest q place bytes f = (m, g)) :
    (∀ error, HasError f.peer error → HasError g.peer error) ∧
      ∃ c, g.calls = c :: f.calls ∧ Read q c m g := by
  obtain ⟨p, slots, framed⟩ := own
  obtain ⟨_, p', opposite, -⟩ := peer
  have sound := error_start framed q.marks.fromClient
  obtain ⟨c, verdict, sets, contested⟩ := contest_eq http eligible slots opposite sound place bytes
  have skipped := Progress.sound_of_skip q.marks.fromClient bytes sound
  have ended := Progress.point_of_error (p := start p q.marks.fromClient) q.marks.fromClient bytes
  rw [asks] at contested
  generalize (start p q.marks.fromClient).scan q.marks.fromClient bytes = s at *
  have noted (error : Bool) (before : HasError f.peer error) :
      HasError (f.scanned s p' c).peer error := by
    rw [opposite] at before
    exact before.noted s.headDone
  have left := hasError_cells (α := α) s.progress
  cases answer : s.verdict with
  | search =>
    simp only [answer] at contested verdict
    cases contested
    exact ⟨noted, c, rfl, .search verdict rfl eligible left⟩
  | skip =>
    rw [skipped answer] at left
    simp only [answer] at contested verdict
    cases contested
    refine ⟨noted, c, rfl, .sound (fun flush => ?_) eligible left⟩
    rw [verdict] at flush
    cases flush
  | abort =>
    simp only [answer] at contested verdict
    cases contested
    exact ⟨noted, c, rfl, .abort verdict rfl rfl⟩
  | flush =>
    simp only [answer] at contested
    cases error : s.progress.flags.error with
    | false =>
      rw [error] at sets left
      cases contested
      exact ⟨noted, c, rfl, .sound (fun _ => sets) eligible left⟩
    | true =>
      have everything : Length.add s.point place = q.total := by
        rw [ended (by rw [answer]; nofun) error]
        have small := q.total.toNat_lt
        apply UInt32.toNat_inj.mp
        rw [Length.toNat_add, Length.toNat_ofNat]
        omega
      rw [everything, if_pos (UInt32.le_refl q.total)] at contested
      rw [error] at left
      cases contested
      exact ⟨noted, c, rfl, .spoilt rfl rfl eligible left⟩

/-- What a pursuit leaves: an error only while the scanner searches. A scan that decided on an error
made the lane be cut behind the whole queue. -/
structure Settles (q : Inquiry α Tally) (f g : Field α Tally) (cut? : Option Cut) : Prop where
  own : ∃ error, HasError g.lane.slots error ∧ (error = true → g.lane.status = .search)
  peer : ∀ error, HasError f.peer error → HasError g.peer error
  eligible : g.lane.status ≠ .abort → g.lane.eligible = .singleton 0
  whole : ∀ c ∈ g.calls, c ∈ f.calls ∨ (c.report.verdict = .flush → setsError c = true →
    cut? = some .boundary ∧ g.lane.target = q.total)

theorem Settles.after (first : ∀ error, HasError f.peer error → HasError g.peer error)
    (called : g.calls = c :: f.calls) (whole : c.report.verdict = .flush → setsError c = true →
      cut? = some .boundary ∧ h.lane.target = q.total) (later : Settles q g h cut?) :
    Settles q f h cut? where
  own := later.own
  peer error before := later.peer error (first error before)
  eligible := later.eligible
  whole x made := by
    rcases later.whole x made with before | cut
    · rw [called] at before
      rcases List.mem_cons.mp before with rfl | before
      · exact .inr whole
      · exact .inl before
    · exact .inr cut

/-- A contest that ends a pursuit, unless it ends a message that cannot be framed. -/
theorem Read.settles (read : Read q c m g)
    (first : ∀ error, HasError f.peer error → HasError g.peer error)
    (called : g.calls = c :: f.calls) (framed : g.lane.status = .flush → m ≠ .again q.total) :
    Settles q f g cut? := by
  have made {verdict : Verdict} (answer : c.report.verdict = verdict) (other : verdict ≠ .flush) :
      c.report.verdict = .flush → setsError c = true →
        cut? = some .boundary ∧ g.lane.target = q.total :=
    fun flush => absurd (answer.symm.trans flush) other
  cases read with
  | search verdict searching eligible own =>
    exact .after first called (made verdict nofun)
      ⟨⟨_, own, fun _ => searching⟩, fun _ => id, fun _ => eligible, fun _ => .inl⟩
  | sound harmless eligible own =>
    refine .after first called (fun flush sets => ?_)
      ⟨⟨false, own, nofun⟩, fun _ => id, fun _ => eligible, fun _ => .inl⟩
    rw [harmless flush] at sets
    cases sets
  | spoilt flush _ _ _ => exact absurd rfl (framed flush)
  | abort verdict aborted emptied =>
    exact .after first called (made verdict nofun) ⟨⟨false, emptied ▸ hasError_empty, nofun⟩,
      fun _ => id, fun alive => absurd aborted alive, fun _ => .inl⟩

theorem Reads.move (http : q.registry.IsHttp) (reads : Reads q idx data f)
    (moved : move q idx data f = (m, g)) :
    (HasError g.lane.slots false ∧ g.lane.eligible = .singleton 0 ∧ g.peer = f.peer ∧
      g.calls = f.calls ∧ ∀ next, m ≠ .again next) ∨
    ((∀ error, HasError f.peer error → HasError g.peer error) ∧ (∀ kind, m ≠ .cut kind) ∧
      ∃ c, g.calls = c :: f.calls ∧ Read q c m g) := by
  have size := reads.size
  have inside : idx ≤ q.total := UInt32.le_iff_toNat_le.mpr (by omega)
  rcases move_cases inside moved with
    ⟨rfl, stays, -⟩ | ⟨rfl, rfl⟩ | ⟨place, bytes, -, asks, -, size⟩
  · exact .inl ⟨reads.own, reads.eligible, rfl, rfl, stays⟩
  · exact .inl ⟨reads.own, reads.eligible, rfl, rfl, nofun⟩
  · obtain ⟨peer, c, called, read⟩ := contest_read http reads.eligible reads.own reads.peer
      (size reads.ahead reads.size) asks
    exact .inr ⟨peer, fun kind cuts => contest_ne_cut (cuts ▸ asks), c, called, read⟩

theorem Reads.settles (http : q.registry.IsHttp) (reads : Reads q idx data f)
    (pursued : pursue q idx data f = (cut?, g)) : Settles q f g cut? := by
  have still {f g : Field α Tally} {cut? : Option Cut} (own : HasError g.lane.slots false)
      (eligible : g.lane.eligible = .singleton 0) (peer : g.peer = f.peer)
      (calls : g.calls = f.calls) : Settles q f g cut? :=
    ⟨⟨false, own, nofun⟩, fun _ => peer ▸ id, fun _ => eligible, fun _ => .inl ∘ (calls ▸ id)⟩
  have onward {idx next : UInt32} {data bytes : List UInt8} {f r : Field α Tally}
      (reads : Reads q idx data f) (moved : Field.move q idx data f = (.again next, r))
      (size : next.toNat + bytes.length = q.total.toNat)
      (rest : pursue q next bytes r = (cut?, g))
      (ih : Reads q next bytes r → Settles q r g cut?) : Settles q f g cut? := by
    rcases reads.move http moved with ⟨-, -, -, -, stays⟩ | ⟨peer, -, c, called, read⟩
    · exact absurd rfl (stays next)
    have here := target_of_again moved
    -- only a lane without errors is pursued any further
    cases read with
    | sound harmless eligible own =>
      refine .after peer called (fun flush sets => ?_)
        (ih ⟨eligible, own, reads.peer.imp peer, fun _ => here ▸ UInt32.le_refl _, size⟩)
      rw [harmless flush] at sets
      cases sets
    | spoilt flush target eligible own =>
      rw [pursue_of_flush flush (target ▸ UInt32.le_refl _)] at rest
      cases rest
      exact .after peer called (fun _ _ => ⟨rfl, target⟩)
        ⟨⟨true, own, fun _ => rfl⟩, fun _ => id, fun _ => eligible, fun _ => .inl⟩
    | abort verdict aborted emptied =>
      rw [pursue_of_aborted aborted] at rest
      cases rest
      refine (Read.abort (m := .wait) verdict aborted emptied).settles peer called nofun
  fun_induction pursue q idx data f with
  | case1 idx data f kind r moved =>
    cases pursued
    rcases reads.move http moved with ⟨own, eligible, peer, calls, -⟩ | ⟨-, uncut, -⟩
    · exact still own eligible peer calls
    · exact absurd rfl (uncut kind)
  | case2 idx data f r moved =>
    cases pursued
    rcases reads.move http moved with ⟨own, eligible, peer, calls, -⟩ | ⟨peer, -, c, called, read⟩
    · exact still own eligible peer calls
    · exact read.settles peer called nofun
  | case3 idx data f next r moved ahead _ ih =>
    refine onward reads moved ?_ pursued fun later => ih later pursued
    have inside := (move_again moved).1
    have size := reads.size
    rw [UInt32.le_iff_toNat_le] at inside
    rw [List.length_drop, UInt32.toNat_sub_of_le _ _ (UInt32.le_of_lt ahead)]
    rw [UInt32.lt_iff_toNat_lt] at ahead
    omega
  | case4 idx data f next r moved behind stuck =>
    cases pursued
    rcases reads.move http moved with ⟨-, -, -, -, stays⟩ | ⟨peer, -, c, called, read⟩
    · exact absurd rfl (stays next)
    · refine read.settles peer called fun flush => ?_
      rw [stuck.2] at flush
      cases flush
  | case5 idx data f next r moved behind _ _ ih =>
    have here : next = idx :=
      UInt32.le_antisymm (UInt32.not_lt.mp behind) (le_of_again reads.ahead moved)
    exact onward reads moved (here ▸ reads.size) pursued fun later => ih later pursued

end Field

/-! ### Lanes between checks -/

/-- What holds of a lane of the HTTP scanner between faithful checks: where there is an error, the
scanner searches. -/
structure Lane.Guarded (l : Lane α) : Prop where
  few : l.queued < 2 ^ 31
  settled : l.Settled
  ahead : l.SkipsAhead
  own : ∃ error, HasError l.slots error ∧ (error = true → l.status = .search)
  eligible : l.status ≠ .abort → l.eligible = .singleton 0 ∨ l.status = .start ∧ l.eligible = .empty

/-- The lane is given up, or will be as soon as bytes are brought. -/
def Lane.Spoilt (l : Lane α) : Prop := l.status = .abort ∨ HasError l.slots true

namespace Lane.Guarded

variable {l : Lane α} {slots : Slots α}

theorem withSlots (guarded : l.Guarded)
    (noted : ∀ error, HasError l.slots error → HasError slots error) :
    Guarded { l with slots } where
  few := guarded.few
  settled := ⟨guarded.settled.few, guarded.settled.narrowed, guarded.settled.flush⟩
  ahead := guarded.ahead
  own := by
    obtain ⟨error, own, searching⟩ := guarded.own
    exact ⟨error, noted error own, searching⟩
  eligible := guarded.eligible

theorem clear (guarded : l.Guarded) : l.clear.Guarded where
  few := guarded.few
  settled := ⟨fun _ => guarded.few, nofun, nofun⟩
  ahead := nofun
  own := ⟨false, hasError_empty, nofun⟩
  eligible alive := absurd rfl alive

theorem fresh {e : Engine α Tally} (http : e.registry.IsHttp) (port : UInt16) (d : Direction) :
    (e.freshLane port d).Guarded where
  few := by
    show ((0 : UInt32) - 0).toNat < _
    decide
  settled := settled_of_untouched rfl
  ahead := nofun
  own := ⟨false, hasError_empty, nofun⟩
  eligible _ := by
    have scanners := http.eligible port d
    cases heard : e.registry.listens port d with
    | true =>
      rw [heard] at scanners
      exact .inl scanners
    | false =>
      rw [heard] at scanners
      exact .inr ⟨rfl, scanners⟩

end Lane.Guarded

/-! ### One check -/

namespace Segment.Appends

variable {e : Engine α Tally} {s : Session α} {d : Direction} {segment : Segment} {n : Nat}
  {base : UInt32} (appends : segment.Appends (s.lane d) n base)

include appends

variable (http : e.registry.IsHttp) (guarded : ∀ d, (s.lane d).Guarded)

include http guarded

/-- A lane with an error is given up unread. -/
theorem pursuit_error (error : HasError (s.lane d).slots true) :
    ∃ g, e.pursuit s d ((s.lane d).placed base segment.seq) segment.data segment =
        (some .abort, g) ∧
      (e.opening s d ((s.lane d).placed base segment.seq) segment.data.length).GivesUp g := by
  obtain ⟨_, own, searching⟩ := (guarded d).own
  have searching := searching (own.unique error)
  obtain ⟨p, slots, spoilt⟩ := error
  obtain ⟨_, ⟨p', opposite, -⟩, -⟩ := (guarded d.opposite).own
  cases p with
  | none => cases spoilt
  | some p =>
    have eligible : (s.lane d).eligible = .singleton 0 := by
      refine ((guarded d).eligible (by rw [searching]; nofun)).resolve_right ?_
      rw [searching]
      nofun
    exact Field.IsAt.pursue_error (q := e.inquiry d segment) (p := p)
      ⟨congrArg Status.begun searching, eligible, ⟨_, slots, rfl⟩, p', opposite⟩ http spoilt
      appends.offset_lt

theorem pursuit_settles (started : (s.lane d).status ≠ .start → (s.lane d).queued = n)
    {cut? : Option Cut} {g : Field α Tally}
    (pursued : e.pursuit s d ((s.lane d).placed base segment.seq) segment.data segment =
      (cut?, g)) :
    Field.Settles (e.inquiry d segment)
      (e.opening s d ((s.lane d).placed base segment.seq) segment.data.length) g cut? := by
  have counted := appends.queued
  have offset := appends.toNat_offset
  obtain ⟨error, own, searching⟩ := (guarded d).own
  obtain ⟨_, other, -⟩ := (guarded d.opposite).own
  by_cases aborted : (s.lane d).status = .abort
  · have still : e.pursuit s d ((s.lane d).placed base segment.seq) segment.data segment = _ :=
      Field.pursue_of_aborted (congrArg Status.begun aborted)
    rw [still] at pursued
    cases pursued
    refine ⟨⟨error, own, fun spoilt => ?_⟩, fun _ => id, fun alive => ?_, fun _ => .inl⟩
    · rw [searching spoilt] at aborted
      cases aborted
    · exact absurd (congrArg Status.begun aborted) alive
  cases error with
  | true =>
    obtain ⟨g, given_up, gives_up⟩ := appends.pursuit_error http guarded own
    rw [given_up] at pursued
    cases pursued
    obtain ⟨c, called, verdict⟩ := gives_up.calls
    refine ⟨⟨false, gives_up.slots ▸ hasError_empty, nofun⟩, fun _ => gives_up.peer ▸ id,
      fun alive => absurd gives_up.status alive, fun x made => ?_⟩
    rw [called] at made
    refine (List.mem_cons.mp made).symm.imp_right ?_
    rintro rfl flush
    rw [verdict] at flush
    cases flush
  | false =>
    rcases (guarded d).eligible aborted with eligible | ⟨start, deaf⟩
    · refine Field.Reads.settles http ⟨eligible, own, ⟨_, other⟩, fun skipping => ?_, ?_⟩ pursued
      · have skipping : (s.lane d).status = .skip := Status.eq_of_begun skipping nofun
        rw [UInt32.le_iff_toNat_le, offset, ← started (by rw [skipping]; nofun)]
        exact (guarded d).ahead skipping
      · rw [offset]
        exact counted.symm
    · obtain ⟨_, -, given_up⟩ := Field.pursue_of_deaf (q := e.inquiry d segment)
        (f := e.opening s d ((s.lane d).placed base segment.seq) segment.data.length) deaf
        (congrArg Status.begun start) appends.offset_lt segment.data
      rw [show Field.pursue .. = _ from pursued] at given_up
      cases given_up
      exact ⟨⟨false, hasError_empty, nofun⟩, fun _ => id, fun alive => absurd rfl alive,
        fun _ => .inl⟩

/-- What is noted for the opposite lane neither makes an error nor takes one back. -/
theorem opposite_check (started : (s.lane d).status ≠ .start → (s.lane d).queued = n) :
    ∃ slots, (e.check s d segment).session.lane d.opposite = { s.lane d.opposite with slots } ∧
      ∀ error, HasError (s.lane d.opposite).slots error → HasError slots error := by
  rw [appends.check_eq, Engine.opposite_evaluate]
  exact ⟨_, rfl, (appends.pursuit_settles http guarded started rfl).peer⟩

theorem guarded_check (started : (s.lane d).status ≠ .start → (s.lane d).queued = n)
    (d' : Direction) : ((e.check s d segment).session.lane d').Guarded := by
  by_cases own : d' = d
  · subst own
    have settled := appends.settled_check (e := e) (guarded d').settled
    have running := appends.started_check (e := e)
    cases pursued : e.pursuit s d' ((s.lane d').placed base segment.seq) segment.data segment with
    | mk cut? g =>
      have settles := appends.pursuit_settles http guarded started pursued
      obtain ⟨-, lane, -⟩ := appends.reply_of_pursuit pursued
      have status : ((e.check s d' segment).session.lane d').status = g.lane.status := by
        rw [lane, Lane.status_cutIf]
      obtain ⟨eligible, slots⟩ := g.lane.cutIf_keeps
        (Engine.due (e.inquiry d' segment) (cut?, g)) segment.queued segment.marks
      refine ⟨settled.few running, settled, ?_, ?_, ?_⟩
      · refine appends.skipsAhead_check (guarded d').settled started (guarded d').ahead ?_
        intro c made skip
        obtain ⟨⟨x, known, report⟩, window⟩ := e.check_scans s d' segment c made
        obtain ⟨-, rfl⟩ := http.known known
        have counted := appends.queued
        have few := appends.few
        have short := window.length_le
        rw [report] at skip ⊢
        exact Http.isAdvancing_scanner 0 _ _ _ (by omega) (by rw [skip]; rfl)
      · rw [status, lane, slots]
        exact settles.own
      · intro alive
        rw [status] at alive
        rw [lane, eligible]
        exact .inl (settles.eligible alive)
  · obtain rfl := Direction.eq_opposite_of_ne own
    obtain ⟨slots, opposite, noted⟩ := appends.opposite_check http guarded started
    rw [opposite]
    exact (guarded d.opposite).withSlots noted

/-- A scan that decides on an error takes the whole queue. -/
theorem whole_check (started : (s.lane d).status ≠ .start → (s.lane d).queued = n)
    {c : Call α Tally} (made : c ∈ (e.check s d segment).calls)
    (flush : c.report.verdict = .flush) (sets : setsError c = true) :
    (e.check s d segment).length = segment.queued ∧
      (e.check s d segment).marks.tail = true := by
  cases pursued : e.pursuit s d ((s.lane d).placed base segment.seq) segment.data segment with
  | mk cut? g =>
    obtain ⟨-, -, calls⟩ := appends.reply_of_pursuit pursued
    rw [calls, List.mem_reverse] at made
    rcases (appends.pursuit_settles http guarded started pursued).whole c made with before | cut
    · cases before
    · obtain ⟨rfl, target⟩ := cut flush sets
      have target : g.lane.target = segment.queued := target
      have whole := g.lane.cut_boundary segment.marks (target ▸ appends.queued_ne_zero)
        appends.queued_ne_zero (target ▸ appends.few)
      rw [appends.check_eq, Engine.evaluate_eq, pursued]
      exact ⟨(congrArg Prod.fst whole).trans target, congrArg (·.2.1.tail) whole⟩

/-- A lane that is spoilt gives nothing any more, and its scanner reads nothing. -/
theorem spoilt_check (spoilt : (s.lane d).Spoilt) :
    let r := e.check s d segment
    r.length = 0 ∧ (r.session.lane d).status = .abort ∧
      (r.engine.memories.get? 0).getD {} = (e.memories.get? 0).getD {} ∧
      r.session.raised = s.raised := by
  intro r
  rcases spoilt with aborted | error
  · obtain ⟨status, length, -, memories, raised, -⟩ := e.check_aborted aborted segment
    exact ⟨length, status, by rw [show r.engine.memories = _ from memories], raised⟩
  · obtain ⟨g, pursued, gives_up⟩ := appends.pursuit_error http guarded error
    obtain ⟨length, lane, -⟩ := appends.reply_of_pursuit pursued
    refine ⟨length, ?_, ?_, ?_⟩
    · rw [show r.session.lane d = _ from lane, Lane.status_cutIf]
      exact gives_up.status
    · show ((e.check s d segment).engine.memories.get? 0).getD {} = _
      rw [appends.check_eq, Engine.evaluate_eq, pursued]
      exact gives_up.tally
    · show (e.check s d segment).session.raised = _
      rw [appends.check_eq, Engine.raised_evaluate, pursued, gives_up.raised]
      exact List.append_nil _

end Segment.Appends

/-! ### Runs -/

/-- A check among the steps brings the next bytes of its lane, or none that are new. -/
def Step.FaithfulTo (s : Session α) : Step → Prop
  | .check d segment => segment.FaithfulTo (s.lane d) ∨
      (s.lane d).arrival segment.seq segment.data = .stale
  | _ => True

namespace Engine

/-- All checks of the run are faithful. -/
def FaithfulSteps (e : Engine α Tally) (s : Session α) : List Step → Prop
  | [] => True
  | x :: steps =>
    x.FaithfulTo s ∧
      let left := e.step s x
      left.1.FaithfulSteps left.2 steps

variable {e : Engine α Tally} {s : Session α} {d : Direction} {steps : List Step}

theorem guarded_step (http : e.registry.IsHttp) (guarded : ∀ d, (s.lane d).Guarded) {x : Step}
    (faithful : x.FaithfulTo s) (d : Direction) :
    ((e.step s x).2.lane d).Guarded ∧
      (x.setsUp d = false → (s.lane d).Spoilt → ((e.step s x).2.lane d).Spoilt) := by
  have unmoved {d' : Direction} {segment : Segment}
      (stale : (s.lane d').arrival segment.seq segment.data = .stale) :
      e.step s (.check d' segment) = (e, s) := by
    simp only [step, check, stale]
  rcases e.lane_step s x d with
    ⟨segment, rfl, -⟩ | l | ⟨setsUp, port, l⟩ | ⟨slots, l, same | ⟨segment, rfl⟩⟩
  · rcases faithful with faithful | stale
    · obtain ⟨n, base, appends, started⟩ := faithful.appends (guarded d).settled.few
      refine ⟨appends.guarded_check http guarded started d, fun _ spoilt => .inl ?_⟩
      exact (appends.spoilt_check http guarded spoilt).2.1
    · rw [unmoved stale]
      exact ⟨guarded d, fun _ => id⟩
  · rw [l]
    exact ⟨(guarded d).clear, fun _ _ => .inl rfl⟩
  · rw [l]
    refine ⟨.fresh http port d, fun kept => ?_⟩
    rw [setsUp] at kept
    cases kept
  · rw [l, same]
    exact ⟨guarded d, fun _ => id⟩
  · rcases faithful with faithful | stale
    · obtain ⟨n, base, appends, started⟩ := faithful.appends (guarded d.opposite).settled.few
      refine ⟨appends.guarded_check http guarded started d, fun _ spoilt => ?_⟩
      obtain ⟨slots, opposite, noted⟩ := appends.opposite_check http guarded started
      rw [Direction.opposite_opposite] at opposite noted
      rw [show (e.step s (.check d.opposite segment)).2.lane d = _ from opposite]
      exact spoilt.imp_right (noted true)
    · rw [unmoved stale]
      exact ⟨guarded d, fun _ => id⟩

theorem guarded_stepAll (http : e.registry.IsHttp) (guarded : ∀ d, (s.lane d).Guarded)
    (faithful : e.FaithfulSteps s steps) :
    (∀ d, ((e.stepAll s steps).2.lane d).Guarded) ∧
      ((∀ x ∈ steps, x.setsUp d = false) → (s.lane d).Spoilt →
        ((e.stepAll s steps).2.lane d).Spoilt) := by
  induction steps generalizing e s with
  | nil => exact ⟨guarded, fun _ => id⟩
  | cons x steps ih =>
    obtain ⟨first, later⟩ := faithful
    have step := guarded_step http guarded first
    obtain ⟨guarded', spoilt'⟩ :=
      ih ((e.registry_step s x).symm ▸ http) (fun d => (step d).1) later
    refine ⟨guarded', fun kept spoilt => ?_⟩
    obtain ⟨keeps, kept⟩ := List.forall_mem_cons.mp kept
    exact spoilt' kept ((step d).2 keeps spoilt)

theorem guarded_openSession (http : e.registry.IsHttp) (key : UInt64) (port : UInt16)
    (d : Direction) : ((e.openSession key port).lane d).Guarded := by
  cases d <;> exact .fresh http port _

/-- With the HTTP scanner alone, without a cap on its bytes, and with checks that are faithful, an
error quarantines its direction. A check in which a scan decides and leaves an error cuts all that
is queued, as the end of a message. And once there is an error in the cells of a lane, until the
lane is set up again, the next check that brings bytes gives the lane up and cuts nothing; it
raises nothing, and the scanner takes no bytes. From then on no check of the lane cuts or raises
anything. -/
theorem check_quarantine (e : Engine α Tally) (http : e.registry.IsHttp) (key : UInt64)
    (port : UInt16) (steps : List Step)
    (faithful : e.FaithfulSteps (e.openSession key port) steps) (d : Direction) :
    let left := e.stepAll (e.openSession key port) steps
    (∀ segment, segment.FaithfulTo (left.2.lane d) →
      let r := left.1.check left.2 d segment
      ∀ c ∈ r.calls, c.report.verdict = .flush → setsError c = true →
        r.length = segment.queued ∧ r.marks.tail = true) ∧
    ((Http.progress? left.2 d).any (·.flags.error) = true →
      ∀ more, (∀ x ∈ more, x.setsUp d = false) → left.1.FaithfulSteps left.2 more →
        let later := left.1.stepAll left.2 more
        ∀ segment, segment.FaithfulTo (later.2.lane d) →
          let r := later.1.check later.2 d segment
          r.length = 0 ∧ (r.session.lane d).status = .abort ∧
            (r.engine.memories.get? 0).getD {} = (later.1.memories.get? 0).getD {} ∧
            r.session.raised = later.2.raised ∧
            ∀ rest, (∀ x ∈ rest, x.setsUp d = false) → ∀ segment,
              let last := r.engine.stepAll r.session rest
              let r := last.1.check last.2 d segment
              r.length = 0 ∧ r.session.raised = last.2.raised) := by
  intro left
  have http' : left.1.registry.IsHttp := (e.registry_stepAll _ steps).symm ▸ http
  have guarded : ∀ d, (left.2.lane d).Guarded :=
    (guarded_stepAll (d := d) http (guarded_openSession http key port) faithful).1
  refine ⟨fun segment faithful => ?_, fun error more kept faithful => ?_⟩
  · obtain ⟨n, base, appends, started⟩ := faithful.appends (guarded d).settled.few
    exact fun c => appends.whole_check http' guarded started
  · intro later segment next
    have spoilt : (left.2.lane d).Spoilt := by
      obtain ⟨_, ⟨p, slots, -⟩, -⟩ := (guarded d).own
      rw [Http.progress?, slots, first?_cells] at error
      exact .inr ⟨p, slots, error⟩
    obtain ⟨guarded', spoilt'⟩ := guarded_stepAll (d := d) http' guarded faithful
    have http'' : later.1.registry.IsHttp := (left.1.registry_stepAll _ more).symm ▸ http'
    obtain ⟨n, base, appends, -⟩ := next.appends (guarded' d).settled.few
    obtain ⟨length, aborted, tally, raised⟩ :=
      appends.spoilt_check http'' guarded' (spoilt' kept spoilt)
    refine ⟨length, aborted, tally, raised, fun rest kept segment => ?_⟩
    intro last
    have aborted' : (last.2.lane d).status = .abort := by
      refine stepAll_keeps (I := fun l => l.status = .abort) (fun _ _ kept => kept)
        (fun _ _ => rfl) (fun x listed setsUp => ?_)
        (fun e' _ s segment aborted => (e'.check_aborted aborted segment).1) aborted
      rw [kept x listed] at setsUp
      cases setsUp
    obtain ⟨-, length, -, -, raised, -⟩ := last.1.check_aborted aborted' segment
    exact ⟨length, raised⟩

/-- A content length that is no number. The whole head is cut at once. Split in front of its blank
line it is not cut any more, after an answer and after the first part was sent again. -/
theorem check_quarantine_contentLength :
    let e : Engine Memo Tally := .ofRegistry (Registry.httpOn 80)
    let s := e.openSession 1 80
    let segment (d : Direction) (text : String) (queued seq : UInt32) : Segment :=
      { data := text.toUTF8.toList, queued, seq, marks := .ofDirection d }
    let whole := segment .toServer "GET / HTTP/1.1\r\nContent-Length: x\r\n\r\n" 37 0
    let first := segment .toServer "GET / HTTP/1.1\r\nContent-Length: x\r\n" 35 0
    let last := segment .toServer "\r\n" 37 35
    let more := [Step.check .toClient (segment .toClient "HTTP" 4 0), .check .toServer first]
    let left := e.stepAll s [.check .toServer first]
    let later := left.1.stepAll left.2 more
    let r := later.1.check later.2 .toServer last
    (e.check s .toServer whole).length = 37 ∧ (e.check s .toServer whole).marks.tail = true ∧
      (Http.progress? left.2 .toServer).any (·.flags.error) = true ∧ r.length = 0 ∧
      (r.session.lane .toServer).status = .abort ∧ r.session.raised = later.2.raised := by
  intro e s segment whole first last more left later r
  have http : e.registry.IsHttp := Registry.isHttp_httpOn 80
  have once : whole.FaithfulTo (s.lane .toServer) := by
    refine ⟨?_, ?_, ?_, ?_, ?_⟩ <;> decide +kernel
  obtain ⟨cuts, -⟩ := e.check_quarantine http 1 80 [] trivial .toServer
  obtain ⟨c, made, spoils⟩ : ∃ c ∈ (e.check s .toServer whole).calls,
      (decide (c.report.verdict = .flush) && setsError c) = true :=
    List.any_eq_true.mp (by decide +kernel)
  obtain ⟨flush, sets⟩ := Bool.and_eq_true_iff.mp spoils
  obtain ⟨length, tail⟩ := cuts whole once c made (of_decide_eq_true flush) sets
  have begun : e.FaithfulSteps s [.check .toServer first] := by
    refine ⟨.inl ⟨?_, ?_, ?_, ?_, ?_⟩, trivial⟩ <;> decide +kernel
  have goesOn : left.1.FaithfulSteps left.2 more := by
    refine ⟨.inl ⟨?_, ?_, ?_, ?_, ?_⟩, .inr ?_, trivial⟩ <;> decide +kernel
  have next : last.FaithfulTo (later.2.lane .toServer) := by
    refine ⟨?_, ?_, ?_, ?_, ?_⟩ <;> decide +kernel
  obtain ⟨-, quarantined⟩ := e.check_quarantine http 1 80 _ begun .toServer
  have error : (Http.progress? left.2 .toServer).any (·.flags.error) = true := by decide +kernel
  obtain ⟨length', aborted, -, raised, -⟩ :=
    quarantined error more (by decide) goesOn last next
  exact ⟨length, tail, error, length', aborted, raised⟩

end Engine

end StreamFraming
