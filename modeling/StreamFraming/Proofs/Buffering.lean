import StreamFraming.Proofs.Http.Alone
import StreamFraming.Proofs.Narrowing
import StreamFraming.Proofs.Setbacks
import StreamFraming.Proofs.Windows

/-!
# How much is buffered

A faithful check that cuts nothing and leaves its lane alive leaves no more bytes queued than the
size bound allows. The one exception is a boundary that this very check found behind the queue; then
the next check cuts, or the queue is still below the bound (`Engine.check_buffered`).
-/

namespace StreamFraming

variable {α μ : Type}

/-- A scanner finds no boundary in front of the bytes it looks at. -/
def Scanner.FlushesAhead (s : Scanner α μ) : Prop :=
  ∀ memory sight bytes, bytes.length < 2 ^ 31 → (s.scan memory sight bytes).verdict = .flush →
    (s.scan memory sight bytes).point ≠ 0

def Registry.FlushesAhead (r : Registry α μ) : Prop := ∀ s ∈ r.scanners, s.FlushesAhead

theorem Scanner.IsAdvancing.flushesAhead {s : Scanner α μ} (advancing : s.IsAdvancing) :
    s.FlushesAhead := by
  intro memory sight bytes short flush
  exact advancing memory sight bytes short (by rw [flush]; rfl)

/-- The last of some scans found a boundary behind a queue of `total` bytes that begins at
`origin`. -/
def Call.FindsBehind (calls : List (Call α μ)) (origin total : UInt32) : Prop :=
  ∃ c, calls.getLast? = some c ∧ c.report.verdict = .flush ∧
    total < Length.add c.report.point (c.window.seq - origin)

namespace Lane

variable {l : Lane α} {total : UInt32}

theorem cutIf_boundary_ne_zero (positive : l.target ≠ 0) (nonempty : total ≠ 0) (marks : Marks) :
    (l.cutIf (some .boundary) total marks).1 ≠ 0 := by
  simp only [cutIf, cut]
  rw [if_neg (by simp [positive, nonempty])]
  exact fun nothing => positive (min_longestCut_eq_zero nothing)

theorem cutIf_bound_ne_zero (nonempty : total ≠ 0) (marks : Marks) :
    (l.cutIf (some .bound) total marks).1 ≠ 0 := by
  simp only [cutIf, cut]
  rw [if_neg nonempty]
  exact fun nothing => nonempty (min_longestCut_eq_zero nothing)

end Lane

/-! ### What a pursuit waits for -/

namespace Field

variable {q : Inquiry α μ} {idx : UInt32} {data : List UInt8} {f g : Field α μ} {m : Move}
  {cut? : Option Cut}

/-- A lane was known to end at a boundary before, or its last call has found the boundary. -/
def Found (f g : Field α μ) : Prop :=
  (f.lane.status = .flush ∧ g.lane.target = f.lane.target ∧ g.calls = f.calls) ∨
    ∃ c calls place, g.calls = c :: calls ∧ c.report.verdict = .flush ∧
      c.window.seq = f.lane.origin + place ∧ g.lane.target = Length.add c.report.point place

theorem found_of_move (narrowed : f.lane.IsNarrowed) (inside : idx ≤ q.total)
    (h : move q idx data f = (m, g)) (ends : m = .cut .boundary ∨ g.lane.status = .flush) :
    f.Found g := by
  rcases ends with rfl | flush
  · obtain ⟨flush, -, rfl⟩ := move_boundary h
    exact .inl ⟨flush, rfl, rfl⟩
  · rcases move_cases inside h with ⟨rfl, -⟩ | ⟨rfl, -⟩ | ⟨place, bytes, -, asks, -⟩
    · exact .inl ⟨flush, rfl, rfl⟩
    · cases flush
    · obtain ⟨c, calls, called, window, status, target, -⟩ :=
        contest_decided narrowed asks (.inl flush)
      have verdict : c.report.verdict = .flush :=
        Verdict.status_inj (w := .flush) (status.symm.trans flush)
      exact .inr ⟨c, calls, place, called, verdict, by rw [window], target⟩

theorem found_of_pursue (narrowed : f.lane.IsNarrowed) (inside : idx ≤ q.total)
    (h : pursue q idx data f = (cut?, g))
    (ends : cut? = some .boundary ∨ g.lane.status = .flush) : f.Found g := by
  have later {f r : Field α μ} {next : UInt32} {data : List UInt8} {idx : UInt32}
      (narrowed : f.lane.IsNarrowed) (inside : idx ≤ q.total)
      (moved : move q idx data f = (.again next, r)) (found : r.Found g) : f.Found g := by
    have origin : r.lane.origin = f.lane.origin := by
      have kept := (extends_move q idx data f).origin
      rwa [moved] at kept
    rcases found with ⟨flush, target, calls⟩ | ⟨c, more, place, called, verdict, seq, target⟩
    · have first := found_of_move narrowed inside moved (.inr flush)
      rwa [Found, ← target, ← calls] at first
    · exact .inr ⟨c, more, place, called, verdict, origin ▸ seq, target⟩
  fun_induction pursue q idx data f with
  | case1 idx data f kind r moved =>
    cases h
    exact found_of_move narrowed inside moved (ends.imp_left fun same => by cases same; rfl)
  | case2 idx data f r moved | case4 idx data f next r moved _ _ =>
    cases h
    exact found_of_move narrowed inside moved (.inr (ends.resolve_left fun same => (by cases same)))
  | case3 idx data f next r moved _ _ ih | case5 idx data f next r moved _ _ _ ih =>
    exact later narrowed inside moved (ih (narrowed_move narrowed moved) (move_again moved).1 h)

/-- The cut that gives up is made of a lane that is given up. -/
theorem abort_of_pursue (started : f.lane.status ≠ .start) (inside : idx ≤ q.total)
    (h : pursue q idx data f = (some .abort, g)) : g.lane.status = .abort := by
  fun_induction pursue q idx data f with
  | case1 idx data f kind r moved =>
    cases h
    rcases move_cases inside moved with ⟨rfl, -, unused⟩ | ⟨-, cuts⟩ | ⟨place, bytes, -, asks, -⟩
    · exact (unused rfl).resolve_left started
    · cases cuts
    · exact absurd asks contest_ne_cut
  | case2 | case4 => cases h
  | case3 idx data f next r moved _ _ ih | case5 idx data f next r moved _ _ _ ih =>
    refine ih ?_ (move_again moved).1 h
    have kept := started_move (q := q) started idx data
    rwa [moved] at kept

end Field

/-! ### One check -/

namespace Segment.Appends

variable {e : Engine α μ} {s : Session α} {d : Direction} {segment : Segment} {n : Nat}
  {base : UInt32} (appends : segment.Appends (s.lane d) n base) (settled : (s.lane d).Settled)

include appends settled

/-- A lane that awaits a boundary is cut, or goes on to await it below the bound. -/
theorem awaiting_check (flush : (s.lane d).status = .flush)
    (nothing : (e.check s d segment).length = 0) :
    segment.queued < Length.add e.registry.maxFlushPoint segment.slack ∧
      segment.queued < ((e.check s d segment).session.lane d).target := by
  have positive : (s.lane d).target ≠ 0 := by
    intro zero
    have behind := settled.flush flush
    rw [zero] at behind
    exact absurd behind (Nat.not_lt_zero _)
  let opened := e.opening s d ((s.lane d).placed base segment.seq) segment.data.length
  have awaits : opened.lane.status = .flush := congrArg Status.begun flush
  by_cases inside : opened.lane.target ≤ segment.queued
  · obtain ⟨length, -, -⟩ := appends.reply_of_pursuit
      (Field.pursue_of_flush (q := e.inquiry d segment) awaits inside)
    rw [length] at nothing
    refine absurd nothing ?_
    exact Lane.cutIf_boundary_ne_zero (l := { opened.lane with status := .search }) positive
      appends.queued_ne_zero _
  · have outside := UInt32.not_le.mp inside
    have pursued : e.pursuit s d ((s.lane d).placed base segment.seq) segment.data segment = _ :=
      Field.pursue_awaiting (q := e.inquiry d segment) awaits outside
    by_cases full : Length.add e.registry.maxFlushPoint segment.slack ≤ segment.queued
    · obtain ⟨length, -, -⟩ := appends.reply_of_pursuit (pursued.trans (if_pos full))
      rw [length] at nothing
      exact absurd nothing (Lane.cutIf_bound_ne_zero appends.queued_ne_zero _)
    · obtain ⟨-, lane, -⟩ := appends.reply_of_pursuit (pursued.trans (if_neg full))
      have held : Engine.due (e.inquiry d segment) (none, opened) = none :=
        if_neg fun due => due.1 awaits
      rw [held] at lane
      rw [lane]
      exact ⟨UInt32.not_le.mp full, outside⟩

variable (flushes : e.registry.FlushesAhead)

include flushes

theorem held_check (nothing : (e.check s d segment).length = 0)
    (alive : ((e.check s d segment).session.lane d).status ≠ .abort) :
    ∃ g, e.pursuit s d ((s.lane d).placed base segment.seq) segment.data segment = (none, g) ∧
      (g.lane.status = .flush ∨
        segment.queued ≤ Length.add e.registry.maxFlushPoint segment.slack) := by
  have counted := appends.queued
  have few := appends.few
  have nonempty := appends.queued_ne_zero
  cases pursued : e.pursuit s d ((s.lane d).placed base segment.seq) segment.data segment with
  | mk cut? g =>
    obtain ⟨length, lane, -⟩ := appends.reply_of_pursuit pursued
    rw [length] at nothing
    rw [lane, Lane.status_cutIf] at alive
    cases cut? with
    | none =>
      refine ⟨g, rfl, ?_⟩
      by_contra left
      rw [not_or, UInt32.not_le] at left
      have bound : Engine.due (e.inquiry d segment) (none, g) = some .bound := if_pos left
      rw [bound] at nothing
      exact Lane.cutIf_bound_ne_zero nonempty _ nothing
    | some kind =>
      cases kind with
      | abort =>
        refine absurd ?_ alive
        exact Field.abort_of_pursue (Status.begun_ne_start _) (segment.offset_le _) pursued
      | bound => exact absurd nothing (Lane.cutIf_bound_ne_zero nonempty _)
      | boundary =>
        refine absurd nothing (Lane.cutIf_boundary_ne_zero (fun zero => ?_) nonempty _)
        rcases Field.found_of_pursue settled.narrowed_opening (segment.offset_le _) pursued
          (.inl rfl) with ⟨flush, target, -⟩ | ⟨c, calls, place, called, verdict, -, target⟩
        · have behind := settled.flush (Status.eq_of_begun flush nofun)
          rw [show (s.lane d).target = 0 from target.symm.trans zero] at behind
          exact absurd behind (Nat.not_lt_zero _)
        · have made := e.pursuit_scans s d ((s.lane d).placed base segment.seq) segment.data segment
          rw [pursued, called] at made
          obtain ⟨⟨x, known, report⟩, window⟩ := made c List.mem_cons_self
          have short := window.length_le
          have ahead := flushes x (List.mem_of_getElem? known) c.memory c.sight c.window.bytes
            (by omega)
          rw [← report] at ahead
          have sum := congrArg UInt32.toNat (target.symm.trans zero)
          rw [Length.toNat_add, UInt32.toNat_zero] at sum
          refine ahead verdict (UInt32.toNat_inj.mp ?_)
          rw [UInt32.toNat_zero]
          omega

/-- A check that cuts nothing has no more than the bound queued, or has found a boundary behind the
queue, or knew one and is below the bound. -/
theorem buffered_check (nothing : (e.check s d segment).length = 0)
    (alive : ((e.check s d segment).session.lane d).status ≠ .abort) :
    let r := e.check s d segment
    segment.queued ≤ Length.add e.registry.maxFlushPoint segment.slack ∨
      (Call.FindsBehind r.calls (r.session.lane d).origin segment.queued ∧
        (r.session.lane d).status = .flush) := by
  obtain ⟨g, pursued, flush | few⟩ := appends.held_check settled flushes nothing alive
  · obtain ⟨length, lane, calls⟩ := appends.reply_of_pursuit pursued
    have held : Engine.due (e.inquiry d segment) (none, g) = none := if_neg fun due => due.1 flush
    rw [held] at lane
    rcases Field.found_of_pursue settled.narrowed_opening (segment.offset_le _) pursued
      (.inr flush) with ⟨before, -, -⟩ | ⟨c, more, place, called, verdict, seq, target⟩
    · have below := (appends.awaiting_check settled (Status.eq_of_begun before nofun) nothing).1
      exact .inl (UInt32.le_of_lt below)
    · have outside : segment.queued < g.lane.target :=
        Field.total_lt_target settled.narrowed_opening pursued flush
      have origin : g.lane.origin = base := by
        have kept := (Field.extends_pursue (e.inquiry d segment)
          (Length.sub segment.queued segment.data.length.toUInt32) segment.data
          (e.opening s d ((s.lane d).placed base segment.seq) segment.data.length)).origin
        rw [show Field.pursue .. = _ from pursued] at kept
        exact kept
      have offset : c.window.seq - g.lane.origin = place := by
        rw [seq, origin]
        show base + place - base = place
        grind
      refine .inr ⟨⟨c, ?_, verdict, ?_⟩, ?_⟩
      · rw [calls, called, List.getLast?_reverse, List.head?_cons]
      · rw [lane]
        show _ < Length.add _ (c.window.seq - g.lane.origin)
        rw [offset, ← target]
        exact outside
      · rw [lane]
        exact flush
  · exact .inl few

end Segment.Appends

/-! ### The HTTP scanner -/

namespace Http

theorem isAdvancing_scanner [Holds α Progress] (byteCap : UInt32) :
    (Http.scanner byteCap : Scanner α Tally).IsAdvancing := by
  intro memory sight bytes short decisive
  simp only [Http.scanner, scan] at decisive ⊢
  cases claimed : Holds.claim (Progress.fresh sight.marks.fromClient) sight.own with
  | none =>
    rw [claimed] at decisive
    cases decisive
  | some p =>
    rw [claimed] at decisive
    simp only at decisive ⊢
    split at decisive
    · cases decisive
    · rename_i asked
      rw [if_neg asked]
      refine Progress.point_scan_ne_zero short fun search => ?_
      rw [search] at decisive
      cases decisive

end Http

/-! ### Runs -/

namespace Engine

variable {e : Engine α μ} {s : Session α}

/-- Checks of the opposite lane leave the status of a lane. -/
theorem status_afterAll {between : List (Direction × Segment)} {d : Direction}
    (others : ∀ x ∈ between, x.1 = d.opposite) :
    ((e.afterAll s between).2.lane d).status = (s.lane d).status := by
  induction between generalizing e s with
  | nil => rfl
  | cons x between ih =>
    obtain ⟨other, others⟩ := List.forall_mem_cons.mp others
    obtain ⟨-, -, -, slots, opposite⟩ := e.check_keeps s x.1 x.2
    rw [other, Direction.opposite_opposite] at opposite
    refine (ih others).trans ?_
    rw [other]
    exact (congrArg Lane.status opposite :)

theorem registry_afterAll (e : Engine α μ) (s : Session α) (run : List (Direction × Segment)) :
    (e.afterAll s run).1.registry = e.registry := by
  induction run generalizing e s with
  | nil => rfl
  | cons x run ih => exact (ih _ _).trans (e.check_keeps s x.1 x.2).1

/-- With scanners that find no boundary in front of the bytes they look at, as the HTTP scanner is
one, a faithful check that cuts nothing and leaves its lane alive leaves no more queued than the
bound. The one exception is a boundary that its last call found behind the queue; then the next
check of the lane cuts something, or the queue is below the bound. A check of a lane that awaits a
boundary cuts something, or the queue is below the bound and ends in front of the boundary. -/
theorem check_buffered (e : Engine α μ) (s : Session α)
    (untouched : ∀ d, (s.lane d).status = .start) (flushes : e.registry.FlushesAhead)
    (run : List (Direction × Segment)) (d : Direction) (segment : Segment)
    (faithful : e.Faithful s (run ++ [(d, segment)])) :
    let limit (segment : Segment) := Length.add e.registry.maxFlushPoint segment.slack
    let left := e.afterAll s run
    let r := left.1.check left.2 d segment
    let l := r.session.lane d
    (r.length = 0 → l.status ≠ .abort →
      segment.queued ≤ limit segment ∨
        Call.FindsBehind r.calls l.origin segment.queued ∧
          ∀ between next, (∀ x ∈ between, x.1 = d.opposite) →
            r.engine.Faithful r.session (between ++ [(d, next)]) →
            let later := r.engine.afterAll r.session between
            (later.1.check later.2 d next).length ≠ 0 ∨ next.queued < limit next) ∧
    ((left.2.lane d).status = .flush → r.length = 0 →
      segment.queued < limit segment ∧ segment.queued < l.target) ∧
    ∀ (β : Type) [Holds β Http.Progress] (byteCap : UInt32),
      (Http.scanner byteCap : Scanner β Tally).FlushesAhead := by
  intro limit left r l
  obtain ⟨before, last, -⟩ := faithful_append.mp faithful
  have fresh : ∀ d, (s.lane d).Settled := fun d => Lane.settled_of_untouched (untouched d)
  have settled := settled_afterAll fresh before
  have registry : left.1.registry = e.registry := e.registry_afterAll s run
  have same (segment : Segment) :
      Length.add left.1.registry.maxFlushPoint segment.slack = limit segment := by rw [registry]
  obtain ⟨n, base, appends, -⟩ := last.appends (settled d).few
  refine ⟨fun nothing alive => ?_, fun flush nothing => ?_,
    fun _ _ byteCap => (Http.isAdvancing_scanner byteCap).flushesAhead⟩
  · rw [← same]
    refine (appends.buffered_check (settled d) (registry ▸ flushes) nothing alive).imp_right ?_
    rintro ⟨found, flush⟩
    refine ⟨found, fun between next others more => ?_⟩
    intro later
    have settled' : ∀ d, (r.session.lane d).Settled :=
      lanes_check (fun _ _ kept => ⟨kept.few, kept.narrowed, kept.flush⟩) settled
        (appends.settled_check (settled d))
    obtain ⟨before, last, -⟩ := faithful_append.mp more
    have settled'' := settled_afterAll settled' before d
    obtain ⟨n, base, appends, -⟩ := last.appends settled''.few
    rw [or_iff_not_imp_left, not_ne_iff]
    intro nothing
    have below := (appends.awaiting_check settled''
      ((status_afterAll others).trans flush) nothing).1
    have registry' : later.1.registry = e.registry :=
      (r.engine.registry_afterAll r.session between).trans
        ((left.1.check_keeps left.2 d segment).1.trans registry)
    rwa [registry'] at below
  · rw [← same]
    exact appends.awaiting_check (settled d) flush nothing

/-- With a bound of sixteen bytes, a request head of thirty-eight bytes is left uncut, since fifty
bytes of body are awaited. With the next byte the queue is cut. -/
theorem check_buffered_body :
    let registry : Registry Memo Tally := { Registry.httpOn 80 with maxFlushPoint := 16 }
    let e : Engine Memo Tally := .ofRegistry registry
    let s := e.openSession 1 80
    let segment (text : String) (queued seq : UInt32) : Segment :=
      { data := text.toUTF8.toList, queued, seq, marks := .ofDirection .toServer }
    let run := [(Direction.toServer, segment "GET / HTTP/1.1\r\n" 16 0)]
    let head := segment "Content-Length: 50\r\n\r\n" 38 16
    let next := segment "x" 39 38
    let left := e.afterAll s run
    let r := left.1.check left.2 .toServer head
    e.registry.FlushesAhead ∧ e.Faithful s (run ++ [(.toServer, head)]) ∧
      r.length = 0 ∧ (r.session.lane .toServer).status = .flush ∧
      Call.FindsBehind r.calls (r.session.lane .toServer).origin 38 ∧
      (r.engine.check r.session .toServer next).length ≠ 0 := by
  intro registry e s segment run head next left r
  have untouched : ∀ d, (s.lane d).status = .start := by
    intro d
    cases d <;> rfl
  have flushes : e.registry.FlushesAhead := by
    intro x listed
    rw [List.mem_singleton.mp listed]
    exact (Http.isAdvancing_scanner 0).flushesAhead
  have faithful : e.Faithful s (run ++ [(.toServer, head)]) := by
    refine ⟨⟨?_, ?_, ?_, ?_, ?_⟩, ⟨?_, ?_, ?_, ?_, ?_⟩, trivial⟩ <;> decide +kernel
  have faithful' : r.engine.Faithful r.session [(.toServer, next)] := by
    refine ⟨⟨?_, ?_, ?_, ?_, ?_⟩, trivial⟩ <;> decide +kernel
  have held : r.length = 0 := by decide +kernel
  have waits : (r.session.lane .toServer).status = .flush := by decide +kernel
  obtain ⟨bounded, -, -⟩ := e.check_buffered s untouched flushes run .toServer head faithful
  have alive : (r.session.lane .toServer).status ≠ .abort := by
    rw [waits]
    nofun
  have past : ¬ head.queued ≤ Length.add e.registry.maxFlushPoint head.slack := by decide +kernel
  obtain ⟨found, later⟩ := (bounded held alive).resolve_left past
  refine ⟨flushes, faithful, held, waits, found, ?_⟩
  refine (later [] next nofun faithful').resolve_right ?_
  decide +kernel

end Engine

end StreamFraming
