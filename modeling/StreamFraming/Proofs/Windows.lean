import Mathlib.Algebra.Group.Nat.Defs
import Mathlib.Data.List.Infix
import StreamFraming.Proofs.Targets

/-!
# The windows of a scanner

A scanner that takes part in a race goes on where its last answer sent it, and sees the bytes of the
stream from there on (`Call.Tiles`). A lane keeps track of that place for its scanners
(`Lane.TracksScans`): it is the first byte that was not read yet, or the target. Races and pursuits
keep it so (`Field.pursue_tracks`).
-/

namespace StreamFraming

variable {α μ : Type}

/-! ### Calls -/

namespace Call

def start (c : Call α μ) : Nat := c.window.seq.toNat

def resume? (c : Call α μ) : Option Nat :=
  match c.report.verdict with
  | .search => some (c.start + c.window.bytes.length)
  | .flush | .skip => some (c.start + c.report.point.toNat)
  | .abort => none

/-- The boundary that the scanner has found. -/
def boundary? (c : Call α μ) : Option Nat :=
  match c.report.verdict with
  | .flush => some (c.start + c.report.point.toNat)
  | .search | .skip | .abort => none

/-- The calls see bytes of a stream, the first one from a place on, and every other one from where
the call before it has sent the scanner. -/
def Tiles (xs : List UInt8) (place? : Option Nat) : List (Call α μ) → Prop
  | [] => True
  | c :: calls =>
    place? = some c.start ∧ c.window.bytes ≠ [] ∧ c.window.bytes <+: xs.drop c.start ∧
      Tiles xs c.resume? calls

def next? (place? : Option Nat) : List (Call α μ) → Option Nat
  | [] => place?
  | c :: calls => next? c.resume? calls

def ofId (id : Nat) (calls : List (Call α μ)) : List (Call α μ) :=
  calls.filter fun c => c.sight.id = id

def boundaries (calls : List (Call α μ)) : List Nat := calls.filterMap boundary?

variable {xs : List UInt8} {place? : Option Nat} {calls : List (Call α μ)} {c : Call α μ} {id : Nat}

theorem tiles_concat : Tiles xs place? (calls ++ [c]) ↔
    Tiles xs place? calls ∧ next? place? calls = some c.start ∧ c.window.bytes ≠ [] ∧
      c.window.bytes <+: xs.drop c.start := by
  induction calls generalizing place? with
  | nil => simp [Tiles, next?]
  | cons x calls ih => simp [Tiles, next?, ih, and_assoc]

@[simp] theorem next?_concat : next? place? (calls ++ [c]) = c.resume? := by
  induction calls generalizing place? with
  | nil => rfl
  | cons x calls ih => exact ih

theorem ofId_concat_self : ofId c.sight.id (calls ++ [c]) = ofId c.sight.id calls ++ [c] := by
  simp [ofId]

theorem ofId_concat_of_ne (other : c.sight.id ≠ id) : ofId id (calls ++ [c]) = ofId id calls := by
  simp [ofId, other]

@[simp] theorem boundaries_concat :
    boundaries (calls ++ [c]) = boundaries calls ++ c.boundary?.toList := by
  simp only [boundaries, List.filterMap_append, List.filterMap_cons, List.filterMap_nil]
  cases c.boundary? <;> rfl

/-- The place in the stream where a scanner goes on. -/
def due (calls : List (Call α μ)) (id : Nat) : Option Nat := next? (some 0) (ofId id calls)

theorem due_concat_self : due (calls ++ [c]) c.sight.id = c.resume? := by
  rw [due, ofId_concat_self, next?_concat]

theorem due_concat_of_ne (other : c.sight.id ≠ id) : due (calls ++ [c]) id = due calls id := by
  rw [due, ofId_concat_of_ne other, due]

/-- Every scanner sees the stream from its first byte on. -/
def AllTile (xs : List UInt8) (calls : List (Call α μ)) : Prop :=
  ∀ id, Tiles xs (some 0) (ofId id calls)

theorem AllTile.concat (tile : AllTile xs calls) (here : due calls c.sight.id = some c.start)
    (nonempty : c.window.bytes ≠ []) (inside : c.window.bytes <+: xs.drop c.start) :
    AllTile xs (calls ++ [c]) := by
  intro id
  by_cases same : c.sight.id = id
  · subst same
    rw [ofId_concat_self, tiles_concat]
    exact ⟨tile _, here, nonempty, inside⟩
  · rw [ofId_concat_of_ne same]
    exact tile id

end Call

/-- The window holds the bytes of a stream between two places, and there are some. -/
structure Window.Spans (w : Window) (xs : List UInt8) (start stop : Nat) : Prop where
  place : w.seq.toNat = start
  length : start + w.bytes.length = stop
  nonempty : w.bytes ≠ []
  inside : w.bytes <+: xs.drop start
  short : stop < 2 ^ 31

/-- A scanner that decides about a window decides about some of its bytes. -/
def Scanner.IsAdvancing (s : Scanner α μ) : Prop :=
  ∀ memory sight bytes, bytes.length < 2 ^ 31 →
    (s.scan memory sight bytes).verdict.isDecisive = true →
      (s.scan memory sight bytes).point ≠ 0

def Registry.IsAdvancing (r : Registry α μ) : Prop := ∀ s ∈ r.scanners, s.IsAdvancing

theorem Registry.IsAdvancing.scanner? {r : Registry α μ} (advancing : r.IsAdvancing) {id : Nat}
    {s : Scanner α μ} (known : r.scanner? id = some s) : s.IsAdvancing :=
  advancing s (List.mem_of_getElem? known)

/-! ### Races -/

namespace Field

def history (past : List (Call α μ)) (f : Field α μ) : List (Call α μ) := past ++ f.calls.reverse

/-- While a race is run over a window at `start`, the scanners in `waiting` are about to be asked;
the others that are left have read it up to its end. -/
structure Races (f : Field α μ) (xs : List UInt8) (past : List (Call α μ)) (ends : List Nat)
    (start stop : Nat) (waiting : List Nat) : Prop where
  tile : Call.AllTile xs (f.history past)
  listed : ∀ id ∈ waiting, f.lane.eligible.contains id = true
  due : ∀ id, f.lane.eligible.contains id = true →
    Call.due (f.history past) id = some (if id ∈ waiting then start else stop)
  boundaries : Call.boundaries (f.history past) = ends

/-- A race over a window at `start` is decided by the verdict `v`. -/
structure Raced (f : Field α μ) (xs : List UInt8) (past : List (Call α μ)) (ends : List Nat)
    (start : Nat) (v : Verdict) : Prop where
  tile : Call.AllTile xs (f.history past)
  due : ∀ id, f.lane.eligible.contains id = true →
    Call.due (f.history past) id = some (start + f.lane.target.toNat)
  boundaries : Call.boundaries (f.history past) =
    ends ++ if v = .flush then [start + f.lane.target.toNat] else []
  advances : f.lane.target ≠ 0

variable {q : Inquiry α μ} {xs : List UInt8} {past : List (Call α μ)} {ends : List Nat}
  {start stop : Nat} {waiting : List Nat} {f : Field α μ}

theorem Races.turn {id : Nat} {g : Field α μ}
    (races : f.Races xs past ends start stop (id :: waiting)) (fresh : id ∉ waiting)
    (tile : Call.AllTile xs (g.history past)) (boundaries : Call.boundaries (g.history past) = ends)
    (left : ∀ x, x ≠ id → g.lane.eligible.contains x = f.lane.eligible.contains x)
    (others : ∀ x, x ≠ id → Call.due (g.history past) x = Call.due (f.history past) x)
    (self : g.lane.eligible.contains id = true → Call.due (g.history past) id = some stop) :
    g.Races xs past ends start stop waiting := by
  refine ⟨tile, fun x member => ?_, fun x member => ?_, boundaries⟩
  · have other : x ≠ id := fun same => fresh (same ▸ member)
    rw [left x other]
    exact races.listed x (List.mem_cons_of_mem _ member)
  · by_cases same : x = id
    · subst same
      rw [self member, if_neg fresh]
    · rw [others x same, races.due x (left x same ▸ member)]
      simp [same]

theorem Races.pass {id : Nat} (races : f.Races xs past ends start stop (id :: waiting))
    (fresh : id ∉ waiting) : (f.dismiss id).Races xs past ends start stop waiting := by
  have struck (x : Nat) : (f.dismiss id).lane.eligible.contains x =
      (f.lane.eligible.contains x && x != id) := ScannerSet.contains_erase ..
  refine races.turn fresh races.tile races.boundaries (fun x other => ?_) (fun _ _ => rfl)
    fun member => ?_
  · simp [struck x, other]
  · simp [struck id] at member

section Race

variable {w : Window} (spans : w.Spans xs start stop) {id : Nat} (s : Scanner α μ)
  (races : f.Races xs past ends start stop (id :: waiting))

include spans races

theorem Races.consult (q : Inquiry α μ) :
    ∃ c : Call α μ, (f.consult q w id s).1 = c.report.verdict ∧
      (f.consult q w id s).2.lane.target = c.report.point ∧
      c.start = start ∧ c.window = w ∧ c.report = s.scan c.memory c.sight w.bytes ∧
      Call.AllTile xs ((f.consult q w id s).2.history past) ∧
      Call.boundaries ((f.consult q w id s).2.history past) = ends ++ c.boundary?.toList ∧
      Call.due ((f.consult q w id s).2.history past) id = c.resume? ∧
      ∀ x, x ≠ id →
        Call.due ((f.consult q w id s).2.history past) x = Call.due (f.history past) x := by
  let c := s.look ((f.memories.get? id).getD s.memory) id q.marks f.lane.slots f.peer w
  have grown : (f.consult q w id s).2.history past = f.history past ++ [c] := by
    show past ++ (c :: f.calls).reverse = _
    rw [List.reverse_cons, ← List.append_assoc]
    rfl
  have here : Call.due (f.history past) id = some start := by
    rw [races.due id (races.listed id List.mem_cons_self), if_pos List.mem_cons_self]
  have place : c.start = start := spans.place
  rw [grown]
  refine ⟨c, rfl, rfl, place, rfl, rfl, ?_, ?_, Call.due_concat_self, fun x other => ?_⟩
  · refine races.tile.concat (here.trans (congrArg some place.symm)) spans.nonempty ?_
    rw [place]
    exact spans.inside
  · rw [Call.boundaries_concat, races.boundaries]
  · exact Call.due_concat_of_ne (Ne.symm other)

theorem Races.read (fresh : id ∉ waiting) {g : Field α μ}
    (searches : f.consult q w id s = (.search, g)) :
    g.Races xs past ends start stop waiting := by
  obtain ⟨c, verdict, -, place, window, -, tile, boundaries, self, others⟩ :=
    races.consult spans s q
  have left : (f.consult q w id s).2.lane.eligible = f.lane.eligible := rfl
  rw [searches] at verdict tile boundaries self others left
  have nothing : c.boundary? = none := by rw [Call.boundary?, ← verdict]
  have resume : c.resume? = some stop := by
    rw [Call.resume?, ← verdict, place, window]
    exact congrArg some spans.length
  rw [nothing, Option.toList_none, List.append_nil] at boundaries
  exact races.turn fresh tile boundaries (fun _ _ => by rw [left]) others
    fun _ => self.trans resume

theorem Races.lost (fresh : id ∉ waiting) {g : Field α μ}
    (aborts : f.consult q w id s = (.abort, g)) :
    (g.dismiss id).Races xs past ends start stop waiting := by
  obtain ⟨c, verdict, -, -, -, -, tile, boundaries, -, others⟩ := races.consult spans s q
  have left : (f.consult q w id s).2.lane.eligible = f.lane.eligible := rfl
  rw [aborts] at verdict tile boundaries others left
  have nothing : c.boundary? = none := by rw [Call.boundary?, ← verdict]
  have struck (x : Nat) : (g.dismiss id).lane.eligible.contains x =
      (g.lane.eligible.contains x && x != id) := ScannerSet.contains_erase ..
  rw [nothing, Option.toList_none, List.append_nil] at boundaries
  refine races.turn fresh tile boundaries (fun x other => ?_) others fun member => ?_
  · rw [struck x, left]
    simp [other]
  · simp [struck id] at member

theorem Races.won (advancing : s.IsAdvancing) {g : Field α μ} {v : Verdict}
    (decisive : v.isDecisive = true) (decides : f.consult q w id s = (v, g)) :
    (g.award id).Raced xs past ends start v := by
  obtain ⟨c, verdict, point, place, -, answer, tile, boundaries, self, -⟩ :=
    races.consult spans s q
  rw [decides] at verdict point tile boundaries self
  have length := spans.length
  have short := spans.short
  have advances := advancing c.memory c.sight w.bytes (by omega)
  rw [← answer, ← verdict, ← point] at advances
  have found : c.boundary?.toList = if v = .flush then [start + g.lane.target.toNat] else [] := by
    rw [Call.boundary?, ← verdict, place, ← point]
    cases v <;> rfl
  have resume : c.resume? = some (start + g.lane.target.toNat) := by
    rw [Call.resume?, ← verdict, place, ← point]
    cases v <;> first | rfl | cases decisive
  refine ⟨tile, fun x member => ?_, boundaries.trans (by rw [found]; rfl), advances decisive⟩
  have member : (ScannerSet.singleton id).contains x = true := member
  rw [ScannerSet.contains_singleton, Bool.and_eq_true, beq_iff_eq] at member
  rw [member.1]
  exact self.trans resume

end Race

theorem race_races {w : Window} (spans : w.Spans xs start stop) (advancing : q.registry.IsAdvancing)
    {ids : List Nat} {v : Verdict} (undecided : v.isDecisive = false) (once : ids.Nodup)
    (races : f.Races xs past ends start stop ids) :
    let r := race q w ids v f
    (r.1.isDecisive = false → r.2.Races xs past ends start stop []) ∧
      (r.1.isDecisive = true → r.2.Raced xs past ends start r.1) := by
  -- one turn after the other: each scanner that has had its turn waits at the end of the window
  induction ids generalizing v f with
  | nil =>
    refine ⟨fun _ => races, fun decided => ?_⟩
    rw [show (race q w [] v f).1 = v from rfl, undecided] at decided
    cases decided
  | cons id ids ih =>
    obtain ⟨fresh, once⟩ := List.nodup_cons.mp once
    unfold race
    cases known : q.registry.scanner? id with
    | none => exact ih undecided once (races.pass fresh)
    | some s =>
      simp only
      cases answered : f.consult q w id s with
      | mk u g =>
        cases u with
        | search => exact ih rfl once (races.read spans s fresh answered)
        | abort => exact ih rfl once (races.lost spans s fresh answered)
        | flush | skip =>
          have won := races.won spans s (advancing.scanner? known) rfl answered
          exact ⟨fun (undecided : true = false) => absurd undecided (by decide), fun _ => won⟩

end Field

/-! ### Lanes -/

/-- Where the scanners of a lane go on, with `n` bytes of the queue read. -/
def Lane.place (l : Lane α) (n : Nat) : Nat :=
  match l.status with
  | .flush | .skip => l.target.toNat
  | .start | .search | .abort => n

/-- A lane that has read `n` bytes behind the first `base` bytes of the stream, and has cut it at
`ends`, knows where its scanners go on. Targets saturate, so they count as far as a stream may
reach. -/
structure Lane.TracksScans (l : Lane α) (xs : List UInt8) (h : List (Call α μ)) (base n : Nat)
    (ends : List Nat) : Prop where
  tile : Call.AllTile xs h
  narrowed : l.IsNarrowed
  due : l.status ≠ .abort → ∀ id, l.eligible.contains id = true →
    ∃ place, Call.due h id = some place ∧ min place (2 ^ 31) = min (base + l.place n) (2 ^ 31)
  ahead : l.status = .flush ∨ l.status = .skip → n ≤ l.target.toNat
  advances : l.status = .flush → l.target ≠ 0
  settled : l.status ≠ .flush → Call.boundaries h = ends
  awaits : l.status = .flush → ∃ place, Call.boundaries h = ends ++ [place] ∧
    min place (2 ^ 31) = min (base + l.target.toNat) (2 ^ 31)

section Untargeted

variable {xs : List UInt8} {h : List (Call α μ)} {base n : Nat} {ends : List Nat} {l : Lane α}

theorem Lane.TracksScans.of_untargeted (untargeted : ¬ (l.status = .flush ∨ l.status = .skip))
    (tile : Call.AllTile xs h) (boundaries : Call.boundaries h = ends)
    (due : l.status ≠ .abort → ∀ id, l.eligible.contains id = true →
      ∃ place, Call.due h id = some place ∧ min place (2 ^ 31) = min (base + n) (2 ^ 31)) :
    l.TracksScans xs h base n ends where
  tile := tile
  narrowed targeted := absurd targeted untargeted
  due ongoing id member := by
    have here : l.place n = n := by
      cases status : l.status with
      | start | search | abort => rw [place, status]
      | flush => exact absurd (.inl status) untargeted
      | skip => exact absurd (.inr status) untargeted
    rw [here]
    exact due ongoing id member
  ahead targeted := absurd targeted untargeted
  advances flush := absurd (.inl flush) untargeted
  settled _ := boundaries
  awaits flush := absurd (.inl flush) untargeted

theorem Lane.TracksScans.of_aborted (aborted : l.status = .abort) (tile : Call.AllTile xs h)
    (boundaries : Call.boundaries h = ends) : l.TracksScans xs h base n ends :=
  .of_untargeted (by simp [aborted]) tile boundaries fun ongoing => absurd aborted ongoing

end Untargeted

namespace Field

variable {q : Inquiry α μ} {xs : List UInt8} {past : List (Call α μ)} {ends : List Nat}
  {base n : Nat} {idx : UInt32} {data : List UInt8} {f g : Field α μ} {m : Move}

theorem races_of_tracks (tracks : f.lane.TracksScans xs (f.history past) base n ends)
    (ongoing : f.lane.status = .search ∨ f.lane.status = .skip)
    (near : base + f.lane.place n < 2 ^ 31) (stop : Nat) :
    f.Races xs past ends (base + f.lane.place n) stop f.lane.eligible.ids := by
  refine ⟨tracks.tile, fun id listed => ScannerSet.mem_ids.mp listed, fun id member => ?_, ?_⟩
  · obtain ⟨place, due, same⟩ := tracks.due
      (by rcases ongoing with ongoing | ongoing <;> simp [ongoing]) id member
    rw [if_pos (ScannerSet.mem_ids.mpr member), due]
    exact congrArg some (by omega)
  · exact tracks.settled (by rcases ongoing with ongoing | ongoing <;> simp [ongoing])

theorem Races.tracks {start stop : Nat} (races : f.Races xs past ends start stop [])
    (searching : f.lane.status = .search) (place : stop = base + n) :
    f.lane.TracksScans xs (f.history past) base n ends :=
  .of_untargeted (by simp [searching]) races.tile races.boundaries fun _ id member =>
    ⟨stop, races.due id member, congrArg (min · _) place⟩

theorem Raced.tracks {v : Verdict} (raced : f.Raced xs past ends (base + idx.toNat) v)
    (decisive : v.isDecisive = true)
    (alone : ∃ id, id < ScannerSet.capacity ∧ f.lane.eligible = .singleton id)
    (ahead : n ≤ (Length.add f.lane.target idx).toNat) :
    { f.lane with status := v.status, target := Length.add f.lane.target idx }.TracksScans xs
      (f.history past) base n ends := by
  have sum := Length.toNat_add f.lane.target idx
  have positive : f.lane.target.toNat ≠ 0 := fun zero => raced.advances (UInt32.toNat_inj.mp zero)
  -- where the sum saturates, both places lie past any stream
  have same : min (base + idx.toNat + f.lane.target.toNat) (2 ^ 31) =
      min (base + (Length.add f.lane.target idx).toNat) (2 ^ 31) := by omega
  refine ⟨raced.tile, fun _ => alone, fun _ id member => ⟨_, raced.due id member, ?_⟩,
    fun _ => ahead, fun _ nothing => ?_, fun other => ?_, fun flush => ⟨_, ?_, same⟩⟩
  · rw [same]
    cases v <;> first | rfl | cases decisive
  · have nothing : Length.add f.lane.target idx = 0 := nothing
    rw [nothing, UInt32.toNat_zero] at sum
    omega
  · rw [raced.boundaries, if_neg, List.append_nil]
    intro flush
    exact other (by rw [flush]; rfl)
  · rw [raced.boundaries, if_pos (Verdict.status_inj (w := .flush) flush)]

theorem Raced.leads {v : Verdict} (raced : f.Raced xs past ends (base + idx.toNat) v)
    (decisive : v.isDecisive = true)
    (alone : ∃ id, id < ScannerSet.capacity ∧ f.lane.eligible = .singleton id) (total : UInt32)
    (near : base + total.toNat < 2 ^ 31) :
    let target := Length.add f.lane.target idx
    let l := { f.lane with status := v.status, target }
    (target ≤ total → idx < target ∧ l.TracksScans xs (f.history past) base target.toNat ends) ∧
      (¬ target ≤ total → l.TracksScans xs (f.history past) base total.toNat ends) := by
  have sum := Length.toNat_add f.lane.target idx
  have positive : f.lane.target.toNat ≠ 0 := fun zero => raced.advances (UInt32.toNat_inj.mp zero)
  refine ⟨fun inside => ⟨?_, raced.tracks decisive alone (Nat.le_refl _)⟩,
    fun outside => raced.tracks decisive alone ?_⟩
  · rw [UInt32.le_iff_toNat_le] at inside
    rw [UInt32.lt_iff_toNat_lt]
    omega
  · rw [UInt32.le_iff_toNat_le] at outside
    omega

theorem contest_tracks (advancing : q.registry.IsAdvancing) (narrowed : f.lane.IsNarrowed)
    (ongoing : f.lane.status = .search ∨ f.lane.status = .skip)
    (spans : Window.Spans ⟨f.lane.origin + idx, data⟩ xs (base + idx.toNat) (base + q.total.toNat))
    (races : f.Races xs past ends (base + idx.toNat) (base + q.total.toNat) f.lane.eligible.ids)
    (h : contest q idx data f = (m, g)) :
    (∃ next, m = .again next ∧ (g.lane.status = .abort ∨ idx < next) ∧
        g.lane.TracksScans xs (g.history past) base next.toNat ends) ∨
      m = .wait ∧ g.lane.TracksScans xs (g.history past) base q.total.toNat ends := by
  have once : f.lane.eligible.ids.Nodup :=
    (ScannerSet.pairwise_ids f.lane.eligible).imp fun less => Nat.ne_of_lt less
  obtain ⟨undecided, decided⟩ := race_races spans advancing (v := .search) rfl once races
  have last := race_decided q f ⟨f.lane.origin + idx, data⟩ f.lane.eligible.ids
    (v := .search) rfl
  have kept := status_race (q := q) (f := f) ⟨f.lane.origin + idx, data⟩ f.lane.eligible.ids .search
  cases raced : race q ⟨f.lane.origin + idx, data⟩ f.lane.eligible.ids .search f with
  | mk v r =>
    rw [raced] at undecided decided last kept
    simp only at undecided decided last kept
    cases left : r.lane.eligible.isEmpty with
    | true =>
      have lost : v.isDecisive = false := by
        rw [Bool.eq_false_iff]
        intro decisive
        obtain ⟨id, listed, eligible, -⟩ := last decisive
        rw [show r.lane.eligible = .singleton id from eligible,
          ScannerSet.isEmpty_singleton
            (ScannerSet.contains_lt (ScannerSet.mem_ids.mp listed))] at left
        cases left
      rw [contest_of_empty raced left] at h
      have given_up {n : Nat} : { r.lane.abort with
          target := Length.add r.lane.target idx }.TracksScans xs (r.history past) base n ends :=
        .of_aborted rfl (undecided lost).tile (undecided lost).boundaries
      cases h
      by_cases inside : Length.add r.lane.target idx ≤ q.total
      · exact .inl ⟨_, if_pos inside, .inl rfl, given_up⟩
      · exact .inr ⟨if_neg inside, given_up⟩
    | false =>
      rw [contest_of_race raced left] at h
      cases v with
      | search =>
        cases h
        have read := undecided rfl
        refine .inr ⟨rfl, ?_⟩
        exact Races.tracks (f := { r with lane := { r.lane with status := .search } })
          ⟨read.tile, read.listed, read.due, read.boundaries⟩ rfl rfl
      | abort =>
        cases h
        refine .inr ⟨rfl, (undecided rfl).tracks ?_ rfl⟩
        rcases ongoing with searching | skipping
        · exact kept.trans searching
        · rw [race_aborted narrowed (.inr skipping) raced] at left
          cases left
      | flush | skip =>
        obtain ⟨id, listed, eligible, -⟩ := last rfl
        obtain ⟨within, beyond⟩ := (decided rfl).leads rfl
          ⟨id, ScannerSet.contains_lt (ScannerSet.mem_ids.mp listed), eligible⟩ q.total spans.short
        cases h
        by_cases inside : Length.add r.lane.target idx ≤ q.total
        · exact .inl ⟨_, if_pos inside, .inr (within inside).1, (within inside).2⟩
        · exact .inr ⟨if_neg inside, beyond inside⟩

/-! ### Pursuits -/

/-- The boundary that is to be cut, and the lane behind it: its scanner goes on at the boundary. -/
structure Bounded (f : Field α μ) (xs : List UInt8) (past : List (Call α μ)) (ends : List Nat)
    (base : Nat) : Prop where
  tile : Call.AllTile xs (f.history past)
  searching : f.lane.status = .search
  positive : f.lane.target ≠ 0
  due : ∀ id, f.lane.eligible.contains id = true →
    Call.due (f.history past) id = some (base + f.lane.target.toNat)
  boundaries : Call.boundaries (f.history past) = ends ++ [base + f.lane.target.toNat]

/-- What a pursuit of a whole queue ends with. -/
def Ended (total : UInt32) (xs : List UInt8) (past : List (Call α μ)) (ends : List Nat)
    (base : Nat) (result : Option Cut × Field α μ) : Prop :=
  if result.1 = some .boundary then result.2.Bounded xs past ends base
  else result.2.lane.TracksScans xs (result.2.history past) base total.toNat ends

def Moved (idx total : UInt32) (xs : List UInt8) (past : List (Call α μ)) (ends : List Nat)
    (base : Nat) : Move × Field α μ → Prop
  | (.again next, g) => (g.lane.status = .abort ∨ idx < next) ∧
      g.lane.TracksScans xs (g.history past) base next.toNat ends
  | (.wait, g) => Ended total xs past ends base (none, g)
  | (.cut kind, g) => Ended total xs past ends base (some kind, g)

theorem Ended.of_aborted {cut? : Option Cut}
    (tracks : f.lane.TracksScans xs (f.history past) base n ends) (aborted : f.lane.status = .abort)
    (other : cut? ≠ some .boundary) : Ended q.total xs past ends base (cut?, f) := by
  rw [Ended, if_neg other]
  exact .of_aborted aborted tracks.tile (tracks.settled (by simp [aborted]))

theorem tracks_ahead {l : Lane α} {h : List (Call α μ)} (tracks : l.TracksScans xs h base n ends)
    (waiting : l.status = .flush ∨ l.status = .skip) {n' : Nat} (behind : n' ≤ l.target.toNat) :
    l.TracksScans xs h base n' ends := by
  refine ⟨tracks.tile, tracks.narrowed, fun ongoing id member => ?_, fun _ => behind,
    tracks.advances, tracks.settled, tracks.awaits⟩
  obtain ⟨place, due, same⟩ := tracks.due ongoing id member
  refine ⟨place, due, same.trans ?_⟩
  rcases waiting with waiting | waiting <;> simp only [Lane.place, waiting]

theorem bounded_of_flush (tracks : f.lane.TracksScans xs (f.history past) base n ends)
    (flush : f.lane.status = .flush) (near : base + f.lane.target.toNat < 2 ^ 31) :
    Bounded { f with lane := { f.lane with status := .search } } xs past ends base := by
  refine ⟨tracks.tile, rfl, tracks.advances flush, fun id member => ?_, ?_⟩
  · obtain ⟨place, due, same⟩ := tracks.due (by simp [flush]) id member
    rw [Lane.place, flush] at same
    simp only at same
    have here : place = base + f.lane.target.toNat := by omega
    exact due.trans (congrArg some here)
  · obtain ⟨place, boundaries, same⟩ := tracks.awaits flush
    have here : place = base + f.lane.target.toNat := by omega
    exact boundaries.trans (congrArg (fun x => ends ++ [x]) here)

section Stream

variable (advancing : q.registry.IsAdvancing) (place : f.lane.origin.toNat = base)
  (size : idx.toNat + data.length = q.total.toNat) (near : base + q.total.toNat < 2 ^ 31)
  (inside : data <+: xs.drop (base + idx.toNat))

include place size near inside

theorem spans_of_drop {target : UInt32} (behind : idx ≤ target) (ahead : target < q.total) :
    Window.Spans ⟨f.lane.origin + target, data.drop (target - idx).toNat⟩ xs
      (base + target.toNat) (base + q.total.toNat) := by
  rw [UInt32.le_iff_toNat_le] at behind
  rw [UInt32.lt_iff_toNat_lt] at ahead
  have passed : (target - idx).toNat = target.toNat - idx.toNat :=
    UInt32.toNat_sub_of_le _ _ (UInt32.le_iff_toNat_le.mpr behind)
  rw [passed]
  refine ⟨?_, ?_, ?_, ?_, near⟩
  · rw [UInt32.toNat_add, place]
    omega
  · rw [List.length_drop]
    omega
  · rw [ne_eq, List.drop_eq_nil_iff]
    omega
  · have later := inside.drop (target.toNat - idx.toNat)
    rw [List.drop_drop] at later
    rwa [show base + target.toNat = base + idx.toNat + (target.toNat - idx.toNat) by omega]

include advancing

theorem contest_moved {target : UInt32}
    (tracks : f.lane.TracksScans xs (f.history past) base idx.toNat ends)
    (ongoing : f.lane.status = .search ∨ f.lane.status = .skip)
    (here : f.lane.place idx.toNat = target.toNat) (behind : idx ≤ target)
    (ahead : target < q.total) :
    Moved idx q.total xs past ends base
      (contest q target (data.drop (target - idx).toNat) f) := by
  have spans := spans_of_drop place size near inside behind ahead
  have waiting := races_of_tracks tracks ongoing
    (by rw [here]; rw [UInt32.lt_iff_toNat_lt] at ahead; omega) (base + q.total.toNat)
  rw [here] at waiting
  cases h : contest q target (data.drop (target - idx).toNat) f with
  | mk m g =>
    rcases contest_tracks advancing tracks.narrowed ongoing spans waiting h with
      ⟨next, rfl, progress, tracked⟩ | ⟨rfl, tracked⟩
    · refine ⟨progress.imp_right fun less => ?_, tracked⟩
      rw [UInt32.lt_iff_toNat_lt] at less ⊢
      rw [UInt32.le_iff_toNat_le] at behind
      omega
    · exact tracked

theorem move_moved (started : f.lane.status ≠ .start)
    (tracks : f.lane.TracksScans xs (f.history past) base idx.toNat ends) :
    Moved idx q.total xs past ends base (move q idx data f) := by
  cases status : f.lane.status with
  | start => exact absurd status started
  | abort =>
    simp only [move, status]
    exact Ended.of_aborted tracks status (by simp)
  | search =>
    have here : f.lane.place idx.toNat = idx.toNat := by rw [Lane.place, status]
    simp only [move, status]
    split
    · rename_i ahead
      have moved := contest_moved advancing place size near inside tracks (.inl status) here
        (UInt32.le_refl idx) ahead
      rwa [UInt32.sub_self] at moved
    · rename_i done
      rw [UInt32.lt_iff_toNat_lt] at done
      show f.lane.TracksScans xs (f.history past) base q.total.toNat ends
      rwa [show q.total.toNat = idx.toNat by omega]
  | flush =>
    simp only [move, status]
    split
    · rename_i found
      rw [UInt32.le_iff_toNat_le] at found
      exact bounded_of_flush tracks status (by omega)
    · rename_i outside
      rw [UInt32.le_iff_toNat_le] at outside
      have waits := tracks_ahead tracks (.inl status)
        (show q.total.toNat ≤ f.lane.target.toNat by omega)
      split <;> exact waits
  | skip =>
    have here : f.lane.place idx.toNat = f.lane.target.toNat := by rw [Lane.place, status]
    have behind := UInt32.le_iff_toNat_le.mpr (tracks.ahead (.inr status))
    rcases move_skip q idx data status with ⟨waits, few⟩ | ⟨ahead, bytes, asks, rest⟩
    · rw [waits]
      refine tracks_ahead tracks (.inr status) ?_
      rcases few with outside | ⟨-, few⟩
      · exact UInt32.le_iff_toNat_le.mp outside
      · rw [UInt32.toNat_sub_of_le _ _ behind] at few
        omega
    · have all : bytes = data.drop (f.lane.target - idx).toNat := by
        rcases rest with ⟨passed, rfl⟩ | ⟨-, rfl⟩
        · rw [UInt32.le_antisymm passed behind, UInt32.sub_self]
          rfl
        · rfl
      rw [asks, all]
      exact contest_moved advancing place size near inside tracks (.inr status) here behind ahead

end Stream

/-- A pursuit of a whole queue cuts at the first boundary that its scanners have found and not
reached yet, or leaves a lane that keeps track of where they go on. -/
theorem pursue_tracks (advancing : q.registry.IsAdvancing) (started : f.lane.status ≠ .start)
    (place : f.lane.origin.toNat = base) (size : idx.toNat + data.length = q.total.toNat)
    (near : base + q.total.toNat < 2 ^ 31) (inside : data <+: xs.drop (base + idx.toNat))
    (tracks : f.lane.TracksScans xs (f.history past) base idx.toNat ends) :
    Ended q.total xs past ends base (pursue q idx data f) := by
  fun_induction pursue q idx data f with
  | case1 idx data f kind g moved =>
    have ended := move_moved advancing place size near inside started tracks
    rwa [moved] at ended
  | case2 idx data f g moved =>
    have ended := move_moved advancing place size near inside started tracks
    rwa [moved] at ended
  | case3 idx data f next g moved ahead _ ih =>
    have went := move_moved advancing place size near inside started tracks
    rw [moved] at went
    have within := UInt32.le_iff_toNat_le.mp (move_again moved).1
    have passed : (next - idx).toNat = next.toNat - idx.toNat :=
      UInt32.toNat_sub_of_le _ _ (UInt32.le_of_lt ahead)
    rw [UInt32.lt_iff_toNat_lt] at ahead
    have begun := started_move (q := q) started idx data
    have origin := (extends_move q idx data f).origin
    rw [moved] at begun origin
    refine ih begun (by rw [origin, place]) ?_ ?_ went.2
    · rw [List.length_drop, passed]
      omega
    · have later := inside.drop (next.toNat - idx.toNat)
      rw [List.drop_drop] at later
      rwa [passed, show base + next.toNat = base + idx.toNat + (next.toNat - idx.toNat) by omega]
  | case4 idx data f next g moved here stuck =>
    have went := move_moved advancing place size near inside started tracks
    rw [moved] at went
    rcases went.1 with aborted | ahead
    · rw [stuck.2] at aborted
      cases aborted
    · exact absurd ahead here
  | case5 idx data f next g moved here _ _ ih =>
    -- only a lane that is given up does not get ahead
    have went := move_moved advancing place size near inside started tracks
    rw [moved] at went
    have aborted := went.1.resolve_right here
    rw [pursue_of_aborted aborted]
    exact .of_aborted went.2 aborted (by simp)

end Field

end StreamFraming
