import StreamFraming.Catalogue
import StreamFraming.Proofs.GivenUp

/-!
# Narrowing

A contest asks the scanners that are left in a race one after the other, by increasing id and about
one window, up to the first decisive one (`Field.contest_pass`). Every answer bars some of them from
the race: one that gives up bars itself, and a decisive one bars everybody else. Who is barred stays
so until the lane is set up anew (`Engine.stepAll_narrows`).
-/

namespace StreamFraming

variable {α μ : Type}

/-- A call that puts a window to a scanner. -/
structure Call.Asks (c : Call α μ) (id : Nat) (s : Scanner α μ) (w : Window) : Prop where
  id : c.sight.id = id
  window : c.window = w
  report : c.report = s.scan c.memory c.sight w.bytes

/-- Behind a decisive answer its scanner alone may be asked, and behind one that gives up every
other scanner. -/
def Call.Admits (c : Call α μ) (id : Nat) : Prop :=
  (c.report.verdict.isDecisive = true → id = c.sight.id) ∧
    (c.report.verdict = .abort → id ≠ c.sight.id)

section Admits

variable {c : Call α μ} {id : Nat}

theorem Call.admits_of_search (search : c.report.verdict = .search) : c.Admits id := by
  unfold Admits
  rw [search]
  exact ⟨nofun, nofun⟩

theorem Call.admits_iff_of_abort (abort : c.report.verdict = .abort) :
    c.Admits id ↔ id ≠ c.sight.id := by
  unfold Admits
  rw [abort]
  exact ⟨fun admits => admits.2 rfl, fun other => ⟨nofun, fun _ => other⟩⟩

theorem Call.admits_iff_of_decisive (decisive : c.report.verdict.isDecisive = true) :
    c.Admits id ↔ id = c.sight.id := by
  have alive : c.report.verdict ≠ .abort := by
    intro abort
    rw [abort] at decisive
    cases decisive
  exact ⟨fun admits => admits.1 decisive,
    fun same => ⟨fun _ => same, fun abort => absurd abort alive⟩⟩

end Admits

/-! ### One pass over the scanners -/

/-- A window is put to those of some scanners that exist, up to the first decisive one. -/
inductive Registry.Pass (r : Registry α μ) (w : Window) : List Nat → List (Call α μ) → Prop where
  | nil : r.Pass w [] []
  | unknown {id ids asked} : r.scanner? id = none → r.Pass w ids asked → r.Pass w (id :: ids) asked
  | undecided {id ids s c asked} : r.scanner? id = some s → c.Asks id s w →
      c.report.verdict.isDecisive = false → r.Pass w ids asked →
      r.Pass w (id :: ids) (c :: asked)
  | decided {id ids s c} : r.scanner? id = some s → c.Asks id s w →
      c.report.verdict.isDecisive = true → r.Pass w (id :: ids) [c]

namespace Registry

variable {r : Registry α μ} {w : Window} {ids : List Nat} {asked : List (Call α μ)}

namespace Pass

theorem asks (pass : r.Pass w ids asked) :
    ∀ c ∈ asked, ∃ s, r.scanner? c.sight.id = some s ∧ c.Asks c.sight.id s w := by
  have one {id : Nat} {s : Scanner α μ} {c : Call α μ} (known : r.scanner? id = some s)
      (asks : c.Asks id s w) : ∃ s, r.scanner? c.sight.id = some s ∧ c.Asks c.sight.id s w := by
    obtain rfl := asks.id
    exact ⟨s, known, asks⟩
  induction pass with
  | nil => exact List.forall_mem_nil _
  | unknown _ _ ih => exact ih
  | undecided known asks _ _ ih => exact List.forall_mem_cons.mpr ⟨one known asks, ih⟩
  | decided known asks => exact List.forall_mem_singleton.mpr (one known asks)

theorem ids_prefix (pass : r.Pass w ids asked) :
    asked.map (·.sight.id) <+: ids.filter fun id => (r.scanner? id).isSome := by
  induction pass with
  | nil => exact List.nil_prefix
  | unknown unknown _ ih =>
    rw [List.filter_cons_of_neg (by rw [unknown]; exact Bool.false_ne_true)]
    exact ih
  | undecided known asks _ _ ih =>
    rw [List.filter_cons_of_pos (by rw [known]; rfl), List.map_cons, asks.id]
    exact List.cons_prefix_cons.mpr ⟨rfl, ih⟩
  | decided known asks =>
    rw [List.filter_cons_of_pos (by rw [known]; rfl), List.map_singleton, asks.id]
    exact List.cons_prefix_cons.mpr ⟨rfl, List.nil_prefix⟩

theorem undecided_dropLast (pass : r.Pass w ids asked) :
    ∀ c ∈ asked.dropLast, c.report.verdict.isDecisive = false := by
  induction pass with
  | nil => exact List.forall_mem_nil _
  | unknown _ _ ih => exact ih
  | @undecided _ _ _ c asked _ _ undecided _ ih =>
    intro x listed
    cases asked with
    | nil => cases listed
    | cons y asked =>
      rcases List.mem_cons.mp listed with rfl | listed
      · exact undecided
      · exact ih x listed
  | decided => exact List.forall_mem_nil _

/-- A pass that nobody decides leaves nobody out. -/
theorem whole (pass : r.Pass w ids asked) :
    (∃ c, asked.getLast? = some c ∧ c.report.verdict.isDecisive = true) ∨
      asked.map (·.sight.id) = ids.filter fun id => (r.scanner? id).isSome := by
  induction pass with
  | nil => exact .inr rfl
  | unknown unknown _ ih =>
    rw [List.filter_cons_of_neg (by rw [unknown]; exact Bool.false_ne_true)]
    exact ih
  | undecided known asks _ _ ih =>
    rcases ih with ⟨c, last, decisive⟩ | all
    · exact .inl ⟨c, by rw [List.getLast?_cons, last]; rfl, decisive⟩
    · rw [List.filter_cons_of_pos (by rw [known]; rfl), List.map_cons, asks.id, all]
      exact .inr rfl
  | decided _ _ decisive => exact .inl ⟨_, rfl, decisive⟩

theorem pairwise (pass : r.Pass w ids asked) (apart : ids.Nodup) :
    asked.Pairwise fun c c' => c.Admits c'.sight.id := by
  induction pass with
  | nil => exact .nil
  | unknown _ _ ih => exact ih (List.nodup_cons.mp apart).2
  | @undecided x ids s c asked known asks undecided pass ih =>
    obtain ⟨new, apart⟩ := List.nodup_cons.mp apart
    refine List.pairwise_cons.mpr ⟨fun c' later => ?_, ih apart⟩
    cases verdict : c.report.verdict with
    | search => exact Call.admits_of_search verdict
    | abort =>
      rw [Call.admits_iff_of_abort verdict, asks.id]
      rintro same
      have listed := pass.ids_prefix.subset (List.mem_map_of_mem later)
      exact new (same ▸ (List.mem_filter.mp listed).1)
    | flush | skip =>
      rw [verdict] at undecided
      cases undecided
  | decided => exact List.pairwise_singleton _ _

end Pass

/-- The scanners of a set that exist, by increasing id. -/
def present (r : Registry α μ) (eligible : ScannerSet) : List Nat :=
  eligible.ids.filter fun id => (r.scanner? id).isSome

theorem mem_present {eligible : ScannerSet} {id : Nat} :
    id ∈ r.present eligible ↔ eligible.contains id = true ∧ (r.scanner? id).isSome = true := by
  rw [present, List.mem_filter, ScannerSet.mem_ids]

theorem pairwise_present (r : Registry α μ) (eligible : ScannerSet) :
    (r.present eligible).Pairwise (· < ·) :=
  eligible.pairwise_ids.sublist List.filter_sublist

/-- A pass about one window over the scanners of one set, which leaves another set. -/
structure IsPass (r : Registry α μ) (w : Window) (before : ScannerSet) (asked : List (Call α μ))
    (after : ScannerSet) : Prop where
  asks : ∀ c ∈ asked, ∃ s, r.scanner? c.sight.id = some s ∧ c.Asks c.sight.id s w
  sorted : (asked.map (·.sight.id)).Pairwise (· < ·)
  order : asked.map (·.sight.id) <+: r.present before
  undecided : ∀ c ∈ asked.dropLast, c.report.verdict.isDecisive = false
  whole : (∃ c, asked.getLast? = some c ∧ c.report.verdict.isDecisive = true) ∨
    asked.map (·.sight.id) = r.present before
  bars : asked.Pairwise fun c c' => c.Admits c'.sight.id
  left : ∀ id, after.contains id = true ↔ id ∈ r.present before ∧ ∀ c ∈ asked, c.Admits id

theorem Pass.isPass {before after : ScannerSet} (pass : r.Pass w before.ids asked)
    (left : ∀ id, after.contains id = true ↔ id ∈ r.present before ∧ ∀ c ∈ asked, c.Admits id) :
    r.IsPass w before asked after where
  asks := pass.asks
  sorted := (r.pairwise_present before).sublist pass.ids_prefix.sublist
  order := pass.ids_prefix
  undecided := pass.undecided_dropLast
  whole := pass.whole
  bars := pass.pairwise (before.pairwise_ids.imp Nat.ne_of_lt)
  left := left

/-- Passes one after the other, each over the scanners that the one before it left. A lane that is
given up is left by all. -/
inductive Passes (r : Registry α μ) (before : ScannerSet) :
    List (Call α μ) → ScannerSet → Prop where
  | start : r.Passes before [] before
  | again {w calls between asked after} : r.Passes before calls between →
      r.IsPass w between asked after → r.Passes before (calls ++ asked) after
  | given_up {calls between} : r.Passes before calls between → r.Passes before calls .empty

/-- A pass over some scanners of a set, and who is left of the set behind it. -/
structure Raced (r : Registry α μ) (w : Window) (ids : List Nat) (before : ScannerSet)
    (asked : List (Call α μ)) (after : ScannerSet) : Prop where
  pass : r.Pass w ids asked
  left : ∀ id, after.contains id = true ↔ before.contains id = true ∧
    (id ∈ ids → (r.scanner? id).isSome = true) ∧ ∀ c ∈ asked, c.Admits id

namespace Raced

variable {before after : ScannerSet} {x : Nat} {s : Scanner α μ} {c : Call α μ}

theorem nil : r.Raced w [] before [] before :=
  ⟨.nil, fun _ => ⟨fun left => ⟨left, nofun, List.forall_mem_nil _⟩, And.left⟩⟩

theorem unknown (unknown : r.scanner? x = none)
    (raced : r.Raced w ids (before.erase x) asked after) :
    r.Raced w (x :: ids) before asked after := by
  refine ⟨.unknown unknown raced.pass, fun id => (raced.left id).trans ?_⟩
  rw [ScannerSet.contains_erase, Bool.and_eq_true, bne_iff_ne]
  by_cases same : id = x
  · subst same
    simp [unknown]
  · simp [same]

theorem known_cons_iff (known : r.scanner? x = some s) (id : Nat) :
    (id ∈ x :: ids → (r.scanner? id).isSome = true) ↔
      (id ∈ ids → (r.scanner? id).isSome = true) := by
  by_cases same : id = x
  · subst same
    simp [known]
  · simp [same]

theorem search (known : r.scanner? x = some s) (asks : c.Asks x s w)
    (search : c.report.verdict = .search) (raced : r.Raced w ids before asked after) :
    r.Raced w (x :: ids) before (c :: asked) after := by
  refine ⟨.undecided known asks (by rw [search]; rfl) raced.pass,
    fun id => (raced.left id).trans ?_⟩
  rw [known_cons_iff known, List.forall_mem_cons,
    iff_true_intro (Call.admits_of_search search), true_and]

theorem abort (known : r.scanner? x = some s) (asks : c.Asks x s w)
    (abort : c.report.verdict = .abort) (raced : r.Raced w ids (before.erase x) asked after) :
    r.Raced w (x :: ids) before (c :: asked) after := by
  refine ⟨.undecided known asks (by rw [abort]; rfl) raced.pass,
    fun id => (raced.left id).trans ?_⟩
  rw [ScannerSet.contains_erase, Bool.and_eq_true, bne_iff_ne, known_cons_iff known,
    List.forall_mem_cons, Call.admits_iff_of_abort abort, asks.id, and_assoc,
    and_left_comm (a := id ≠ x)]

theorem decided (known : r.scanner? x = some s) (asks : c.Asks x s w)
    (decisive : c.report.verdict.isDecisive = true) (member : before.contains x = true) :
    r.Raced w (x :: ids) before [c] (.singleton x) := by
  refine ⟨.decided known asks decisive, fun id => ?_⟩
  rw [List.forall_mem_singleton, Call.admits_iff_of_decisive decisive, asks.id,
    ScannerSet.contains_singleton, Bool.and_eq_true, beq_iff_eq, decide_eq_true_eq]
  constructor
  · rintro ⟨rfl, -⟩
    exact ⟨member, fun _ => by rw [known]; rfl, rfl⟩
  · rintro ⟨-, -, same⟩
    exact ⟨same, ScannerSet.contains_lt member⟩

end Raced

end Registry

namespace Field

variable {q : Inquiry α μ} {f : Field α μ}

theorem race_pass (w : Window) (ids : List Nat) (v : Verdict) (apart : ids.Nodup)
    (listed : ∀ id ∈ ids, f.lane.eligible.contains id = true) :
    ∃ asked, (race q w ids v f).2.calls = asked.reverse ++ f.calls ∧
      q.registry.Raced w ids f.lane.eligible asked (race q w ids v f).2.lane.eligible := by
  induction ids generalizing v f with
  | nil => exact ⟨[], rfl, .nil⟩
  | cons x ids ih =>
    obtain ⟨new, apart⟩ := List.nodup_cons.mp apart
    have member := listed x List.mem_cons_self
    have waiting : ∀ id ∈ ids, f.lane.eligible.contains id = true :=
      fun id later => listed id (List.mem_cons_of_mem _ later)
    have waiting' : ∀ id ∈ ids, (f.lane.eligible.erase x).contains id = true := by
      intro id later
      rw [ScannerSet.contains_erase, Bool.and_eq_true, bne_iff_ne]
      exact ⟨waiting id later, fun same => new (same ▸ later)⟩
    unfold race
    cases known : q.registry.scanner? x with
    | none =>
      obtain ⟨asked, calls, raced⟩ := ih (f := f.dismiss x) v apart waiting'
      exact ⟨asked, calls, .unknown known raced⟩
    | some s =>
      simp only
      let c := s.look ((f.memories.get? x).getD s.memory) x q.marks f.lane.slots f.peer w
      have asks : c.Asks x s w := ⟨rfl, rfl, rfl⟩
      have later {asked : List (Call α μ)} :
          asked.reverse ++ c :: f.calls = (c :: asked).reverse ++ f.calls := by
        rw [List.reverse_cons, List.append_assoc]
        rfl
      cases answered : f.consult q w x s with
      | mk u g =>
        obtain ⟨verdict, rfl⟩ := Prod.mk.inj answered
        have verdict : c.report.verdict = u := verdict
        cases u with
        | search =>
          obtain ⟨asked, calls, raced⟩ := ih (f := (f.consult q w x s).2) .search apart waiting
          exact ⟨c :: asked, calls.trans later, .search known asks verdict raced⟩
        | abort =>
          obtain ⟨asked, calls, raced⟩ :=
            ih (f := (f.consult q w x s).2.dismiss x) .abort apart waiting'
          exact ⟨c :: asked, calls.trans later, .abort known asks verdict raced⟩
        | flush | skip => exact ⟨[c], rfl, .decided known asks (by rw [verdict]; rfl) member⟩

/-- A contest is one pass over the scanners that are left, and gives the lane up if it leaves
nobody. -/
theorem contest_pass (q : Inquiry α μ) (idx : UInt32) (data : List UInt8) (f : Field α μ) :
    let g := (contest q idx data f).2
    (∃ asked, g.calls = asked.reverse ++ f.calls ∧
      q.registry.IsPass ⟨f.lane.origin + idx, data⟩ f.lane.eligible asked g.lane.eligible) ∧
    (g.lane.eligible.isEmpty = true → g.lane.status = .abort) := by
  obtain ⟨asked, calls, pass, left⟩ := race_pass (q := q) (f := f) ⟨f.lane.origin + idx, data⟩
    f.lane.eligible.ids .search (f.lane.eligible.pairwise_ids.imp Nat.ne_of_lt)
    fun id => ScannerSet.mem_ids.mp
  have left (id : Nat) := (left id).trans
    (show _ ↔ id ∈ q.registry.present f.lane.eligible ∧ ∀ c ∈ asked, c.Admits id by
      rw [Registry.mem_present, ScannerSet.mem_ids, and_assoc]
      exact and_congr_right fun member => and_congr_left fun _ => forall_prop_of_true member)
  cases raced : race q ⟨f.lane.origin + idx, data⟩ f.lane.eligible.ids .search f with
  | mk v r =>
    rw [raced] at calls left
    cases gone : r.lane.eligible.isEmpty with
    | true =>
      rw [contest_of_empty raced gone]
      refine ⟨⟨asked, calls, pass.isPass fun id => ?_⟩, fun _ => rfl⟩
      rw [← left, ScannerSet.isEmpty_iff.mp gone]
      simp [Lane.abort]
    | false =>
      rw [contest_of_race raced gone]
      have alive : r.lane.eligible.isEmpty ≠ true := by rw [gone]; exact Bool.false_ne_true
      cases v <;> exact ⟨⟨asked, calls, pass.isPass left⟩, fun emptied => absurd emptied alive⟩

end Field

/-! ### What is asked about -/

/-- The call asks a scanner that exists about an end of some bytes. -/
def Call.IsScan (c : Call α μ) (r : Registry α μ) (data : List UInt8) : Prop :=
  (∃ s, r.scanner? c.sight.id = some s ∧ c.report = s.scan c.memory c.sight c.window.bytes) ∧
    c.window.bytes <:+ data

theorem Call.IsScan.mono {c : Call α μ} {r : Registry α μ} {data more : List UInt8}
    (scan : c.IsScan r data) (within : data <:+ more) : c.IsScan r more :=
  ⟨scan.1, scan.2.trans within⟩

namespace Field

variable {q : Inquiry α μ} {idx : UInt32} {data : List UInt8} {f : Field α μ}

theorem contest_scans (q : Inquiry α μ) (idx : UInt32) (data : List UInt8) (f : Field α μ) :
    ∀ c ∈ (contest q idx data f).2.calls, c ∈ f.calls ∨ c.IsScan q.registry data := by
  obtain ⟨⟨asked, calls, pass⟩, -⟩ := contest_pass q idx data f
  intro c made
  rw [calls, List.mem_append, List.mem_reverse] at made
  refine made.symm.imp_right fun listed => ?_
  obtain ⟨s, known, asks⟩ := pass.asks c listed
  rw [Call.IsScan, asks.window]
  exact ⟨⟨s, known, asks.report⟩, List.suffix_refl data⟩

theorem move_scans {g : Field α μ} {m : Move} (inside : idx ≤ q.total)
    (moved : move q idx data f = (m, g)) :
    ∀ c ∈ g.calls, c ∈ f.calls ∨ c.IsScan q.registry data := by
  rcases move_cases inside moved with ⟨rfl, -⟩ | ⟨rfl, -⟩ | ⟨place, bytes, -, asks, within, -⟩
  · exact fun _ => .inl
  · exact fun _ => .inl
  · have scans := contest_scans q place bytes f
    rw [asks] at scans
    exact fun c made => (scans c made).imp_right fun scan => scan.mono within

/-- A pursuit asks about nothing but ends of the bytes it is given. -/
theorem pursue_scans (inside : idx ≤ q.total) :
    ∀ c ∈ (pursue q idx data f).2.calls, c ∈ f.calls ∨ c.IsScan q.registry data := by
  fun_induction pursue q idx data f with
  | case1 idx data f kind g moved | case2 idx data f g moved | case4 idx data f next g moved _ _ =>
    exact move_scans inside moved
  | case3 idx data f next g moved ahead _ ih =>
    intro c later
    rcases ih (move_again moved).1 c later with before | scan
    · exact move_scans inside moved c before
    · exact .inr (scan.mono (List.drop_suffix _ _))
  | case5 idx data f next g moved _ _ _ ih =>
    intro c later
    exact (ih (move_again moved).1 c later).elim (move_scans inside moved c) .inr

end Field

/-! ### The last call -/

/-- The lane is left to the scanner of a call, its cell is as the call left it, and the boundary
that the call has found is awaited or was reached. -/
structure Call.Closes (c : Call α μ) (l : Lane α) : Prop where
  status : l.status = .flush ∨ l.status = .search
  eligible : l.eligible = .singleton c.sight.id
  own : l.slots.get? c.sight.id = c.report.own

namespace Field

variable {q : Inquiry α μ} {idx : UInt32} {data : List UInt8} {f g : Field α μ} {c : Call α μ}

theorem race_flushed (w : Window) (ids : List Nat) (v : Verdict) (flush : c.report.verdict = .flush)
    (made : c ∈ (race q w ids v f).2.calls) :
    c ∈ f.calls ∨
      let r := race q w ids v f
      r.1 = .flush ∧ c.sight.id ∈ ids ∧ r.2.lane.eligible = .singleton c.sight.id ∧
        r.2.lane.slots.get? c.sight.id = c.report.own := by
  induction ids generalizing v f with
  | nil => exact .inl made
  | cons id ids ih =>
    unfold race at made ⊢
    cases known : q.registry.scanner? id with
    | none =>
      rw [known] at made
      refine (ih (f := f.dismiss id) v made).imp_right ?_
      rintro ⟨verdict, listed, last⟩
      exact ⟨verdict, List.mem_cons_of_mem _ listed, last⟩
    | some s =>
      rw [known] at made
      simp only at made ⊢
      cases answered : f.consult q w id s with
      | mk u g =>
        obtain ⟨verdict, rfl⟩ := Prod.mk.inj answered
        rw [answered] at made
        -- a scanner that found no boundary leaves it to those behind it
        have later {r : Field α μ} {v : Verdict} (other : u ≠ .flush)
            (calls : r.calls = (f.consult q w id s).2.calls)
            (made : c ∈ (race q w ids v r).2.calls) :
            c ∈ f.calls ∨ (race q w ids v r).1 = .flush ∧ c.sight.id ∈ id :: ids ∧
              (race q w ids v r).2.lane.eligible = .singleton c.sight.id ∧
              (race q w ids v r).2.lane.slots.get? c.sight.id = c.report.own := by
          rcases ih v made with before | ⟨found, listed, last⟩
          · rw [calls] at before
            refine (List.mem_cons.mp before).symm.imp_right ?_
            rintro rfl
            exact absurd (verdict.symm.trans flush) other
          · exact .inr ⟨found, List.mem_cons_of_mem _ listed, last⟩
        cases u with
        | search => exact later nofun rfl made
        | abort => exact later nofun rfl made
        | flush | skip =>
          refine (List.mem_cons.mp made).symm.imp_right ?_
          rintro rfl
          refine ⟨verdict.symm.trans flush, List.mem_cons_self, rfl, ?_⟩
          exact (Slots.get?_update ..).trans (if_pos rfl)

theorem contest_flushed (q : Inquiry α μ) (idx : UInt32) (data : List UInt8) (f : Field α μ)
    (flush : c.report.verdict = .flush) (made : c ∈ (contest q idx data f).2.calls) :
    c ∈ f.calls ∨ (contest q idx data f).2.lane.status = .flush ∧
      c.Closes (contest q idx data f).2.lane := by
  cases raced : race q ⟨f.lane.origin + idx, data⟩ f.lane.eligible.ids .search f with
  | mk v r =>
    have calls : (contest q idx data f).2.calls = r.calls := by
      cases gone : r.lane.eligible.isEmpty with
      | true => rw [contest_of_empty raced gone]
      | false =>
        rw [contest_of_race raced gone]
        cases v <;> rfl
    rw [calls] at made
    have flushed := race_flushed (q := q) (f := f) ⟨f.lane.origin + idx, data⟩ f.lane.eligible.ids
      .search flush (c := c)
    rw [raced] at flushed
    refine (flushed made).imp_right ?_
    rintro ⟨verdict, listed, eligible, own⟩
    obtain rfl : v = .flush := verdict
    have small := ScannerSet.contains_lt (ScannerSet.mem_ids.mp listed)
    rw [contest_of_race raced (eligible ▸ ScannerSet.isEmpty_singleton small)]
    exact ⟨rfl, .inl rfl, eligible, own⟩

theorem pursue_flush_cases (flush : f.lane.status = .flush) :
    (pursue q idx data f).2 = f ∨
      (pursue q idx data f).2 = { f with lane := { f.lane with status := .search } } := by
  by_cases inside : f.lane.target ≤ q.total
  · rw [pursue_of_flush flush inside]
    exact .inr rfl
  · rw [pursue_awaiting flush (UInt32.not_le.mp inside)]
    split <;> exact .inl rfl

/-- A call that finds a boundary is the last one of its pursuit. -/
theorem pursue_flushed (inside : idx ≤ q.total) (flush : c.report.verdict = .flush)
    (made : c ∈ (pursue q idx data f).2.calls) :
    c ∈ f.calls ∨ c.Closes (pursue q idx data f).2.lane := by
  have moved {idx : UInt32} {data : List UInt8} {f g : Field α μ} {m : Move}
      (inside : idx ≤ q.total) (h : move q idx data f = (m, g)) (made : c ∈ g.calls) :
      c ∈ f.calls ∨ g.lane.status = .flush ∧ c.Closes g.lane := by
    rcases move_cases inside h with ⟨rfl, -⟩ | ⟨rfl, -⟩ | ⟨place, bytes, -, asks, -⟩
    · exact .inl made
    · exact .inl made
    · have flushed := contest_flushed q place bytes f flush
      rw [asks] at flushed
      exact flushed made
  fun_induction pursue q idx data f with
  | case1 idx data f kind g h | case2 idx data f g h | case4 idx data f next g h _ _ =>
    exact (moved inside h made).imp_right And.right
  | case3 idx data f next g h _ _ ih | case5 idx data f next g h _ _ _ ih =>
    rcases ih (move_again h).1 made with before | closes
    · refine (moved inside h before).imp_right ?_
      rintro ⟨awaits, closes⟩
      rcases pursue_flush_cases awaits with still | cut
      · rw [still]
        exact closes
      · rw [cut]
        exact ⟨.inr rfl, closes.eligible, closes.own⟩
    · exact .inr closes

end Field

theorem Lane.suffix_of_arrival {l l' : Lane α} {seq : UInt32} {data fresh : List UInt8}
    (h : l.arrival seq data = .fresh l' fresh) : fresh <:+ data := by
  unfold arrival at h
  split at h
  · cases h
    exact List.suffix_refl data
  · split at h
    · cases h
    · split at h
      · cases h
      · split at h
        · cases h
          exact List.drop_suffix _ _
        · cases h
          exact List.suffix_refl data

theorem Engine.pursuit_scans (e : Engine α μ) (s : Session α) (d : Direction) (lane : Lane α)
    (data : List UInt8) (segment : Segment) :
    ∀ c ∈ (e.pursuit s d lane data segment).2.calls, c.IsScan e.registry data := by
  intro c made
  rcases Field.pursue_scans (segment.offset_le _) c made with before | scan
  · cases before
  · exact scan

theorem Engine.check_scans (e : Engine α μ) (s : Session α) (d : Direction) (segment : Segment) :
    ∀ c ∈ (e.check s d segment).calls, c.IsScan e.registry segment.data := by
  unfold check
  cases arrived : (s.lane d).arrival segment.seq segment.data with
  | gap | stale => exact List.forall_mem_nil _
  | fresh lane data =>
    intro c made
    have scan := e.pursuit_scans s d lane data segment c (List.mem_reverse.mp made)
    exact scan.mono (Lane.suffix_of_arrival arrived)

/-- A check that finds a boundary leaves its lane to the scanner that has found it. -/
theorem Engine.check_flushed {e : Engine α μ} {s : Session α} {d : Direction} {segment : Segment}
    {c : Call α μ} (flush : c.report.verdict = .flush) (made : c ∈ (e.check s d segment).calls) :
    c.Closes ((e.check s d segment).session.lane d) := by
  unfold check at made ⊢
  cases arrived : (s.lane d).arrival segment.seq segment.data with
  | gap | stale =>
    rw [arrived] at made
    cases made
  | fresh lane data =>
    rw [arrived] at made
    have made : c ∈ (e.pursuit s d lane data segment).2.calls := List.mem_reverse.mp made
    rcases Field.pursue_flushed (segment.offset_le _) flush made with before | closes
    · cases before
    · simp only
      rw [lane_evaluate]
      obtain ⟨eligible, slots⟩ := Lane.cutIf_keeps (e.pursuit s d lane data segment).2.lane
        (due (e.inquiry d segment) (e.pursuit s d lane data segment)) segment.queued segment.marks
      refine ⟨?_, eligible.trans closes.eligible, ?_⟩
      · rw [Lane.status_cutIf]
        exact closes.status
      · rw [slots]
        exact closes.own

/-! ### Who is left behind some calls -/

/-- Nobody whom a call bars is left, or was asked behind it. -/
structure ScannerSet.IsLeftBy (eligible : ScannerSet) (calls : List (Call α μ)) : Prop where
  left : ∀ c ∈ calls, ∀ id, eligible.contains id = true → c.Admits id
  asked : calls.Pairwise fun c c' => c.Admits c'.sight.id

theorem Registry.IsPass.isLeftBy {r : Registry α μ} {w : Window} {before after : ScannerSet}
    {earlier asked : List (Call α μ)} (pass : r.IsPass w before asked after)
    (isLeft : before.IsLeftBy earlier) :
    after.IsLeftBy (earlier ++ asked) ∧
      ∀ id, after.contains id = true → before.contains id = true := by
  have within (id : Nat) (left : after.contains id = true) : before.contains id = true :=
    (mem_present.mp ((pass.left id).mp left).1).1
  refine ⟨⟨fun c listed id left => ?_, ?_⟩, within⟩
  · rcases List.mem_append.mp listed with earlier | last
    · exact isLeft.left c earlier id (within id left)
    · exact ((pass.left id).mp left).2 c last
  · refine List.pairwise_append.mpr ⟨isLeft.asked, pass.bars, fun c earlier c' last => ?_⟩
    have member := pass.order.subset (List.mem_map_of_mem last)
    exact isLeft.left c earlier _ (mem_present.mp member).1

theorem Registry.Passes.isLeftBy {r : Registry α μ} {before after : ScannerSet}
    {earlier calls : List (Call α μ)} (passes : r.Passes before calls after)
    (isLeft : before.IsLeftBy earlier) :
    after.IsLeftBy (earlier ++ calls) ∧
      ∀ id, after.contains id = true → before.contains id = true := by
  induction passes with
  | start => exact ⟨by rwa [List.append_nil], fun _ left => left⟩
  | again _ pass ih =>
    obtain ⟨kept, within⟩ := pass.isLeftBy ih.1
    rw [List.append_assoc] at kept
    exact ⟨kept, fun id left => ih.2 id (within id left)⟩
  | given_up _ ih => exact ⟨⟨fun _ _ _ => by simp, ih.1.asked⟩, by simp⟩

namespace Engine

variable {e : Engine α μ} {s : Session α} {d : Direction}

/-! ### One check -/

/-- All calls of a check are made in passes over the scanners of its lane. -/
theorem check_passes (e : Engine α μ) (s : Session α) (d : Direction) (segment : Segment) :
    let r := e.check s d segment
    e.registry.Passes (s.lane d).eligible r.calls (r.session.lane d).eligible := by
  refine check_invariant e s d segment []
    (G := fun l _ calls => e.registry.Passes (s.lane d).eligible calls l.eligible) ?_ ?_ ?_ .start
  · intro l l' _ calls eligible _ passes
    rwa [eligible]
  · exact fun passes => passes.given_up
  · intro idx data f passes
    obtain ⟨⟨asked, calls, pass⟩, -⟩ := Field.contest_pass (e.inquiry d segment) idx data f
    simp only
    rw [calls, List.reverse_append, List.reverse_reverse]
    exact passes.again pass

theorem narrowed_check (e : Engine α μ) (segment : Segment) (narrowed : (s.lane d).IsNarrowed) :
    ((e.check s d segment).session.lane d).IsNarrowed := by
  unfold check
  cases arrived : (s.lane d).arrival segment.seq segment.data with
  | gap =>
    simp only [Session.lane_setLane_self]
    nofun
  | stale => exact narrowed
  | fresh lane data =>
    have same := Lane.arrival_fresh arrived
    have eligible : lane.eligible = (s.lane d).eligible := by rw [same]
    have status : lane.status = (s.lane d).status.begun := by rw [same]
    have opened : (e.opening s d lane data.length).lane.IsNarrowed := by
      intro decided
      refine eligible ▸ narrowed ?_
      rcases decided with flush | skip
      · exact .inl (Status.eq_of_begun (status.symm.trans flush) nofun)
      · exact .inr (Status.eq_of_begun (status.symm.trans skip) nofun)
    have pursued : (e.pursuit s d lane data segment).2.lane.IsNarrowed :=
      Field.narrowed_pursue opened rfl
    intro decided
    simp only at decided ⊢
    rw [lane_evaluate, Lane.status_cutIf] at decided
    rw [lane_evaluate, (Lane.cutIf_keeps ..).1]
    exact pursued decided

theorem check_emptied (e : Engine α μ) (segment : Segment)
    (contested : (s.lane d).eligible.isEmpty = false)
    (emptied : ((e.check s d segment).session.lane d).eligible.isEmpty = true) :
    ((e.check s d segment).session.lane d).status = .abort := by
  unfold check at emptied ⊢
  cases arrived : (s.lane d).arrival segment.seq segment.data with
  | gap =>
    simp only [Session.lane_setLane_self]
    rfl
  | stale =>
    rw [arrived] at emptied
    simp only [contested] at emptied
    cases emptied
  | fresh lane data =>
    rw [arrived] at emptied
    simp only at emptied ⊢
    rw [lane_evaluate, (Lane.cutIf_keeps ..).1] at emptied
    rw [lane_evaluate, Lane.status_cutIf]
    have eligible : lane.eligible = (s.lane d).eligible := by rw [Lane.arrival_fresh arrived]
    by_contra survived
    have left : (e.pursuit s d lane data segment).2.lane.eligible.isEmpty = false := by
      refine Field.pursue_survived (I := fun f => f.lane.eligible.isEmpty = false) ?_
        (fun _ kept => kept) (segment.offset_le _) ?_ rfl survived
      · intro idx data f _ alive
        rw [Bool.eq_false_iff]
        exact fun gone => alive ((Field.contest_pass _ idx data f).2 gone)
      · rw [← eligible] at contested
        exact contested
    rw [left] at emptied
    cases emptied

/-! ### Runs -/

/-- The calls that a step makes for a lane. -/
def scansOf (e : Engine α μ) (s : Session α) (d : Direction) : Step → List (Call α μ)
  | .check d' segment => if d' = d then (e.check s d' segment).calls else []
  | _ => []

/-- The calls that a run makes for a lane, in order. -/
def scans (e : Engine α μ) (s : Session α) (d : Direction) : List Step → List (Call α μ)
  | [] => []
  | x :: steps =>
    let left := e.step s x
    e.scansOf s d x ++ left.1.scans left.2 d steps

theorem scans_concat (e : Engine α μ) (s : Session α) (d : Direction) (steps : List Step)
    (x : Step) :
    e.scans s d (steps ++ [x]) =
      e.scans s d steps ++ (e.stepAll s steps).1.scansOf (e.stepAll s steps).2 d x := by
  induction steps generalizing e s with
  | nil => exact List.append_nil _
  | cons y steps ih =>
    rw [List.cons_append, scans, scans, ih, List.append_assoc]
    rfl

theorem step_left (e : Engine α μ) {x : Step} (kept : x.setsUp d = false)
    {earlier : List (Call α μ)} (isLeft : (s.lane d).eligible.IsLeftBy earlier) :
    let l := (e.step s x).2.lane d
    l.eligible.IsLeftBy (earlier ++ e.scansOf s d x) ∧
      ∀ id, l.eligible.contains id = true → (s.lane d).eligible.contains id = true := by
  intro l
  by_cases checks : ∃ segment, x = .check d segment
  · obtain ⟨segment, rfl⟩ := checks
    rw [show e.scansOf s d (.check d segment) = _ from if_pos rfl]
    exact (e.check_passes s d segment).isLeftBy isLeft
  · have silent : e.scansOf s d x = [] := by
      cases x with
      | check d' segment =>
        refine if_neg ?_
        rintro rfl
        exact checks ⟨segment, rfl⟩
      | clear d' | setup d' port | reset => rfl
    have same : l.eligible = (s.lane d).eligible :=
      unchecked_step Lane.eligible (fun _ _ => rfl) (fun _ => rfl) kept checks
    rw [silent, List.append_nil, same]
    exact ⟨isLeft, fun _ left => left⟩

theorem stepAll_left (e : Engine α μ) (s : Session α) {steps : List Step}
    (kept : ∀ x ∈ steps, x.setsUp d = false) :
    ((e.stepAll s steps).2.lane d).eligible.IsLeftBy (e.scans s d steps) ∧
      ∀ id, ((e.stepAll s steps).2.lane d).eligible.contains id = true →
        (s.lane d).eligible.contains id = true := by
  -- from the end of the run, since what bars a scanner are the calls before
  induction steps using List.reverseRecOn with
  | nil => exact ⟨⟨List.forall_mem_nil _, .nil⟩, fun _ left => left⟩
  | append_singleton steps x ih =>
    obtain ⟨isLeft, within⟩ := ih fun y listed => kept y (List.mem_append_left _ listed)
    obtain ⟨isLeft', within'⟩ := (e.stepAll s steps).1.step_left (kept x (by simp)) isLeft
    rw [stepAll_concat, scans_concat]
    exact ⟨isLeft', fun id left => within id (within' id left)⟩

/-- From when a lane is set up, the race for it narrows and never opens again. Only scanners that
were in it before are left in it, and one alone when a boundary is known or bytes are skipped.
Behind a decisive answer nobody but its scanner is asked for the lane, and behind one that gives up
not the same scanner. A check makes its calls in passes over the scanners that are left, and gives
the lane up if it leaves nobody. -/
theorem stepAll_narrows (e : Engine α μ) (s : Session α) (d : Direction) (port : UInt16)
    (fresh : s.lane d = e.freshLane port d) (steps : List Step)
    (kept : ∀ x ∈ steps, x.setsUp d = false) :
    let left := e.stepAll s steps
    let l := left.2.lane d
    (∀ before after, steps = before ++ after → ∀ id, l.eligible.contains id = true →
      ((e.stepAll s before).2.lane d).eligible.contains id = true) ∧
    (l.status = .flush ∨ l.status = .skip → ∃ id, l.eligible.ids = [id]) ∧
    (∀ before c after, e.scans s d steps = before ++ c :: after → ∀ c' ∈ after,
      (c.report.verdict.isDecisive = true → c'.sight.id = c.sight.id) ∧
        (c.report.verdict = .abort → c'.sight.id ≠ c.sight.id)) ∧
    ∀ segment, let r := left.1.check left.2 d segment
      e.registry.Passes l.eligible r.calls (r.session.lane d).eligible ∧
        (l.eligible.isEmpty = false → (r.session.lane d).eligible.isEmpty = true →
          (r.session.lane d).status = .abort) := by
  intro left l
  refine ⟨fun before after split id member => ?_, fun decided => ?_, ?_, fun segment => ⟨?_, ?_⟩⟩
  · subst split
    have within := ((e.stepAll s before).1.stepAll_left (e.stepAll s before).2 (d := d)
      fun x listed => kept x (List.mem_append_right _ listed)).2
    refine within id ?_
    rw [← stepAll_append]
    exact member
  · have narrowed : l.IsNarrowed := by
      refine stepAll_keeps (I := Lane.IsNarrowed) (fun _ _ narrowed => narrowed) (fun _ _ => ?_)
        (fun x listed setsUp => ?_) (fun e' _ s segment => e'.narrowed_check segment) ?_
      · nofun
      · rw [kept x listed] at setsUp
        cases setsUp
      · rw [fresh]
        nofun
    obtain ⟨id, small, eligible⟩ := narrowed decided
    exact ⟨id, by rw [eligible, ScannerSet.ids_singleton small]⟩
  · intro before c after split c' listed
    have asked := (e.stepAll_left s kept).1.asked
    rw [split] at asked
    exact (List.pairwise_cons.mp (List.pairwise_append.mp asked).2.1).1 c' listed
  · rw [← e.registry_stepAll s steps]
    exact left.1.check_passes left.2 d segment
  · exact left.1.check_emptied segment

/-- Of three scanners the second one gives up at once. The first one then skips a byte and finds a
boundary behind it, so that the third one is not asked again. -/
theorem stepAll_narrows_skip :
    let skips : Script :=
      { steps := [{}, { verdict := .skip, point := 1 }, { verdict := .flush, point := 1 }] }
    let aborts : Script := { steps := [{ verdict := .abort }] }
    let all := ((ScannerSet.singleton 0).insert 1).insert 2
    let registry : Registry Memo Tally :=
      { scanners :=
          [skips.scanner "skips", aborts.scanner "aborts", ({} : Script).scanner "searches"]
        bindings := [(⟨80, .toServer⟩, { scanners := all })] }
    let e : Engine Memo Tally := .ofRegistry registry
    let s := e.openSession 1 80
    let check (d : Direction) (text : String) (queued seq : UInt32) : Step :=
      .check d { data := text.toUTF8.toList, queued, seq, marks := .ofDirection d }
    let steps := [check .toServer "ab" 2 0, check .toClient "x" 1 0, .clear .toClient,
      check .toServer "cd" 4 2]
    let l := (e.stepAll s steps).2.lane .toServer
    let scans := e.scans s .toServer steps
    s.lane .toServer = e.freshLane 80 .toServer ∧ (∀ x ∈ steps, x.setsUp .toServer = false) ∧
      scans.map (fun c => (c.sight.id, c.report.verdict)) =
        [(0, .search), (1, .abort), (2, .search), (0, .skip), (0, .flush)] ∧
      (∀ c ∈ scans.drop 2, c.sight.id ≠ 1) ∧ (∀ c ∈ scans.drop 4, c.sight.id = 0) ∧
      l.status = .search ∧ l.eligible.ids = [0] := by
  intro skips aborts all registry e s check steps l scans
  have fresh : s.lane .toServer = e.freshLane 80 .toServer := rfl
  have kept : ∀ x ∈ steps, x.setsUp .toServer = false := by decide
  obtain ⟨-, -, barred, -⟩ := e.stepAll_narrows s .toServer 80 fresh steps kept
  have made : scans.map (fun c => (c.sight.id, c.report.verdict)) =
      [(0, .search), (1, .abort), (2, .search), (0, .skip), (0, .flush)] := by decide +kernel
  have split {n : Nat} {c : Call Memo Tally} (found : scans[n]? = some c) :
      scans = scans.take n ++ c :: scans.drop (n + 1) := by
    obtain ⟨inside, rfl⟩ := List.getElem?_eq_some_iff.mp found
    rw [List.getElem_cons_drop, List.take_append_drop]
  have answered {n : Nat} {id : Nat} {v : Verdict}
      (listed : (scans.map fun c => (c.sight.id, c.report.verdict))[n]? = some (id, v)) :
      ∃ c, scans[n]? = some c ∧ c.sight.id = id ∧ c.report.verdict = v := by
    rw [List.getElem?_map] at listed
    obtain ⟨c, found, answer⟩ := Option.map_eq_some_iff.mp listed
    exact ⟨c, found, Prod.mk.inj answer⟩
  rw [made] at answered
  obtain ⟨second, found, id, abort⟩ := answered (n := 1) rfl
  obtain ⟨fourth, found', id', skip⟩ := answered (n := 3) rfl
  refine ⟨fresh, kept, made, fun c later => ?_, fun c later => ?_, by decide +kernel,
    by decide +kernel⟩
  · rw [← id]
    exact (barred _ _ _ (split found) c later).2 abort
  · rw [← id']
    exact (barred _ _ _ (split found') c later).1 (by rw [skip]; rfl)

end Engine

end StreamFraming
