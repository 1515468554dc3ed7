import Mathlib.Data.List.Sort
import StreamFraming.Proofs.Additions
import StreamFraming.Proofs.Narrowing

/-!
# Scanners that decline

A scanner declines if it gives up whatever it is shown, without a word. The first contest in which
it is asked strikes it from the race (`Field.contest_declined`). Its answer decides nothing, and the
target that it leaves behind is not read: a pursuit comes to what it comes to without the scanner
(`Field.pursue_spares`). The two are compared scan by scan, the ids behind the new scanner being one
higher (`bump`).
-/

namespace StreamFraming

variable {α μ : Type} {k : Nat}

namespace Scanner

/-- It gives up at the start of any window, raises nothing and leaves the opposite direction alone.
What it keeps in its cell and its memory is up to it. -/
def Declines (s : Scanner α μ) : Prop :=
  ∀ memory sight window,
    let r := s.scan memory sight window
    r.verdict = .abort ∧ r.point = 0 ∧ r.peer = sight.peer ∧ r.raised = []

/-- Its answers do not go by the id it is registered under. -/
def IgnoresId (s : Scanner α μ) : Prop :=
  ∀ memory (sight : Sight α) id window,
    s.scan memory { sight with id } window = s.scan memory sight window

/-- Where it gives up, its point lies in the window. -/
def AbortsInside (s : Scanner α μ) : Prop :=
  ∀ memory sight window,
    let r := s.scan memory sight window
    r.verdict = .abort → r.point.toNat ≤ window.length

theorem Declines.abortsInside {s : Scanner α μ} (h : s.Declines) : s.AbortsInside := by
  intro memory sight window r _
  rw [show r.point = 0 from (h memory sight window).2.1]
  exact Nat.zero_le _

end Scanner

/-- A registry with one more scanner, which declines. The other scanners do not go by their ids, and
give up inside their windows only. -/
structure Registry.AddsDecliner (k : Nat) (r r' : Registry α μ) : Prop extends r.Adds k r' where
  declines : ∀ s, r'.scanner? k = some s → s.Declines
  ignores : ∀ i s, r.scanner? i = some s → s.IgnoresId
  inside : ∀ i s, r.scanner? i = some s → s.AbortsInside

theorem Registry.AddsDecliner.abortsInside {r r' : Registry α μ} (adds : r.AddsDecliner k r')
    {i : Nat} {s : Scanner α μ} (known : r'.scanner? i = some s) : s.AbortsInside := by
  by_cases own : i = k
  · subst own
    exact (adds.declines s known).abortsInside
  · obtain ⟨j, rfl⟩ := exists_bump own
    exact adds.inside j s ((adds.scanner j).symm.trans known)

/-! ### What the two runs have in common -/

/-- The cells of all but the new scanner, which has none. -/
structure Slots.Spares (k : Nat) (s s' : Slots α) : Prop where
  same : ∀ i, s'.get? (bump k i) = s.get? i
  spare : s'.get? k = none

namespace Slots.Spares

variable {s s' : Slots α}

theorem empty : (Slots.empty : Slots α).Spares k .empty := ⟨fun _ => rfl, rfl⟩

theorem update_same (same : ∀ i, s'.get? (bump k i) = s.get? i) (i : Nat) (a : Option α) (j : Nat) :
    (s'.update (bump k i) a).get? (bump k j) = (s.update i a).get? j := by
  rw [Slots.get?_update, Slots.get?_update, same]
  simp only [bump_inj]

theorem update (h : s.Spares k s') (i : Nat) (a : Option α) :
    (s.update i a).Spares k (s'.update (bump k i) a) :=
  ⟨update_same h.same i a, by rw [Slots.get?_update, if_neg (bump_ne k i), h.spare]⟩

theorem erase (h : s.Spares k s') (i : Nat) : (s.erase i).Spares k (s'.erase (bump k i)) :=
  h.update i none

theorem update_erase (h : s.Spares k s') (a : Option α) : s.Spares k ((s'.update k a).erase k) := by
  constructor
  · intro i
    rw [Slots.get?_erase, if_neg (bump_ne k i).symm, Slots.get?_update,
      if_neg (bump_ne k i).symm, h.same]
  · rw [Slots.get?_erase, if_pos rfl]

end Slots.Spares

theorem ScannerSet.isEmpty_of_contains {s : ScannerSet} {i : Nat} (member : s.contains i = true) :
    s.isEmpty = false := by
  rw [Bool.eq_false_iff]
  intro empty
  rw [isEmpty_iff.mp empty i] at member
  cases member

theorem ScannerSet.eq_empty {s : ScannerSet} (nobody : s.isEmpty = true) : s = .empty :=
  ext fun i => (isEmpty_iff.mp nobody i).trans (contains_empty i).symm

theorem ScannerSet.exists_contains {s : ScannerSet} (contested : s.isEmpty = false) :
    ∃ i, s.contains i = true := by
  by_contra nobody
  rw [isEmpty_iff.mpr fun i => Bool.eq_false_iff.mpr fun member => nobody ⟨i, member⟩] at contested
  cases contested

/-- The race among all but the new scanner. -/
def ScannerSet.Spares (k : Nat) (s s' : ScannerSet) : Prop :=
  ∀ i, s'.contains (bump k i) = s.contains i

namespace ScannerSet.Spares

variable {s s' : ScannerSet}

theorem erase (h : s.Spares k s') (i : Nat) : (s.erase i).Spares k (s'.erase (bump k i)) := by
  intro j
  have same : (bump k j != bump k i) = (j != i) := by
    rw [Bool.eq_iff_iff, bne_iff_ne, bne_iff_ne, ne_eq, ne_eq, bump_inj]
  rw [contains_erase, contains_erase, h, same]

theorem erase_spare (h : s.Spares k s') : s.Spares k (s'.erase k) := by
  intro i
  rw [contains_erase, h, bne_iff_ne.mpr (bump_ne k i), Bool.and_true]

theorem singleton {i : Nat} (small : i < capacity) (small' : bump k i < capacity) :
    (ScannerSet.singleton i).Spares k (.singleton (bump k i)) := by
  intro j
  have same : (bump k j == bump k i) = (j == i) := by
    rw [Bool.eq_iff_iff, beq_iff_eq, beq_iff_eq, bump_inj]
  rw [contains_singleton, contains_singleton, same, decide_eq_true small, decide_eq_true small']

theorem isEmpty (h : s.Spares k s') (out : s'.contains k = false) : s'.isEmpty = s.isEmpty := by
  rw [Bool.eq_iff_iff, isEmpty_iff, isEmpty_iff]
  constructor
  · exact fun empty i => (h i).symm.trans (empty _)
  · intro empty j
    by_cases own : j = k
    · rw [own, out]
    · obtain ⟨i, rfl⟩ := exists_bump own
      exact (h i).trans (empty i)

theorem ids (h : s.Spares k s') : s'.ids.filter (· != k) = s.ids.map (bump k) := by
  have one : (s'.ids.filter (· != k)).Pairwise (· < ·) :=
    s'.pairwise_ids.sublist List.filter_sublist
  have two : (s.ids.map (bump k)).Pairwise (· < ·) :=
    List.pairwise_map.mpr (s.pairwise_ids.imp bump_lt_bump)
  refine one.eq_of_mem_iff two fun j => ?_
  rw [List.mem_filter, mem_ids, bne_iff_ne, List.mem_map]
  constructor
  · rintro ⟨listed, other⟩
    obtain ⟨i, rfl⟩ := exists_bump other
    exact ⟨i, mem_ids.mpr ((h i).symm.trans listed), rfl⟩
  · rintro ⟨i, listed, rfl⟩
    exact ⟨(h i).trans (mem_ids.mp listed), bump_ne k i⟩

end ScannerSet.Spares

/-- Lanes that differ in the new scanner, and in the target. -/
structure Lane.Spares (k : Nat) (l l' : Lane α) : Prop where
  status : l'.status = l.status
  expected : l'.expected = l.expected
  origin : l'.origin = l.origin
  carried : l'.carried = l.carried
  eligible : l.eligible.Spares k l'.eligible
  slots : l.slots.Spares k l'.slots

theorem Lane.Spares.abort {l l' : Lane α} (h : l.Spares k l') : l.abort.Spares k l'.abort :=
  { h with
    status := rfl
    eligible := fun _ => (ScannerSet.contains_empty _).trans (ScannerSet.contains_empty _).symm
    slots := .empty }

/-- Fields that differ in the new scanner, in the target and in the calls. -/
structure Field.Spares (k : Nat) (f f' : Field α μ) : Prop where
  lane : f.lane.Spares k f'.lane
  peer : f.peer.Spares k f'.peer
  memories : ∀ i, f'.memories.get? (bump k i) = f.memories.get? i
  raised : f'.raised = f.raised

structure Inquiry.AddsDecliner (k : Nat) (q q' : Inquiry α μ) : Prop where
  registry : q.registry.AddsDecliner k q'.registry
  marks : q'.marks = q.marks
  total : q'.total = q.total
  limit : q'.limit = q.limit

namespace Field

variable {q q' : Inquiry α μ} {f f' : Field α μ} {w : Window} {i : Nat} {s : Scanner α μ}

namespace Spares

theorem look (h : f.Spares k f') (ignores : s.IgnoresId) (marks : Marks) (w : Window) (i : Nat) :
    (s.look ((f'.memories.get? (bump k i)).getD s.memory) (bump k i) marks f'.lane.slots f'.peer
        w).report =
      (s.look ((f.memories.get? i).getD s.memory) i marks f.lane.slots f.peer w).report := by
  simp only [Scanner.look, h.memories, h.lane.slots.same, h.peer.same]
  exact ignores _ ⟨i, marks, f.lane.slots.get? i, f.peer.get? i⟩ (bump k i) w.bytes

theorem consult (h : f.Spares k f') (adds : q.AddsDecliner k q') (ignores : s.IgnoresId)
    (w : Window) (i : Nat) :
    let r := f.consult q w i s
    let r' := f'.consult q' w (bump k i) s
    r'.1 = r.1 ∧ r'.2.lane.target = r.2.lane.target ∧ r.2.Spares k r'.2 := by
  have report := h.look ignores q'.marks w i
  rw [adds.marks] at report
  intro r r'
  simp only [r, r', Field.consult, adds.marks, report, true_and]
  refine ⟨⟨h.lane.status, h.lane.expected, h.lane.origin, h.lane.carried, h.lane.eligible, ?_⟩,
    ?_, fun j => ?_, ?_⟩
  · simp only [Call.storeOwn, report]
    exact h.lane.slots.update i _
  · simp only [Call.storePeer, report]
    exact h.peer.update i _
  · exact Slots.Spares.update_same h.memories i (some _) j
  · exact congrArg (· ++ _) h.raised

theorem dismiss (h : f.Spares k f') (i : Nat) :
    (f.dismiss i).Spares k (f'.dismiss (bump k i)) :=
  { h with
    lane := { h.lane with
      eligible := h.lane.eligible.erase i
      slots := h.lane.slots.erase i } }

theorem award (h : f.Spares k f') {i : Nat} (small : i < ScannerSet.capacity)
    (small' : bump k i < ScannerSet.capacity) :
    (f.award i).Spares k (f'.award (bump k i)) :=
  { h with lane := { h.lane with eligible := .singleton small small' } }

theorem decline (h : f.Spares k f') (declines : s.Declines) (w : Window) :
    (f'.consult q' w k s).1 = .abort ∧ f.Spares k ((f'.consult q' w k s).2.dismiss k) := by
  have answer := declines ((f'.memories.get? k).getD s.memory)
    ⟨k, q'.marks, f'.lane.slots.get? k, f'.peer.get? k⟩ w.bytes
  obtain ⟨verdict, -, peer, raised⟩ := answer
  refine ⟨verdict, ⟨h.lane.status, h.lane.expected, h.lane.origin, h.lane.carried,
    h.lane.eligible.erase_spare, h.lane.slots.update_erase _⟩, ?_, fun j => ?_, ?_⟩
  · have kept : (f'.consult q' w k s).2.peer = f'.peer := by
      simp only [Field.consult, Scanner.look, Call.storePeer, peer, Slots.update_get?]
    simpa only [Field.dismiss, kept] using h.peer
  · simp only [Field.dismiss, Field.consult]
    rw [Slots.get?_set, if_neg (bump_ne k j).symm, h.memories]
  · simp only [Field.dismiss, Field.consult, Scanner.look, raised, List.append_nil, h.raised]

end Spares

/-- How far the answers of two races agree: verdict and target are the same, or, where `loose` says
so, neither verdict decides. -/
def Answers (loose : Prop) (v v' : Verdict) (f f' : Field α μ) : Prop :=
  v' = v ∧ f'.lane.target = f.lane.target ∨
    loose ∧ v.isDecisive = false ∧ v'.isDecisive = false

theorem race_of_abort (known : q.registry.scanner? i = some s)
    (aborts : (f.consult q w i s).1 = .abort) {ids : List Nat} {v : Verdict} :
    race q w (i :: ids) v f = race q w ids .abort ((f.consult q w i s).2.dismiss i) := by
  rw [race, known]
  simp only
  generalize f.consult q w i s = answer at aborts ⊢
  obtain ⟨u, g⟩ := answer
  obtain rfl : u = .abort := aborts
  rfl

theorem race_spares {loose : Prop} (adds : q.AddsDecliner k q') (w : Window) {ids ids' : List Nat}
    (same : ids'.filter (· != k) = ids.map (bump k)) (late : k ∈ ids' → loose)
    (small : ∀ i ∈ ids', i < ScannerSet.capacity) (small' : ∀ i ∈ ids, i < ScannerSet.capacity)
    {v v' : Verdict} (undecided : v.isDecisive = false) (h : f.Spares k f')
    (answers : Answers loose v v' f f') :
    let r := race q w ids v f
    let r' := race q' w ids' v' f'
    r.2.Spares k r'.2 ∧ Answers loose r.1 r'.1 r.2 r'.2 := by
  induction ids' generalizing ids v v' f f' with
  | nil =>
    obtain rfl := List.map_eq_nil_iff.mp same.symm
    exact ⟨h, answers⟩
  | cons x ids' ih =>
    have late' (listed : k ∈ ids') : loose := late (List.mem_cons_of_mem _ listed)
    have smaller := fun i listed => small i (List.mem_cons_of_mem _ listed)
    by_cases own : x = k
    · subst own
      rw [List.filter_cons_of_neg (by simp)] at same
      obtain ⟨s, known⟩ := Option.isSome_iff_exists.mp adds.registry.added
      obtain ⟨aborts, declined⟩ : (f'.consult q' w x s).1 = .abort ∧
          f.Spares x ((f'.consult q' w x s).2.dismiss x) :=
        h.decline (adds.registry.declines s known) w
      simp only [race_of_abort known aborts]
      exact ih same late' smaller small' undecided declined
        (.inr ⟨late List.mem_cons_self, undecided, rfl⟩)
    · obtain ⟨i, rfl⟩ := exists_bump own
      rw [List.filter_cons_of_pos (by simpa using own)] at same
      obtain ⟨j, ids, rfl, names, rest⟩ := List.map_eq_cons_iff.mp same.symm
      obtain rfl := bump_inj.mp names
      have smaller' := fun i listed => small' i (List.mem_cons_of_mem _ listed)
      unfold race
      rw [adds.registry.scanner]
      cases known : q.registry.scanner? j with
      | none =>
        exact ih rest.symm late' smaller smaller' undecided (h.dismiss j) answers
      | some s =>
        obtain ⟨verdict, target, later⟩ := h.consult adds (adds.registry.ignores j s known) w j
        simp only
        generalize f.consult q w j s = answer at verdict target later ⊢
        generalize f'.consult q' w (bump k j) s = answer' at verdict target later ⊢
        obtain ⟨u, g⟩ := answer
        obtain ⟨u', g'⟩ := answer'
        obtain rfl : u' = u := verdict
        cases u' with
        | search => exact ih rest.symm late' smaller smaller' rfl later (.inl ⟨rfl, target⟩)
        | abort =>
          exact ih rest.symm late' smaller smaller' rfl (later.dismiss j) (.inl ⟨rfl, target⟩)
        | flush | skip =>
          exact ⟨later.award (small' j List.mem_cons_self) (small _ List.mem_cons_self),
            .inl ⟨rfl, target⟩⟩

theorem race_inside (inside : ∀ {i s}, q.registry.scanner? i = some s → s.AbortsInside)
    (w : Window) (ids : List Nat) {v : Verdict}
    (h : v = .abort → f.lane.target.toNat ≤ w.bytes.length) :
    let r := race q w ids v f
    r.1 = .abort → r.2.lane.target.toNat ≤ w.bytes.length := by
  induction ids generalizing v f with
  | nil => exact h
  | cons i ids ih =>
    unfold race
    cases known : q.registry.scanner? i with
    | none => exact ih (f := f.dismiss i) h
    | some s =>
      have aborted : (f.consult q w i s).1 = .abort →
          (f.consult q w i s).2.lane.target.toNat ≤ w.bytes.length :=
        inside known _ _ _
      simp only
      generalize f.consult q w i s = answer at aborted ⊢
      obtain ⟨u, g⟩ := answer
      cases u with
      | search => exact ih (f := g) nofun
      | abort => exact ih (f := g.dismiss i) aborted
      | flush | skip => nofun

theorem race_survived (w : Window) {ids : List Nat}
    (known : ∀ i ∈ ids, (q.registry.scanner? i).isSome = true)
    (listed : ∀ i ∈ ids, f.lane.eligible.contains i = true) (apart : ids.Nodup) (v : Verdict) :
    let r := race q w ids v f
    r.1 = .abort ∨ ids = [] ∧ r.1 = v ∨ r.2.lane.eligible.isEmpty = false := by
  induction ids generalizing v f with
  | nil => exact .inr (.inl ⟨rfl, rfl⟩)
  | cons i ids ih =>
    obtain ⟨new, apart⟩ := List.nodup_cons.mp apart
    have known' := fun x later => known x (List.mem_cons_of_mem _ later)
    have listed' := fun x later => listed x (List.mem_cons_of_mem _ later)
    have member := listed i List.mem_cons_self
    obtain ⟨s, found⟩ := Option.isSome_iff_exists.mp (known i List.mem_cons_self)
    have kept : (f.consult q w i s).2.lane.eligible = f.lane.eligible := rfl
    unfold race
    rw [found]
    simp only
    generalize f.consult q w i s = answer at kept ⊢
    obtain ⟨u, g⟩ := answer
    simp only at kept
    cases u with
    | search =>
      obtain aborted | ⟨rfl, -⟩ | survived := ih (f := g) known' (kept ▸ listed') apart .search
      · exact .inl aborted
      · exact .inr (.inr (ScannerSet.isEmpty_of_contains (kept ▸ member)))
      · exact .inr (.inr survived)
    | abort =>
      have waiting : ∀ x ∈ ids, (g.dismiss i).lane.eligible.contains x = true := by
        intro x later
        show (g.lane.eligible.erase i).contains x = true
        rw [ScannerSet.contains_erase, kept, listed' x later, Bool.true_and, bne_iff_ne]
        exact fun same => new (same ▸ later)
      obtain aborted | ⟨-, last⟩ | survived := ih known' waiting apart .abort
      · exact .inl aborted
      · exact .inl last
      · exact .inr (.inr survived)
    | flush | skip =>
      exact .inr (.inr (ScannerSet.isEmpty_singleton (ScannerSet.contains_lt member)))

theorem race_struck (inside : ∀ {i s}, q.registry.scanner? i = some s → s.AbortsInside)
    (known : ∀ i, f.lane.eligible.contains i = true → (q.registry.scanner? i).isSome = true)
    (contested : f.lane.eligible.isEmpty = false) (w : Window) :
    let r := race q w f.lane.eligible.ids .search f
    r.2.lane.eligible.isEmpty = true → r.2.lane.target.toNat ≤ w.bytes.length := by
  intro r gone
  obtain aborted | ⟨nobody, -⟩ | survived := race_survived (q := q) (f := f) w
    (fun i listed => known i (ScannerSet.mem_ids.mp listed)) (fun i => ScannerSet.mem_ids.mp)
    (f.lane.eligible.pairwise_ids.imp Nat.ne_of_lt) .search
  · exact race_inside inside w _ nofun aborted
  · obtain ⟨i, member⟩ := ScannerSet.exists_contains contested
    exact absurd (nobody ▸ ScannerSet.mem_ids.mpr member) List.not_mem_nil
  · rw [show (race q w f.lane.eligible.ids .search f).2.lane.eligible.isEmpty = true from gone]
      at survived
    cases survived

theorem race_declined {s : Scanner α μ} (added : q.registry.scanner? k = some s)
    (declines : s.Declines) (w : Window) :
    (race q w f.lane.eligible.ids .search f).2.lane.eligible.contains k = false := by
  obtain ⟨asked, -, pass, left⟩ := race_pass (q := q) (f := f) w
    f.lane.eligible.ids .search (f.lane.eligible.pairwise_ids.imp Nat.ne_of_lt)
    fun i => ScannerSet.mem_ids.mp
  have aborts {c : Call α μ} (made : c ∈ asked) (own : c.sight.id = k) :
      c.report.verdict = .abort := by
    obtain ⟨s', known, asks⟩ := pass.asks c made
    rw [own, added] at known
    obtain rfl := Option.some.inj known
    rw [asks.report]
    exact (declines _ _ _).1
  rw [Bool.eq_false_iff]
  intro stays
  obtain ⟨member, known, admitted⟩ := (left k).mp stays
  obtain ⟨c, last, decisive⟩ | all := pass.whole
  · have made := List.mem_of_getLast? last
    have own := (admitted c made).1 decisive
    rw [aborts made own.symm] at decisive
    cases decisive
  · have listed := ScannerSet.mem_ids.mpr member
    have present : k ∈ asked.map (·.sight.id) := by
      rw [all]
      exact List.mem_filter.mpr ⟨listed, known listed⟩
    obtain ⟨c, made, own⟩ := List.mem_map.mp present
    exact (admitted c made).2 (aborts made own) own.symm

end Field

/-! ### Contests -/

/-- The lane waits for its first contest, or for more bytes. -/
def Status.IsSeeking (s : Status) : Prop := s = .start ∨ s = .search

/-- Between contests the new scanner is in no race but the first, and only targets that are not
going to be read may differ. -/
structure Lane.AtRest (r : Registry α μ) (k : Nat) (l l' : Lane α) : Prop where
  aimed : l.status ≠ .abort → (l.status.IsSeeking → l.eligible.isEmpty = true) →
    l'.target = l.target
  late : l'.eligible.contains k = true → l.status.IsSeeking ∧ l.eligible.isEmpty = false
  known : ∀ i, l.eligible.contains i = true → (r.scanner? i).isSome = true

theorem Lane.AtRest.target {r : Registry α μ} {l l' : Lane α} (settled : l.AtRest r k l')
    (status : l.status = .flush ∨ l.status = .skip) : l'.target = l.target := by
  refine settled.aimed (fun aborted => ?_) fun seeking => ?_
  · rw [aborted] at status
    obtain same | same := status <;> cases same
  · obtain same | same := seeking <;> rw [same] at status <;> obtain same | same := status <;>
      cases same

theorem Lane.AtRest.of_empty {r : Registry α μ} {l l' : Lane α} (aborted : l.status = .abort)
    (nobody : l.eligible = .empty) (nobody' : l'.eligible = .empty) : l.AtRest r k l' where
  aimed alive := absurd aborted alive
  late listed := by rw [nobody', ScannerSet.contains_empty] at listed; cases listed
  known i listed := by rw [nobody, ScannerSet.contains_empty] at listed; cases listed

namespace Field

variable {q q' : Inquiry α μ} {f f' : Field α μ}

namespace Spares

theorem abort (h : f.Spares k f') (target target' : UInt32) :
    Spares k { f with lane := { f.lane.abort with target } }
      { f' with lane := { f'.lane.abort with target := target' } } :=
  { h with lane := { h.lane.abort with } }

theorem turn (h : f.Spares k f') (status : Status) (target target' : UInt32) :
    Spares k { f with lane := { f.lane with status, target } }
      { f' with lane := { f'.lane with status, target := target' } } :=
  { h with lane := { h.lane with status := rfl } }

end Spares

/-- Moves that lead to the same, or both go on in a lane that is given up. -/
def MovesAlike (l : Lane α) (m m' : Move) : Prop :=
  m' = m ∨ l.status = .abort ∧ ∃ next next', m = .again next ∧ m' = .again next'

theorem contest_undecided {idx : UInt32} {data : List UInt8} {v : Verdict} {g : Field α μ}
    (raced : race q ⟨f.lane.origin + idx, data⟩ f.lane.eligible.ids .search f = (v, g))
    (contested : g.lane.eligible.isEmpty = false) (undecided : v.isDecisive = false)
    (searching : f.lane.status = .search) :
    contest q idx data f = (.wait, { g with lane := { g.lane with status := .search } }) := by
  rw [contest_of_race raced contested]
  cases v with
  | search => rfl
  | flush | skip => cases undecided
  | abort =>
    have kept : g.lane.status = .search := by
      rw [← searching, ← status_race (q := q) (f := f), raced]
    simp only
    rw [← kept]

section Contest

variable (adds : q.AddsDecliner k q') (h : f.Spares k f')
  (settled : f.lane.AtRest q.registry k f'.lane)

include adds h settled

theorem contest_spares_deaf (alive : f.lane.status ≠ .abort)
    (deaf : f.lane.eligible.isEmpty = true) (idx : UInt32) (data : List UInt8) :
    let r := contest q idx data f
    let r' := contest q' idx data f'
    r.2.Spares k r'.2 ∧ r.2.lane.AtRest q.registry k r'.2.lane ∧ r'.1 = r.1 := by
  have out : f'.lane.eligible.contains k = false := by
    rw [Bool.eq_false_iff]
    intro listed
    rw [(settled.late listed).2] at deaf
    cases deaf
  have nobody := ScannerSet.eq_empty deaf
  have nobody' := ScannerSet.eq_empty ((h.lane.eligible.isEmpty out).trans deaf)
  rw [contest_deaf nobody, contest_deaf nobody', settled.aimed alive fun _ => deaf, adds.total]
  exact ⟨h.abort _ _, .of_empty rfl rfl rfl, rfl⟩

theorem known_spares (i : Nat) (listed : f'.lane.eligible.contains i = true) :
    (q'.registry.scanner? i).isSome = true := by
  by_cases own : i = k
  · rw [own]
    exact adds.registry.added
  · obtain ⟨j, rfl⟩ := exists_bump own
    rw [adds.registry.scanner]
    exact settled.known j ((h.lane.eligible j).symm.trans listed)

theorem races_spares (active : f.lane.status = .search ∨ f.lane.status = .skip)
    (contested : f.lane.eligible.isEmpty = false) (w : Window) :
    let r := race q w f.lane.eligible.ids .search f
    let r' := race q' w f'.lane.eligible.ids .search f'
    r.2.Spares k r'.2 ∧ Answers (f.lane.status = .search) r.1 r'.1 r.2 r'.2 ∧
      r'.2.lane.eligible.contains k = false ∧
      (∀ i, r.2.lane.eligible.contains i = true → (q.registry.scanner? i).isSome = true) ∧
      (r.2.lane.eligible.isEmpty = true →
        r.2.lane.target.toNat ≤ w.bytes.length ∧ r'.2.lane.target.toNat ≤ w.bytes.length) := by
  obtain ⟨s, added⟩ := Option.isSome_iff_exists.mp adds.registry.added
  have small {l : Lane α} : ∀ i ∈ l.eligible.ids, i < ScannerSet.capacity :=
    fun i listed => ScannerSet.contains_lt (ScannerSet.mem_ids.mp listed)
  have late (listed : k ∈ f'.lane.eligible.ids) : f.lane.status = .search := by
    have seeking := (settled.late (ScannerSet.mem_ids.mp listed)).1
    obtain searching | skipping := active
    · exact searching
    · rw [skipping] at seeking
      obtain start | search := seeking
      · cases start
      · cases search
  have answers : Answers (f.lane.status = .search) .search .search f f' := by
    obtain searching | skipping := active
    · exact .inr ⟨searching, rfl, rfl⟩
    · exact .inl ⟨rfl, settled.target (.inr skipping)⟩
  obtain ⟨spares, answered⟩ := race_spares adds w h.lane.eligible.ids late small small rfl h answers
  have out := race_declined (f := f') added (adds.registry.declines s added) w
  obtain ⟨_, -, -, left⟩ := race_pass (q := q) (f := f) w f.lane.eligible.ids .search
    (f.lane.eligible.pairwise_ids.imp Nat.ne_of_lt) fun i => ScannerSet.mem_ids.mp
  have contested' : f'.lane.eligible.isEmpty = false := by
    obtain ⟨i, member⟩ := ScannerSet.exists_contains contested
    exact ScannerSet.isEmpty_of_contains ((h.lane.eligible i).trans member)
  refine ⟨spares, answered, out, fun i stays => settled.known i ((left i).mp stays).1,
    fun gone => ⟨?_, ?_⟩⟩
  · exact race_struck (adds.registry.inside _ _) settled.known contested w gone
  · exact race_struck adds.registry.abortsInside (known_spares adds h settled) contested' w
      ((spares.lane.eligible.isEmpty out).trans gone)

theorem contest_spares (active : f.lane.status = .search ∨ f.lane.status = .skip) {idx : UInt32}
    {data : List UInt8} (room : idx.toNat + data.length ≤ q.total.toNat) :
    let r := contest q idx data f
    let r' := contest q' idx data f'
    r.2.Spares k r'.2 ∧ r.2.lane.AtRest q.registry k r'.2.lane ∧ MovesAlike r.2.lane r.1 r'.1 := by
  have alive : f.lane.status ≠ .abort := by
    obtain searching | skipping := active
    · rw [searching]; nofun
    · rw [skipping]; nofun
  cases deaf : f.lane.eligible.isEmpty with
  | true =>
    obtain ⟨spares, after, same⟩ := contest_spares_deaf adds h settled alive deaf idx data
    exact ⟨spares, after, .inl same⟩
  | false =>
    have races := races_spares adds h settled active deaf ⟨f.lane.origin + idx, data⟩
    have searching' (searching : f.lane.status = .search) : f'.lane.status = .search :=
      h.lane.status.trans searching
    cases raced : race q ⟨f.lane.origin + idx, data⟩ f.lane.eligible.ids .search f with
    | mk v g =>
    cases raced' : race q' ⟨f.lane.origin + idx, data⟩ f'.lane.eligible.ids .search f' with
    | mk v' g' =>
    rw [raced, raced'] at races
    rw [← h.lane.origin] at raced'
    obtain ⟨spares, answers, out, known, inside⟩ := races
    simp only at spares answers out known inside
    have empties := spares.lane.eligible.isEmpty out
    have settles {l l' : Lane α} (eligible : l.eligible = g.lane.eligible)
        (eligible' : l'.eligible = g'.lane.eligible)
        (aimed : l.status ≠ .abort → (l.status.IsSeeking → l.eligible.isEmpty = true) →
          l'.target = l.target) : l.AtRest q.registry k l' :=
      { aimed
        late := fun listed => by rw [eligible', out] at listed; cases listed
        known := by rw [eligible]; exact known }
    cases gone : g.lane.eligible.isEmpty with
    | true =>
      rw [contest_of_empty raced gone, contest_of_empty raced' (empties.trans gone)]
      obtain ⟨near, near'⟩ := inside gone
      have lands {t : UInt32} (near : t.toNat ≤ data.length) : Length.add t idx ≤ q.total := by
        rw [UInt32.le_iff_toNat_le, Length.toNat_add]
        omega
      simp only [adds.total, if_pos (lands near), if_pos (lands near')]
      exact ⟨spares.abort _ _, .of_empty rfl rfl rfl, .inr ⟨rfl, _, _, rfl, rfl⟩⟩
    | false =>
      obtain ⟨rfl, target⟩ | ⟨searching, undecided, undecided'⟩ := answers
      · rw [contest_of_race raced gone, contest_of_race raced' (empties.trans gone), adds.total]
        cases v' with
        | search =>
          exact ⟨spares.turn .search _ _, settles rfl rfl fun _ _ => target, .inl rfl⟩
        | flush =>
          simp only [target]
          exact ⟨spares.turn .flush _ _, settles rfl rfl fun _ _ => rfl, .inl rfl⟩
        | skip =>
          simp only [target]
          exact ⟨spares.turn .skip _ _, settles rfl rfl fun _ _ => rfl, .inl rfl⟩
        | abort => exact ⟨spares, settles rfl rfl fun _ _ => target, .inl rfl⟩
      · rw [contest_undecided raced gone undecided searching,
          contest_undecided raced' (empties.trans gone) undecided' (searching' searching)]
        refine ⟨spares.turn .search _ _, settles rfl rfl fun _ seeks => ?_, .inl rfl⟩
        have nobody : g.lane.eligible.isEmpty = true := seeks (.inr rfl)
        rw [gone] at nobody
        cases nobody

/-- Moves go alike, and a cut at a boundary cuts at the same place. -/
theorem move_spares {idx : UInt32} {data : List UInt8}
    (room : idx.toNat + data.length ≤ q.total.toNat) :
    let r := move q idx data f
    let r' := move q' idx data f'
    r.2.Spares k r'.2 ∧ r.2.lane.AtRest q.registry k r'.2.lane ∧ MovesAlike r.2.lane r.1 r'.1 ∧
      (r.1 = .cut .boundary → r'.2.lane.target = r.2.lane.target) := by
  have contests (active : f.lane.status = .search ∨ f.lane.status = .skip) {idx : UInt32}
      {data : List UInt8} (room : idx.toNat + data.length ≤ q.total.toNat) :
      let r := contest q idx data f
      let r' := contest q' idx data f'
      r.2.Spares k r'.2 ∧ r.2.lane.AtRest q.registry k r'.2.lane ∧
        MovesAlike r.2.lane r.1 r'.1 ∧
        (r.1 = .cut .boundary → r'.2.lane.target = r.2.lane.target) := by
    obtain ⟨spares, after, alike⟩ := contest_spares adds h settled active room
    exact ⟨spares, after, alike, fun cuts => (contest_ne_cut (Prod.ext cuts rfl)).elim⟩
  have waits : f.Spares k f' ∧ f.lane.AtRest q.registry k f'.lane ∧
      MovesAlike f.lane .wait .wait ∧
      (Move.wait = .cut .boundary → f'.lane.target = f.lane.target) :=
    ⟨h, settled, .inl rfl, nofun⟩
  unfold move
  rw [h.lane.status, adds.total, adds.limit]
  cases status : f.lane.status with
  | start | abort => exact ⟨h, settled, .inl rfl, nofun⟩
  | search =>
    simp only
    split
    · exact contests (.inl status) room
    · exact waits
  | flush =>
    have target := settled.target (.inl status)
    simp only [target]
    split
    · refine ⟨?_, ⟨fun _ _ => rfl, ?_, settled.known⟩, .inl rfl, fun _ => rfl⟩
      · exact { h with lane := { h.lane with status := rfl } }
      · intro listed
        obtain ⟨seeking, -⟩ := settled.late listed
        rw [status] at seeking
        obtain same | same := seeking <;> cases same
    · split
      · exact ⟨h, settled, .inl rfl, nofun⟩
      · exact waits
  | skip =>
    simp only [settled.target (.inr status)]
    split
    · exact waits
    · split
      · rename_i behind
        rw [UInt32.le_iff_toNat_le] at behind
        exact contests (.inr status) (by omega)
      · rename_i ahead
        rw [UInt32.le_iff_toNat_le, Nat.not_le] at ahead
        have passed : (f.lane.target - idx).toNat = f.lane.target.toNat - idx.toNat :=
          UInt32.toNat_sub_of_le _ _ (UInt32.le_iff_toNat_le.mpr ahead.le)
        split
        · exact waits
        · refine contests (.inr status) ?_
          rw [List.length_drop]
          omega

end Contest

theorem room_drop {idx next total : UInt32} {data : List UInt8}
    (room : idx.toNat + data.length ≤ total.toNat) (inside : next ≤ total) (ahead : idx < next) :
    next.toNat + (data.drop (next - idx).toNat).length ≤ total.toNat := by
  rw [UInt32.lt_iff_toNat_lt] at ahead
  rw [UInt32.le_iff_toNat_le] at inside
  have passed : (next - idx).toNat = next.toNat - idx.toNat :=
    UInt32.toNat_sub_of_le _ _ (UInt32.le_iff_toNat_le.mpr ahead.le)
  rw [List.length_drop, passed]
  omega

/-- Pursuits go alike, and a boundary that one ends with is the other's. -/
theorem pursue_spares (adds : q.AddsDecliner k q') {idx : UInt32} {data : List UInt8}
    (h : f.Spares k f') (settled : f.lane.AtRest q.registry k f'.lane)
    (room : idx.toNat + data.length ≤ q.total.toNat) :
    let r := pursue q idx data f
    let r' := pursue q' idx data f'
    r'.1 = r.1 ∧ r.2.Spares k r'.2 ∧ r.2.lane.AtRest q.registry k r'.2.lane ∧
      (r.1 = some .boundary → r'.2.lane.target = r.2.lane.target) := by
  have moves {f f' : Field α μ} {idx : UInt32} {data : List UInt8} {m : Move} {g : Field α μ}
      (moved : move q idx data f = (m, g)) (h : f.Spares k f')
      (settled : f.lane.AtRest q.registry k f'.lane)
      (room : idx.toNat + data.length ≤ q.total.toNat) :
      ∃ m' g', move q' idx data f' = (m', g') ∧ g.Spares k g' ∧
        g.lane.AtRest q.registry k g'.lane ∧ MovesAlike g.lane m m' ∧
        (m = .cut .boundary → g'.lane.target = g.lane.target) := by
    have both := move_spares adds h settled room
    rw [moved] at both
    exact ⟨_, _, rfl, both⟩
  have given_up {f' g g' : Field α μ} {idx next : UInt32} {data : List UInt8}
      (moved : move q' idx data f' = (.again next, g')) (spares : g.Spares k g')
      (settled : g.lane.AtRest q.registry k g'.lane) (aborted : g.lane.status = .abort) :
      let r' := pursue q' idx data f'
      r'.1 = some .abort ∧ g.Spares k r'.2 ∧ g.lane.AtRest q.registry k r'.2.lane ∧
        (some Cut.abort = some .boundary → r'.2.lane.target = g.lane.target) := by
    rw [pursue_of_again_abort moved (spares.lane.status.trans aborted)]
    exact ⟨rfl, spares, settled, fun wrong => by cases wrong⟩
  fun_induction pursue q idx data f generalizing f' with
  | case1 idx data f kind g moved =>
    obtain ⟨m', g', moved', spares, after, rfl | ⟨-, _, _, again, -⟩, target⟩ :=
      moves moved h settled room
    · rw [pursue_of_cut moved']
      exact ⟨rfl, spares, after, fun same => target (congrArg Move.cut (Option.some.inj same))⟩
    · cases again
  | case2 idx data f g moved =>
    obtain ⟨m', g', moved', spares, after, rfl | ⟨-, _, _, again, -⟩, -⟩ :=
      moves moved h settled room
    · rw [pursue_of_wait moved']
      exact ⟨rfl, spares, after, fun wrong => by cases wrong⟩
    · cases again
  | case3 idx data f next g moved ahead smaller ih =>
    obtain ⟨m', g', moved', spares, after, rfl | ⟨aborted, _, _, -, rfl⟩, -⟩ :=
      moves moved h settled room
    · rw [pursue_of_again moved' ahead]
      exact ih spares after (room_drop room (move_again moved).1 ahead)
    · rw [pursue_of_aborted aborted]
      exact given_up moved' spares after aborted
  | case4 idx data f next g moved behind stuck =>
    obtain ⟨m', g', moved', spares, after, rfl | ⟨aborted, _⟩, -⟩ := moves moved h settled room
    · rw [pursue_of_again_stuck moved' behind
        ⟨h.lane.status.trans stuck.1, spares.lane.status.trans stuck.2⟩]
      exact ⟨rfl, spares, after, fun wrong => by cases wrong⟩
    · rw [stuck.2] at aborted
      cases aborted
  | case5 idx data f next g moved behind free smaller ih =>
    obtain ⟨m', g', moved', spares, after, rfl | ⟨aborted, _, _, -, rfl⟩, -⟩ :=
      moves moved h settled room
    · have free' : ¬ (f'.lane.status = .skip ∧ g'.lane.status = .skip) := by
        rwa [h.lane.status, spares.lane.status]
      rw [pursue_of_again_here moved' behind free']
      rw [UInt32.lt_iff_toNat_lt] at behind
      exact ih spares after (by omega)
    · rw [pursue_of_aborted aborted]
      exact given_up moved' spares after aborted

end Field

/-! ### The new scanner itself -/

namespace Field

variable {q : Inquiry α μ} {f : Field α μ} {s : Scanner α μ}

theorem slots_race (w : Window) {ids : List Nat} (absent : k ∉ ids) (v : Verdict) :
    (race q w ids v f).2.lane.slots.get? k = f.lane.slots.get? k := by
  induction ids generalizing v f with
  | nil => rfl
  | cons i ids ih =>
    obtain ⟨other, absent⟩ := List.ne_and_not_mem_of_not_mem_cons absent
    have struck (g : Field α μ) : (g.dismiss i).lane.slots.get? k = g.lane.slots.get? k := by
      show (g.lane.slots.erase i).get? k = _
      rw [Slots.get?_erase, if_neg other.symm]
    have asked (s : Scanner α μ) :
        (f.consult q w i s).2.lane.slots.get? k = f.lane.slots.get? k := by
      simp only [consult, Call.storeOwn, Scanner.look, Slots.get?_update, if_neg other.symm]
    unfold race
    cases q.registry.scanner? i with
    | none => exact (ih absent v).trans (struck f)
    | some s =>
      have kept := asked s
      simp only
      generalize f.consult q w i s = answer at kept ⊢
      obtain ⟨u, g⟩ := answer
      cases u with
      | search => exact (ih absent .search).trans kept
      | abort => exact (ih absent .abort).trans ((struck g).trans kept)
      | flush | skip => exact kept

theorem race_cleared (added : q.registry.scanner? k = some s) (declines : s.Declines) (w : Window)
    {ids : List Nat} (apart : ids.Nodup) (v : Verdict) :
    let r := race q w ids v f
    r.2.lane.slots.get? k = none ∨
      ∃ asked, r.2.calls = asked ++ f.calls ∧ ∀ c ∈ asked, c.sight.id ≠ k := by
  induction ids generalizing v f with
  | nil => exact .inr ⟨[], rfl, List.forall_mem_nil _⟩
  | cons i ids ih =>
    obtain ⟨new, others⟩ := List.nodup_cons.mp apart
    by_cases own : i = k
    · subst own
      have aborts : (f.consult q w i s).1 = .abort := (declines _ _ _).1
      rw [race_of_abort added aborts]
      refine .inl ((slots_race w new .abort).trans ?_)
      show (Slots.erase _ i).get? i = none
      rw [Slots.get?_erase, if_pos rfl]
    · have more {g : Field α μ} {c : Call α μ} (calls : g.calls = c :: f.calls)
          (other : c.sight.id ≠ k) {r : Field α μ}
          (rest : r.lane.slots.get? k = none ∨
            ∃ asked, r.calls = asked ++ g.calls ∧ ∀ c ∈ asked, c.sight.id ≠ k) :
          r.lane.slots.get? k = none ∨
            ∃ asked, r.calls = asked ++ f.calls ∧ ∀ c ∈ asked, c.sight.id ≠ k := by
        refine rest.imp_right fun ⟨asked, made, apart⟩ => ⟨asked ++ [c], ?_, ?_⟩
        · rw [made, calls, List.append_assoc, List.singleton_append]
        · exact List.forall_mem_append.mpr ⟨apart, List.forall_mem_singleton.mpr other⟩
      unfold race
      cases known : q.registry.scanner? i with
      | none => exact ih (f := f.dismiss i) others v
      | some t =>
        have calls : ∃ c : Call α μ, c.sight.id = i ∧
            (f.consult q w i t).2.calls = c :: f.calls := ⟨_, rfl, rfl⟩
        simp only
        generalize f.consult q w i t = answer at calls ⊢
        obtain ⟨u, g⟩ := answer
        obtain ⟨c, rfl, calls⟩ := calls
        cases u with
        | search => exact more calls own (ih others .search)
        | abort => exact more calls own (ih (f := g.dismiss c.sight.id) others .abort)
        | flush | skip =>
          exact .inr ⟨[c], calls, List.forall_mem_singleton.mpr own⟩

/-- Behind a contest a scanner that declines is out of the race, and without a cell if the contest
has asked it. -/
theorem contest_declined (added : q.registry.scanner? k = some s) (declines : s.Declines)
    (idx : UInt32) (data : List UInt8) :
    let g := (contest q idx data f).2
    g.lane.eligible.contains k = false ∧
      ∀ asked, g.calls = asked ++ f.calls → (∃ c ∈ asked, c.sight.id = k) →
        g.lane.slots.get? k = none := by
  have out := race_declined (f := f) added declines ⟨f.lane.origin + idx, data⟩
  have cleared := race_cleared (f := f) added declines ⟨f.lane.origin + idx, data⟩
    (f.lane.eligible.pairwise_ids.imp Nat.ne_of_lt) .search
  have gone : (Slots.empty : Slots α).get? k = none := rfl
  cases raced : race q ⟨f.lane.origin + idx, data⟩ f.lane.eligible.ids .search f with
  | mk v r =>
  rw [raced] at out cleared
  have told (asked : List (Call α μ)) (calls : r.calls = asked ++ f.calls)
      (own : ∃ c ∈ asked, c.sight.id = k) : r.lane.slots.get? k = none := by
    refine cleared.resolve_right fun ⟨others, made, apart⟩ => ?_
    obtain rfl : asked = others := List.append_cancel_right (calls.symm.trans made)
    obtain ⟨c, listed, same⟩ := own
    exact apart c listed same
  cases empty : r.lane.eligible.isEmpty with
  | true =>
    rw [contest_of_empty raced empty]
    exact ⟨ScannerSet.contains_empty k, fun _ _ _ => gone⟩
  | false =>
    rw [contest_of_race raced empty]
    cases v <;> exact ⟨out, told⟩

end Field

end StreamFraming
