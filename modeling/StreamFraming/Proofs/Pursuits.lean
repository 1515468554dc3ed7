import StreamFraming.Engine.Pursuit

/-!
# Pursuits, move by move

What a pursuit comes to, one move after the other, and what it keeps, whatever the scanners answer.
All that scanners can do to a field they do in a race, so what every race keeps is kept by a pursuit
(`pursue_keeps`), and two pursuits whose scans go alike end alike (`pursue_related`).
-/

namespace StreamFraming.Field

variable {α μ : Type} {q : Inquiry α μ} {idx next : UInt32} {data : List UInt8} {f g : Field α μ}

theorem pursue_of_cut {kind : Cut} (h : move q idx data f = (.cut kind, g)) :
    pursue q idx data f = (some kind, g) := by
  unfold pursue
  split <;> simp_all

theorem pursue_of_wait (h : move q idx data f = (.wait, g)) :
    pursue q idx data f = (none, g) := by
  unfold pursue
  split <;> simp_all

theorem pursue_of_again (h : move q idx data f = (.again next, g)) (ahead : idx < next) :
    pursue q idx data f = pursue q next (data.drop (next - idx).toNat) g := by
  rw [pursue]
  split <;> simp_all

theorem pursue_of_again_stuck (h : move q idx data f = (.again next, g)) (behind : ¬ idx < next)
    (stuck : f.lane.status = .skip ∧ g.lane.status = .skip) :
    pursue q idx data f = (none, g) := by
  rw [pursue]
  split <;> rename_i moved <;> rw [h] at moved <;> cases moved
  rw [dif_neg behind, dif_pos stuck]

theorem pursue_of_again_here (h : move q idx data f = (.again next, g)) (behind : ¬ idx < next)
    (free : ¬ (f.lane.status = .skip ∧ g.lane.status = .skip)) :
    pursue q idx data f = pursue q next data g := by
  rw [pursue]
  split <;> rename_i moved <;> rw [h] at moved <;> cases moved
  rw [dif_neg behind, dif_neg free]

theorem pursue_of_aborted (aborted : f.lane.status = .abort) :
    pursue q idx data f = (some .abort, f) := by
  apply pursue_of_cut
  simp only [move, aborted]

theorem pursue_of_again_abort (h : move q idx data f = (.again next, g))
    (aborted : g.lane.status = .abort) : pursue q idx data f = (some .abort, g) := by
  by_cases ahead : idx < next
  · rw [pursue_of_again h ahead, pursue_of_aborted aborted]
  · rw [pursue_of_again_here h ahead (by rw [aborted]; nofun), pursue_of_aborted aborted]

/-! ### What a pursuit keeps -/

section Keeping

variable {I : Field α μ → Prop}

section Racing

variable (asked : ∀ w id s f, q.registry.scanner? id = some s → I f → I (f.consult q w id s).2)
  (struck : ∀ f id, I f → I (f.dismiss id)) (won : ∀ f id, I f → I (f.award id))

include asked struck won

theorem race_keeps (w : Window) (ids : List Nat) (v : Verdict) (h : I f) :
    I (race q w ids v f).2 := by
  induction ids generalizing v f with
  | nil => exact h
  | cons id ids ih =>
    unfold race
    split
    · exact ih v (struck f id h)
    · rename_i s known
      have answered := asked w id s f known h
      generalize f.consult q w id s = answer at answered
      obtain ⟨v, g⟩ := answer
      cases v
      · exact ih _ answered
      · exact won g id answered
      · exact won g id answered
      · exact ih _ (struck g id answered)

variable (moved : ∀ f status target, (f.lane.status ≠ .start → status ≠ .start) → I f →
    I { f with lane := { f.lane with status, target } })
  (given_up : ∀ f target, I f → I { f with lane := { f.lane.abort with target } })

include moved given_up

/-- What no answer, no strike and no award changes, is changed by no race. -/
theorem contest_keeps (h : I f) : I (contest q idx data f).2 := by
  have raced :=
    race_keeps asked struck won ⟨f.lane.origin + idx, data⟩ f.lane.eligible.ids .search h
  unfold contest
  generalize race q ⟨f.lane.origin + idx, data⟩ f.lane.eligible.ids .search f = answer at raced
  obtain ⟨v, g⟩ := answer
  have concluded (target : UInt32) :
      I { g with lane := { g.lane.conclude v with target } } := by
    unfold Lane.conclude
    split
    · exact given_up g target raced
    · cases v
      · exact moved g .search target (fun _ => nofun) raced
      · exact moved g .flush target (fun _ => nofun) raced
      · exact moved g .skip target (fun _ => nofun) raced
      · exact moved g g.lane.status target id raced
  simp only
  split
  · exact concluded _
  · exact concluded (g.lane.conclude v).target

end Racing

variable (raced : ∀ idx data f, I f → I (contest q idx data f).2)
  (sought : ∀ f, I f → I { f with lane := { f.lane with status := .search } })

include raced sought

theorem move_keeps (h : I f) : I (move q idx data f).2 := by
  unfold move
  split
  · split
    · exact raced idx data f h
    · exact h
  · split
    · exact sought f h
    · split <;> exact h
  · simp only
    split
    · exact h
    · split
      · exact raced _ data f h
      · split
        · exact h
        · exact raced _ _ f h
  · exact h
  · exact h

theorem pursue_keeps_move (h : I (move q idx data f).2) : I (pursue q idx data f).2 := by
  fun_induction pursue q idx data f with
  | case1 idx data f kind g moved => rwa [moved] at h
  | case2 idx data f g moved => rwa [moved] at h
  | case3 idx data f next g moved ahead smaller ih =>
    rw [moved] at h
    exact ih (move_keeps raced sought h)
  | case4 idx data f next g moved _ stuck => rwa [moved] at h
  | case5 idx data f next g moved _ _ smaller ih =>
    rw [moved] at h
    exact ih (move_keeps raced sought h)

/-- What every race keeps, and the search for another boundary, is kept by a pursuit. -/
theorem pursue_keeps (h : I f) : I (pursue q idx data f).2 :=
  pursue_keeps_move raced sought (move_keeps raced sought h)

end Keeping

/-- What follows leaves the place of the lane alone and forgets no call. -/
structure Extends (f g : Field α μ) : Prop where
  origin : g.lane.origin = f.lane.origin
  expected : g.lane.expected = f.lane.expected
  calls : f.calls <:+ g.calls

theorem Extends.refl (f : Field α μ) : f.Extends f := ⟨rfl, rfl, List.suffix_refl _⟩

theorem Extends.trans {f g h : Field α μ} (first : f.Extends g) (later : g.Extends h) :
    f.Extends h :=
  ⟨later.origin.trans first.origin, later.expected.trans first.expected,
    first.calls.trans later.calls⟩

theorem extends_contest (q : Inquiry α μ) (idx : UInt32) (data : List UInt8) (f : Field α μ) :
    f.Extends (contest q idx data f).2 := by
  refine contest_keeps ?_ ?_ ?_ ?_ ?_ (.refl f)
  · intro w id s g _ kept
    exact kept.trans ⟨rfl, rfl, List.suffix_cons _ _⟩
  · intro g id kept
    exact kept.trans ⟨rfl, rfl, List.suffix_refl _⟩
  · intro g id kept
    exact kept.trans ⟨rfl, rfl, List.suffix_refl _⟩
  · intro g status target _ kept
    exact kept.trans ⟨rfl, rfl, List.suffix_refl _⟩
  · intro g target kept
    exact kept.trans ⟨rfl, rfl, List.suffix_refl _⟩

theorem extends_move (q : Inquiry α μ) (idx : UInt32) (data : List UInt8) (f : Field α μ) :
    f.Extends (move q idx data f).2 :=
  move_keeps (fun idx data g kept => kept.trans (extends_contest q idx data g))
    (fun _ kept => kept.trans ⟨rfl, rfl, List.suffix_refl _⟩) (.refl f)

theorem extends_pursue_move (q : Inquiry α μ) (idx : UInt32) (data : List UInt8)
    (f : Field α μ) : (move q idx data f).2.Extends (pursue q idx data f).2 :=
  pursue_keeps_move (fun idx data g kept => kept.trans (extends_contest q idx data g))
    (fun _ kept => kept.trans ⟨rfl, rfl, List.suffix_refl _⟩) (.refl _)

theorem extends_pursue (q : Inquiry α μ) (idx : UInt32) (data : List UInt8) (f : Field α μ) :
    f.Extends (pursue q idx data f).2 :=
  pursue_keeps (fun idx data g kept => kept.trans (extends_contest q idx data g))
    (fun _ kept => kept.trans ⟨rfl, rfl, List.suffix_refl _⟩) (.refl f)

/-! ### Where a pursuit leaves the lane -/

theorem started_contest (h : f.lane.status ≠ .start) (idx : UInt32) (data : List UInt8) :
    (contest q idx data f).2.lane.status ≠ .start := by
  refine contest_keeps (I := fun g => g.lane.status ≠ .start) ?_ ?_ ?_ ?_ ?_ h
  · exact fun _ _ _ _ _ kept => kept
  · exact fun _ _ kept => kept
  · exact fun _ _ kept => kept
  · exact fun _ _ _ started kept => started kept
  · exact fun _ _ _ => nofun

theorem started_move (h : f.lane.status ≠ .start) (idx : UInt32) (data : List UInt8) :
    (move q idx data f).2.lane.status ≠ .start :=
  move_keeps (I := fun g => g.lane.status ≠ .start)
    (fun idx data _ kept => started_contest kept idx data) (fun _ _ => nofun) h

/-- A lane that a segment has reached does not go back to its start. -/
theorem started_pursue (h : f.lane.status ≠ .start) (idx : UInt32) (data : List UInt8) :
    (pursue q idx data f).2.lane.status ≠ .start :=
  pursue_keeps (I := fun g => g.lane.status ≠ .start)
    (fun idx data _ kept => started_contest kept idx data) (fun _ _ => nofun) h

/-- What was cut of a message before is counted by cuts alone. -/
theorem carried_pursue (q : Inquiry α μ) (idx : UInt32) (data : List UInt8) (f : Field α μ) :
    (pursue q idx data f).2.lane.carried = f.lane.carried := by
  refine pursue_keeps (I := fun g => g.lane.carried = f.lane.carried) ?_ (fun _ kept => kept) rfl
  intro idx data g kept
  refine contest_keeps (I := fun g => g.lane.carried = f.lane.carried) ?_ ?_ ?_ ?_ ?_ kept
  · exact fun _ _ _ _ _ kept => kept
  · exact fun _ _ kept => kept
  · exact fun _ _ kept => kept
  · exact fun _ _ _ _ kept => kept
  · exact fun _ _ kept => kept

/-- No contest cuts. -/
theorem contest_ne_cut {kind : Cut} : contest q idx data f ≠ (.cut kind, g) := by
  unfold contest
  generalize race q ⟨f.lane.origin + idx, data⟩ f.lane.eligible.ids .search f = answer
  obtain ⟨v, r⟩ := answer
  simp only
  split
  · split <;> nofun
  · nofun

theorem move_boundary (h : move q idx data f = (.cut .boundary, g)) :
    f.lane.status = .flush ∧ f.lane.target ≤ q.total ∧
      g = { f with lane := { f.lane with status := .search } } := by
  unfold move at h
  split at h
  · split at h
    · exact absurd h contest_ne_cut
    · cases h
  · rename_i flush
    split at h
    · rename_i inside
      cases h
      exact ⟨flush, inside, rfl⟩
    · split at h <;> cases h
  · simp only at h
    split at h
    · cases h
    · split at h
      · exact absurd h contest_ne_cut
      · split at h
        · cases h
        · exact absurd h contest_ne_cut
  · cases h
  · cases h

/-- A boundary that a pursuit ends with lies in the queue. -/
theorem target_of_boundary (h : (pursue q idx data f).1 = some .boundary) :
    (pursue q idx data f).2.lane.target ≤ q.total := by
  fun_induction pursue q idx data f with
  | case1 idx data f kind g moved =>
    cases h
    obtain ⟨-, inside, rfl⟩ := move_boundary moved
    exact inside
  | case2 => cases h
  | case3 _ _ _ _ _ _ _ _ ih => exact ih h
  | case4 => cases h
  | case5 _ _ _ _ _ _ _ _ _ ih => exact ih h

/-! ### Two pursuits side by side -/

section Related

variable {q' : Inquiry α μ} {R : Field α μ → Field α μ → Prop} {W : Window → Window → Prop}
  (registry : q'.registry = q.registry)
  (asked : ∀ {w w' id s f g}, q.registry.scanner? id = some s → W w w' → R f g →
    (f.consult q w id s).1 = (g.consult q' w' id s).1 ∧
      R (f.consult q w id s).2 (g.consult q' w' id s).2)
  (struck : ∀ {f g} id, R f g → R (f.dismiss id) (g.dismiss id))
  (won : ∀ {f g} id, R f g → R (f.award id) (g.award id))

include registry asked struck won

theorem race_related {w w' : Window} (windows : W w w') (ids : List Nat) (v : Verdict)
    (related : R f g) :
    (race q w ids v f).1 = (race q' w' ids v g).1 ∧
      R (race q w ids v f).2 (race q' w' ids v g).2 := by
  induction ids generalizing v f g with
  | nil => exact ⟨rfl, related⟩
  | cons id ids ih =>
    unfold race
    rw [registry]
    cases known : q.registry.scanner? id with
    | none => exact ih v (struck id related)
    | some s =>
      simp only
      obtain ⟨verdict, later⟩ := asked known windows related
      generalize f.consult q w id s = answer at verdict later ⊢
      generalize g.consult q' w' id s = answer' at verdict later ⊢
      obtain ⟨v, f'⟩ := answer
      obtain ⟨v', g'⟩ := answer'
      obtain rfl : v = v' := verdict
      cases v with
      | search => exact ih _ later
      | flush | skip => exact ⟨rfl, won id later⟩
      | abort => exact ih _ (struck id later)

variable (total : q.total = q'.total) (limit : q.limit = q'.limit)
  (placed : ∀ {f g} idx data, R f g →
    W ⟨f.lane.origin + idx, data⟩ ⟨g.lane.origin + idx, data⟩)
  (lane : ∀ {f g}, R f g → f.lane.status = g.lane.status ∧ f.lane.eligible = g.lane.eligible ∧
    f.lane.target = g.lane.target)
  (concluded : ∀ {f g} v, R f g →
    R { f with lane := f.lane.conclude v } { g with lane := g.lane.conclude v })
  (aimed : ∀ {f g} target, R f g →
    R { f with lane := { f.lane with target } } { g with lane := { g.lane with target } })

include total placed lane concluded aimed

theorem contest_related (idx : UInt32) (data : List UInt8) (related : R f g) :
    (contest q idx data f).1 = (contest q' idx data g).1 ∧
      R (contest q idx data f).2 (contest q' idx data g).2 := by
  obtain ⟨verdict, later⟩ := race_related registry asked struck won (placed idx data related)
    f.lane.eligible.ids .search related
  unfold contest
  rw [← (lane related).2.1]
  generalize race q ⟨f.lane.origin + idx, data⟩ f.lane.eligible.ids .search f = answer at *
  generalize race q' ⟨g.lane.origin + idx, data⟩ f.lane.eligible.ids .search g = answer' at *
  obtain ⟨v, f'⟩ := answer
  obtain ⟨v', g'⟩ := answer'
  obtain rfl : v = v' := verdict
  have ended := concluded v later
  obtain ⟨-, eligible, target⟩ := lane ended
  have empty : (g'.lane.conclude v).eligible.isEmpty = (f'.lane.conclude v).eligible.isEmpty :=
    congrArg ScannerSet.isEmpty eligible.symm
  have place : Length.add (g'.lane.conclude v).target idx =
      Length.add (f'.lane.conclude v).target idx := congrArg (Length.add · idx) target.symm
  simp only
  rw [empty, place, ← total]
  split
  · exact ⟨rfl, aimed _ ended⟩
  · exact ⟨rfl, ended⟩

variable (sought : ∀ {f g}, R f g →
    R { f with lane := { f.lane with status := .search } }
      { g with lane := { g.lane with status := .search } })

include limit sought

theorem move_related (idx : UInt32) (data : List UInt8) (related : R f g) :
    (move q idx data f).1 = (move q' idx data g).1 ∧
      R (move q idx data f).2 (move q' idx data g).2 := by
  have raced (idx : UInt32) (data : List UInt8) :=
    contest_related registry asked struck won total placed lane concluded aimed idx data related
  obtain ⟨status, -, target⟩ := lane related
  unfold move
  rw [← status, ← target, ← total, ← limit]
  split
  · split
    · exact raced idx data
    · exact ⟨rfl, related⟩
  · split
    · exact ⟨rfl, sought related⟩
    · split <;> exact ⟨rfl, related⟩
  · simp only
    split
    · exact ⟨rfl, related⟩
    · split
      · exact raced _ data
      · split
        · exact ⟨rfl, related⟩
        · exact raced _ _
  · exact ⟨rfl, related⟩
  · exact ⟨rfl, related⟩

/-- Pursuits whose scans go alike end alike. -/
theorem pursue_related (related : R f g) :
    (pursue q idx data f).1 = (pursue q' idx data g).1 ∧
      R (pursue q idx data f).2 (pursue q' idx data g).2 := by
  have moves {f g : Field α μ} (idx : UInt32) (data : List UInt8) (related : R f g) :=
    move_related registry asked struck won total limit placed lane concluded aimed sought idx data
      related
  -- the moves of the second pursuit are those of the first one, so the induction is on the first
  fun_induction pursue q idx data f generalizing g with
  | case1 idx data f kind h moved =>
    obtain ⟨same, kept⟩ := moves idx data related
    rw [moved] at same kept
    simp only at same
    rw [pursue_of_cut (Prod.ext same.symm rfl)]
    exact ⟨rfl, kept⟩
  | case2 idx data f h moved =>
    obtain ⟨same, kept⟩ := moves idx data related
    rw [moved] at same kept
    simp only at same
    rw [pursue_of_wait (Prod.ext same.symm rfl)]
    exact ⟨rfl, kept⟩
  | case3 idx data f next h moved ahead smaller ih =>
    obtain ⟨same, kept⟩ := moves idx data related
    rw [moved] at same kept
    simp only at same
    rw [pursue_of_again (Prod.ext same.symm rfl) ahead]
    exact ih kept
  | case4 idx data f next h moved behind stuck =>
    obtain ⟨same, kept⟩ := moves idx data related
    rw [moved] at same kept
    simp only at same
    rw [(lane related).1, (lane kept).1] at stuck
    rw [pursue_of_again_stuck (Prod.ext same.symm rfl) behind stuck]
    exact ⟨rfl, kept⟩
  | case5 idx data f next h moved behind free smaller ih =>
    obtain ⟨same, kept⟩ := moves idx data related
    rw [moved] at same kept
    simp only at same
    rw [(lane related).1, (lane kept).1] at free
    rw [pursue_of_again_here (Prod.ext same.symm rfl) behind free]
    exact ih kept

end Related

end StreamFraming.Field
