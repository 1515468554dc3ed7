import StreamFraming.Proofs.Contests

/-!
# Where a pursuit leaves the target

What waits for bytes waits for bytes that are not queued yet: a boundary lies behind the queue, and
so does the end of the skipped bytes, unless a scanner skipped nothing and ended the pursuit with
it. A boundary that is cut lies where no byte has been scanned yet, unless skipped bytes ended in
front of bytes that were scanned.
-/

namespace StreamFraming

variable {α μ : Type}

namespace Field

variable {q : Inquiry α μ} {idx next : UInt32} {data : List UInt8} {f g : Field α μ} {m : Move}

/-- A scanner that has a lane to itself is asked alone, and decides alone. -/
theorem contest_narrowed (narrowed : f.lane.IsNarrowed)
    (before : f.lane.status = .flush ∨ f.lane.status = .skip)
    (h : contest q idx data f = (m, g)) :
    (g.calls = f.calls ∧ g.lane.status = .abort) ∨
      ∃ c, g.calls = c :: f.calls ∧ g.lane.status = c.report.verdict.status ∧
        (c.report.verdict.isDecisive = true →
          g.lane.target = Length.add c.report.point idx ∧
            m = if g.lane.target ≤ q.total then .again g.lane.target else .wait) := by
  obtain ⟨id, small, eligible⟩ := narrowed before
  cases known : q.registry.scanner? id with
  | none =>
    obtain ⟨aborted, calls⟩ := contest_unknown small eligible known idx data
    rw [h] at aborted calls
    exact .inl ⟨calls, aborted⟩
  | some s =>
    rw [contest_only small eligible known] at h
    generalize answered : f.consult q ⟨f.lane.origin + idx, data⟩ id s = answer at h
    cases answered
    simp only [consult] at h
    split at h <;> rename_i verdict <;> cases h
    · exact .inr ⟨_, rfl, by rw [verdict]; rfl, by rw [verdict]; nofun⟩
    · exact .inr ⟨_, rfl, by rw [verdict]; rfl, fun _ => ⟨rfl, rfl⟩⟩
    · exact .inr ⟨_, rfl, by rw [verdict]; rfl, fun _ => ⟨rfl, rfl⟩⟩
    · exact .inr ⟨_, rfl, by rw [verdict]; rfl, by rw [verdict]; nofun⟩

/-- Where a contest leaves a target, its last call has set it. -/
theorem contest_decided (narrowed : f.lane.IsNarrowed) (h : contest q idx data f = (m, g))
    (decided : g.lane.status = .flush ∨ g.lane.status = .skip) :
    ∃ c calls, g.calls = c :: calls ∧ c.window = ⟨f.lane.origin + idx, data⟩ ∧
      g.lane.status = c.report.verdict.status ∧ g.lane.target = Length.add c.report.point idx ∧
      m = if g.lane.target ≤ q.total then .again g.lane.target else .wait := by
  have last := race_decided q f ⟨f.lane.origin + idx, data⟩ f.lane.eligible.ids
    (v := .search) rfl
  have kept := status_race (q := q) (f := f) ⟨f.lane.origin + idx, data⟩ f.lane.eligible.ids .search
  cases raced : race q ⟨f.lane.origin + idx, data⟩ f.lane.eligible.ids .search f with
  | mk v r =>
    rw [raced] at last kept
    cases left : r.lane.eligible.isEmpty with
    | true =>
      rw [contest_of_empty raced left] at h
      cases h
      rcases decided with decided | decided <;> cases decided
    | false =>
      rw [contest_of_race raced left] at h
      cases v with
      | search =>
        cases h
        rcases decided with decided | decided <;> cases decided
      | abort =>
        cases h
        rw [race_aborted narrowed (kept ▸ decided) raced] at left
        cases left
      | flush | skip =>
        obtain ⟨-, -, -, c, calls, called, window, verdict, point⟩ := last rfl
        cases h
        refine ⟨c, calls, called, window, ?_, ?_, rfl⟩
        · rw [← verdict]
          rfl
        · rw [← point]

/-- A lane that skips waits for the bytes it skips, or asks its scanner about those behind them. -/
theorem move_skip (q : Inquiry α μ) (idx : UInt32) (data : List UInt8)
    (skipping : f.lane.status = .skip) :
    (move q idx data f = (.wait, f) ∧
      (q.total ≤ f.lane.target ∨
        idx < f.lane.target ∧ data.length < (f.lane.target - idx).toNat)) ∨
    (f.lane.target < q.total ∧ ∃ bytes, move q idx data f = contest q f.lane.target bytes f ∧
      (f.lane.target ≤ idx ∧ bytes = data ∨
        idx < f.lane.target ∧ bytes = data.drop (f.lane.target - idx).toNat)) := by
  have flip {a b : UInt32} (h : ¬ a ≤ b) : b < a := by
    rw [UInt32.le_iff_toNat_le] at h
    rw [UInt32.lt_iff_toNat_lt]
    omega
  simp only [move, skipping]
  split
  · rename_i behind
    exact .inl ⟨rfl, .inl behind⟩
  · rename_i inside
    split
    · rename_i passed
      exact .inr ⟨flip inside, data, rfl, .inl ⟨passed, rfl⟩⟩
    · rename_i ahead
      split
      · rename_i few
        exact .inl ⟨rfl, .inr ⟨flip ahead, few⟩⟩
      · exact .inr ⟨flip inside, _, rfl, .inr ⟨flip ahead, rfl⟩⟩

theorem narrowed_move (narrowed : f.lane.IsNarrowed) (h : move q idx data f = (m, g)) :
    g.lane.IsNarrowed := by
  have kept : (move q idx data f).2.lane.IsNarrowed :=
    move_keeps (I := fun f => f.lane.IsNarrowed)
      (fun idx data _ narrowed => narrowed_contest narrowed idx data) (fun _ _ => nofun) narrowed
  rwa [h] at kept

/-! ### What waits for bytes -/

theorem flush_of_move (narrowed : f.lane.IsNarrowed) (h : move q idx data f = (m, g))
    (flush : g.lane.status = .flush) : m = .again g.lane.target ∨ q.total < g.lane.target := by
  have raced {place : UInt32} {bytes : List UInt8} (h : contest q place bytes f = (m, g)) :
      m = .again g.lane.target ∨ q.total < g.lane.target := by
    obtain ⟨-, -, -, -, -, -, rfl⟩ := contest_decided narrowed h (.inl flush)
    by_cases inside : g.lane.target ≤ q.total
    · exact .inl (if_pos inside)
    · exact .inr (by simpa using inside)
  cases before : f.lane.status with
  | start | abort =>
    simp only [move, before] at h
    cases h
    rw [before] at flush
    cases flush
  | search =>
    simp only [move, before] at h
    split at h
    · exact raced h
    · cases h
      rw [before] at flush
      cases flush
  | flush =>
    simp only [move, before] at h
    split at h
    · cases h
      cases flush
    · rename_i outside
      split at h <;> cases h <;> exact .inr (by simpa using outside)
  | skip =>
    rcases move_skip q idx data before with ⟨waits, -⟩ | ⟨-, _, asks, -⟩
    · rw [waits] at h
      cases h
      rw [before] at flush
      cases flush
    · exact raced (asks ▸ h)

/-- A boundary that is awaited lies behind the queue. -/
theorem total_lt_target (narrowed : f.lane.IsNarrowed) {cut? : Option Cut} {r : Field α μ}
    (h : pursue q idx data f = (cut?, r)) (flush : r.lane.status = .flush) :
    q.total < r.lane.target := by
  fun_induction pursue q idx data f with
  | case1 idx data f kind g moved =>
    cases h
    rcases flush_of_move narrowed moved flush with again | outside
    · cases again
    · exact outside
  | case2 idx data f g moved =>
    cases h
    rcases flush_of_move narrowed moved flush with again | outside
    · cases again
    · exact outside
  | case3 idx data f next g moved _ _ ih => exact ih (narrowed_move narrowed moved) h
  | case4 idx data f next g moved _ stuck =>
    cases h
    rw [stuck.2] at flush
    cases flush
  | case5 idx data f next g moved _ _ _ ih => exact ih (narrowed_move narrowed moved) h

theorem target_of_again (h : move q idx data f = (.again next, g)) : g.lane.target = next := by
  obtain ⟨-, -, searching | skipping⟩ := move_again h
  · simp only [move, searching.1] at h
    split at h
    · exact target_of_contest h
    · cases h
  · rcases move_skip q idx data skipping with ⟨waits, -⟩ | ⟨-, _, asks, -⟩
    · rw [waits] at h
      cases h
    · exact target_of_contest (asks ▸ h)

/-- No move goes back, if the skipped bytes end where no byte has been scanned. -/
theorem le_of_again (behind : f.lane.status = .skip → idx ≤ f.lane.target)
    (h : move q idx data f = (.again next, g)) : idx ≤ next := by
  obtain ⟨-, -, searching | skipping⟩ := move_again h
  · exact searching.2
  · rcases move_skip q idx data skipping with ⟨waits, -⟩ | ⟨-, _, asks, -⟩
    · rw [waits] at h
      cases h
    · exact UInt32.le_trans (behind skipping) (contest_again (asks ▸ h)).1

theorem skip_of_move (narrowed : f.lane.IsNarrowed)
    (behind : f.lane.status = .skip → idx ≤ f.lane.target)
    (size : idx.toNat + data.length = q.total.toNat) (h : move q idx data f = (m, g))
    (skip : g.lane.status = .skip) : m = .again g.lane.target ∨ q.total ≤ g.lane.target := by
  have raced {place : UInt32} {bytes : List UInt8} (h : contest q place bytes f = (m, g)) :
      m = .again g.lane.target ∨ q.total ≤ g.lane.target := by
    obtain ⟨-, -, -, -, -, -, rfl⟩ := contest_decided narrowed h (.inr skip)
    by_cases inside : g.lane.target ≤ q.total
    · exact .inl (if_pos inside)
    · exact .inr (UInt32.le_of_lt (by simpa using inside))
  cases before : f.lane.status with
  | start | abort =>
    simp only [move, before] at h
    cases h
    rw [before] at skip
    cases skip
  | search =>
    simp only [move, before] at h
    split at h
    · exact raced h
    · cases h
      rw [before] at skip
      cases skip
  | flush =>
    simp only [move, before] at h
    split at h
    · cases h
      cases skip
    · split at h <;> cases h <;> rw [before] at skip <;> cases skip
  | skip =>
    rcases move_skip q idx data before with ⟨waits, few⟩ | ⟨-, _, asks, -⟩
    · rw [waits] at h
      cases h
      rcases few with outside | ⟨ahead, few⟩
      · exact .inr outside
      · have behind := behind before
        rw [UInt32.toNat_sub_of_le _ _ behind] at few
        rw [UInt32.lt_iff_toNat_lt] at ahead
        rw [UInt32.le_iff_toNat_le]
        exact .inr (by omega)
    · exact raced (asks ▸ h)

/-- Only a scanner that skips nothing ends a pursuit with bytes left to look at. -/
theorem skipped_nothing (narrowed : f.lane.IsNarrowed) (behind : idx ≤ f.lane.target)
    (h : move q idx data f = (.again next, g)) (here : ¬ idx < next)
    (stuck : f.lane.status = .skip ∧ g.lane.status = .skip) :
    ∃ c ∈ g.calls, c.report.verdict = .skip ∧ c.report.point = 0 := by
  rcases move_skip q idx data stuck.1 with ⟨waits, -⟩ | ⟨inside, _, asks, -⟩
  · rw [waits] at h
    cases h
  · rw [asks] at h
    obtain ⟨c, calls, called, -, verdict, target, -⟩ := contest_decided narrowed h (.inr stuck.2)
    refine ⟨c, by rw [called]; exact List.mem_cons_self, ?_, ?_⟩
    · exact Verdict.status_inj (w := .skip) (verdict.symm.trans stuck.2)
    · rw [target_of_contest h] at target
      have sum := congrArg UInt32.toNat target
      rw [Length.toNat_add] at sum
      rw [UInt32.le_iff_toNat_le] at behind
      rw [UInt32.lt_iff_toNat_lt] at here inside
      have bound := q.total.toNat_lt
      exact UInt32.toNat_inj.mp (show c.report.point.toNat = 0 by omega)

/-- So do the skipped bytes end behind the queue, where no scanner skips nothing. -/
theorem total_le_target (narrowed : f.lane.IsNarrowed)
    (behind : f.lane.status = .skip → idx ≤ f.lane.target)
    (size : idx.toNat + data.length = q.total.toNat) {cut? : Option Cut} {r : Field α μ}
    (h : pursue q idx data f = (cut?, r))
    (advancing : ∀ c ∈ r.calls, c.report.verdict = .skip → c.report.point ≠ 0)
    (skip : r.lane.status = .skip) : q.total ≤ r.lane.target := by
  fun_induction pursue q idx data f with
  | case1 idx data f kind g moved =>
    cases h
    rcases skip_of_move narrowed behind size moved skip with again | outside
    · cases again
    · exact outside
  | case2 idx data f g moved =>
    cases h
    rcases skip_of_move narrowed behind size moved skip with again | outside
    · cases again
    · exact outside
  | case3 idx data f next g moved ahead _ ih =>
    have inside := (move_again moved).1
    have target := target_of_again moved
    refine ih (narrowed_move narrowed moved) (fun _ => ?_) ?_ h
    · rw [target]
      exact UInt32.le_refl next
    · rw [UInt32.lt_iff_toNat_lt] at ahead
      rw [UInt32.le_iff_toNat_le] at inside
      rw [List.length_drop, UInt32.toNat_sub_of_le _ _ (UInt32.le_iff_toNat_le.mpr (by omega))]
      omega
  | case4 idx data f next g moved here stuck =>
    cases h
    obtain ⟨c, called, skipped, nothing⟩ :=
      skipped_nothing narrowed (behind stuck.1) moved here stuck
    exact absurd nothing (advancing c called skipped)
  | case5 idx data f next g moved here _ _ ih =>
    have ahead := le_of_again behind moved
    have target := target_of_again moved
    refine ih (narrowed_move narrowed moved) (fun _ => ?_) ?_ h
    · rw [target]
      exact UInt32.le_refl next
    · rw [UInt32.lt_iff_toNat_lt] at here
      rw [UInt32.le_iff_toNat_le] at ahead
      omega

/-! ### What is cut -/

/-- A pursuit ends where a lane is given up. -/
theorem pursue_of_move_abort (h : move q idx data f = (m, g)) (aborted : g.lane.status = .abort) :
    (pursue q idx data f).2 = g := by
  cases m with
  | wait => rw [pursue_of_wait h]
  | cut kind => rw [pursue_of_cut h]
  | again next =>
    by_cases ahead : idx < next
    · rw [pursue_of_again h ahead, pursue_of_aborted aborted]
    · rw [pursue_of_again_here h ahead (by rw [aborted]; simp), pursue_of_aborted aborted]

/-- Behind a boundary the lane searches. -/
theorem search_of_boundary {r : Field α μ} (h : pursue q idx data f = (some .boundary, r)) :
    r.lane.status = .search := by
  fun_induction pursue q idx data f with
  | case1 idx data f kind g moved =>
    cases h
    obtain ⟨-, -, rfl⟩ := move_boundary moved
    rfl
  | case2 => cases h
  | case3 _ _ _ _ _ _ _ _ ih => exact ih h
  | case4 => cases h
  | case5 _ _ _ _ _ _ _ _ _ ih => exact ih h

/-- A boundary inside the queue is where it is cut. -/
theorem pursue_of_flush (flush : f.lane.status = .flush) (inside : f.lane.target ≤ q.total) :
    pursue q idx data f =
      (some .boundary, { f with lane := { f.lane with status := .search } }) := by
  apply pursue_of_cut
  simp only [move, flush, inside, if_true]

theorem pursue_awaiting (flush : f.lane.status = .flush) (outside : q.total < f.lane.target) :
    pursue q idx data f = if q.limit ≤ q.total then (some .bound, f) else (none, f) := by
  have behind : ¬ f.lane.target ≤ q.total := UInt32.not_le.mpr outside
  by_cases full : q.limit ≤ q.total
  · rw [if_pos full]
    apply pursue_of_cut
    simp only [move, flush, behind, full, if_true, if_false]
  · rw [if_neg full]
    apply pursue_of_wait
    simp only [move, flush, behind, full, if_false]

/-- A boundary that is cut lies where no byte has been scanned, or was known before, or was found
behind skipped bytes by the scanner that skipped them. -/
theorem boundary_of_pursue {r : Field α μ} (h : pursue q idx data f = (some .boundary, r)) :
    idx ≤ r.lane.target ∨ (f.lane.status = .flush ∧ r.lane.target = f.lane.target) ∨
      (f.lane.status = .skip ∧ ∃ bytes g,
        contest q f.lane.target bytes f = (.again r.lane.target, g) ∧
          g.lane.status = .flush ∧ r.calls = g.calls) := by
  have later {f : Field α μ} {place : UInt32} (target : f.lane.target = place)
      (cases_ : place ≤ r.lane.target ∨ (f.lane.status = .flush ∧ r.lane.target = f.lane.target) ∨
        (f.lane.status = .skip ∧ ∃ bytes g,
          contest q f.lane.target bytes f = (.again r.lane.target, g) ∧
            g.lane.status = .flush ∧ r.calls = g.calls)) : place ≤ r.lane.target := by
    rcases cases_ with ahead | ⟨-, same⟩ | ⟨-, _, _, asks, -⟩
    · exact ahead
    · rw [same, target]
      exact UInt32.le_refl place
    · exact target ▸ (contest_again asks).1
  fun_induction pursue q idx data f with
  | case1 idx data f kind g moved =>
    cases h
    obtain ⟨flush, -, rfl⟩ := move_boundary moved
    exact .inr (.inl ⟨flush, rfl⟩)
  | case2 => cases h
  | case3 idx data f next g moved ahead _ ih =>
    exact .inl (UInt32.le_trans (UInt32.le_of_lt ahead) (later (target_of_again moved) (ih h)))
  | case4 => cases h
  | case5 idx data f next g moved here free _ ih =>
    obtain ⟨inside, after, ⟨searching, ahead⟩ | skipping⟩ := move_again moved
    · exact .inl (UInt32.le_trans ahead (later (target_of_again moved) (ih h)))
    · have target := target_of_again moved
      rcases after with flush | stuck | aborted
      · rw [pursue_of_flush flush (target ▸ inside)] at h
        cases h
        rcases move_skip q idx data skipping with
          ⟨waits, -⟩ | ⟨-, bytes, asks, -⟩
        · rw [waits] at moved
          cases moved
        · rw [asks] at moved
          exact .inr (.inr ⟨skipping, bytes, g, target ▸ moved, flush, rfl⟩)
      · exact absurd ⟨skipping, stuck⟩ free
      · rw [pursue_of_aborted aborted] at h
        cases h

/-- Where skipped bytes end in front of bytes that were scanned, a lane is cut in front of them too,
if that is where its scanner finds a boundary when it is asked first. -/
theorem pursue_of_found (narrowed : f.lane.IsNarrowed) (skipping : f.lane.status = .skip)
    (idx : UInt32) (few : idx ≤ q.total) (data : List UInt8) (uncalled : f.calls = [])
    {c : Call α μ}
    (first : (pursue q idx data f).2.calls.reverse.head? = some c)
    (flush : c.report.verdict = .flush)
    (less : f.lane.target.toNat + c.report.point.toNat < idx.toNat) :
    ∃ r, pursue q idx data f = (some .boundary, r) ∧
      r.lane.target.toNat = f.lane.target.toNat + c.report.point.toNat := by
  rw [UInt32.le_iff_toNat_le] at few
  have bound := idx.toNat_lt
  -- the scanner is asked at a place in front of the new bytes
  obtain ⟨bytes, moved⟩ :
      ∃ bytes, move q idx data f = contest q f.lane.target bytes f := by
    rcases move_skip q idx data skipping with ⟨-, outside | ⟨ahead, -⟩⟩ | ⟨-, bytes, asks, -⟩
    · rw [UInt32.le_iff_toNat_le] at outside
      omega
    · rw [UInt32.lt_iff_toNat_lt] at ahead
      omega
    · exact ⟨bytes, asks⟩
  cases asks : contest q f.lane.target bytes f with
  | mk m g =>
    rw [asks] at moved
    rcases contest_narrowed narrowed (.inr skipping) asks with
      ⟨called, aborted⟩ | ⟨x, called, status, decided⟩
    · rw [pursue_of_move_abort moved aborted, called, uncalled] at first
      cases first
    · have kept := (extends_pursue_move q idx data f).calls
      rw [moved, called, uncalled] at kept
      have same : x = c := by
        obtain ⟨later, rest⟩ := kept
        rw [← rest, List.reverse_append] at first
        exact Option.some.inj first
      subst same
      have flushing : g.lane.status = .flush := by rw [status, flush]; rfl
      obtain ⟨boundary, rfl⟩ := decided (by rw [flush]; rfl)
      have sum := congrArg UInt32.toNat boundary
      rw [Length.toNat_add] at sum
      have inside : g.lane.target ≤ q.total := by
        rw [UInt32.le_iff_toNat_le]
        omega
      have behind : ¬ idx < g.lane.target := by
        rw [UInt32.lt_iff_toNat_lt]
        omega
      rw [if_pos inside] at moved
      have target : g.lane.target.toNat = f.lane.target.toNat + x.report.point.toNat := by omega
      rw [pursue_of_again_here moved behind (by rw [flushing]; simp),
        pursue_of_flush flushing inside]
      exact ⟨_, rfl, target⟩

end Field

end StreamFraming
