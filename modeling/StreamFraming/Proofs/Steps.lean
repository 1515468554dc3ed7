import StreamFraming.Proofs.Evaluations

/-!
# Sessions in use

What an engine does with a session while it is open: it checks segments, gives a lane up from
outside, and sets lanes up anew. Of one lane, a step for the other one touches the cells at most
(`Engine.lane_step`).
-/

namespace StreamFraming

variable {α μ : Type}

/-- An item of a list that grew at its end is the last one, or was there before. -/
theorem split_concat {β : Type} {l before after : List β} {x y : β}
    (h : l ++ [x] = before ++ y :: after) :
    (l = before ∧ x = y ∧ after = []) ∨ ∃ rest, l = before ++ y :: rest ∧ after = rest ++ [x] := by
  rcases List.eq_nil_or_concat after with rfl | ⟨rest, z, rfl⟩
  · obtain ⟨same, last⟩ := List.append_inj' h rfl
    cases last
    exact .inl ⟨same, rfl, rfl⟩
  · rw [List.concat_eq_append, ← List.cons_append, ← List.append_assoc] at h
    obtain ⟨same, last⟩ := List.append_inj' h rfl
    cases last
    exact .inr ⟨rest, same, List.concat_eq_append⟩

/-- What an engine does with an open session. -/
inductive Step where
  | check (d : Direction) (segment : Segment)
  | clear (d : Direction)
  | setup (d : Direction) (port : UInt16)
  | reset
  deriving DecidableEq, Repr

def Step.setsUp (d : Direction) : Step → Bool
  | .check _ _ | .clear _ => false
  | .setup d' _ => d' == d
  | .reset => true

namespace Engine

def step (e : Engine α μ) (s : Session α) : Step → Engine α μ × Session α
  | .check d segment =>
    let r := e.check s d segment
    (r.engine, r.session)
  | .clear d => (e, s.clear d)
  | .setup d port => (e, e.setup s d port)
  | .reset => (e, e.resetSession s)

def stepAll (e : Engine α μ) (s : Session α) : List Step → Engine α μ × Session α
  | [] => (e, s)
  | x :: steps =>
    let left := e.step s x
    left.1.stepAll left.2 steps

variable {e : Engine α μ} {s : Session α} {d : Direction} {x : Step} {steps : List Step}

theorem registry_step (e : Engine α μ) (s : Session α) (x : Step) :
    (e.step s x).1.registry = e.registry := by
  cases x with
  | check d segment => exact (e.check_keeps s d segment).1
  | clear d | setup d port | reset => rfl

theorem registry_stepAll (e : Engine α μ) (s : Session α) (steps : List Step) :
    (e.stepAll s steps).1.registry = e.registry := by
  induction steps generalizing e s with
  | nil => rfl
  | cons x steps ih => exact (ih _ _).trans (e.registry_step s x)

theorem stepAll_append (e : Engine α μ) (s : Session α) (steps more : List Step) :
    e.stepAll s (steps ++ more) = (e.stepAll s steps).1.stepAll (e.stepAll s steps).2 more := by
  induction steps generalizing e s with
  | nil => rfl
  | cons y steps ih => exact ih _ _

theorem stepAll_concat (e : Engine α μ) (s : Session α) (steps : List Step) (x : Step) :
    e.stepAll s (steps ++ [x]) = (e.stepAll s steps).1.step (e.stepAll s steps).2 x :=
  e.stepAll_append s steps [x]

theorem lane_setup (e : Engine α μ) (s : Session α) (d : Direction) (port : UInt16) :
    (e.setup s d port).lane d = e.freshLane port d := s.lane_setLane_self d _

/-- A lane is checked, given up, set up, or left alone but for its cells, which a check of the
opposite lane may change. -/
theorem lane_step (e : Engine α μ) (s : Session α) (x : Step) (d : Direction) :
    let l := (e.step s x).2.lane d
    (∃ segment, x = .check d segment ∧ l = (e.check s d segment).session.lane d) ∨
      l = (s.lane d).clear ∨ (x.setsUp d = true ∧ ∃ port, l = e.freshLane port d) ∨
      ∃ slots, l = { s.lane d with slots } ∧
        (slots = (s.lane d).slots ∨ ∃ segment, x = .check d.opposite segment) := by
  intro l
  cases x with
  | check d' segment =>
    by_cases own : d = d'
    · subst own
      exact .inl ⟨segment, rfl, rfl⟩
    · obtain ⟨-, -, -, slots, opposite⟩ := e.check_keeps s d' segment
      obtain rfl := Direction.eq_opposite_of_ne own
      refine .inr (.inr (.inr ⟨slots, opposite, .inr ⟨segment, ?_⟩⟩))
      rw [Direction.opposite_opposite]
  | clear d' =>
    by_cases own : d = d'
    · subst own
      exact .inr (.inl (s.lane_setLane_self d _))
    · refine .inr (.inr (.inr ⟨(s.lane d).slots, ?_, .inl rfl⟩))
      obtain rfl := Direction.eq_opposite_of_ne own
      exact s.lane_setLane_opposite d' _
  | setup d' port =>
    by_cases own : d = d'
    · subst own
      exact .inr (.inr (.inl ⟨by simp [Step.setsUp], port, e.lane_setup s d port⟩))
    · refine .inr (.inr (.inr ⟨(s.lane d).slots, ?_, .inl rfl⟩))
      obtain rfl := Direction.eq_opposite_of_ne own
      exact s.lane_setLane_opposite d' _
  | reset =>
    refine .inr (.inr (.inl ⟨rfl, s.port, ?_⟩))
    cases d <;> rfl

/-- A step that neither checks a lane nor sets it up keeps the parts of it that outlast it being
given up. -/
theorem unchecked_step {β : Type} (part : Lane α → β)
    (cells : ∀ l slots, part { l with slots } = part l) (given_up : ∀ l, part l.clear = part l)
    (kept : x.setsUp d = false) (unchecked : ¬ ∃ segment, x = .check d segment) :
    part ((e.step s x).2.lane d) = part (s.lane d) := by
  rcases e.lane_step s x d with ⟨segment, same, -⟩ | l | ⟨setsUp, -⟩ | ⟨slots, l, -⟩
  · exact absurd ⟨segment, same⟩ unchecked
  · rw [l, given_up]
  · rw [kept] at setsUp
    cases setsUp
  · rw [l, cells]

/-- What checks keep of a lane is kept by a run, if it holds of the lanes that the run sets up. -/
theorem stepAll_keeps {I : Lane α → Prop} (cells : ∀ l slots, I l → I { l with slots })
    (given_up : ∀ l, I l → I l.clear)
    (fresh : ∀ x ∈ steps, x.setsUp d = true → ∀ port, I (e.freshLane port d))
    (checked : ∀ e' : Engine α μ, e'.registry = e.registry → ∀ s segment, I (s.lane d) →
      I ((e'.check s d segment).session.lane d))
    (h : I (s.lane d)) : I ((e.stepAll s steps).2.lane d) := by
  induction steps generalizing e s with
  | nil => exact h
  | cons x steps ih =>
    have same := e.registry_step s x
    refine ih (fun y listed setsUp port => ?_) (fun e' same' => checked e' (same'.trans same)) ?_
    · rw [freshLane, same]
      exact fresh y (List.mem_cons_of_mem _ listed) setsUp port
    · rcases e.lane_step s x d with ⟨segment, -, l⟩ | l | ⟨setsUp, port, l⟩ | ⟨slots, l, -⟩
      · rw [l]
        exact checked e rfl s segment h
      · rw [l]
        exact given_up _ h
      · rw [l]
        exact fresh x List.mem_cons_self setsUp port
      · rw [l]
        exact cells _ slots h

end Engine

end StreamFraming
