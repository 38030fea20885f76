import PortMatch.Search.Run

/-!
# The course of a search

What one move of a search can do, said once, and the states that the moves lead through.

* `Search.stack_giveUp` and the like — what is left when a frame is given up;
* `Search.step_eq_moved`, `Search.step_eq_ended` — the moves, and the ends;
* `Search.drawn?`, `Search.step_of_drawn?` — the state in which the budget is looked at;
* `Search.course` — the states that a search goes through;
* `Search.pinned` — those right after a pin;
* `Search.forall_mem_course`, `Search.exists_last` — what every move keeps holds in all of these
  states, and in the one from which the search ends.
-/

namespace PortMatch

namespace Search

variable {P : Problem} {budget : Nat} {s s' : Search}

/-! ## Giving up -/

section GiveUp

variable (P : Problem) (s : Search) (g : Goal) (below : List Frame)

theorem phase_giveUp : (s.giveUp P g below).phase = s.phase := by
  cases below <;> rfl

theorem stack_giveUp : (s.giveUp P g below).stack = below := by
  cases below <;> rfl

theorem pending_giveUp : (s.giveUp P g below).pending = g :: s.pending := by
  cases below <;> rfl

theorem best_giveUp : (s.giveUp P g below).best = s.best := by
  cases below <;> rfl

theorem rounds_giveUp : (s.giveUp P g below).rounds = s.rounds := by
  cases below <;> rfl

end GiveUp

/-! ## One move -/

/-- A search that goes on takes on a goal, places one, or gives one up. -/
theorem step_eq_moved (h : s.step P budget = .moved s') :
    (∃ g rest, s.phase = .descend ∧ s.pending = g :: rest ∧ s' = s.descend P g rest) ∨
    (∃ f f' frames p, s.phase = .resume ∧ s.stack = f :: frames ∧
      f.next P s.current = (some p, f') ∧ s.rounds < budget ∧ s' = s.pin P p f' frames) ∨
    (∃ f f' frames, s.phase = .resume ∧ s.stack = f :: frames ∧
      f.next P s.current = (none, f') ∧ s' = s.giveUp P f'.goal frames) := by
  unfold step at h
  split at h
  · next hphase =>
    split at h
    · cases h
    · next g rest hpending =>
      cases h
      exact .inl ⟨g, rest, hphase, hpending, rfl⟩
  · next hphase =>
    split at h
    · cases h
    · next f frames hstack =>
      split at h
      · next p f' hnext =>
        split at h
        · cases h
        · next hrounds =>
          cases h
          exact .inr (.inl ⟨f, f', frames, p, hphase, hstack, hnext, Nat.lt_of_not_le hrounds, rfl⟩)
      · next f' hnext =>
        cases h
        exact .inr (.inr ⟨f, f', frames, hphase, hstack, hnext, rfl⟩)

/-- A search ends when no goal is pending, when no frame is left, or when a pin turns up that the
budget does not allow. -/
theorem step_eq_ended {how : Ending} (h : s.step P budget = .ended how s') :
    (how = .found ∧ s.phase = .descend ∧ s.pending = [] ∧ s' = s) ∨
    (how = .exhausted ∧ s.phase = .resume ∧ s.stack = [] ∧
      s' = { s with news := .entry (.exhausted s.rounds) :: s.news }) ∨
    (∃ f f' frames p, how = .outOfRounds ∧ s.phase = .resume ∧ s.stack = f :: frames ∧
      f.next P s.current = (some p, f') ∧ budget ≤ s.rounds ∧ s' = s) := by
  unfold step at h
  split at h
  · next hphase =>
    split at h
    · next hpending =>
      cases h
      exact .inl ⟨rfl, hphase, hpending, rfl⟩
    · cases h
  · next hphase =>
    split at h
    · next hstack =>
      cases h
      exact .inr (.inl ⟨rfl, hphase, hstack, rfl⟩)
    · next f frames hstack =>
      split at h
      · next p f' hnext =>
        split at h
        · next hrounds =>
          cases h
          exact .inr (.inr ⟨f, f', frames, p, rfl, hphase, hstack, hnext, hrounds, rfl⟩)
        · cases h
      · cases h

/-- The end of a search changes nothing but its news. -/
theorem exists_news_of_ended {how : Ending} (h : s.step P budget = .ended how s') :
    ∃ news, s' = { s with news } := by
  rcases step_eq_ended h with ⟨-, -, -, rfl⟩ | ⟨-, -, -, rfl⟩ | ⟨-, -, -, -, -, -, -, -, -, rfl⟩
  · exact ⟨_, rfl⟩
  · exact ⟨_, rfl⟩
  · exact ⟨_, rfl⟩

/-! ## The budget -/

/-- The state of a search whose topmost frame has just yielded a pin, which is not placed yet.  In
this state the budget is checked. -/
def drawn? (P : Problem) (s : Search) : Option Search :=
  match s.phase, s.stack with
  | .resume, f :: below =>
    match f.next P s.current with
    | (some _, f') => some { s with stack := f' :: below }
    | (none, _) => none
  | _, _ => none

theorem drawn?_eq_some (h : s.drawn? P = some s') :
    ∃ f f' frames p, s.phase = .resume ∧ s.stack = f :: frames ∧
      f.next P s.current = (some p, f') ∧ s' = { s with stack := f' :: frames } := by
  unfold drawn? at h
  split at h
  · next f frames hphase hstack =>
    split at h
    · next p f' hnext =>
      cases h
      exact ⟨f, f', frames, p, hphase, hstack, hnext, rfl⟩
    · cases h
  · cases h

/-- The budget decides what becomes of a pin that has been drawn. -/
theorem step_of_drawn? (h : s.drawn? P = some s') :
    ∃ f frames p, s'.stack = f :: frames ∧ ∀ budget, s.step P budget
      = if budget ≤ s'.rounds then .ended .outOfRounds s else .moved (s'.pin P p f frames) := by
  obtain ⟨f, f', frames, p, hphase, hstack, hnext, rfl⟩ := drawn?_eq_some h
  refine ⟨f', frames, p, rfl, fun budget => ?_⟩
  simp only [step, hphase, hstack, hnext]
  rfl

/-- Nothing else depends on the budget. -/
theorem step_eq_of_drawn?_eq_none (h : s.drawn? P = none) (m m' : Nat) :
    s.step P m = s.step P m' := by
  cases hphase : s.phase with
  | descend => simp only [step, hphase]
  | resume =>
    cases hstack : s.stack with
    | nil => simp only [step, hphase, hstack]
    | cons f frames =>
      rcases hnext : f.next P s.current with ⟨_ | p, f'⟩
      · simp only [step, hphase, hstack, hnext]
      · simp [drawn?, hphase, hstack, hnext] at h

/-! ## All moves -/

/-- The states that a search goes through, from the one after its first move on. -/
def course (P : Problem) (budget : Nat) (s : Search) : List Search :=
  match _hstep : s.step P budget with
  | .moved s' => s' :: course P budget s'
  | .ended _ _ => []
termination_by s.movesLeft P
decreasing_by exact movesLeft_step_lt _hstep

/-- The states of a search right after a pin, in order.  Only a pin is followed by a descent. -/
def pinned (P : Problem) (budget : Nat) (s : Search) : List Search :=
  (s.course P budget).filter fun s' => s'.phase = .descend

theorem run_of_moved (h : s.step P budget = .moved s') : s.run P budget = s'.run P budget := by
  rw [run]
  split
  · next s'' hstep => rw [h] at hstep; cases hstep; rfl
  · next how s'' hstep => rw [h] at hstep; cases hstep

theorem run_of_ended {how : Ending} (h : s.step P budget = .ended how s') :
    s.run P budget = (how, s') := by
  rw [run]
  split
  · next s'' hstep => rw [h] at hstep; cases hstep
  · next how s'' hstep => rw [h] at hstep; cases hstep; rfl

theorem course_of_moved (h : s.step P budget = .moved s') :
    s.course P budget = s' :: s'.course P budget := by
  rw [course]
  split
  · next s'' hstep => rw [h] at hstep; cases hstep; rfl
  · next how s'' hstep => rw [h] at hstep; cases hstep

theorem course_of_ended {how : Ending} (h : s.step P budget = .ended how s') :
    s.course P budget = [] := by
  rw [course]
  split
  · next s'' hstep => rw [h] at hstep; cases hstep
  · rfl

/-- What holds at the beginning of a search and is kept by every move holds in all states of the
search. -/
theorem forall_mem_course (P : Problem) (budget : Nat) {motive : Search → Prop} (hstart : motive s)
    (hstep : ∀ {s s'}, motive s → s.step P budget = .moved s' → motive s') :
    ∀ s' ∈ s :: s.course P budget, motive s' := by
  fun_induction course P budget s with
  | case1 s s' hmoved ih => exact List.forall_mem_cons.2 ⟨hstart, ih (hstep hstart hmoved)⟩
  | case2 s how s' hended => exact List.forall_mem_singleton.2 hstart

/-- What holds at the beginning of a search and is kept by every move holds in the state from which
the search ends. -/
theorem exists_last (P : Problem) (budget : Nat) {motive : Search → Prop} (hstart : motive s)
    (hstep : ∀ {s s'}, motive s → s.step P budget = .moved s' → motive s') :
    ∃ last, motive last ∧ last.step P budget = .ended (s.run P budget).1 (s.run P budget).2 := by
  fun_induction run P budget s with
  | case1 s s' hmoved ih => exact ih (hstep hstart hmoved)
  | case2 s how s' hended => exact ⟨s, hstart, hended⟩

/-- A move to another descent is a pin. -/
theorem pinned_of_descend (h : s.step P budget = .moved s') (hphase : s'.phase = .descend) :
    s.pinned P budget = s' :: s'.pinned P budget := by
  rw [pinned, course_of_moved h, List.filter_cons_of_pos (by simp [hphase])]
  rfl

theorem pinned_of_resume (h : s.step P budget = .moved s') (hphase : s'.phase = .resume) :
    s.pinned P budget = s'.pinned P budget := by
  rw [pinned, course_of_moved h, List.filter_cons_of_neg (by simp [hphase])]
  rfl

theorem pinned_of_ended {how : Ending} (h : s.step P budget = .ended how s') :
    s.pinned P budget = [] := by
  rw [pinned, course_of_ended h]
  rfl

end Search

end PortMatch
