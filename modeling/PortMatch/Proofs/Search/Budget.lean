import PortMatch.Proofs.Search.Events

/-!
# Searches under two budgets

The budget is asked about only when a pin has turned up, and never changes which pin that is.  So
under a greater budget a search makes the same moves, and where the smaller budget is used up it
goes on.

* `Search.run_of_le` — a search that does not use up its budget runs the same under a greater one;
* `Search.run_of_outOfRounds` — a search that does goes on from where it was stopped;
* `Search.run_eq_or_outOfRounds` — under the smaller budget, a search that takes some number of
  rounds under the greater one either runs the same or is stopped, as its budget allows that number
  or not.
-/

namespace PortMatch

namespace Search

variable {P : Problem} {m m' : Nat} {s s' : Search}

/-! ## One move -/

theorem step_of_le (hle : m ≤ m') (h : s.step P m = .moved s') : s.step P m' = .moved s' := by
  cases hdrawn : s.drawn? P with
  | none => rwa [step_eq_of_drawn?_eq_none hdrawn m' m]
  | some drawn =>
    obtain ⟨f, frames, p, -, hstep⟩ := step_of_drawn? hdrawn
    rw [hstep] at h ⊢
    split at h
    · cases h
    · next hrounds => rwa [if_neg (mt (Nat.le_trans hle) hrounds)]

theorem step_of_ended {how : Ending} (hhow : how ≠ .outOfRounds)
    (h : s.step P m = .ended how s') : s.step P m' = .ended how s' := by
  cases hdrawn : s.drawn? P with
  | none => rwa [step_eq_of_drawn?_eq_none hdrawn m' m]
  | some drawn =>
    obtain ⟨f, frames, p, -, hstep⟩ := step_of_drawn? hdrawn
    rw [hstep] at h
    split at h
    · cases h
      exact absurd rfl hhow
    · cases h

/-- Where a pin turns up that one budget does not allow, a greater budget may still allow it. -/
theorem step_of_outOfRounds (h : s.step P m = .ended .outOfRounds s') :
    s' = s ∧ m ≤ s.rounds ∧
      ∀ m', s.rounds < m' → ∃ s'', s.step P m' = .moved s'' ∧ s''.rounds = s.rounds + 1 := by
  rcases step_eq_ended h with ⟨hhow, -⟩ | ⟨hhow, -⟩ |
    ⟨f, f', frames, p, -, hphase, hstack, hnext, hle, rfl⟩
  · cases hhow
  · cases hhow
  · refine ⟨rfl, hle, fun m' hlt => ⟨s'.pin P p f' frames, ?_, rfl⟩⟩
    simp only [step, hphase, hstack, hnext, if_neg (Nat.not_le_of_lt hlt)]

/-! ## All moves -/

/-- A search that does not use up its budget runs the same under a greater one. -/
theorem run_of_le (hle : m ≤ m') (h : (s.run P m).1 ≠ .outOfRounds) :
    s.run P m' = s.run P m := by
  fun_induction run P m s with
  | case1 s s' hmoved ih =>
    rw [run_of_moved (step_of_le hle hmoved)]
    exact ih h
  | case2 s how s' hended => exact run_of_ended (step_of_ended h hended)

/-- A search that uses up its budget goes on, under a greater one, from where it was stopped. -/
theorem run_of_outOfRounds (hle : m ≤ m') (h : (s.run P m).1 = .outOfRounds) :
    s.run P m' = (s.run P m).2.run P m' := by
  fun_induction run P m s with
  | case1 s s' hmoved ih =>
    rw [run_of_moved (step_of_le hle hmoved)]
    exact ih h
  | case2 s how s' hended =>
    obtain rfl : how = .outOfRounds := h
    rw [(step_of_outOfRounds hended).1]

theorem news_run_of_le (hle : m ≤ m') (s : Search) :
    (s.run P m).2.news <:+ (s.run P m').2.news := by
  by_cases h : (s.run P m).1 = .outOfRounds
  · rw [run_of_outOfRounds hle h]
    exact news_run P m' _
  · exact run_of_le hle h ▸ List.suffix_refl _

/-- The rounds of a search stay within its budget; if the budget is used up, a greater budget makes
for more rounds. -/
theorem rounds_run_of_lt (hstart : s.rounds ≤ m) :
    (s.run P m).2.rounds ≤ m ∧
      ((s.run P m).1 = .outOfRounds → ∀ m', m < m' → m < (s.run P m').2.rounds) := by
  obtain ⟨last, hrounds, hended⟩ := exists_last_of_rounds_le (P := P) hstart
  refine ⟨rounds_of_ended hended ▸ hrounds, fun hout m' hlt => ?_⟩
  have hgo := run_of_outOfRounds (Nat.le_of_lt hlt) hout
  rw [hout] at hended
  obtain ⟨hlast, hle, hnext⟩ := step_of_outOfRounds hended
  obtain ⟨s'', hstep, hone⟩ := hnext m' (Nat.lt_of_le_of_lt hrounds hlt)
  rw [hgo, hlast, run_of_moved hstep]
  calc m < last.rounds + 1 := Nat.lt_succ_of_le hle
    _ = s''.rounds := hone.symm
    _ ≤ (s''.run P m').2.rounds := rounds_run P m' s''

/-- A search that comes to an end of its own under some budget comes to the same end under a smaller
one that allows its rounds, and is stopped under one that does not. -/
theorem run_eq_or_outOfRounds (hle : m ≤ m') (hstart : s.rounds ≤ m)
    (h : (s.run P m').1 ≠ .outOfRounds) :
    ((s.run P m').2.rounds ≤ m → s.run P m = s.run P m') ∧
      (m < (s.run P m').2.rounds → (s.run P m).1 = .outOfRounds) := by
  obtain ⟨hwithin, hmore⟩ := rounds_run_of_lt (P := P) hstart
  refine ⟨fun hrounds => ?_, fun hrounds => ?_⟩
  · by_cases hout : (s.run P m).1 = .outOfRounds
    · rcases Nat.eq_or_lt_of_le hle with rfl | hlt
      · rfl
      · exact absurd (hmore hout m' hlt) (Nat.not_lt_of_le hrounds)
    · exact (run_of_le hle hout).symm
  · by_cases hout : (s.run P m).1 = .outOfRounds
    · exact hout
    · rw [run_of_le hle hout] at hrounds
      exact absurd hwithin (Nat.not_le_of_lt hrounds)

end Search

end PortMatch
