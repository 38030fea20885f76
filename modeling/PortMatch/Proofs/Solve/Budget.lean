import PortMatch.Proofs.Search.Budget
import PortMatch.Proofs.Solve.Correct

/-!
# The budget of rounds

What a caller sees of the budget: it cuts a search off, and has no other influence.  Two attempts at
one problem tell their observers the same as long as both go on, and they differ in their results
only when the smaller budget is used up.

* `Problem.attempt_of_le` — an attempt that does not use up its budget;
* `Problem.attempt_eq_or_searchLimit` — an attempt that would end by itself under a greater budget;
* `Problem.solve_under_two_budgets` — the results and the events under two budgets.
-/

namespace PortMatch

namespace Problem

variable {P : Problem} {m m' : ℕ} {config config' : Config}

/-! ## Attempts -/

theorem attempt_eq_of_run_eq (hrun : (Search.start P).run P m = (Search.start P).run P m')
    (hhow : ((Search.start P).run P m).1 ≠ .outOfRounds) : P.attempt m = P.attempt m' := by
  cases ho : P.obstacle? with
  | some o => rw [attempt_of_obstacle ho, attempt_of_obstacle ho]
  | none =>
    rw [attempt_of_free ho, attempt_of_free ho, ← hrun]
    cases hend : ((Search.start P).run P m).1 with
    | found => rfl
    | exhausted => rfl
    | outOfRounds => exact absurd hend hhow

/-- Nothing changes under a greater budget if the smaller one is not used up. -/
theorem attempt_of_le (hle : m ≤ m') (hhow : ((Search.start P).run P m).1 ≠ .outOfRounds) :
    P.attempt m = P.attempt m' :=
  attempt_eq_of_run_eq (Search.run_of_le hle hhow).symm hhow

theorem news_attempt_of_le (P : Problem) (hle : m ≤ m') :
    (P.attempt m).2 <+: (P.attempt m').2 := by
  cases ho : P.obstacle? with
  | some o =>
    rw [attempt_of_obstacle ho, attempt_of_obstacle ho]
  | none =>
    rw [attempt_of_free ho, attempt_of_free ho]
    exact List.reverse_prefix.2 (Search.news_run_of_le hle (Search.start P))

theorem attempt_of_outOfRounds (hfree : P.obstacle? = none)
    (hhow : ((Search.start P).run P m).1 = .outOfRounds) :
    ∃ r, (P.attempt m).1 = .error r ∧ r.cause = some (.searchLimit m) := by
  rw [attempt_of_free hfree, hhow]
  exact ⟨_, rfl, rfl⟩

/-- An attempt that ends by itself after some rounds ends in the same way under a smaller budget
that allows as many, and runs into the limit under one that does not. -/
theorem attempt_eq_or_searchLimit (hle : m ≤ m') (hfree : P.obstacle? = none)
    (hhow : ((Search.start P).run P m').1 ≠ .outOfRounds) :
    (((Search.start P).run P m').2.rounds ≤ m → P.attempt m = P.attempt m') ∧
      (m < ((Search.start P).run P m').2.rounds →
        ∃ r, (P.attempt m).1 = .error r ∧ r.cause = some (.searchLimit m)) := by
  obtain ⟨hsame, hcut⟩ := Search.run_eq_or_outOfRounds hle (Nat.zero_le m) hhow
  refine ⟨fun hrounds => ?_, fun hrounds => ?_⟩
  · have hrun := hsame hrounds
    exact attempt_eq_of_run_eq hrun (hrun ▸ hhow)
  · exact attempt_of_outOfRounds hfree (hcut hrounds)

/-! ## Events -/

theorem events_solve_eq (h : P.attempt config.budget = P.attempt config'.budget) :
    (P.solve config).trace.events = (P.solve config').trace.events := by
  have hresult : (P.solve config).result = (P.solve config').result := congrArg Prod.fst h
  rw [events_solve, events_solve, h, hresult]

/-- The pins that an observer is told of are the rounds of the search. -/
theorem countP_isPinning_events_solve (hfree : P.obstacle? = none) (config : Config) :
    (P.solve config).trace.events.countP Event.isPinning
      = ((Search.start P).run P config.budget).2.rounds := by
  rw [events_solve, events_attempt_of_free hfree, List.countP_cons_of_neg (by simp [Event.isPinning]),
    List.countP_append, Search.countP_isPinning_events, List.countP_singleton,
    Event.isPinning_closing]
  rfl

/-! ## Two budgets -/

/-- Of two budgets, the smaller one only cuts the search off: its events, apart from the last one,
are the first ones under the greater budget, and unless it is used up everything is the same.  A
search that finds a solution or tries everything within the greater budget does so within the
smaller one if that allows as many rounds, and otherwise runs into its limit. -/
theorem solve_under_two_budgets (P : Problem) (hle : config.budget ≤ config'.budget) :
    let small := P.solve config
    let large := P.solve config'
    (∃ told, small.trace.events = told ++ [.closing small.result] ∧ told <+: large.trace.events) ∧
    ((∀ r n, small.result = .error r → r.cause ≠ some (.searchLimit n)) →
      small.result = large.result ∧ small.trace.events = large.trace.events) ∧
    (∀ sol, large.result = .ok sol →
      (sol.rounds ≤ config.budget → small.result = .ok sol) ∧
      (config.budget < sol.rounds →
        ∃ r, small.result = .error r ∧ r.cause = some (.searchLimit config.budget))) ∧
    ∀ r, large.result = .error r → r.cause = none →
      let pins := large.trace.events.countP Event.isPinning
      (pins ≤ config.budget → small.result = .error r) ∧
      (config.budget < pins →
        ∃ r', small.result = .error r' ∧ r'.cause = some (.searchLimit config.budget)) := by
  intro small large
  refine ⟨?_, ?_, ?_, ?_⟩
  · refine ⟨.starting P.pattern.desc P.target.desc :: Trace.events (P.attempt config.budget).2,
      events_solve P config, ?_⟩
    rw [show large.trace.events = _ from events_solve P config', List.cons_prefix_cons]
    exact ⟨rfl, ((news_attempt_of_le P hle).filterMap _).trans (List.prefix_append _ _)⟩
  · intro hlimit
    have hsame : P.attempt config.budget = P.attempt config'.budget := by
      by_cases hhow : ((Search.start P).run P config.budget).1 = .outOfRounds
      · cases ho : P.obstacle? with
        | some o => rw [attempt_of_obstacle ho, attempt_of_obstacle ho]
        | none =>
          obtain ⟨r, hr, hcause⟩ := attempt_of_outOfRounds ho hhow
          exact absurd hcause (hlimit r _ hr)
      · exact attempt_of_le hle hhow
    exact ⟨congrArg Prod.fst hsame, events_solve_eq hsame⟩
  · intro sol hsol
    obtain ⟨hfree, s, hrun, rfl⟩ := solve_eq_ok hsol
    obtain ⟨hsame, hcut⟩ := attempt_eq_or_searchLimit hle hfree (by rw [hrun]; simp)
    rw [hrun] at hsame hcut
    exact ⟨fun hrounds => (congrArg Prod.fst (hsame hrounds)).trans hsol, hcut⟩
  · intro r hr hcause pins
    rcases solve_eq_error hr with ⟨o, -, ho⟩ | ⟨hfree, hhow, -⟩ | ⟨-, -, hlimit⟩
    · rw [hcause] at ho
      cases ho
    · have hpins : pins = _ := countP_isPinning_events_solve hfree config'
      obtain ⟨hsame, hcut⟩ := attempt_eq_or_searchLimit hle hfree (by rw [hhow]; simp)
      rw [← hpins] at hsame hcut
      exact ⟨fun hrounds => (congrArg Prod.fst (hsame hrounds)).trans hr, hcut⟩
    · rw [hcause] at hlimit
      cases hlimit

/-- To find the pair on the last two of three nodes takes three rounds: two are not enough. -/
theorem solve_under_two_budgets_pair :
    (⟨2⟩ : Config).budget ≤ ({} : Config).budget ∧ (⟨3⟩ : Config).budget ≤ ({} : Config).budget ∧
    ((pairAmong [.connect ⟨1⟩ ⟨2⟩]).solve ⟨3⟩).result = .ok lastTwo ∧
    ∃ r, ((pairAmong [.connect ⟨1⟩ ⟨2⟩]).solve ⟨2⟩).result = .error r ∧
      r.cause = some (.searchLimit 2) := by
  have htwo : (⟨2⟩ : Config).budget ≤ ({} : Config).budget := by decide
  have hthree : (⟨3⟩ : Config).budget ≤ ({} : Config).budget := by decide
  obtain ⟨-, -, htwo', -⟩ := solve_under_two_budgets (pairAmong [.connect ⟨1⟩ ⟨2⟩]) htwo
  obtain ⟨-, -, hthree', -⟩ := solve_under_two_budgets (pairAmong [.connect ⟨1⟩ ⟨2⟩]) hthree
  refine ⟨htwo, hthree, ?_, ?_⟩
  · exact (hthree' lastTwo solve_pairAmong).1 (by decide)
  · exact (htwo' lastTwo solve_pairAmong).2 (by decide)

end Problem

end PortMatch
