import Mathlib
import PortMatch.Proofs.Search.Balance
import PortMatch.Proofs.Solve.Replay

/-!
# The accounts of an attempt

An observer of `Problem.solve` counts the rounds and adds up the steps back.  The two numbers tell
how many nodes are placed when the search stops, and their difference is fixed by the way in which
it stops.  The rounds never outgrow the budget, so a machine word that can hold the budget can count
them.

* `Problem.KeepsAccounts` — the invariant of a search; `Problem.KeepsAccounts.moved` — it is kept;
* `Problem.run_balances` — the accounts of a search at its end;
* `Problem.balance_of_ok`, `Problem.balance_of_exhausted`, `Problem.balance_of_searchLimit` — those
  of an attempt, by its result;
* `Problem.solve_balances` — what they are for every result.
-/

namespace PortMatch

namespace Problem

variable {P : Problem} {config : Config}

/-! ## The search proper -/

/-- The observer of a search is informed, and its rounds are within the budget. -/
structure KeepsAccounts (P : Problem) (budget : ℕ) (s : Search) : Prop where
  /-- What the observer was told leads to where the search is. -/
  informs : ∃ t best, P.Informs s t best
  /-- The rounds are within the budget. -/
  within : s.rounds ≤ budget

theorem keepsAccounts_start (hP : P.pattern.WellFormed) (hT : P.target.WellFormed) (budget : ℕ) :
    P.KeepsAccounts budget (Search.start P) :=
  ⟨⟨_, _, informs_start hP hT⟩, Nat.zero_le _⟩

/-- Every move keeps the accounts. -/
theorem KeepsAccounts.moved (hP : P.pattern.WellFormed) (hT : P.target.WellFormed) {budget : ℕ}
    {s s' : Search} (h : P.KeepsAccounts budget s) (hstep : s.step P budget = .moved s') :
    P.KeepsAccounts budget s' := by
  obtain ⟨t, best, hinforms⟩ := h.informs
  exact ⟨hinforms.moved hP hT hstep, Search.rounds_within_of_moved h.within hstep⟩

/-- At its end a search has as many rounds as there were steps back and nodes are placed, unless
there was one more step back at the very last.  All nodes are placed when it has found something,
and some are not when its budget was used up. -/
theorem run_balances (hP : P.pattern.WellFormed) (hT : P.target.WellFormed) {budget : ℕ}
    {how : Ending} {s : Search} (hrun : (Search.start P).run P budget = (how, s)) :
    s.rounds = (s.told P).countP Event.isRound ∧ s.rounds ≤ budget ∧
    (how = .exhausted → Event.stepsBack (s.told P) = s.rounds + 1) ∧
    (how ≠ .exhausted → s.rounds = Event.stepsBack (s.told P) + s.current.assignedNodes) ∧
    (how = .found → s.current.assignedNodes = P.pattern.nodeCount) ∧
    (how = .outOfRounds → s.rounds = budget ∧ s.current.assignedNodes < P.pattern.nodeCount) := by
  obtain ⟨last, ⟨⟨t, best, h⟩, hwithin⟩, hended⟩ := Search.exists_last P budget
    (keepsAccounts_start hP hT budget) fun h hstep => h.moved hP hT hstep
  replace hended : last.step P budget = .ended how s := by rw [hended, hrun]
  have htold : s.told P = last.told P := congrArg (_ :: ·) (Search.events_of_ended hended)
  obtain ⟨news, hsame⟩ := Search.exists_news_of_ended hended
  have hrounds : s.rounds = last.rounds := by rw [hsame]
  have hplaced : s.current.assignedNodes = t.length := by
    rw [hsame, h.tracks.current]
    exact h.tracks.legal.assignedNodes_assemble hP hT
  obtain ⟨hscans, -, -⟩ := h.tracks.ended hended
  rw [htold, hrounds, hplaced, ← length_agenda]
  refine ⟨h.rounds_eq, hwithin, ?_⟩
  rcases Search.step_eq_ended hended with ⟨rfl, hphase, -⟩ | ⟨rfl, hphase, hstack, -⟩ |
    ⟨f, f', frames, p, rfl, hphase, hstack, -, hle, -⟩
  · have hbalance := h.rounds_eq_of_not_givenUp (Search.not_givenUp_of_descend hphase)
    obtain ⟨before, found, hsplit, hlen, -⟩ := hscans.found
    obtain ⟨-, rfl⟩ : before = [] ∧ found = t := by
      simpa using List.append_eq_singleton_iff.1 hsplit.symm
    simp [hbalance, hlen]
  · simp [(h.stepsBack_of_givenUp ⟨hphase, hstack⟩).2]
  · have hbalance := h.rounds_eq_of_not_givenUp (Search.not_givenUp_of_cons hstack)
    have hbudget : last.rounds = budget := Nat.le_antisymm hwithin hle
    simp [hbalance, ← hbudget, h.tracks.incomplete hphase]

/-! ## All attempts -/

/-- An observer counts the rounds and the steps back of the search. -/
theorem counts_of_run (hP : P.pattern.WellFormed) (hT : P.target.WellFormed)
    (hfree : P.obstacle? = none) {how : Ending} {s : Search}
    (hrun : (Search.start P).run P config.budget = (how, s)) :
    (P.solve config).trace.events.countP Event.isRound = s.rounds ∧
      Event.stepsBack (P.solve config).trace.events = Event.stepsBack (s.told P) := by
  rw [events_solve_of_free hfree, List.countP_append, Event.countP_isRound_closing,
    Event.stepsBack_append, Event.stepsBack_closing, hrun]
  exact ⟨(run_balances hP hT hrun).1.symm, rfl⟩

/-- If there is an obstacle, nothing is counted. -/
theorem counts_of_obstacle {o : Obstacle} (ho : P.obstacle? = some o) (config : Config) :
    (P.solve config).trace.events.countP Event.isRound = 0 ∧
      Event.stepsBack (P.solve config).trace.events = 0 := by
  rw [events_solve_of_obstacle ho]
  refine ⟨Event.countP_isRound_closing _, ?_⟩
  rw [← List.singleton_append, Event.stepsBack_append]
  exact (Nat.zero_add _).trans (Event.stepsBack_closing _)

/-- At every moment a search has counted the rounds that its observer has been told of, and they are
within the budget. -/
theorem rounds_of_mem_course (hP : P.pattern.WellFormed) (hT : P.target.WellFormed) {budget : ℕ}
    {s : Search} (hs : s ∈ (Search.start P).course P budget) :
    s.rounds = (s.told P).countP Event.isRound ∧ s.rounds ≤ budget := by
  obtain ⟨⟨t, best, h⟩, hwithin⟩ := Search.forall_mem_course P budget
    (keepsAccounts_start hP hT budget) (fun h hstep => h.moved hP hT hstep) s
    (List.mem_cons_of_mem _ hs)
  exact ⟨h.rounds_eq, hwithin⟩

/-- An observer never counts more rounds than the budget allows. -/
theorem countP_isRound_solve_le (hP : P.pattern.WellFormed) (hT : P.target.WellFormed)
    (config : Config) : (P.solve config).trace.events.countP Event.isRound ≤ config.budget := by
  cases ho : P.obstacle? with
  | some o => exact (counts_of_obstacle ho config).1 ▸ Nat.zero_le _
  | none =>
    rw [(counts_of_run hP hT ho rfl).1]
    exact (run_balances hP hT rfl).2.1

section Results

variable (hP : P.pattern.WellFormed) (hT : P.target.WellFormed)

include hP hT

/-- If there is a solution, there was a round for each node and one for each step back. -/
theorem balance_of_ok {sol : Solution} (h : (P.solve config).result = .ok sol) :
    sol.rounds = (P.solve config).trace.events.countP Event.isRound ∧
      (P.solve config).trace.events.countP Event.isRound
        = Event.stepsBack (P.solve config).trace.events + P.pattern.nodeCount := by
  obtain ⟨hfree, s, hrun, rfl⟩ := solve_eq_ok h
  obtain ⟨-, -, -, hbalance, hall, -⟩ := run_balances hP hT hrun
  obtain ⟨hrounds, hback⟩ := counts_of_run hP hT hfree hrun
  rw [hrounds, hback, ← hall rfl]
  exact ⟨rfl, hbalance Ending.noConfusion⟩

/-- If everything was tried, there was one more step back than there were rounds. -/
theorem balance_of_exhausted {r : Report Obstacle} (h : (P.solve config).result = .error r)
    (hcause : r.cause = none) :
    Event.stepsBack (P.solve config).trace.events
      = (P.solve config).trace.events.countP Event.isRound + 1 := by
  rcases solve_eq_report h with ⟨o, -, rfl⟩ | ⟨hfree, how, s, hrun, ⟨rfl, -⟩ | ⟨rfl, rfl⟩⟩
  · cases hcause
  · obtain ⟨hrounds, hback⟩ := counts_of_run hP hT hfree hrun
    rw [hrounds, hback]
    exact (run_balances hP hT hrun).2.2.1 rfl
  · cases hcause

/-- If the budget was used up, there was a round for each step back and for each node that is still
placed, and some nodes are not. -/
theorem balance_of_searchLimit {r : Report Obstacle} (h : (P.solve config).result = .error r)
    {n : ℕ} (hcause : r.cause = some (.searchLimit n)) :
    n = config.budget ∧
      (P.solve config).trace.events.countP Event.isRound = config.budget ∧
      (P.solve config).trace.events.countP Event.isRound
        = Event.stepsBack (P.solve config).trace.events
          + ((Search.start P).run P config.budget).2.current.assignedNodes ∧
      ((Search.start P).run P config.budget).2.current.assignedNodes < P.pattern.nodeCount := by
  rcases solve_eq_report h with ⟨o, ho, rfl⟩ | ⟨hfree, how, s, hrun, ⟨rfl, rfl⟩ | ⟨rfl, rfl⟩⟩
  · cases hcause
    cases beforeSearch_of_obstacle ho
  · cases hcause
  · cases hcause
    obtain ⟨-, -, -, hbalance, -, hspent⟩ := run_balances hP hT hrun
    obtain ⟨hrounds, hback⟩ := counts_of_run hP hT hfree hrun
    rw [hrounds, hback, hrun]
    exact ⟨rfl, (hspent rfl).1, hbalance Ending.noConfusion, (hspent rfl).2⟩

end Results

/-- The rounds that an observer counts never exceed the budget, at no moment, and they are the
rounds that the search has counted by then.  If there is a solution, there was a round for each of
its nodes and one for each step back.  If everything was tried, there was one more step back than
there were rounds.  If the budget was used up, there were as many rounds as it allows, one for each
step back and one for each node still placed, and some nodes were not.  If there was an obstacle,
there was neither a round nor a step back. -/
theorem solve_balances (hP : P.pattern.Built) (hT : P.target.Built) (config : Config) :
    let result := (P.solve config).result
    let events := (P.solve config).trace.events
    let rounds := events.countP Event.isRound
    let back := Event.stepsBack events
    let placed := ((Search.start P).run P config.budget).2.current.assignedNodes
    (∀ told, told <+: events → told.countP Event.isRound ≤ config.budget) ∧
    (∀ s ∈ (Search.start P).course P config.budget, s.rounds = (s.told P).countP Event.isRound ∧
      s.rounds ≤ config.budget ∧ s.rounds < UInt64.size) ∧
    (∀ sol, result = .ok sol → sol.rounds = rounds ∧ rounds = back + P.pattern.nodeCount) ∧
    (∀ r, result = .error r → r.cause = none → back = rounds + 1) ∧
    (∀ r n, result = .error r → r.cause = some (.searchLimit n) →
      n = config.budget ∧ rounds = config.budget ∧ rounds = back + placed ∧
        placed < P.pattern.nodeCount) ∧
    ∀ r o, result = .error r → r.cause = some o → o.beforeSearch = true →
      rounds = 0 ∧ back = 0 := by
  intro result events rounds back placed
  refine ⟨fun told htold => ?_, fun s hs => ?_, fun sol hsol => ?_, fun r hr hcause => ?_,
    fun r n hr hcause => ?_, fun r o hr hcause hbefore => ?_⟩
  · exact htold.sublist.countP_le.trans
      (countP_isRound_solve_le hP.wellFormed hT.wellFormed config)
  · obtain ⟨hcount, hwithin⟩ := rounds_of_mem_course hP.wellFormed hT.wellFormed hs
    exact ⟨hcount, hwithin, Nat.lt_of_le_of_lt hwithin config.maxRounds.toNat_lt⟩
  · exact balance_of_ok hP.wellFormed hT.wellFormed hsol
  · exact balance_of_exhausted hP.wellFormed hT.wellFormed hr hcause
  · exact balance_of_searchLimit hP.wellFormed hT.wellFormed hr hcause
  · rcases solve_eq_report hr with ⟨o', ho, -⟩ | ⟨-, how, s, -, ⟨-, rfl⟩ | ⟨-, rfl⟩⟩
    · exact counts_of_obstacle ho config
    · cases hcause
    · cases hcause
      cases hbefore

/-- Where the pair is nowhere, its first node is placed three times, and there are four steps back.
Where two rounds are not enough to find the pair, they are balanced by a step back and a node that
is still placed. -/
theorem solve_balances_pair :
    Event.stepsBack toldNowhere = toldNowhere.countP Event.isRound + 1 ∧
    ∃ placed, 2 = Event.stepsBack ((pairAmong [.connect ⟨1⟩ ⟨2⟩]).solve ⟨2⟩).trace.events + placed ∧
      placed < 2 := by
  obtain ⟨-, -, -, hnone, -⟩ := solve_balances (P := pairAmong []) ⟨_, _, rfl⟩ ⟨_, _, rfl⟩ {}
  obtain ⟨-, -, -, -, hlimit, -⟩ :=
    solve_balances (P := pairAmong [.connect ⟨1⟩ ⟨2⟩]) ⟨_, _, rfl⟩ ⟨_, _, rfl⟩ ⟨2⟩
  rw [events_pairAmong_nil] at hnone
  obtain ⟨-, hrounds, hbalance, hlt⟩ := hlimit pairNotYet 2 solve_pairAmong_two_rounds rfl
  exact ⟨hnone pairNowhere solve_pairAmong_nil rfl, _, hrounds.symm.trans hbalance, hlt⟩

end Problem

end PortMatch
