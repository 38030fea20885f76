import Mathlib
import PortMatch.Search.Solve
import PortMatch.Proofs.Search.Events
import PortMatch.Proofs.Search.Scan
import PortMatch.Proofs.Trail.Placements

/-!
# The outcome of solving a problem

What each outcome says about the trails of a problem.  A solution is read off the first complete
trail, a search that is exhausted has seen every trail, and an obstacle rules out solutions.

* `Problem.obstacle?_eq_none_iff` — what it means that there is no obstacle;
* `Obstacle.beforeSearch`, `Problem.beforeSearch_of_obstacle` — the obstacles that show without a
  search;
* `Problem.Solves.obstacle?_eq_none` — a problem with a solution has none;
* `Problem.attempt_of_obstacle`, `Problem.attempt_of_free` — the attempt, with an obstacle and without;
* `Problem.solve_eq_ok`, `Problem.solve_eq_report`, `Problem.solve_eq_error` — where the outcomes
  come from;
* `Problem.events_solve`, `Problem.events_solve_of_obstacle` — what an observer is told;
* `Problem.exists_visits` — a search reads trails from the first one on;
* `Problem.exists_trail_of_solve_eq_ok` — a solution is read off the first complete trail.
-/

namespace PortMatch

/-- Does the obstacle show without a search? -/
def Obstacle.beforeSearch : Obstacle → Bool
  | tooFewNodes _ _ | insufficientPorts _ _ _ | incompatiblePortKind _ _ | noCompatibleNode _ => true
  | searchLimit _ => false

namespace Problem

variable {P : Problem} {config : Config}

/-! ## Obstacles -/

theorem beforeSearch_diagnose (P : Problem) (n : NodeId) :
    (P.diagnose n).beforeSearch = true := by
  simp only [diagnose]
  split
  · rfl
  · split <;> rfl

theorem beforeSearch_of_obstacle {o : Obstacle} (h : P.obstacle? = some o) :
    o.beforeSearch = true := by
  unfold obstacle? at h
  split at h
  · cases h
    rfl
  · obtain ⟨g, -, rfl⟩ := Option.map_eq_some_iff.1 h
    exact P.beforeSearch_diagnose g.node

/-- There is no obstacle when the target has enough nodes and every node of the pattern has a
host. -/
theorem obstacle?_eq_none_iff : P.obstacle? = none ↔
    P.pattern.nodeCount ≤ P.target.nodeCount ∧ ∀ a ∈ P.pattern.nodeIds, P.hostsOf a ≠ [] := by
  have hgoals : (P.goals.find? fun g => g.hosts.isEmpty) = none ↔
      ∀ a ∈ P.pattern.nodeIds, P.hostsOf a ≠ [] := by
    simp [goals, List.find?_eq_none]
  unfold obstacle?
  split
  · next hlt => simpa using fun hle => absurd hle (Nat.not_le_of_lt hlt)
  · next hle =>
    rw [Option.map_eq_none_iff, hgoals]
    exact (and_iff_right (Nat.le_of_not_lt hle)).symm

/-- Different nodes have different places, so the target has as many nodes as the pattern. -/
theorem Solves.nodeCount_le {pl : Placement} (h : P.Solves pl) :
    P.pattern.nodeCount ≤ P.target.nodeCount := by
  have hnodup : (P.pattern.nodeIds.filterMap pl.node).Nodup :=
    P.pattern.nodup_nodeIds.filterMap fun a b c ha hb => h.node_inj ha hb
  have hsub : P.pattern.nodeIds.filterMap pl.node ⊆ P.target.nodeIds := by
    intro c hc
    obtain ⟨a, -, ha⟩ := List.mem_filterMap.1 hc
    exact h.node_mem ha
  have hlen : (P.pattern.nodeIds.filterMap pl.node).length = P.pattern.nodeIds.length :=
    List.filterMap_length_eq_length.2 fun a ha => (h.node_isSome a).2 ha
  calc P.pattern.nodeCount
    _ = P.pattern.nodeIds.length := P.pattern.length_nodeIds.symm
    _ = (P.pattern.nodeIds.filterMap pl.node).length := hlen.symm
    _ ≤ P.target.nodeIds.length := (hnodup.subperm hsub).length_le
    _ = P.target.nodeCount := P.target.length_nodeIds

/-- A problem with a solution has no obstacle. -/
theorem Solves.obstacle?_eq_none {pl : Placement} (h : P.Solves pl) (hP : P.pattern.WellFormed)
    (hT : P.target.WellFormed) : P.obstacle? = none := by
  refine obstacle?_eq_none_iff.2 ⟨h.nodeCount_le, fun a ha => ?_⟩
  obtain ⟨c, hc⟩ := Option.isSome_iff_exists.1 ((h.node_isSome a).2 ha)
  have hmap : P.IsPortMap (.unassigned P.pattern) a c (P.pinOf pl a).choices :=
    h.isPortMap_pinOf hP hT hc fun p q hq => by simp at hq
  exact List.ne_nil_of_mem (mem_hostsOf.2 ⟨h.node_mem hc, hmap.supports hT⟩)

/-! ## Outcomes -/

theorem attempt_of_obstacle {o : Obstacle} (h : P.obstacle? = some o) (budget : ℕ) :
    P.attempt budget = (.error (P.report (.unassigned P.pattern) (some o)), []) := by
  rw [attempt, h]

theorem attempt_of_free (h : P.obstacle? = none) (budget : ℕ) :
    P.attempt budget
      = (P.verdict budget ((Search.start P).run P budget).2 ((Search.start P).run P budget).1,
        ((Search.start P).run P budget).2.news.reverse) := by
  rw [attempt, h]

/-- A solution comes from a search that has found something. -/
theorem solve_eq_ok {sol : Solution} (h : (P.solve config).result = .ok sol) :
    P.obstacle? = none ∧ ∃ s, (Search.start P).run P config.budget = (.found, s) ∧
      sol = .ofAssignment P.pattern s.current s.rounds := by
  have hresult : (P.attempt config.budget).1 = .ok sol := h
  cases ho : P.obstacle? with
  | some o =>
    rw [attempt_of_obstacle ho] at hresult
    cases hresult
  | none =>
    rw [attempt_of_free ho] at hresult
    refine ⟨rfl, ?_⟩
    rcases hrun : (Search.start P).run P config.budget with ⟨how, s⟩
    rw [hrun] at hresult
    cases how with
    | found =>
      cases hresult
      exact ⟨s, rfl, rfl⟩
    | exhausted => cases hresult
    | outOfRounds => cases hresult

/-- A failure reports an obstacle, with nothing placed, or the best assignment of a search that has
tried everything or used up its budget. -/
theorem solve_eq_report {r : Report Obstacle} (h : (P.solve config).result = .error r) :
    (∃ o, P.obstacle? = some o ∧ r = P.report (.unassigned P.pattern) (some o)) ∨
    (P.obstacle? = none ∧ ∃ how s, (Search.start P).run P config.budget = (how, s) ∧
      (how = .exhausted ∧ r = P.report s.best none ∨
        how = .outOfRounds ∧ r = P.report s.best (some (.searchLimit config.budget)))) := by
  have hresult : (P.attempt config.budget).1 = .error r := h
  cases ho : P.obstacle? with
  | some o =>
    rw [attempt_of_obstacle ho] at hresult
    cases hresult
    exact .inl ⟨o, rfl, rfl⟩
  | none =>
    rw [attempt_of_free ho] at hresult
    rcases hrun : (Search.start P).run P config.budget with ⟨how, s⟩
    rw [hrun] at hresult
    cases how with
    | found => cases hresult
    | exhausted =>
      cases hresult
      exact .inr ⟨rfl, .exhausted, s, rfl, .inl ⟨rfl, rfl⟩⟩
    | outOfRounds =>
      cases hresult
      exact .inr ⟨rfl, .outOfRounds, s, rfl, .inr ⟨rfl, rfl⟩⟩

/-- A failure comes from an obstacle, from a search that has tried everything, or from one that has
used up its budget. -/
theorem solve_eq_error {r : Report Obstacle} (h : (P.solve config).result = .error r) :
    (∃ o, P.obstacle? = some o ∧ r.cause = some o) ∨
    (P.obstacle? = none ∧ ((Search.start P).run P config.budget).1 = .exhausted ∧
      r.cause = none) ∨
    (P.obstacle? = none ∧ ((Search.start P).run P config.budget).1 = .outOfRounds ∧
      r.cause = some (.searchLimit config.budget)) := by
  rcases solve_eq_report h with ⟨o, ho, rfl⟩ |
    ⟨hfree, how, s, hrun, ⟨rfl, rfl⟩ | ⟨rfl, rfl⟩⟩
  · exact .inl ⟨o, ho, rfl⟩
  · exact .inr (.inl ⟨hfree, by rw [hrun], rfl⟩)
  · exact .inr (.inr ⟨hfree, by rw [hrun], rfl⟩)

/-! ## Events -/

/-- An observer is told of the beginning, of the moves of the search, and of the result. -/
theorem events_solve (P : Problem) (config : Config) :
    (P.solve config).trace.events = .starting P.pattern.desc P.target.desc
      :: (Trace.events (P.attempt config.budget).2 ++ [.closing (P.solve config).result]) := by
  have hclosing : ∀ result, Trace.events (closing result) = [.closing result] := by
    intro result
    cases result <;> rfl
  have hevents : (P.solve config).trace.events
      = Trace.events (P.opening config.budget ++ (P.attempt config.budget).2
        ++ closing (P.solve config).result) := rfl
  rw [hevents, Trace.events, List.filterMap_append, List.filterMap_append]
  exact congrArg (_ :: ·) (congrArg (_ ++ ·) (hclosing _))

/-- After an obstacle the observer is told of the beginning and of the result, and of nothing in
between. -/
theorem events_solve_of_obstacle {o : Obstacle} (ho : P.obstacle? = some o) (config : Config) :
    (P.solve config).trace.events
      = [.starting P.pattern.desc P.target.desc, .closing (P.solve config).result] := by
  rw [events_solve, attempt_of_obstacle ho]
  rfl

/-- The moves of which an observer is told, if there is no obstacle. -/
theorem events_attempt_of_free (h : P.obstacle? = none) (budget : ℕ) :
    Trace.events (P.attempt budget).2 = ((Search.start P).run P budget).2.events := by
  rw [attempt_of_free h]
  rfl

/-! ## Trails -/

/-- A search reads trails from the first one on. -/
theorem exists_visits (hP : P.pattern.WellFormed) (hT : P.target.WellFormed) (budget : ℕ) :
    ∃ seen, P.Visits budget (Search.start P) [] seen ∧
      Scans P.agenda.length budget [] P.trails ((Search.start P).run P budget).1 seen := by
  obtain ⟨htracks, hahead⟩ := tracks_start hP hT
  obtain ⟨seen, hvisits⟩ := htracks.visits hP budget
  exact ⟨seen, hvisits, hahead ▸ hvisits.scans⟩

/-- A solution is read off the first complete trail, and there was one round for each trail before
it, the empty one included. -/
theorem exists_trail_of_solve_eq_ok (hP : P.pattern.WellFormed) (hT : P.target.WellFormed)
    {sol : Solution} (h : (P.solve config).result = .ok sol) :
    ∃ before last later, [] :: P.trails = before ++ last :: later ∧
      last.length = P.agenda.length ∧ (∀ t ∈ before, t.length ≠ P.agenda.length) ∧
      sol = .ofAssignment P.pattern (P.assemble last) before.length := by
  obtain ⟨-, s, hrun, rfl⟩ := solve_eq_ok h
  obtain ⟨seen, hvisits, hscans⟩ := exists_visits hP hT config.budget
  have htotal := hvisits.total
  have hfinal := hvisits.final
  rw [hrun] at hscans htotal hfinal
  obtain ⟨before, last, hseen, hlast, hbefore⟩ := hscans.found
  obtain ⟨later, hlater⟩ := hscans.isPrefix
  have hlen : seen.length = before.length := by
    have hlen := congrArg List.length hseen
    simpa using hlen
  refine ⟨before, last, later, ?_, hlast, hbefore, ?_⟩
  · rw [← hlater, ← List.cons_append, hseen, List.append_assoc]
    rfl
  · have hmem : last ∈ [] :: seen := by simp [hseen]
    have hrounds : s.rounds = before.length := by
      rw [← hlen]
      exact htotal.trans (Nat.zero_add _)
    rw [← hfinal last hmem hlast, hrounds]

end Problem

end PortMatch
