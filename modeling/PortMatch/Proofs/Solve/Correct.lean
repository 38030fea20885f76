import Mathlib
import PortMatch.Proofs.Placement.Solution
import PortMatch.Proofs.Solve.Outcome

/-!
# What solving a problem achieves

The three promises of `Problem.solve`, for all graphs that calls have built and all budgets.  What
it returns is a valid placement of the whole pattern; where it rules one out, none exists; and of
all valid placements it returns the one with the least code.

* `Problem.solve_sound` — a solution is a valid placement, listed id by id;
* `Problem.solve_complete` — a failure other than a used-up budget means that there is no solution;
* `Problem.solve_least` — a solution has the least code of all.
-/

namespace PortMatch

/-! ## An example -/

/-- Two nodes with one port each, and a link between them. -/
def linkedPair : List Call :=
  [.addNode "a", .addPort ⟨0⟩ "p" ⟨"wire"⟩, .addNode "b", .addPort ⟨1⟩ "q" ⟨"wire"⟩,
    .connect ⟨0⟩ ⟨1⟩]

/-- Three nodes with one port each, and the given links. -/
def threeNodes (links : List Call) : List Call :=
  [.addNode "x", .addPort ⟨0⟩ "i" ⟨"wire"⟩, .addNode "y", .addPort ⟨1⟩ "j" ⟨"wire"⟩,
    .addNode "z", .addPort ⟨2⟩ "k" ⟨"wire"⟩] ++ links

/-- To find the linked pair among three nodes. -/
def pairAmong (links : List Call) : Problem where
  pattern := (Graph.empty "pair").replay linkedPair
  target := (Graph.empty "three").replay (threeNodes links)

/-- The pair, found on the last two of the three nodes. -/
def lastTwo : Solution where
  nodes := [(⟨0⟩, ⟨1⟩), (⟨1⟩, ⟨2⟩)]
  ports := [(⟨0⟩, ⟨1⟩), (⟨1⟩, ⟨2⟩)]
  rounds := 3

theorem solve_pairAmong : (pairAmong [.connect ⟨1⟩ ⟨2⟩]).solve.result = .ok lastTwo := by
  decide +kernel

namespace Problem

variable {P : Problem} {config : Config} {sol : Solution}

theorem solves_of_trail (hP : P.pattern.WellFormed) (hT : P.target.WellFormed)
    {before later : List Trail} {last : Trail} (hsplit : [] :: P.trails = before ++ last :: later)
    (hlast : last.length = P.agenda.length) : P.Solves (P.assemble last).placement :=
  (solves_iff hP hT).2 ⟨last, by simp [hsplit], hlast, rfl⟩

/-! ## Soundness -/

/-- A solution lists every node and every port of the pattern once, in ascending order, and is a
valid placement of them. -/
theorem solve_sound (hP : P.pattern.Built) (hT : P.target.Built)
    (h : (P.solve config).result = .ok sol) :
    sol.nodes.map Prod.fst = (List.range P.pattern.nodeCount).map NodeId.mk ∧
    sol.ports.map Prod.fst = (List.range P.pattern.portCount).map PortId.mk ∧
    (∀ a c, sol.node? a = some c ↔ (a, c) ∈ sol.nodes) ∧
    (∀ p q, sol.port? p = some q ↔ (p, q) ∈ sol.ports) ∧
    P.Solves sol.placement := by
  obtain ⟨before, last, later, hsplit, hlast, -, rfl⟩ :=
    exists_trail_of_solve_eq_ok hP.wellFormed hT.wellFormed h
  have hsolves := solves_of_trail hP.wellFormed hT.wellFormed hsplit hlast
  refine ⟨hsolves.map_fst_nodes _, hsolves.map_fst_ports hP.wellFormed _, ?_, ?_, ?_⟩
  · intro a c
    exact lookup_pairs_eq_some_iff
  · intro p q
    exact lookup_pairs_eq_some_iff
  · rw [hsolves.placement_ofAssignment]
    exact hsolves

/-- The pair is found where the link is. -/
theorem solve_sound_pair : (pairAmong [.connect ⟨1⟩ ⟨2⟩]).solve.result = .ok lastTwo ∧
    (pairAmong [.connect ⟨1⟩ ⟨2⟩]).Solves lastTwo.placement := by
  obtain ⟨-, -, -, -, hsolves⟩ := solve_sound ⟨_, _, rfl⟩ ⟨_, _, rfl⟩ solve_pairAmong
  exact ⟨solve_pairAmong, hsolves⟩

/-! ## Completeness -/

/-- A failure other than a used-up budget means that there is no solution: where there is one, every
search finds one or uses up its budget. -/
theorem solve_complete (hP : P.pattern.Built) (hT : P.target.Built) (config : Config) :
    (∀ r, (P.solve config).result = .error r → (∀ n, r.cause ≠ some (.searchLimit n)) →
      ¬ ∃ pl, P.Solves pl) ∧
    ((∃ pl, P.Solves pl) → (∃ sol, (P.solve config).result = .ok sol) ∨
      ∃ r, (P.solve config).result = .error r ∧ r.cause = some (.searchLimit config.budget)) := by
  have hlimit : ∀ {pl r}, P.Solves pl → (P.solve config).result = .error r →
      r.cause = some (.searchLimit config.budget) := by
    intro pl r hsolves hr
    rcases solve_eq_error hr with ⟨o, ho, -⟩ | ⟨-, hhow, -⟩ | ⟨-, -, hcause⟩
    · rw [hsolves.obstacle?_eq_none hP.wellFormed hT.wellFormed] at ho
      cases ho
    · -- the search would have come across the trail of the solution
      obtain ⟨seen, -, hscans⟩ := exists_visits hP.wellFormed hT.wellFormed config.budget
      obtain ⟨t, ht, hlen, -⟩ := (solves_iff hP.wellFormed hT.wellFormed).1 hsolves
      rw [hhow] at hscans
      exact absurd hlen (hscans.exhausted.2 t ht)
    · exact hcause
  refine ⟨?_, ?_⟩
  · rintro r hr hcause ⟨pl, hsolves⟩
    exact hcause _ (hlimit hsolves hr)
  · rintro ⟨pl, hsolves⟩
    cases hresult : (P.solve config).result with
    | ok sol => exact .inl ⟨sol, rfl⟩
    | error r => exact .inr ⟨r, rfl, hlimit hsolves hresult⟩

/-- Without links among the three nodes, the pair is nowhere. -/
theorem solve_complete_pair : ¬ ∃ pl, (pairAmong []).Solves pl := by
  have hfail : (pairAmong []).solve.result.mapError Report.cause = .error none := by
    decide +kernel
  cases h : (pairAmong []).solve.result with
  | ok sol =>
    rw [h] at hfail
    cases hfail
  | error r =>
    rw [h] at hfail
    have hcause : r.cause = none := Except.error.inj hfail
    refine (solve_complete ⟨_, _, rfl⟩ ⟨_, _, rfl⟩ {}).1 r h fun n hn => ?_
    rw [hcause] at hn
    cases hn

/-! ## The least solution -/

/-- The search takes the nodes with the fewest hosts first, and of nodes with equally many hosts the
one with the lowest id; in this order, the solution has the least code of all valid placements. -/
theorem solve_least (hP : P.pattern.Built) (hT : P.target.Built)
    (h : (P.solve config).result = .ok sol) :
    P.searchOrder.Perm P.pattern.nodeIds ∧
    (P.searchOrder.Pairwise fun a b => (P.hostsOf a).length < (P.hostsOf b).length ∨
      (P.hostsOf a).length = (P.hostsOf b).length ∧ a.index < b.index) ∧
    P.Solves sol.placement ∧
    ∀ pl, P.Solves pl → pl ≠ sol.placement → P.code sol.placement < P.code pl := by
  refine ⟨P.searchOrder_perm, P.pairwise_searchOrder, ?_⟩
  have hcode := fun {t} => code_of_mem_cons_trails hP.wellFormed hT.wellFormed (t := t)
  have hascend := pairwise_cons_trails hP.wellFormed hT.wellFormed
  obtain ⟨before, last, later, hsplit, hlast, hbefore, rfl⟩ :=
    exists_trail_of_solve_eq_ok hP.wellFormed hT.wellFormed h
  have hsolves := solves_of_trail hP.wellFormed hT.wellFormed hsplit hlast
  rw [hsolves.placement_ofAssignment]
  refine ⟨hsolves, ?_⟩
  intro pl hpl hne
  obtain ⟨t, ht, hlen, rfl⟩ := (solves_iff hP.wellFormed hT.wellFormed).1 hpl
  have hmem : last ∈ [] :: P.trails := by simp [hsplit]
  rw [hcode ht, hcode hmem]
  rw [hsplit] at ht hascend
  rcases List.mem_append.1 ht with ht | ht
  · exact absurd hlen (hbefore t ht)
  · rcases List.mem_cons.1 ht with rfl | ht
    · exact absurd rfl hne
    · exact List.rel_of_pairwise_cons (List.pairwise_append.1 hascend).2.1 ht

/-- The pair could also be placed the other way round, but that would be greater. -/
theorem solve_least_pair : (pairAmong [.connect ⟨1⟩ ⟨2⟩]).solve.result = .ok lastTwo ∧
    (pairAmong [.connect ⟨1⟩ ⟨2⟩]).code lastTwo.placement = [1, 1, 2, 2] ∧
    ∀ pl, (pairAmong [.connect ⟨1⟩ ⟨2⟩]).Solves pl → pl ≠ lastTwo.placement →
      (pairAmong [.connect ⟨1⟩ ⟨2⟩]).code lastTwo.placement
        < (pairAmong [.connect ⟨1⟩ ⟨2⟩]).code pl := by
  obtain ⟨-, -, -, hleast⟩ := solve_least ⟨_, _, rfl⟩ ⟨_, _, rfl⟩ solve_pairAmong
  exact ⟨solve_pairAmong, by decide +kernel, hleast⟩

end Problem

end PortMatch
