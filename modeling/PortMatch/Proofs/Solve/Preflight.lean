import Mathlib
import PortMatch.Proofs.Solve.Outcome

/-!
# Obstacles, and what they mean

`Problem.solve` looks for an obstacle before it searches.  There is one just when the problem has no
solution for a reason that does not take links or other nodes into account: there are more nodes
than places for them, or there is a node that by itself has no place.

* `Problem.isSome_obstacle?_iff` — when there is an obstacle;
* `Problem.solve_fails_at_once_iff` — what that means for the result, the events and the hosts.
-/

namespace PortMatch

/-! ## An example -/

/-- A node with two ports of different kinds. -/
def oneOfEach : List Call :=
  [.addNode "a", .addPort ⟨0⟩ "p" ⟨"wire"⟩, .addPort ⟨0⟩ "q" ⟨"pipe"⟩]

/-- Two nodes, each with two ports of one kind. -/
def twoOfAKind : List Call :=
  [.addNode "x", .addPort ⟨0⟩ "i" ⟨"wire"⟩, .addPort ⟨0⟩ "j" ⟨"wire"⟩,
    .addNode "y", .addPort ⟨1⟩ "k" ⟨"pipe"⟩, .addPort ⟨1⟩ "l" ⟨"pipe"⟩]

/-- To find a node with ports of two kinds among nodes with ports of one kind. -/
def mixedAmongPlain : Problem where
  pattern := (Graph.empty "mixed").replay oneOfEach
  target := (Graph.empty "plain").replay twoOfAKind

namespace Problem

variable {P : Problem} {config : Config}

/-- There is an obstacle when the target has too few nodes, or when the ports of some node have no
room on any node of the target. -/
theorem isSome_obstacle?_iff (hP : P.pattern.WellFormed) (hT : P.target.WellFormed) :
    P.obstacle?.isSome ↔ P.target.nodeCount < P.pattern.nodeCount ∨
      ∃ n ∈ P.pattern.nodeIds, ∀ c ∈ P.target.nodeIds, ¬ P.PortsFit n c := by
  have hhosts : ∀ n, P.hostsOf n = [] ↔ ∀ c ∈ P.target.nodeIds, ¬ P.PortsFit n c := by
    intro n
    simp [List.eq_nil_iff_forall_not_mem, mem_hostsOf_iff_portsFit hP hT]
  rw [Option.isSome_iff_ne_none, ne_eq, obstacle?_eq_none_iff, not_and_or, Nat.not_le]
  simp [hhosts]

/-- An attempt fails with an obstacle that shows without a search just when there is one. -/
theorem exists_beforeSearch_iff :
    (∃ r o, (P.solve config).result = .error r ∧ r.cause = some o ∧ o.beforeSearch = true) ↔
      P.obstacle?.isSome := by
  refine ⟨?_, fun h => ?_⟩
  · rintro ⟨r, o, hr, hcause, hbefore⟩
    rcases solve_eq_error hr with ⟨o', ho, -⟩ | ⟨-, -, hnone⟩ | ⟨-, -, hlimit⟩
    · rw [ho]
      rfl
    · rw [hnone] at hcause
      cases hcause
    · rw [hlimit] at hcause
      cases hcause
      cases hbefore
  · obtain ⟨o, ho⟩ := Option.isSome_iff_exists.1 h
    exact ⟨_, o, congrArg Prod.fst (attempt_of_obstacle ho config.budget), rfl,
      beforeSearch_of_obstacle ho⟩

/-- An attempt fails without a search just when the target has too few nodes, or when there is a
node whose ports have no room on any node of the target; then no round begins, no node is placed and
there is no step back.  The hosts of a node are all nodes on which its ports have room, in ascending
order. -/
theorem solve_fails_at_once_iff (hP : P.pattern.Built) (hT : P.target.Built) (config : Config) :
    let failsAtOnce := ∃ r o, (P.solve config).result = .error r ∧ r.cause = some o ∧
      o.beforeSearch = true
    (failsAtOnce ↔ P.target.nodeCount < P.pattern.nodeCount ∨
      ∃ n ∈ P.pattern.nodeIds, ∀ c ∈ P.target.nodeIds, ¬ P.PortsFit n c) ∧
    (failsAtOnce → ∀ e ∈ (P.solve config).trace.events, e.isMove = false) ∧
    ∀ n, (∀ c, c ∈ P.hostsOf n ↔ c ∈ P.target.nodeIds ∧ P.PortsFit n c) ∧
      (P.hostsOf n).Pairwise fun c d => c.index < d.index := by
  intro failsAtOnce
  refine ⟨?_, fun hfails => ?_, fun n => ⟨fun c => ?_, P.pairwise_hostsOf n⟩⟩
  · exact exists_beforeSearch_iff.trans (isSome_obstacle?_iff hP.wellFormed hT.wellFormed)
  · obtain ⟨o, ho⟩ := Option.isSome_iff_exists.1 (exists_beforeSearch_iff.1 hfails)
    rw [events_solve_of_obstacle ho]
    cases (P.solve config).result <;> simp [Event.isMove, Event.closing]
  · exact mem_hostsOf_iff_portsFit hP.wellFormed hT.wellFormed

/-- No node of one kind has room for ports of two kinds, although there are enough ports of each. -/
theorem solve_fails_at_once_mixed :
    mixedAmongPlain.solve.result.mapError Report.cause = .error (some (.noCompatibleNode "a")) ∧
    ∃ n ∈ mixedAmongPlain.pattern.nodeIds, ∀ c ∈ mixedAmongPlain.target.nodeIds,
      ¬ mixedAmongPlain.PortsFit n c := by
  have hfail : mixedAmongPlain.solve.result.mapError Report.cause
      = .error (some (.noCompatibleNode "a")) := by decide +kernel
  obtain ⟨hiff, -⟩ := solve_fails_at_once_iff (P := mixedAmongPlain) ⟨_, _, rfl⟩ ⟨_, _, rfl⟩ {}
  refine ⟨hfail, (hiff.1 ?_).resolve_left (by decide +kernel)⟩
  cases h : mixedAmongPlain.solve.result with
  | ok sol =>
    rw [h] at hfail
    cases hfail
  | error r =>
    rw [h] at hfail
    exact ⟨r, _, rfl, Except.error.inj hfail, rfl⟩

end Problem

end PortMatch
