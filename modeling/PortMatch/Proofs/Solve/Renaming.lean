import Mathlib
import PortMatch.Proofs.Search.Renaming
import PortMatch.Proofs.Solve.Preflight

/-!
# Solving problems under other names

What comes of solving a problem can be told by ids alone: the solution, or what is in the way and
the best assignment, and the moves in between.  Only then it is put in the words of the problem, the
descriptions of its graphs and the names of its kinds.  Problems that differ in words have the same
account by ids, so the words have no influence on what is found, on how it is found, and on which
of several obstacles is reported.

* `Failure`, `Account` — a failure and a whole outcome, by ids;
* `Account.inWords` — the outcome that an account amounts to in the words of a problem;
* `Problem.exists_account` — problems that answer alike have the same account;
* `Problem.solve_renamed` — so has a problem under other names.
-/

namespace PortMatch

/-! ## An example -/

/-- To find a node with ports of two kinds on a node with ports of the first kind only. -/
def mixedAmongWires : Problem where
  pattern := (Graph.empty "mixed").replay oneOfEach
  target := (Graph.empty "wires").replay
    [.addNode "x", .addPort ⟨0⟩ "i" ⟨"wire"⟩, .addPort ⟨0⟩ "j" ⟨"wire"⟩]

/-- The same with the two kinds swapped, where all nodes and ports have one and the same name. -/
def mixedAmongPipes : Problem where
  pattern := (Graph.empty "").replay
    [.addNode "n", .addPort ⟨0⟩ "n" ⟨"pipe"⟩, .addPort ⟨0⟩ "n" ⟨"wire"⟩]
  target := (Graph.empty "").replay
    [.addNode "n", .addPort ⟨0⟩ "n" ⟨"pipe"⟩, .addPort ⟨0⟩ "n" ⟨"pipe"⟩]

theorem renamed_mixedAmongPipes :
    mixedAmongWires.Renamed (Equiv.swap ⟨"wire"⟩ ⟨"pipe"⟩) mixedAmongPipes where
  pattern := ⟨by decide +kernel, by decide +kernel, fun _ _ => rfl⟩
  target := ⟨by decide +kernel, by decide +kernel, fun _ _ => rfl⟩

/-! ## Accounts -/

/-- Why there is no solution, by ids. -/
structure Failure where
  /-- The best assignment that was reached. -/
  best : Assignment
  /-- What is in the way, if that is known. -/
  finding : Option Finding

/-- The report on a failure in the words of a problem. -/
def Failure.report (P : Problem) (f : Failure) : Report Obstacle :=
  P.report f.best (f.finding.map (Finding.obstacle P.pattern))

/-- What comes of solving a problem, by ids. -/
structure Account where
  /-- The solution, or why there is none. -/
  result : Except Failure Solution
  /-- The course of the search, without its beginning and end. -/
  notes : List Note

/-- The outcome that an account amounts to in the words of a problem. -/
def Account.inWords (a : Account) (P : Problem) (budget : Nat) : Outcome :=
  let result := a.result.mapError (Failure.report P)
  ⟨result, P.opening budget ++ a.notes.map (Note.news P) ++ Problem.closing result⟩

namespace Problem

variable {P P' : Problem} {rename : PortKind → PortKind}

/-- What the end of a search that could make `budget` pins means for the problem, by ids. -/
def essence (P : Problem) (budget : Nat) (s : Search) : Ending → Except Failure Solution
  | .found => .ok (.ofAssignment P.pattern s.current s.rounds)
  | .exhausted => .error ⟨s.best, none⟩
  | .outOfRounds => .error ⟨s.best, some (.searchLimit budget)⟩

theorem Parallel.verdict_eq (h : P.Parallel P') (budget : Nat) (s : Search) (notes : List Note)
    (how : Ending) :
    P'.verdict budget (s.inWords P' notes) how
      = (P.essence budget s how).mapError (Failure.report P') := by
  cases how with
  | found =>
    rw [verdict, Solution.ofAssignment, h.nodeIds, h.portIds]
    rfl
  | exhausted => rfl
  | outOfRounds => rfl

/-- Problems that answer alike and have the same obstacle, apart from the words, have the same
account. -/
theorem exists_account (P : Problem) (config : Config) :
    ∃ account : Account, ∀ P', P.Parallel P' → P'.finding? = P.finding? →
      P'.solve config = account.inWords P' config.budget := by
  cases hfinding : P.finding? with
  | some f =>
    refine ⟨⟨.error ⟨.unassigned P.pattern, some f⟩, []⟩, fun P' h hf => ?_⟩
    have hobstacle : P'.obstacle? = some (f.obstacle P'.pattern) := by
      rw [obstacle?_eq, hf]
      rfl
    rw [solve, attempt_of_obstacle hobstacle, h.unassigned_eq]
    rfl
  | none =>
    obtain ⟨notes, hnotes⟩ := Search.exists_notes_of_run P config.budget (.start P) []
    refine ⟨⟨P.essence config.budget ((Search.start P).run P config.budget).2
      ((Search.start P).run P config.budget).1, notes.reverse⟩, fun P' h hf => ?_⟩
    have hfree : P'.obstacle? = none := by
      rw [obstacle?_eq, hf]
      rfl
    rw [solve, attempt_of_free hfree, Search.start_eq h, hnotes P' h, Account.inWords,
      h.verdict_eq, List.map_reverse]
    rfl

/-- A problem under other names, where kinds that differ keep different names, has the same account:
the same solution after as many rounds, or the same obstacle and the same best assignment, and the
same moves.  The outcome puts the account in the words of each problem. -/
theorem solve_renamed (hP : P.pattern.Built) (hT : P.target.Built) (config : Config) :
    ∃ account : Account, P.solve config = account.inWords P config.budget ∧
      ∀ rename : PortKind → PortKind, rename.Injective → ∀ P' : Problem, P'.pattern.Built →
        P'.target.Built → P.Renamed rename P' →
          P'.solve config = account.inWords P' config.budget := by
  obtain ⟨account, haccount⟩ := P.exists_account config
  refine ⟨account, haccount P (.refl P) rfl, fun rename hinj P' hP' hT' h => ?_⟩
  refine haccount P' ?_ ?_
  · exact h.parallel hinj hP.wellFormed hT.wellFormed hP'.wellFormed hT'.wellFormed
  · exact h.finding?_eq hinj hP.wellFormed hT.wellFormed hP'.wellFormed hT'.wellFormed

/-- The second port is the obstacle whatever its name and kind are called. -/
theorem solve_renamed_mixed :
    (mixedAmongWires.solve.result.mapError Report.cause
      = .error (some (.incompatiblePortKind "q" "pipe"))) ∧
    (mixedAmongPipes.solve.result.mapError Report.cause
      = .error (some (.incompatiblePortKind "n" "wire"))) ∧
    ∃ account : Account,
      mixedAmongWires.solve = account.inWords mixedAmongWires ({} : Config).budget ∧
      mixedAmongPipes.solve = account.inWords mixedAmongPipes ({} : Config).budget := by
  obtain ⟨account, hwires, hpipes⟩ :=
    solve_renamed (P := mixedAmongWires) ⟨_, _, rfl⟩ ⟨_, _, rfl⟩ {}
  refine ⟨by decide +kernel, by decide +kernel, account, hwires, ?_⟩
  exact hpipes _ (Equiv.swap _ _).injective mixedAmongPipes ⟨_, _, rfl⟩ ⟨_, _, rfl⟩
    renamed_mixedAmongPipes

end Problem

end PortMatch
