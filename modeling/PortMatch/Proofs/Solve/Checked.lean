import Mathlib
import PortMatch.Proofs.Checked.Search
import PortMatch.Proofs.Solve.Correct

/-!
# An attempt with checked operations

`Problem.checkedSolve` does what `Problem.solve` does, with operations that can fail: lookups in
arrays and tables, marks that are set, numbers that have to fit a machine word.  For graphs that
calls have built, and that are small enough for their ids to be numbered with 32 bits, none of these
operations fails, whatever the budget is, and the outcome is the same.

* `Problem.checkedAttempt`, `Problem.checkedSolve` — the attempt, checked;
* `Problem.checkedSolve_eq` — the checks do not fail.
-/

namespace PortMatch

namespace Problem

/-- The result and the trace of the search proper, checked. -/
def checkedAttempt (P : Problem) (budget : ℕ) :
    Option (Except (Report Obstacle) Solution × Trace) := do
  match ← P.checkedPreflight with
  | .error o => return (.error (P.report (.unassigned P.pattern) (some o)), [])
  | .ok hosts => do
    let goals ← P.checkedAgenda hosts
    let plan : Plan := { order := (goals.map Goal.node).toArray, hosts }
    let (how, s) ← { Search.start P with pending := goals }.checkedRun P plan budget
    return (P.verdict budget s how, s.news.reverse)

/-- Looks for a solution, and gives nothing if any operation fails on the way. -/
def checkedSolve (P : Problem) (config : Config := {}) : Option Outcome := do
  let (result, course) ← P.checkedAttempt config.budget
  return ⟨result, P.opening config.budget ++ course ++ closing result⟩

variable {P : Problem}

theorem checkedAttempt_eq (hP : P.pattern.WellFormed) (hT : P.target.WellFormed)
    (hsmallP : P.pattern.Numbered) (hsmallT : P.target.Numbered) {budget : ℕ}
    (hbudget : budget < UInt64.size) : P.checkedAttempt budget = some (P.attempt budget) := by
  rw [checkedAttempt, attempt]
  cases ho : P.obstacle? with
  | some o =>
    rw [checkedPreflight_of_obstacle hP hT hsmallP hsmallT ho]
    rfl
  | none =>
    obtain ⟨hosts, hpreflight, hhosts⟩ :=
      exists_checkedPreflight_of_free hP hT hsmallP hsmallT ho
    have hplan : Plan.Fits P { order := (P.agenda.map Goal.node).toArray, hosts } :=
      ⟨rfl, hhosts⟩
    have hrun := (Search.sound_start hP hT budget).checkedRun_eq hP hT hsmallP hsmallT hplan hbudget
    simp only [hpreflight, checkedAgenda_eq hsmallP hhosts, Option.bind_eq_bind, Option.bind_some]
    exact congrArg (Option.bind · _) hrun

/-- No operation fails on the way to a result: every node and every port that is looked up is there,
every node of the pattern has its hosts in the table and every goal its place in the order, every
kind its place in the tally of its node, every slot a mark and a port, and no number outgrows its
word. -/
theorem checkedSolve_eq (hP : P.pattern.Built) (hT : P.target.Built)
    (hsmallP : P.pattern.Numbered) (hsmallT : P.target.Numbered) (config : Config) :
    P.checkedSolve config = some (P.solve config) := by
  have hattempt := checkedAttempt_eq hP.wellFormed hT.wellFormed hsmallP hsmallT
    config.maxRounds.toNat_lt
  rw [checkedSolve, solve]
  exact congrArg (Option.bind · _) hattempt

/-- The pair is found without a check that fails, on the last two of three nodes. -/
theorem checkedSolve_pair :
    ((pairAmong [.connect ⟨1⟩ ⟨2⟩]).checkedSolve).map Outcome.result = some (.ok lastTwo) := by
  rw [checkedSolve_eq ⟨_, _, rfl⟩ ⟨_, _, rfl⟩ ⟨by decide +kernel, by decide +kernel⟩
    ⟨by decide +kernel, by decide +kernel⟩]
  exact congrArg some solve_pairAmong

end Problem

end PortMatch
