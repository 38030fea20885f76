import PortMatch.Search.Run

/-!
# Solving a problem

`Problem.solve` looks for an obstacle first, and searches if there is none.  The outcome is a
solution, or else a report that tells the obstacle, if one is known, and the best assignment that
the search has seen; in either case the trace of the search comes with it.
-/

namespace PortMatch

/-- What comes of solving a problem. -/
structure Outcome where
  /-- The solution, or why there is none. -/
  result : Except (Report Obstacle) Solution
  /-- The course of the search. -/
  trace : Trace

namespace Problem

/-- The report on a failed search. -/
def report (P : Problem) (best : Assignment) (cause : Option Obstacle) : Report Obstacle where
  pattern := P.pattern.desc
  target := P.target.desc
  reached := some (best.snapshot P.pattern P.target)
  cause := cause

/-- What the end of a search that could make `budget` pins means for the problem. -/
def verdict (P : Problem) (budget : Nat) (s : Search) : Ending → Except (Report Obstacle) Solution
  | .found => .ok (.ofAssignment P.pattern s.current s.rounds)
  | .exhausted => .error (P.report s.best none)
  | .outOfRounds => .error (P.report s.best (some (.searchLimit budget)))

/-- The result and the trace of the search proper, without its beginning and end. -/
def attempt (P : Problem) (budget : Nat) : Except (Report Obstacle) Solution × Trace :=
  match P.obstacle? with
  | some o => (.error (P.report (.unassigned P.pattern) (some o)), [])
  | none =>
    let (how, s) := (Search.start P).run P budget
    (P.verdict budget s how, s.news.reverse)

/-- The news at the beginning. -/
def opening (P : Problem) (budget : Nat) : Trace :=
  [.entry (.solveStart P.pattern.desc P.target.desc P.pattern.nodeCount P.target.nodeCount budget),
    .event (.starting P.pattern.desc P.target.desc)]

/-- The news at the end. -/
def closing : Except (Report Obstacle) Solution → Trace
  | .ok solution => [.entry (.solveEnd solution.rounds), .event (.ending solution)]
  | .error report => [.entry (.solveFailed report.cause), .event (.failed report)]

/-- Looks for a solution. -/
def solve (P : Problem) (config : Config := {}) : Outcome :=
  let (result, course) := P.attempt config.budget
  ⟨result, P.opening config.budget ++ course ++ closing result⟩

end Problem

end PortMatch
