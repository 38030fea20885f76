import PortMatch.Graph.Build
import PortMatch.Report.Basic
import PortMatch.Report.Obstacle

/-!
# Causes

The causes that a report can have: an obstacle in the way of the match, the refusal of an operation
on a graph, some other text, or another report, which may have a cause of its own, and so on to any
depth.

* `Cause` — the causes, as one type, and their `Reason` instance;
* `Cause.ofReport` — a report as the cause of another one.
-/

namespace PortMatch

open Text

instance : Reason Obstacle := ⟨Obstacle.message, Obstacle.detail, fun _ => []⟩

instance : Reason Rejection := ⟨Rejection.message, Rejection.detail, fun _ => []⟩

/-- Why a report says that a pattern could not be satisfied. -/
inductive Cause where
  /-- An obstacle in the way of the match. -/
  | obstacle (o : Obstacle)
  /-- The refusal of an operation on a graph. -/
  | rejection (r : Rejection)
  /-- A reason given as a text. -/
  | text (t : String)
  /-- Another report, without a cause of its own. -/
  | bareReport (o : Outline)
  /-- Another report, with its cause. -/
  | report (o : Outline) (cause : Cause)
  deriving DecidableEq

namespace Cause

/-- A report as the cause of another one. -/
def ofReport (r : Report Cause) : Cause :=
  r.cause.elim (bareReport r.toOutline) (report r.toOutline)

/-- The text of a cause. -/
def message : Cause → String
  | obstacle o => o.message
  | rejection r => r.message
  | text t => t
  | bareReport o => o.message none
  | report o cause => o.message (some cause.message)

/-- The detailed form of a cause. -/
def detail : Cause → String
  | obstacle o => o.detail
  | rejection r => r.detail
  | text t => quote t
  | bareReport o => o.detail none
  | report o cause => o.detail (some cause.detail)

/-- The texts of what lies behind a cause. -/
def sources : Cause → List String
  | report _ cause => cause.message :: cause.sources
  | _ => []

instance : Reason Cause := ⟨message, detail, sources⟩

/-- A report shows as the cause of another one just what it shows by itself. -/
theorem message_ofReport (r : Report Cause) : (ofReport r).message = r.message := by
  obtain ⟨o, _ | c⟩ := r <;> rfl

/-- The detailed form of a report is the same when it is the cause of another one. -/
theorem detail_ofReport (r : Report Cause) : (ofReport r).detail = r.detail := by
  obtain ⟨o, _ | c⟩ := r <;> rfl

/-- What lies behind a report is the same when it is the cause of another one. -/
theorem sources_ofReport (r : Report Cause) : (ofReport r).sources = r.sources := by
  obtain ⟨o, _ | c⟩ := r <;> rfl

end Cause

end PortMatch
