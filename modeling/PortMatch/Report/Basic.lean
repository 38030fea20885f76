import PortMatch.Assignment.Snapshot
import PortMatch.Sorted

/-!
# Failure reports

A report tells that a pattern could not be satisfied from a target, why, and how far the attempt
got.  Two of its parts may be missing: the cause, when none is known, and the largest assignment
that was reached, when none was recorded.

The text of a report is

    Could not satisfy "pattern" from "target": the cause
    Max assignment:
    Node "A" is assigned to "C"
    Node "B" was not assigned

with the bindings of the nodes before those of the ports, each group sorted.  Without a cause the
first line ends before the colon; without an assignment it is all there is, and no line break
follows it.

* `Outline` — what a report says apart from its cause, and `Outline.message`, its text around the
  text of a cause;
* `Reason` — what can be the cause of a report;
* `Report` — a report with a cause of any such type, which is a reason itself.
-/

namespace PortMatch

open Text

/-! ## The text of a report -/

/-- The line of a report for one binding. -/
def Binding.line (item : String) (b : Binding) : String :=
  item ++ " " ++ quote b.label ++ b.image.elim " was not assigned" (" is assigned to " ++ quote ·)
    ++ "\n"

/-- The lines of a report for the given bindings. -/
def Binding.lines (item : String) (bindings : List Binding) : String :=
  String.join ((sorted bindings).map (Binding.line item))

/-- What a report says apart from its cause. -/
structure Outline where
  /-- The description of the pattern. -/
  pattern : String
  /-- The description of the target. -/
  target : String
  /-- The largest assignment that was reached. -/
  reached : Option Snapshot
  deriving DecidableEq

namespace Outline

/-- The beginning of a report. -/
def header (o : Outline) : String :=
  "Could not satisfy " ++ quote o.pattern ++ " from " ++ quote o.target

/-- The end of a report, which lists the largest assignment that was reached. -/
def closing (o : Outline) : String :=
  o.reached.elim "" fun s =>
    "\nMax assignment:\n" ++ Binding.lines "Node" s.nodes ++ Binding.lines "Port" s.ports

/-- The text of a report whose cause has the given text. -/
def message (o : Outline) (cause : Option String) : String :=
  o.header ++ cause.elim "" (": " ++ ·) ++ o.closing

/-- The detailed form of a report whose cause has the given detailed form. -/
def detail (o : Outline) (cause : Option String) : String :=
  Detail.record "SolveError"
    [("abstract_desc", quote o.pattern), ("concrete_desc", quote o.target),
      ("cause", Detail.option cause),
      ("max_assignment", Detail.option (o.reached.map Snapshot.detail))]

end Outline

/-! ## Causes and reports -/

/-- What can be the cause of a report. -/
class Reason (ε : Type) where
  /-- The reason in words. -/
  message : ε → String
  /-- The detailed form of the reason. -/
  detail : ε → String
  /-- What lies behind the reason, in words: its cause, the cause of that, and so on. -/
  sources : ε → List String

/-- A report that a pattern could not be satisfied from a target. -/
structure Report (ε : Type) extends Outline where
  /-- Why not, if that is known. -/
  cause : Option ε
  deriving DecidableEq

namespace Report

variable {ε : Type} [Reason ε]

/-- The text of a report. -/
def message (r : Report ε) : String := r.toOutline.message (r.cause.map Reason.message)

/-- The detailed form of a report. -/
def detail (r : Report ε) : String := r.toOutline.detail (r.cause.map Reason.detail)

/-- The texts of what lies behind a report: its cause, the cause of that, and so on. -/
def sources (r : Report ε) : List String :=
  r.cause.elim [] fun c => Reason.message c :: Reason.sources c

instance : Reason (Report ε) := ⟨message, detail, sources⟩

end Report

end PortMatch
