import Mathlib
import PortMatch.Proofs.Solve.Correct
import PortMatch.Proofs.Solve.Renaming

/-!
# The order of links

The links of a graph may be made in any order, from either end, before or after further nodes and
ports, and with refused calls in between; what counts are the ports that are linked in the end.  The
lists of neighbors do depend on the order, and a search does go through them, but what it asks of
the neighbors it asks of all of them.

* `Problem.Alike` — the graphs of two problems differ at most in the order of their links;
* `Problem.Alike.inWords_eq` — then an account reads the same in the words of both;
* `Problem.solve_eq_of_alike` — and solving them has the same outcome, to the last entry of a log.
-/

namespace PortMatch

/-! ## An example -/

/-- Three nodes, each linked to the other two. -/
def triangle : Graph :=
  (Graph.empty "triangle").replay
    (threeNodes [.connect ⟨0⟩ ⟨1⟩, .connect ⟨0⟩ ⟨2⟩, .connect ⟨1⟩ ⟨2⟩])

/-- The same, with links in another order and from the other end, one of them before the third node,
and with two refused calls. -/
def triangleAgain : Graph :=
  (Graph.empty "triangle").replay
    [.addNode "x", .addPort ⟨0⟩ "i" ⟨"wire"⟩, .addNode "y", .addPort ⟨1⟩ "j" ⟨"wire"⟩,
      .connect ⟨1⟩ ⟨0⟩, .connect ⟨0⟩ ⟨2⟩, .addNode "z", .addPort ⟨2⟩ "k" ⟨"wire"⟩,
      .connect ⟨2⟩ ⟨1⟩, .connect ⟨2⟩ ⟨0⟩, .connect ⟨0⟩ ⟨1⟩]

theorem alike_triangleAgain : triangle.Alike triangleAgain where
  desc := rfl
  nodes := by decide +kernel
  ports := by decide +kernel
  connected p q := by
    have hlinks : triangle.links
        = ((Links.insert {} ⟨0⟩ ⟨1⟩).insert ⟨0⟩ ⟨2⟩).insert ⟨1⟩ ⟨2⟩ := rfl
    have hagain : triangleAgain.links
        = ((Links.insert {} ⟨1⟩ ⟨0⟩).insert ⟨2⟩ ⟨1⟩).insert ⟨2⟩ ⟨0⟩ := rfl
    rw [Graph.connected, Graph.connected, hlinks, hagain]
    simp only [Links.contains_insert, Links.contains_empty]
    grind

namespace Problem

variable {P P' : Problem}

/-- The graphs of the problems differ at most in the order of their links. -/
structure Alike (P P' : Problem) : Prop where
  /-- The patterns do. -/
  pattern : P.pattern.Alike P'.pattern
  /-- The targets do. -/
  target : P.target.Alike P'.target

namespace Alike

variable (h : P.Alike P')
include h

theorem renamed : P.Renamed id P' := ⟨h.pattern.renamed, h.target.renamed⟩

/-! ## Words -/

theorem obstacle_eq (f : Finding) : f.obstacle P'.pattern = f.obstacle P.pattern := by
  have hkind : ∀ p, P'.pattern.kind? p = P.pattern.kind? p := by
    intro p
    rw [Graph.kind?, Graph.kind?, h.pattern.port?]
  cases f <;> simp only [Finding.obstacle, h.pattern.nodeDesc, h.pattern.portDesc, hkind]

theorem news_eq (note : Note) : note.news P' = note.news P := by
  cases note <;> simp only [Note.news, h.pattern.nodeDesc, h.target.nodeDesc]

theorem snapshot_eq (s : Assignment) :
    s.snapshot P'.pattern P'.target = s.snapshot P.pattern P.target := by
  simp only [Assignment.snapshot, h.pattern.node?, h.target.node?, h.pattern.port?,
    h.target.port?]

theorem report_eq (f : Failure) : f.report P' = f.report P := by
  have hobstacle : Finding.obstacle P'.pattern = Finding.obstacle P.pattern := funext h.obstacle_eq
  rw [Failure.report, Failure.report, report, report, h.pattern.desc, h.target.desc, h.snapshot_eq,
    hobstacle]

/-- An account reads the same in the words of problems that are alike. -/
theorem inWords_eq (account : Account) (budget : ℕ) :
    account.inWords P' budget = account.inWords P budget := by
  have hreport : Failure.report P' = Failure.report P := funext h.report_eq
  have hnews : Note.news P' = Note.news P := funext h.news_eq
  have hopening : P'.opening budget = P.opening budget := by
    rw [opening, opening, h.pattern.desc, h.target.desc, h.pattern.renamed.nodeCount,
      h.target.renamed.nodeCount]
  rw [Account.inWords, Account.inWords, hreport, hnews, hopening]

end Alike

/-! ## Outcomes -/

/-- Problems whose graphs have the same descriptions, nodes, ports and links have the same outcome,
with all that an observer and a log are told, whatever calls made the graphs. -/
theorem solve_eq_of_alike (hP : P.pattern.Built) (hT : P.target.Built) (hP' : P'.pattern.Built)
    (hT' : P'.target.Built) (h : P.Alike P') (config : Config) :
    P'.solve config = P.solve config := by
  obtain ⟨account, haccount⟩ := P.exists_account config
  have hparallel : P.Parallel P' := h.renamed.parallel Function.injective_id hP.wellFormed
    hT.wellFormed hP'.wellFormed hT'.wellFormed
  have hfinding : P'.finding? = P.finding? := h.renamed.finding?_eq Function.injective_id
    hP.wellFormed hT.wellFormed hP'.wellFormed hT'.wellFormed
  calc P'.solve config
    _ = account.inWords P' config.budget := haccount P' hparallel hfinding
    _ = account.inWords P config.budget := h.inWords_eq account config.budget
    _ = P.solve config := (haccount P (.refl P) rfl).symm

/-- The third corner of the triangle has its neighbors in another order, and nobody can tell. -/
theorem solve_eq_of_alike_triangle :
    triangleAgain.neighbors ⟨2⟩ ≠ triangle.neighbors ⟨2⟩ ∧
    Problem.solve ⟨triangleAgain, triangleAgain⟩ = Problem.solve ⟨triangle, triangle⟩ :=
  ⟨by decide +kernel, solve_eq_of_alike (P := ⟨triangle, triangle⟩) ⟨_, _, rfl⟩ ⟨_, _, rfl⟩
    ⟨_, _, rfl⟩ ⟨_, _, rfl⟩ ⟨alike_triangleAgain, alike_triangleAgain⟩ {}⟩

end Problem

end PortMatch
