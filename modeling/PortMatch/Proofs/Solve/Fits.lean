import Mathlib
import PortMatch.Proofs.Placement.Embedding
import PortMatch.Proofs.Solve.Failure

/-!
# What fits where

A graph fits another one if no attempt to find it there fails for good: however large the budget of
rounds is, at worst it is used up.  Attempts at different targets have nothing to do with each
other, but solutions do: a solution in a graph and a solution for that graph can be put together,
and growth of the target leaves a solution valid.

* `Graph.Fits` — at worst, the budget of rounds is used up;
* `Graph.embeds_of_solve_eq_ok`, `Graph.Embeds.fits` — from a solution to a placement, and from a
  placement to all attempts;
* `Graph.fits_preorder` — fitting goes on through growth and from one target to the next.
-/

namespace PortMatch

/-! ## An example -/

/-- To find three nodes, the last two of them linked, among four nodes of which the last two are
linked. -/
def threeAmongFour : Problem where
  pattern := (Graph.empty "three").replay (threeNodes [.connect ⟨1⟩ ⟨2⟩])
  target := (Graph.empty "four").replay
    (threeNodes [.addNode "w", .addPort ⟨3⟩ "l" ⟨"wire"⟩, .connect ⟨3⟩ ⟨2⟩])

/-- The three nodes, found among the four. -/
def threeInFour : Solution where
  nodes := [(⟨0⟩, ⟨0⟩), (⟨1⟩, ⟨2⟩), (⟨2⟩, ⟨3⟩)]
  ports := [(⟨0⟩, ⟨0⟩), (⟨1⟩, ⟨2⟩), (⟨2⟩, ⟨3⟩)]
  rounds := 4

namespace Graph

variable {A B C : Graph}

/-- At worst, an attempt to find the graph `A` in the graph `C` uses up its budget of rounds. -/
def Fits (A C : Graph) : Prop :=
  ∀ (config : Config) (r : Report Obstacle), (Problem.solve ⟨A, C⟩ config).result = .error r →
    ∃ rounds, r.cause = some (.searchLimit rounds)

/-! ## Solutions and attempts -/

theorem embeds_of_solve_eq_ok (hA : A.WellFormed) (hC : C.WellFormed) {config : Config}
    {sol : Solution} (h : (Problem.solve ⟨A, C⟩ config).result = .ok sol) : A.Embeds C := by
  obtain ⟨before, last, later, hsplit, hlast, -, -⟩ :=
    Problem.exists_trail_of_solve_eq_ok hA hC h
  exact ⟨_, Problem.solves_of_trail hA hC hsplit hlast⟩

/-- Where there is a valid placement, an attempt fails only by using up its budget. -/
theorem Embeds.fits (hA : A.WellFormed) (hC : C.WellFormed) (h : A.Embeds C) : A.Fits C := by
  obtain ⟨pl, hpl⟩ := h
  intro config r hr
  have hfree := hpl.obstacle?_eq_none hA hC
  rcases Problem.solve_eq_error hr with ⟨o, ho, -⟩ | ⟨-, -, hnone⟩ | ⟨-, -, hlimit⟩
  · rw [hfree] at ho
    cases ho
  · -- a search without a cause has read the complete trail of the placement as well
    obtain ⟨seen, t, -, hdeepest, -, hlt, -, -, hall⟩ :=
      Problem.exists_trail_of_solve_eq_error hA hC hfree hr
    obtain ⟨u, hu, hlen, -⟩ := (Problem.solves_iff hA hC).1 hpl
    rw [← hall hnone] at hu
    have hle := hdeepest.length_le hu
    omega
  · exact ⟨_, hlimit⟩

/-! ## Growth and composition -/

/-- A graph fits everything that it grows to, itself included.  If it was found in a graph which in
turn was found in another one, it fits that one; and once it was found in a graph, it fits
everything that this graph grows to. -/
theorem fits_preorder (hA : A.Built) (hB : B.Built) (hC : C.Built) :
    (∀ calls, A.Fits (A.replay calls)) ∧
    (∀ config config' sol sol', (Problem.solve ⟨A, B⟩ config).result = .ok sol →
      (Problem.solve ⟨B, C⟩ config').result = .ok sol' → A.Fits C) ∧
    ∀ config sol, (Problem.solve ⟨A, C⟩ config).result = .ok sol →
      ∀ calls, A.Fits (C.replay calls) := by
  have hgrow : ∀ {g : Graph}, g.Built → ∀ calls, g.Embeds (g.replay calls) := fun hg calls =>
    embeds_of_extends hg.wellFormed (extends_replay _ calls)
  have hgrown : ∀ {g : Graph}, g.Built → ∀ calls, (g.replay calls).WellFormed := fun hg calls =>
    hg.wellFormed.replay calls
  refine ⟨fun calls => ?_, fun config config' sol sol' h h' => ?_, fun config sol h calls => ?_⟩
  · exact (hgrow hA calls).fits hA.wellFormed (hgrown hA calls)
  · have hAB := embeds_of_solve_eq_ok hA.wellFormed hB.wellFormed h
    have hBC := embeds_of_solve_eq_ok hB.wellFormed hC.wellFormed h'
    exact (hAB.trans hBC).fits hA.wellFormed hC.wellFormed
  · have hAC := embeds_of_solve_eq_ok hA.wellFormed hC.wellFormed h
    exact (hAC.trans (hgrow hC calls)).fits hA.wellFormed (hgrown hC calls)

/-- The pair is found among three nodes, and the three nodes among four; so the pair fits the four
nodes, and it still fits the three when there are more calls. -/
theorem fits_preorder_pair :
    (pairAmong [.connect ⟨1⟩ ⟨2⟩]).solve.result = .ok lastTwo ∧
    threeAmongFour.solve.result = .ok threeInFour ∧
    (pairAmong []).pattern.Fits threeAmongFour.target ∧
    ∀ calls, (pairAmong []).pattern.Fits (threeAmongFour.pattern.replay calls) := by
  obtain ⟨-, hcomp, -⟩ := fits_preorder (A := (pairAmong []).pattern)
    (B := threeAmongFour.pattern) (C := threeAmongFour.target) ⟨_, _, rfl⟩ ⟨_, _, rfl⟩ ⟨_, _, rfl⟩
  obtain ⟨-, -, hgrow⟩ := fits_preorder (A := (pairAmong []).pattern)
    (B := threeAmongFour.pattern) (C := threeAmongFour.pattern) ⟨_, _, rfl⟩ ⟨_, _, rfl⟩ ⟨_, _, rfl⟩
  have hthree : threeAmongFour.solve.result = .ok threeInFour := by decide +kernel
  exact ⟨solve_pairAmong, hthree, hcomp {} {} lastTwo threeInFour solve_pairAmong hthree,
    hgrow {} lastTwo solve_pairAmong⟩

end Graph

end PortMatch
