import Mathlib
import PortMatch.Proofs.Search.Scan
import PortMatch.Proofs.Trail.Depth

/-!
# The best assignment of a search

A search remembers the best assignment that it has come to: a pin replaces it by the current one if
that is better.  Of the trails that the search reads, this is the first one among the deepest.

* `Assignment.better`, `Search.best_run` — the best assignment, computed from those after the pins;
* `Search.reach` — the depth that the pins of a search reach;
* `Problem.Visits.best_eq`, `Problem.Visits.reach_eq` — both are those of the first trail among the
  deepest.
-/

namespace PortMatch

/-- The better one of two assignments, and the first one if neither is better. -/
def Assignment.better (s t : Assignment) : Assignment := if t.exceeds s then t else s

namespace Search

variable {P : Problem} {budget : Nat}

/-- The best assignment is found among the first one and those after the pins. -/
theorem best_run (P : Problem) (budget : Nat) (s : Search) :
    (s.run P budget).2.best
      = ((s.pinned P budget).map Search.current).foldl Assignment.better s.best := by
  fun_induction run P budget s with
  | case1 s s' hstep ih =>
    rcases step_eq_moved hstep with ⟨g, rest, -, -, rfl⟩ | ⟨f, f', frames, p, -, -, -, -, rfl⟩ |
      ⟨f, f', frames, hphase, -, -, rfl⟩
    · rw [pinned_of_resume hstep rfl]
      exact ih
    · rw [pinned_of_descend hstep rfl]
      exact ih
    · rw [pinned_of_resume hstep ((phase_giveUp ..).trans hphase), ih, best_giveUp]
  | case2 s how s' hstep =>
    rw [pinned_of_ended hstep]
    obtain ⟨news, rfl⟩ := exists_news_of_ended hstep
    rfl

/-- The greatest number of nodes that are placed right after a pin of the search; zero if there is
no pin. -/
def reach (P : Problem) (budget : Nat) (s : Search) : Nat :=
  ((s.pinned P budget).map fun s' => s'.current.assignedNodes).max?.getD 0

end Search

namespace Problem

variable {P : Problem} {budget : ℕ} {seen : List Trail} {t u : Trail}

theorem getD_max?_eq {l : List ℕ} {m : ℕ} (hle : ∀ n ∈ l, n ≤ m) (hm : m ∈ l ∨ m = 0) :
    l.max?.getD 0 = m := by
  cases hmax : l.max? with
  | none =>
    rw [List.max?_eq_none_iff] at hmax
    subst hmax
    exact (by simpa using hm : m = 0).symm
  | some n =>
    obtain ⟨hmem, hall⟩ := List.max?_eq_some_iff.1 hmax
    refine le_antisymm (hle n hmem) ?_
    rcases hm with hm | rfl
    · exact hall m hm
    · exact Nat.zero_le _

/-- Of two trails, the deeper one has the better assignment. -/
theorem better_assemble (hP : P.pattern.WellFormed) (hT : P.target.WellFormed)
    (ht : t ∈ [] :: P.trails) (hu : u ∈ [] :: P.trails) :
    (P.assemble t).better (P.assemble u) = P.assemble (t.deeper u) := by
  obtain ⟨hlegal, hnodes⟩ := (mem_cons_trails hP hT).1 ht
  obtain ⟨hlegalu, hnodesu⟩ := (mem_cons_trails hP hT).1 hu
  rw [Assignment.better, exceeds_assemble hlegal hlegalu hP hT hnodes hnodesu, Trail.deeper]
  by_cases hlt : t.length < u.length <;> simp [hlt]

theorem foldl_better_assemble (hP : P.pattern.WellFormed) (hT : P.target.WellFormed)
    (ht : t ∈ [] :: P.trails) (hseen : ∀ u ∈ seen, u ∈ [] :: P.trails) :
    (seen.map P.assemble).foldl Assignment.better (P.assemble t)
      = P.assemble (seen.foldl Trail.deeper t) := by
  induction seen generalizing t with
  | nil => rfl
  | cons u rest ih =>
    obtain ⟨hu, hrest⟩ := List.forall_mem_cons.1 hseen
    rw [List.map_cons, List.foldl_cons, List.foldl_cons, better_assemble hP hT ht hu]
    refine ih ?_ hrest
    rw [Trail.deeper]
    split
    · exact hu
    · exact ht

namespace Visits

/-- The best assignment of a search is that of the first trail among the deepest it has read. -/
theorem best_eq (h : P.Visits budget (Search.start P) [] seen) (hP : P.pattern.WellFormed)
    (hT : P.target.WellFormed) (hseen : seen <+: P.trails) :
    ∃ t, Trail.FirstDeepest ([] :: seen) t ∧
      ((Search.start P).run P budget).2.best = P.assemble t := by
  refine ⟨_, Trail.firstDeepest_foldl [] seen, ?_⟩
  rw [Search.best_run, h.assignments]
  exact foldl_better_assemble hP hT List.mem_cons_self
    fun u hu => List.mem_cons_of_mem _ (hseen.subset hu)

/-- The pins of a search reach the depth of the deepest trail that it has read. -/
theorem reach_eq (h : P.Visits budget (Search.start P) [] seen) (hP : P.pattern.WellFormed)
    (hT : P.target.WellFormed) (hseen : seen <+: P.trails)
    (ht : Trail.FirstDeepest ([] :: seen) t) : (Search.start P).reach P budget = t.length := by
  have hdepths : ((Search.start P).pinned P budget).map (fun s => s.current.assignedNodes)
      = seen.map List.length := by
    have hassign := congrArg (List.map Assignment.assignedNodes) h.assignments
    rw [List.map_map, List.map_map] at hassign
    refine hassign.trans (List.map_congr_left fun u hu => ?_)
    exact ((mem_trails hP hT).1 (hseen.subset hu)).1.assignedNodes_assemble hP hT
  rw [Search.reach, hdepths]
  refine getD_max?_eq ?_ ?_
  · intro n hn
    obtain ⟨u, hu, rfl⟩ := List.mem_map.1 hn
    exact ht.length_le (List.mem_cons_of_mem _ hu)
  · rcases List.mem_cons.1 ht.mem with rfl | hmem
    · exact .inr rfl
    · exact .inl (List.mem_map_of_mem hmem)

end Visits

end Problem

end PortMatch
