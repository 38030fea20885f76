import Mathlib
import PortMatch.Proofs.Trail.OfPlacement
import PortMatch.Proofs.Trail.Preorder

/-!
# The placements of all trails

Trails and valid placements of the first nodes in the search order correspond to each other, code by
code.  So the trails in preorder list these placements, each once and in the order of the codes.

* `Problem.places_take_iff` — the placements of the first nodes are those of the trails that deep;
* `Problem.solves_iff` — the solutions are the placements of the complete trails;
* `Problem.placements` — the placements of all trails, in preorder;
* `Problem.mem_placements`, `Problem.pairwise_placements` — these are the valid placements of the
  first nodes in the search order, and their codes ascend.
-/

namespace PortMatch

namespace Problem

variable {P : Problem}

/-! ## Trails along the search order -/

/-- The trails along the search order, the empty one included. -/
theorem mem_cons_trails (hP : P.pattern.WellFormed) (hT : P.target.WellFormed) {t : Trail} :
    t ∈ [] :: P.trails ↔ P.Legal t ∧ t.nodes <+: P.searchOrder := by
  rw [List.mem_cons, mem_trails hP hT]
  refine ⟨?_, ?_⟩
  · rintro (rfl | ⟨hlegal, -, hnodes⟩)
    · exact ⟨trivial, List.nil_prefix⟩
    · exact ⟨hlegal, hnodes⟩
  · rintro ⟨hlegal, hnodes⟩
    by_cases hnil : t = []
    · exact .inl hnil
    · exact .inr ⟨hlegal, hnil, hnodes⟩

theorem pairwise_cons_trails (hP : P.pattern.WellFormed) (hT : P.target.WellFormed) :
    ([] :: P.trails).Pairwise fun t u : Trail => t.code < u.code := by
  refine List.pairwise_cons.2 ⟨?_, pairwise_trails hP hT⟩
  intro u hu
  obtain ⟨rest, hne, hcode⟩ := code_of_mem_trailsFrom hu
  rw [hcode]
  exact lt_append_of_ne_nil _ hne

theorem code_of_mem_cons_trails (hP : P.pattern.WellFormed) (hT : P.target.WellFormed) {t : Trail}
    (ht : t ∈ [] :: P.trails) : P.code (P.assemble t).placement = t.code := by
  obtain ⟨hlegal, hnodes⟩ := (mem_cons_trails hP hT).1 ht
  exact code_placement hlegal hP hT hnodes

theorem length_searchOrder (P : Problem) : P.searchOrder.length = P.agenda.length :=
  List.length_map _

theorem take_searchOrder_subset (P : Problem) (k : ℕ) :
    P.searchOrder.take k ⊆ P.pattern.nodeIds :=
  fun _ ha => mem_searchOrder.1 (List.mem_of_mem_take ha)

/-! ## Placements and trails -/

/-- The valid placements of the first `k` nodes in the search order are those of the trails with `k`
pins. -/
theorem places_take_iff (hP : P.pattern.WellFormed) (hT : P.target.WellFormed) {k : ℕ}
    (hk : k ≤ P.searchOrder.length) {pl : Placement} :
    P.Places (P.searchOrder.take k) pl ↔
      ∃ t ∈ [] :: P.trails, t.length = k ∧ (P.assemble t).placement = pl := by
  simp only [mem_cons_trails hP hT]
  refine ⟨?_, ?_⟩
  · intro h
    have hsub := P.take_searchOrder_subset k
    have hnodup : (P.searchOrder.take k).Nodup :=
      P.nodup_searchOrder.sublist (List.take_sublist k _)
    have hnodes := nodes_trailOf (P := P) pl (P.searchOrder.take k)
    refine ⟨P.trailOf pl (P.searchOrder.take k), ⟨?_, ?_⟩, ?_, ?_⟩
    · exact h.legal_trailOf hP hT hsub (List.Subset.refl _) hnodup
    · rw [hnodes]
      exact List.take_prefix k _
    · rw [← Trail.length_nodes, hnodes, List.length_take, Nat.min_eq_left hk]
    · exact h.placement_trailOf hP hT hsub hnodup
  · rintro ⟨t, ⟨hlegal, hnodes⟩, rfl, rfl⟩
    rw [← Trail.length_nodes, ← List.prefix_iff_eq_take.1 hnodes]
    exact hlegal.places hP hT

/-- Which nodes are placed matters, not how they are listed. -/
theorem Places.of_mem_iff {ns ns' : List NodeId} {pl : Placement} (h : P.Places ns pl)
    (hiff : ∀ a, a ∈ ns ↔ a ∈ ns') : P.Places ns' pl :=
  { h with
    node_isSome := fun a => (h.node_isSome a).trans (hiff a)
    port_isSome := fun p => by simpa only [hiff] using h.port_isSome p }

theorem solves_iff_places {pl : Placement} : P.Solves pl ↔ P.Places P.searchOrder pl := by
  refine ⟨?_, ?_⟩
  · exact fun h => h.of_mem_iff fun _ => mem_searchOrder.symm
  · exact fun h => h.of_mem_iff fun _ => mem_searchOrder

/-- The solutions are the placements of the complete trails. -/
theorem solves_iff (hP : P.pattern.WellFormed) (hT : P.target.WellFormed) {pl : Placement} :
    P.Solves pl ↔
      ∃ t ∈ [] :: P.trails, t.length = P.agenda.length ∧ (P.assemble t).placement = pl := by
  rw [← length_searchOrder, ← places_take_iff hP hT (Nat.le_refl _), List.take_length]
  exact solves_iff_places

/-! ## The list of placements -/

/-- The placements of all trails, in preorder. -/
def placements (P : Problem) : List Placement := P.trails.map fun t => (P.assemble t).placement

/-- They are the valid placements of the first nodes in the search order. -/
theorem mem_placements (hP : P.pattern.WellFormed) (hT : P.target.WellFormed) {pl : Placement} :
    pl ∈ P.placements ↔ pl ∈ P.prefixPlacements := by
  rw [placements, List.mem_map]
  refine ⟨?_, ?_⟩
  · rintro ⟨t, ht, rfl⟩
    obtain ⟨-, hne, hnodes⟩ := (mem_trails hP hT).1 ht
    have hk : t.length ≤ P.searchOrder.length := Trail.length_nodes t ▸ hnodes.length_le
    exact ⟨t.length, List.length_pos_of_ne_nil hne, hk,
      (places_take_iff hP hT hk).2 ⟨t, List.mem_cons_of_mem _ ht, rfl, rfl⟩⟩
  · rintro ⟨k, hpos, hk, h⟩
    obtain ⟨t, ht, rfl, rfl⟩ := (places_take_iff hP hT hk).1 h
    rcases List.mem_cons.1 ht with rfl | ht
    · exact absurd hpos (Nat.lt_irrefl 0)
    · exact ⟨t, ht, rfl⟩

/-- Their codes ascend. -/
theorem pairwise_placements (hP : P.pattern.WellFormed) (hT : P.target.WellFormed) :
    P.placements.Pairwise fun x y => P.code x < P.code y := by
  refine List.pairwise_map.2 ((pairwise_trails hP hT).imp_of_mem ?_)
  intro t u ht hu hlt
  rwa [code_of_mem_cons_trails hP hT (List.mem_cons_of_mem _ ht),
    code_of_mem_cons_trails hP hT (List.mem_cons_of_mem _ hu)]

end Problem

end PortMatch
