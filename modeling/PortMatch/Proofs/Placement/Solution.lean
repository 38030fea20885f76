import Mathlib
import PortMatch.Search.Solution
import PortMatch.Proofs.Placement.Basic

/-!
# Reading solutions

A solution is read off an assignment id by id, and an id without an image is left out.  When the
assignment places the whole pattern, nothing is left out, and the solution describes the same
placement.

* `pairs`, `lookup_pairs_eq_some_iff` — the ids of a list with their images, and how to look one
  up;
* `Problem.Solves.map_fst_nodes`, `Problem.Solves.map_fst_ports` — no id is left out;
* `Problem.Solves.placement_ofAssignment` — the placement is that of the assignment.
-/

namespace PortMatch

section Pairs

variable {α β : Type}

/-- The ids of a list that have an image, each with its image. -/
def pairs (ids : List α) (image? : α → Option β) : List (α × β) :=
  ids.filterMap fun a => (image? a).map fun c => (a, c)

theorem mem_pairs {ids : List α} {image? : α → Option β} {a : α} {c : β} :
    (a, c) ∈ pairs ids image? ↔ a ∈ ids ∧ image? a = some c := by
  simp only [pairs, List.mem_filterMap, Option.map_eq_some_iff, Prod.mk.injEq]
  refine ⟨?_, ?_⟩
  · rintro ⟨a, ha, c, hc, rfl, rfl⟩
    exact ⟨ha, hc⟩
  · rintro ⟨ha, hc⟩
    exact ⟨a, ha, c, hc, rfl, rfl⟩

theorem nodup_pairs {ids : List α} (h : ids.Nodup) (image? : α → Option β) :
    (pairs ids image?).Nodup := by
  refine h.filterMap fun a b pair ha hb => ?_
  obtain ⟨c, -, rfl⟩ := Option.map_eq_some_iff.1 ha
  obtain ⟨d, -, hpair⟩ := Option.map_eq_some_iff.1 hb
  exact (congrArg Prod.fst hpair).symm

theorem map_fst_pairs {ids : List α} {image? : α → Option β} (h : ∀ a ∈ ids, (image? a).isSome) :
    (pairs ids image?).map Prod.fst = ids := by
  rw [pairs, List.map_filterMap]
  conv_rhs => rw [← List.filterMap_some (l := ids)]
  apply List.filterMap_congr
  intro a ha
  obtain ⟨c, hc⟩ := Option.isSome_iff_exists.1 (h a ha)
  rw [hc]
  rfl

variable [DecidableEq α]

theorem lookup_pairs (ids : List α) (image? : α → Option β) (a : α) :
    (pairs ids image?).lookup a = if a ∈ ids then image? a else none := by
  induction ids with
  | nil => rfl
  | cons b rest ih =>
    cases hb : image? b with
    | none =>
      rw [pairs, List.filterMap_cons_none (by simp [hb]), ← pairs, ih]
      by_cases ha : a = b
      · simp [ha, hb]
      · simp [ha]
    | some c =>
      rw [pairs, List.filterMap_cons_some (by rw [hb]; rfl), ← pairs, List.lookup_cons, ih]
      by_cases ha : a = b
      · simp [ha, hb]
      · simp [ha, beq_false_of_ne ha]

/-- Looking an id up finds the pair that lists it. -/
theorem lookup_pairs_eq_some_iff {ids : List α} {image? : α → Option β} {a : α} {c : β} :
    (pairs ids image?).lookup a = some c ↔ (a, c) ∈ pairs ids image? := by
  rw [lookup_pairs, mem_pairs]
  by_cases ha : a ∈ ids
  · simp [ha]
  · simp [ha]

end Pairs

namespace Problem

variable {P : Problem} {s : Assignment}

theorem Solves.map_fst_nodes (h : P.Solves s.placement) (rounds : Nat) :
    (Solution.ofAssignment P.pattern s rounds).nodes.map Prod.fst = P.pattern.nodeIds :=
  map_fst_pairs fun a ha => (h.node_isSome a).2 ha

theorem Solves.map_fst_ports (h : P.Solves s.placement) (hP : P.pattern.WellFormed)
    (rounds : Nat) :
    (Solution.ofAssignment P.pattern s rounds).ports.map Prod.fst = P.pattern.portIds := by
  refine map_fst_pairs fun p hp => (h.port_isSome p).2 ?_
  obtain ⟨a, ha⟩ := Option.isSome_iff_exists.1 (Graph.owner?_isSome.2 (Graph.mem_portIds.1 hp))
  exact ⟨a, Graph.mem_nodeIds.2 (hP.owner_lt ha), ha⟩

/-- The solution that is read off an assignment of the whole pattern describes its placement. -/
theorem Solves.placement_ofAssignment (h : P.Solves s.placement) (rounds : Nat) :
    (Solution.ofAssignment P.pattern s rounds).placement = s.placement := by
  apply Placement.ext
  · funext a
    refine (lookup_pairs P.pattern.nodeIds s.node? a).trans ?_
    by_cases ha : a ∈ P.pattern.nodeIds
    · exact if_pos ha
    · have hnone := mt (h.node_isSome a).1 ha
      rw [Option.not_isSome_iff_eq_none] at hnone
      rw [if_neg ha, hnone]
  · funext p
    refine (lookup_pairs P.pattern.portIds s.port? p).trans ?_
    by_cases hp : p ∈ P.pattern.portIds
    · exact if_pos hp
    · have hnone : ¬ (s.placement.port p).isSome := by
        rw [h.port_isSome]
        rintro ⟨a, -, ha⟩
        exact hp (Graph.mem_portIds_of_owner ha)
      rw [Option.not_isSome_iff_eq_none] at hnone
      rw [if_neg hp, hnone]

end Problem

end PortMatch
