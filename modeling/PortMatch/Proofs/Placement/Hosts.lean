import Mathlib
import PortMatch.Proofs.Placement.Basic

/-!
# Hosts

The hosts of a node are found by counting its ports and theirs, kind by kind.  The numbers are
enough to tell whether the ports of the node, taken by themselves, have room on the host: a port for
each of them, of its own kind, and no port for two of them.

* `Problem.PortsFit` — the ports of a node have room on a node of the target;
* `Problem.supports_of_images`, `Problem.exists_images_of_supports` — the numbers, and ports of the
  host for the ports of the node, in a list;
* `Problem.supports_iff_portsFit` — the numbers tell whether there is room;
* `Problem.mem_hostsOf_iff_portsFit`, `Problem.pairwise_hostsOf` — the list of the hosts.
-/

namespace PortMatch

/-- A list whose labels are among those of another list, as many times each, has the same labels as
some part of the other list. -/
theorem exists_map_eq_of_subperm {α β κ : Type} {f : α → κ} {g : β → κ} {l : List α} {m : List β}
    (h : (l.map f).Subperm (m.map g)) : ∃ w : List β, w.Subperm m ∧ w.map g = l.map f := by
  obtain ⟨labels, hperm, hsub⟩ := h
  obtain ⟨part, hpart, rfl⟩ := List.sublist_map_iff.1 hsub
  have hlabels : List.Forall₂ (fun k b => k = g b) (part.map g) part :=
    List.forall₂_map_left_iff.2 (List.forall₂_same.2 fun _ _ => rfl)
  obtain ⟨w, hw, hwpart⟩ := List.perm_comp_forall₂ hperm.symm hlabels
  refine ⟨w, hwpart.subperm_right.2 hpart.subperm, ?_⟩
  exact (List.forall₂_eq_eq_eq ▸ List.forall₂_map_right_iff.2 hw : l.map f = w.map g).symm

theorem Graph.WellFormed.map_some_kindsOf {g : Graph} (hg : g.WellFormed)
    (n : NodeId) : (g.kindsOf n).map some = (g.portsOf n).toList.map g.kind? := by
  rw [Graph.kindsOf, List.map_filterMap, ← List.filterMap_eq_map]
  apply List.filterMap_congr
  intro p hp
  obtain ⟨k, hk⟩ := hg.exists_kind (Array.mem_toList_iff.1 hp)
  simp [hk]

namespace Problem

variable {P : Problem} {n c : NodeId}

/-- The ports of `n` have room on `c`: different ones on different ports, each on one of its own
kind.  Links do not matter. -/
def PortsFit (P : Problem) (n c : NodeId) : Prop :=
  ∃ f : PortId → PortId, Set.InjOn f {p | p ∈ P.pattern.portsOf n} ∧
    ∀ p ∈ P.pattern.portsOf n,
      f p ∈ P.target.portsOf c ∧ P.target.kind? (f p) = P.pattern.kind? p

/-! ## Counting -/

theorem supports_iff_subperm :
    P.supports n c = true ↔ (P.pattern.kindsOf n).Subperm (P.target.kindsOf c) := by
  rw [List.subperm_ext_iff]
  simp [supports]

/-- A node of the target supports a node of the pattern if it has a port for each of its ports, of
the same kind. -/
theorem supports_of_images (qs : List PortId) (hnodup : qs.Nodup)
    (hsub : qs ⊆ (P.target.portsOf c).toList)
    (hkinds : qs.map P.target.kind? = (P.pattern.portsOf n).toList.map P.pattern.kind?) :
    P.supports n c = true := by
  have hneeded : P.pattern.kindsOf n = qs.filterMap P.target.kind? := by
    have hsame := congrArg (List.filterMap id) hkinds
    rw [List.filterMap_map, List.filterMap_map] at hsame
    exact hsame.symm
  obtain ⟨images, hperm, hsublist⟩ := hnodup.subperm hsub
  rw [supports_iff_subperm, hneeded]
  exact ⟨images.filterMap P.target.kind?, hperm.filterMap _, hsublist.filterMap _⟩

theorem exists_images_of_supports (hP : P.pattern.WellFormed) (hT : P.target.WellFormed)
    (h : P.supports n c = true) :
    ∃ qs : List PortId, qs.Nodup ∧ qs ⊆ (P.target.portsOf c).toList ∧
      qs.map P.target.kind? = (P.pattern.portsOf n).toList.map P.pattern.kind? := by
  have hcount := (List.map_subperm_map_iff (Option.some_injective _)).2 (supports_iff_subperm.1 h)
  rw [hP.map_some_kindsOf, hT.map_some_kindsOf] at hcount
  obtain ⟨qs, hqs, hkinds⟩ := exists_map_eq_of_subperm hcount
  obtain ⟨part, hperm, hsublist⟩ := hqs
  exact ⟨qs, hperm.nodup_iff.1 ((hT.nodup_portsOf c).sublist hsublist),
    List.Subset.trans hperm.symm.subset hsublist.subset, hkinds⟩

/-! ## Room -/

/-- A node of the target supports a node of the pattern just when the ports of that node have room
on it. -/
theorem supports_iff_portsFit (hP : P.pattern.WellFormed) (hT : P.target.WellFormed) :
    P.supports n c = true ↔ P.PortsFit n c := by
  refine ⟨fun h => ?_, ?_⟩
  · obtain ⟨qs, hnodup, hsub, hkinds⟩ := exists_images_of_supports hP hT h
    -- a port goes where the list has it
    have himage : ∀ p ∈ P.pattern.portsOf n, ∃ q,
        qs[(P.pattern.portsOf n).toList.idxOf p]? = some q ∧
          P.target.kind? q = P.pattern.kind? p := by
      intro p hp
      have hsame := congrArg (·[(P.pattern.portsOf n).toList.idxOf p]?) hkinds
      simpa [List.getElem?_map, List.getElem?_idxOf (Array.mem_toList_iff.2 hp)] using hsame
    choose! f hf using himage
    refine ⟨f, ?_, fun p hp => ⟨?_, (hf p hp).2⟩⟩
    · intro p hp q hq heq
      have hsame := (hf p hp).1.trans (heq ▸ (hf q hq).1.symm)
      obtain ⟨hlt, -⟩ := List.getElem?_eq_some_iff.1 (hf p hp).1
      rw [List.getElem?_inj hlt hnodup] at hsame
      exact (List.idxOf_inj (Array.mem_toList_iff.2 hp)).1 hsame
    · exact Array.mem_toList_iff.1 (hsub (List.mem_of_getElem? (hf p hp).1))
  · rintro ⟨f, hinj, hf⟩
    refine supports_of_images ((P.pattern.portsOf n).toList.map f) ?_ ?_ ?_
    · refine (hP.nodup_portsOf n).map_on fun p hp q hq heq => ?_
      exact hinj (Array.mem_toList_iff.1 hp) (Array.mem_toList_iff.1 hq) heq
    · intro q hq
      obtain ⟨p, hp, rfl⟩ := List.mem_map.1 hq
      exact Array.mem_toList_iff.2 (hf p (Array.mem_toList_iff.1 hp)).1
    · rw [List.map_map]
      exact List.map_congr_left fun p hp => (hf p (Array.mem_toList_iff.1 hp)).2

/-! ## The list of hosts -/

theorem mem_hostsOf : c ∈ P.hostsOf n ↔ c ∈ P.target.nodeIds ∧ P.supports n c = true := by
  simp [hostsOf]

/-- The hosts of a node are the nodes of the target on which its ports have room. -/
theorem mem_hostsOf_iff_portsFit (hP : P.pattern.WellFormed) (hT : P.target.WellFormed) :
    c ∈ P.hostsOf n ↔ c ∈ P.target.nodeIds ∧ P.PortsFit n c := by
  rw [mem_hostsOf, supports_iff_portsFit hP hT]

/-- They are listed in ascending order. -/
theorem pairwise_hostsOf (P : Problem) (n : NodeId) :
    (P.hostsOf n).Pairwise fun c d => c.index < d.index := by
  have hall : P.target.nodeIds.Pairwise fun c d => c.index < d.index :=
    List.pairwise_map.2 List.pairwise_lt_range
  exact hall.filter _

end Problem

end PortMatch
