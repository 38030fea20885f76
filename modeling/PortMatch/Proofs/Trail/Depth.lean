import Mathlib
import PortMatch.Proofs.Placement.Labels
import PortMatch.Proofs.Trail.Placements

/-!
# The depth of a trail

A search compares assignments by the numbers of nodes and ports that they map.  Along the search
order these numbers depend on nothing but the depth of a trail, which is its length.  So of the
assignments that a search comes to, the best one is that of the first trail among the deepest.

* `Trail.FirstDeepest` — the first trail among the deepest of a list;
* `Trail.deeper`, `Trail.firstDeepest_foldl` — how to find it, one trail after the other;
* `Problem.Legal.lists`, `Problem.Legal.snapshot_assemble` — the assignment of a legal trail lists
  the pattern, and a snapshot shows its placement;
* `Problem.exceeds_assemble` — comparing assignments is comparing depths.
-/

namespace PortMatch

namespace Trail

/-! ## The first of the deepest -/

/-- The trail `t` is the first among the deepest of the given trails: those before it are less deep,
and those after it are no deeper. -/
def FirstDeepest (ts : List Trail) (t : Trail) : Prop :=
  ∃ before after, ts = before ++ t :: after ∧ (∀ u ∈ before, u.length < t.length) ∧
    ∀ u ∈ after, u.length ≤ t.length

/-- The deeper one of two trails, and the first one if they are equally deep. -/
def deeper (t u : Trail) : Trail := if t.length < u.length then u else t

namespace FirstDeepest

variable {ts : List Trail} {t u : Trail}

theorem mem (h : FirstDeepest ts t) : t ∈ ts := by
  obtain ⟨before, after, rfl, -, -⟩ := h
  simp

theorem length_le (h : FirstDeepest ts t) (hu : u ∈ ts) : u.length ≤ t.length := by
  obtain ⟨before, after, rfl, hbefore, hafter⟩ := h
  rcases List.mem_append.1 hu with hu | hu
  · exact Nat.le_of_lt (hbefore u hu)
  · rcases List.mem_cons.1 hu with rfl | hu
    · exact Nat.le_refl _
    · exact hafter u hu

theorem cons_of_lt (h : FirstDeepest ts t) (hlt : u.length < t.length) :
    FirstDeepest (u :: ts) t := by
  obtain ⟨before, after, rfl, hbefore, hafter⟩ := h
  exact ⟨u :: before, after, rfl, by simpa using ⟨hlt, hbefore⟩, hafter⟩

theorem insert_of_le {b : Trail} (h : FirstDeepest (b :: ts) t) (hle : u.length ≤ b.length) :
    FirstDeepest (b :: u :: ts) t := by
  obtain ⟨before, after, hsplit, hbefore, hafter⟩ := h
  cases before with
  | nil =>
    obtain ⟨rfl, rfl⟩ := List.cons.inj hsplit
    exact ⟨[], u :: ts, rfl, by simp, by simpa using ⟨hle, hafter⟩⟩
  | cons c before =>
    obtain ⟨rfl, rfl⟩ := List.cons.inj hsplit
    rw [List.forall_mem_cons] at hbefore
    refine ⟨b :: u :: before, after, rfl, ?_, hafter⟩
    simpa using ⟨hbefore.1, Nat.lt_of_le_of_lt hle hbefore.1, hbefore.2⟩

end FirstDeepest

theorem firstDeepest_foldl (t : Trail) (us : List Trail) :
    FirstDeepest (t :: us) (us.foldl deeper t) := by
  induction us generalizing t with
  | nil => exact ⟨[], [], rfl, by simp, by simp⟩
  | cons u us ih =>
    rw [List.foldl_cons, deeper]
    split
    · next hlt => exact (ih u).cons_of_lt (Nat.lt_of_lt_of_le hlt ((ih u).length_le (by simp)))
    · next hle => exact (ih t).insert_of_le (Nat.le_of_not_lt hle)

end Trail

namespace Problem

variable {P : Problem} {t u : Trail}

/-! ## What the assignment of a trail lists -/

theorem Legal.lists (h : P.Legal t) (hP : P.pattern.WellFormed) :
    (P.assemble t).Lists P.pattern := by
  induction t with
  | nil => exact Assignment.lists_unassigned _
  | cons e t ih =>
    obtain ⟨ht, he⟩ := h
    refine (ih ht).place he.node_mem fun ch hch => ?_
    exact hP.mem_portIds (he.ports.mem_port.2 ⟨ch, hch, rfl⟩)

/-- A snapshot of the assignment of a legal trail shows its placement. -/
theorem Legal.snapshot_assemble (h : P.Legal t) (hP : P.pattern.WellFormed)
    (hT : P.target.WellFormed) :
    (P.assemble t).snapshot P.pattern P.target = P.labels (P.assemble t).placement :=
  (h.places hP hT).snapshot_eq_labels (h.lists hP)

/-! ## Scores -/

theorem Legal.nodes_subset (h : P.Legal t) : t.nodes ⊆ P.pattern.nodeIds := by
  intro a ha
  obtain ⟨e, he, rfl⟩ := Trail.mem_nodes.1 ha
  obtain ⟨before, hext⟩ := h.extends he
  exact hext.node_mem

theorem Legal.nodup_nodes (h : P.Legal t) : t.nodes.Nodup := by
  induction t with
  | nil => exact List.nodup_nil
  | cons e t ih =>
    rw [Trail.nodes_cons, List.nodup_append_comm, List.singleton_append, List.nodup_cons]
    exact ⟨h.2.node_new, ih h.1⟩

/-- The assignment of a legal trail maps as many nodes as the trail has pins. -/
theorem Legal.assignedNodes_assemble (h : P.Legal t) (hP : P.pattern.WellFormed)
    (hT : P.target.WellFormed) : (P.assemble t).assignedNodes = t.length := by
  have hmapped : ∀ a, ((P.assemble t).node? a).isSome = decide (a ∈ t.nodes) := by
    intro a
    rw [Bool.eq_iff_iff, decide_eq_true_iff]
    exact (h.places hP hT).node_isSome a
  have hperm : (P.pattern.nodeIds.filter fun a => a ∈ t.nodes).Perm t.nodes := by
    refine (List.perm_ext_iff_of_nodup (P.pattern.nodup_nodeIds.filter _) h.nodup_nodes).2 ?_
    intro a
    rw [List.mem_filter, decide_eq_true_iff]
    exact and_iff_right_of_imp fun ha => h.nodes_subset ha
  calc (P.assemble t).assignedNodes
    _ = P.pattern.nodeIds.countP fun a => ((P.assemble t).node? a).isSome :=
      (h.lists hP).assignedNodes_eq
    _ = P.pattern.nodeIds.countP fun a => a ∈ t.nodes := by simp only [hmapped]
    _ = t.nodes.length := by rw [List.countP_eq_length_filter, hperm.length_eq]
    _ = t.length := Trail.length_nodes t

/-- The number of ports that are mapped depends on the nodes only. -/
theorem Legal.assignedPorts_eq_of_nodes_eq (h : P.Legal t) (hu : P.Legal u)
    (hP : P.pattern.WellFormed) (hT : P.target.WellFormed) (hnodes : t.nodes = u.nodes) :
    (P.assemble t).assignedPorts = (P.assemble u).assignedPorts := by
  rw [(h.lists hP).assignedPorts_eq, (hu.lists hP).assignedPorts_eq]
  refine List.countP_congr fun p _ => ?_
  exact ((h.places hP hT).port_isSome p).trans (hnodes ▸ ((hu.places hP hT).port_isSome p).symm)

/-- Of the assignments of two trails along the search order, the deeper trail has the better one, and
neither is better if the trails are equally deep. -/
theorem exceeds_assemble (h : P.Legal t) (hu : P.Legal u) (hP : P.pattern.WellFormed)
    (hT : P.target.WellFormed) (hnodes : t.nodes <+: P.searchOrder)
    (hnodesu : u.nodes <+: P.searchOrder) :
    (P.assemble u).exceeds (P.assemble t) = decide (t.length < u.length) := by
  have hcmp : compareLex (compareOn Assignment.assignedNodes) (compareOn Assignment.assignedPorts)
      (P.assemble u) (P.assemble t)
      = (compare u.length t.length).then
        (compare (P.assemble u).assignedPorts (P.assemble t).assignedPorts) := by
    rw [← h.assignedNodes_assemble hP hT, ← hu.assignedNodes_assemble hP hT]
    rfl
  rw [Assignment.exceeds, hcmp]
  rcases Nat.lt_trichotomy t.length u.length with hlt | heq | hgt
  · rw [Nat.compare_eq_gt.2 hlt, decide_eq_true hlt]
    rfl
  · -- trails of one depth have the same nodes
    have hsame : t.nodes = u.nodes := by
      rw [List.prefix_iff_eq_take.1 hnodes, List.prefix_iff_eq_take.1 hnodesu, Trail.length_nodes,
        Trail.length_nodes, heq]
    rw [Nat.compare_eq_eq.2 heq.symm, h.assignedPorts_eq_of_nodes_eq hu hP hT hsame,
      Nat.compare_eq_eq.2 rfl, decide_eq_false (Nat.not_lt_of_le (Nat.le_of_eq heq.symm))]
    rfl
  · rw [Nat.compare_eq_lt.2 hgt, decide_eq_false (Nat.lt_asymm hgt)]
    rfl

end Problem

end PortMatch
