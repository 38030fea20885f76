import Mathlib
import PortMatch.Proofs.Assignment.Reads

/-!
# What an assignment lists

An assignment is a pair of tables, and a table shows its entries in ascending order of the ids.  If
it lists just the ids of a pattern, it can be read off their images, and so can everything that is
computed from its entries: how many ids are mapped, and what a snapshot shows.

* `Images.toList_eq`, `Images.assigned_eq` — the entries of a table, and how many are mapped;
* `Assignment.Lists` — an assignment lists the nodes and ports of a pattern, and nothing else;
* `Assignment.lists_unassigned`, `Assignment.Lists.place` — it does so at the beginning, and still
  does after a node of the pattern has been placed;
* `Assignment.bindings_eq` — the bindings that a snapshot shows.
-/

namespace PortMatch

namespace Images

variable {ι : Type} [Ord ι] [Std.TransOrd ι] [Std.LawfulEqOrd ι]

theorem eq_of_ascending {ids ids' : List ι} (h : ids.Pairwise fun a b => compare a b = .lt)
    (h' : ids'.Pairwise fun a b => compare a b = .lt) (hmem : ∀ a, a ∈ ids ↔ a ∈ ids') :
    ids = ids' := by
  have hnodup : ∀ {l : List ι}, (l.Pairwise fun a b => compare a b = .lt) → l.Nodup := by
    intro l hl
    refine hl.imp ?_
    rintro a b hlt rfl
    simp at hlt
  refine List.Perm.eq_of_pairwise ?_ h h'
    ((List.perm_ext_iff_of_nodup (hnodup h) (hnodup h')).2 hmem)
  intro a b _ _ hab hba
  exact absurd hba (Std.OrientedCmp.not_lt_of_lt hab)

/-- A table that lists the given ids shows them in ascending order, each with its image. -/
theorem toList_eq {m : Images ι} {ids : List ι} (hascend : ids.Pairwise fun a b => compare a b = .lt)
    (hlisted : ∀ a, m[a]?.isSome ↔ a ∈ ids) : m.toList = ids.map fun a => (a, m.image? a) := by
  have hkeys : m.toList.map Prod.fst = ids := by
    refine eq_of_ascending (List.pairwise_map.2 m.ordered_keys_toList) hascend fun a => ?_
    rw [Std.ExtTreeMap.map_fst_toList_eq_keys, Std.ExtTreeMap.mem_keys, ← hlisted,
      Std.ExtTreeMap.mem_iff_isSome_getElem?]
  rw [← hkeys, List.map_map]
  conv_lhs => rw [← List.map_id m.toList]
  apply List.map_congr_left
  rintro ⟨a, c⟩ hmem
  have hentry := Std.ExtTreeMap.mem_toList_iff_getElem?_eq_some.1 hmem
  simp [image?, hentry]

theorem assigned_eq {m : Images ι} {ids : List ι}
    (hascend : ids.Pairwise fun a b => compare a b = .lt)
    (hlisted : ∀ a, m[a]?.isSome ↔ a ∈ ids) :
    m.assigned = ids.countP fun a => (m.image? a).isSome := by
  rw [assigned, toList_eq hascend hlisted, List.countP_map]
  rfl

end Images

namespace Graph

theorem ascending_nodeIds (g : Graph) : g.nodeIds.Pairwise fun a b => compare a b = .lt :=
  List.pairwise_map.2 (List.pairwise_lt_range.imp Nat.compare_eq_lt.2)

theorem ascending_portIds (g : Graph) : g.portIds.Pairwise fun p q => compare p q = .lt :=
  List.pairwise_map.2 (List.pairwise_lt_range.imp Nat.compare_eq_lt.2)

end Graph

namespace Assignment

variable {s : Assignment} {pattern : Graph}

/-- The assignment lists the nodes and the ports of the pattern, and nothing else. -/
structure Lists (s : Assignment) (pattern : Graph) : Prop where
  /-- The nodes of the pattern are listed. -/
  nodes : ∀ a, s.nodes[a]?.isSome ↔ a ∈ pattern.nodeIds
  /-- The ports of the pattern are listed. -/
  ports : ∀ p, s.ports[p]?.isSome ↔ p ∈ pattern.portIds

theorem lists_unassigned (pattern : Graph) : (unassigned pattern).Lists pattern where
  nodes a := by simp [unassigned, Images.getElem?_unassigned]
  ports p := by simp [unassigned, Images.getElem?_unassigned]

theorem isSome_foldl_assign {choices : List Choice} {ids : List PortId} {m : Images PortId}
    (hm : ∀ p, m[p]?.isSome ↔ p ∈ ids) (hports : ∀ ch ∈ choices, ch.port ∈ ids) (p : PortId) :
    (choices.foldl (fun m ch => m.assign ch.port ch.image) m)[p]?.isSome ↔ p ∈ ids := by
  induction choices generalizing m with
  | nil => exact hm p
  | cons ch rest ih =>
    refine ih (fun q => ?_) fun d hd => hports d (List.mem_cons_of_mem _ hd)
    rw [Images.getElem?_assign]
    split
    · next hq => simpa [← hq] using hports ch List.mem_cons_self
    · exact hm q

/-- Placing a node of the pattern with its ports lists nothing new. -/
theorem Lists.place (h : s.Lists pattern) {n : NodeId} {pin : Pin} (hn : n ∈ pattern.nodeIds)
    (hports : ∀ ch ∈ pin.choices, ch.port ∈ pattern.portIds) :
    (s.place n pin).Lists pattern where
  nodes a := by
    rw [nodes_place, Images.getElem?_assign]
    split
    · next ha => simpa [← ha] using hn
    · exact h.nodes a
  ports p := by
    rw [ports_place]
    exact isSome_foldl_assign h.ports hports p

theorem Lists.assignedNodes_eq (h : s.Lists pattern) :
    s.assignedNodes = pattern.nodeIds.countP fun a => (s.node? a).isSome :=
  Images.assigned_eq pattern.ascending_nodeIds h.nodes

theorem Lists.assignedPorts_eq (h : s.Lists pattern) :
    s.assignedPorts = pattern.portIds.countP fun p => (s.port? p).isSome :=
  Images.assigned_eq pattern.ascending_portIds h.ports

/-- A table whose ids and images all have descriptions shows one binding for each id. -/
theorem bindings_eq {ι : Type} [Ord ι] [Std.TransOrd ι] [Std.LawfulEqOrd ι] {m : Images ι}
    {ids : List ι} (hascend : ids.Pairwise fun a b => compare a b = .lt)
    (hlisted : ∀ a, m[a]?.isSome ↔ a ∈ ids) {label imageLabel : ι → Option String}
    {desc imageDesc : ι → String} (hdesc : ∀ a ∈ ids, label a = some (desc a))
    (himage : ∀ a c, m.image? a = some c → imageLabel c = some (imageDesc c)) :
    bindings m label imageLabel = ids.map fun a => ⟨desc a, (m.image? a).map imageDesc⟩ := by
  rw [bindings, Images.toList_eq hascend hlisted, List.filterMap_map, ← List.filterMap_eq_map]
  apply List.filterMap_congr
  intro a ha
  have hbind : (m.image? a).bind imageLabel = (m.image? a).map imageDesc := by
    cases hc : m.image? a with
    | none => rfl
    | some c => exact himage a c hc
  simp [hdesc a ha, hbind]

end Assignment

end PortMatch
