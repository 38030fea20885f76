import Mathlib
import PortMatch.Proofs.Assignment.Listing
import PortMatch.Proofs.Placement.Basic

/-!
# Placements by descriptions

A snapshot shows a placement to a reader who does not know the ids: every node and every port of the
pattern in its turn, by its description, and with it the description of its place.  The place in the
list still tells which node or port is meant, so two nodes of one description are kept apart.

* `Problem.labels` — the snapshot that shows a placement;
* `Problem.Places.snapshot_eq_labels` — a valid placement that an assignment describes is shown so;
* `Problem.map_label_nodes`, `Problem.map_label_ports` — nothing of the pattern is left out;
* `Snapshot.showsNode`, `Snapshot.showsPort` — what a snapshot shows as assigned.
-/

namespace PortMatch

namespace Snapshot

/-- Is the node shown as assigned? -/
def showsNode (s : Snapshot) (a : NodeId) : Bool := s.nodes[a.index]?.any fun b => b.image.isSome

/-- Is the port shown as assigned? -/
def showsPort (s : Snapshot) (p : PortId) : Bool := s.ports[p.index]?.any fun b => b.image.isSome

end Snapshot

namespace Graph

variable {g : Graph}

theorem node?_of_mem {a : NodeId} (h : a ∈ g.nodeIds) :
    (g.node? a).map Node.desc = some (g.nodeDesc a) := by
  have hlt : a.index < g.nodes.size := mem_nodeIds.1 h
  simp [nodeDesc, node?, hlt]

theorem port?_of_mem {p : PortId} (h : p ∈ g.portIds) :
    (g.port? p).map Port.desc = some (g.portDesc p) := by
  have hlt : p.index < g.ports.size := mem_portIds.1 h
  simp [portDesc, port?, hlt]

theorem map_nodeDesc (g : Graph) : g.nodeIds.map g.nodeDesc = g.nodes.toList.map Node.desc := by
  apply List.ext_getElem
  · simp [nodeIds, nodeCount]
  · intro i hi hi'
    have hlt : i < g.nodes.size := by simpa using hi'
    simp [nodeIds, nodeDesc, node?, hlt]

theorem map_portDesc (g : Graph) : g.portIds.map g.portDesc = g.ports.toList.map Port.desc := by
  apply List.ext_getElem
  · simp [portIds, portCount]
  · intro i hi hi'
    have hlt : i < g.ports.size := by simpa using hi'
    simp [portIds, portDesc, port?, hlt]

end Graph

namespace Problem

variable {P : Problem} {pl : Placement} {ns : List NodeId}

/-- The snapshot that shows a placement. -/
def labels (P : Problem) (pl : Placement) : Snapshot where
  nodes := P.pattern.nodeIds.map fun a =>
    ⟨P.pattern.nodeDesc a, (pl.node a).map P.target.nodeDesc⟩
  ports := P.pattern.portIds.map fun p =>
    ⟨P.pattern.portDesc p, (pl.port p).map P.target.portDesc⟩

theorem Places.port_mem (h : P.Places ns pl) {p q : PortId} (hq : pl.port p = some q) :
    q ∈ P.target.portIds := by
  obtain ⟨a, -, ha⟩ := (h.port_isSome p).1 (by rw [hq]; rfl)
  obtain ⟨c, -, hc⟩ := h.owner hq ha
  exact Graph.mem_portIds_of_owner hc

/-- The snapshot of an assignment shows the placement that the assignment describes, if that is a
valid one. -/
theorem Places.snapshot_eq_labels {s : Assignment} (h : P.Places ns s.placement)
    (hlists : s.Lists P.pattern) : s.snapshot P.pattern P.target = P.labels s.placement := by
  have hnodes := Assignment.bindings_eq P.pattern.ascending_nodeIds hlists.nodes
    (fun a ha => Graph.node?_of_mem ha) fun a c hc => Graph.node?_of_mem (h.node_mem hc)
  have hports := Assignment.bindings_eq P.pattern.ascending_portIds hlists.ports
    (fun p hp => Graph.port?_of_mem hp) fun p q hq => Graph.port?_of_mem (h.port_mem hq)
  rw [Assignment.snapshot, hnodes, hports]
  rfl

/-! ## What is shown -/

theorem map_label_nodes (P : Problem) (pl : Placement) :
    (P.labels pl).nodes.map Binding.label = P.pattern.nodes.toList.map Node.desc := by
  rw [← Graph.map_nodeDesc, labels, List.map_map]
  rfl

theorem map_label_ports (P : Problem) (pl : Placement) :
    (P.labels pl).ports.map Binding.label = P.pattern.ports.toList.map Port.desc := by
  rw [← Graph.map_portDesc, labels, List.map_map]
  rfl

/-- A node is shown as assigned when it is placed. -/
theorem Places.showsNode_iff (h : P.Places ns pl) (hns : ns ⊆ P.pattern.nodeIds) {a : NodeId} :
    (P.labels pl).showsNode a = true ↔ a ∈ ns := by
  have hlt : a ∈ ns → a.index < P.pattern.nodeCount := fun ha => Graph.mem_nodeIds.1 (hns ha)
  by_cases ha : a.index < P.pattern.nodeCount
  · simp [Snapshot.showsNode, labels, Graph.nodeIds, ha, ← h.node_isSome]
  · simpa [Snapshot.showsNode, labels, Graph.nodeIds, ha] using mt hlt ha

/-- A port is shown as assigned when its node is. -/
theorem Places.showsPort_iff (h : P.Places ns pl) {p : PortId} :
    (P.labels pl).showsPort p = true ↔ ∃ a ∈ ns, P.pattern.owner? p = some a := by
  by_cases hp : p.index < P.pattern.portCount
  · simp [Snapshot.showsPort, labels, Graph.portIds, hp, ← h.port_isSome]
  · have hnone : P.pattern.owner? p = none := by
      rw [← Option.not_isSome_iff_eq_none, Graph.owner?_isSome]
      exact hp
    simp [Snapshot.showsPort, labels, Graph.portIds, hp, hnone]

end Problem

end PortMatch
