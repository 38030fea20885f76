import PortMatch.Proofs.Assignment.Listing

/-!
# The same graph under other names

Two graphs can have the same nodes, ports and links, all under the same ids, and still look
different: nothing ties down how their things are described, how their kinds are called, and in
which order their links were made.

* `Graph.Renamed` — the graphs have the same nodes, ports and links, and kinds correspond;
* `Graph.Alike` — the graphs have the same descriptions and kinds as well;
* `Graph.Renamed.portsOf`, `Graph.Renamed.mem_neighbors` — then nodes list the same ports, and
  ports have the same neighbors.
-/

namespace PortMatch

namespace Graph

variable {g g' : Graph} {rename : PortKind → PortKind}

/-- The graph `g'` has the nodes, ports and links of the graph `g`, and the kinds of its ports are
those in `g`, renamed. -/
structure Renamed (rename : PortKind → PortKind) (g g' : Graph) : Prop where
  /-- There are as many nodes. -/
  nodeCount : g'.nodeCount = g.nodeCount
  /-- Ports belong to the same nodes, and their kinds are renamed. -/
  ports : (g'.ports.map fun p => (p.node, p.kind)) = g.ports.map fun p => (p.node, rename p.kind)
  /-- The same ports are linked. -/
  connected : ∀ p q, g'.connected p q = g.connected p q

/-- The graphs have the same descriptions, nodes, ports and links.  Their links may have been made
in different orders. -/
structure Alike (g g' : Graph) : Prop where
  /-- The graphs are described in the same way. -/
  desc : g'.desc = g.desc
  /-- They have as many nodes, with the same descriptions. -/
  nodes : g'.nodes.map Node.desc = g.nodes.map Node.desc
  /-- They have the same ports, with the same descriptions, nodes and kinds. -/
  ports : g'.ports = g.ports
  /-- The same ports are linked. -/
  connected : ∀ p q, g'.connected p q = g.connected p q

theorem Renamed.port? (h : g.Renamed rename g') (p : PortId) :
    ((g'.port? p).map fun port => (port.node, port.kind))
      = (g.port? p).map fun port => (port.node, rename port.kind) := by
  have hport := congrArg (·[p.index]?) h.ports
  simp only [Array.getElem?_map] at hport
  exact hport

theorem Renamed.owner? (h : g.Renamed rename g') (p : PortId) : g'.owner? p = g.owner? p := by
  have howner := congrArg (Option.map Prod.fst) (h.port? p)
  rw [Option.map_map, Option.map_map] at howner
  rw [Graph.owner?, Graph.owner?]
  exact howner

theorem Renamed.kind? (h : g.Renamed rename g') (p : PortId) :
    g'.kind? p = (g.kind? p).map rename := by
  have hkind := congrArg (Option.map Prod.snd) (h.port? p)
  rw [Option.map_map, Option.map_map] at hkind
  rw [Graph.kind?, Graph.kind?, Option.map_map]
  exact hkind

/-! ## The same ids -/

theorem Renamed.nodeIds (h : g.Renamed rename g') : g'.nodeIds = g.nodeIds := by
  rw [Graph.nodeIds, Graph.nodeIds, h.nodeCount]

theorem Renamed.mem_portIds (h : g.Renamed rename g') {p : PortId} :
    p ∈ g'.portIds ↔ p ∈ g.portIds := by
  rw [Graph.mem_portIds, Graph.mem_portIds, ← owner?_isSome, ← owner?_isSome, h.owner?]

theorem Renamed.portIds (h : g.Renamed rename g') : g'.portIds = g.portIds :=
  Images.eq_of_ascending g'.ascending_portIds g.ascending_portIds fun _ => h.mem_portIds

/-! ## The same lists -/

theorem WellFormed.ascending_portsOf (hg : g.WellFormed) (n : NodeId) :
    (g.portsOf n).toList.Pairwise fun p q => compare p q = .lt :=
  (hg.ascending n).imp Nat.compare_eq_lt.2

/-- A node lists the same ports in the same order, since it lists all its ports by their ids. -/
theorem Renamed.portsOf (h : g.Renamed rename g') (hg : g.WellFormed) (hg' : g'.WellFormed)
    (n : NodeId) : g'.portsOf n = g.portsOf n := by
  apply Array.toList_inj.1
  refine Images.eq_of_ascending (hg'.ascending_portsOf n) (hg.ascending_portsOf n) fun p => ?_
  rw [Array.mem_toList_iff, Array.mem_toList_iff, hg'.mem_portsOf, hg.mem_portsOf, h.owner?]

/-- A port has the same neighbors, if perhaps in another order. -/
theorem Renamed.mem_neighbors (h : g.Renamed rename g') (hg : g.WellFormed) (hg' : g'.WellFormed)
    {p q : PortId} : q ∈ g'.neighbors p ↔ q ∈ g.neighbors p := by
  rw [hg'.mem_neighbors, hg.mem_neighbors, h.connected]

theorem Renamed.kindsOf (h : g.Renamed rename g') (hg : g.WellFormed) (hg' : g'.WellFormed)
    (n : NodeId) : g'.kindsOf n = (g.kindsOf n).map rename := by
  rw [Graph.kindsOf, Graph.kindsOf, h.portsOf hg hg', List.map_filterMap]
  exact List.filterMap_congr fun p _ => h.kind? p

/-! ## The same descriptions -/

theorem Alike.node? (h : g.Alike g') (n : NodeId) :
    (g'.node? n).map Node.desc = (g.node? n).map Node.desc := by
  have hnode := congrArg (·[n.index]?) h.nodes
  simp only [Array.getElem?_map] at hnode
  exact hnode

theorem Alike.port? (h : g.Alike g') (p : PortId) : g'.port? p = g.port? p := by
  rw [Graph.port?, Graph.port?, h.ports]

theorem Alike.nodeDesc (h : g.Alike g') (n : NodeId) : g'.nodeDesc n = g.nodeDesc n := by
  have hdesc : ∀ g : Graph, g.nodeDesc n = ((g.node? n).map Node.desc).getD "" := by
    intro g
    cases hn : g.node? n <;> simp [Graph.nodeDesc, hn]
  rw [hdesc, hdesc, h.node?]

theorem Alike.portDesc (h : g.Alike g') (p : PortId) : g'.portDesc p = g.portDesc p := by
  rw [Graph.portDesc, Graph.portDesc, h.port?]

/-- Graphs that are alike differ in no name. -/
theorem Alike.renamed (h : g.Alike g') : g.Renamed id g' where
  nodeCount := by
    have hsize := congrArg Array.size h.nodes
    rw [Array.size_map, Array.size_map] at hsize
    exact hsize
  ports := by rw [h.ports]; rfl
  connected := h.connected

end Graph

end PortMatch
