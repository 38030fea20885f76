import PortMatch.Proofs.Graph.WellFormed

/-!
# Graphs that grow

Calls add to a graph and take nothing away.  Whatever an id refers to, it goes on referring to: a
node keeps its description, and ports are added behind those that it has; a port does not change at
all; ports that are linked stay linked.

* `Graph.Extends` — a graph has all that another graph has, under the same ids;
* `Graph.Holds` — a graph has what a call was answered with;
* `Graph.extends_of_perform`, `Graph.extends_replay` — one call, and any number of them;
* `Graph.holds_of_perform`, `Graph.Holds.mono` — an answered call has done what it was to do, and
  this lasts.
-/

namespace PortMatch

namespace Graph

variable {g g' g'' : Graph}

/-- The graph `g'` has all that the graph `g` has, under the same ids. -/
structure Extends (g' g : Graph) : Prop where
  /-- A node keeps its description, and its list of ports grows at the end. -/
  node : ∀ {n node}, g.node? n = some node → ∃ node', g'.node? n = some node' ∧
    node'.desc = node.desc ∧ node.ports.toList <+: node'.ports.toList
  /-- A port stays as it is. -/
  port : ∀ {p port}, g.port? p = some port → g'.port? p = some port
  /-- Linked ports stay linked. -/
  connected : ∀ {p q}, g.connected p q = true → g'.connected p q = true

/-- The graph has what the call was answered with, as the call described it. -/
def Holds (g : Graph) : Call → Answer → Prop
  | .addNode desc, .node n => ∃ node, g.node? n = some node ∧ node.desc = desc
  | .addPort n desc kind, .port p => g.port? p = some { desc, node := n, kind } ∧ p ∈ g.portsOf n
  | .connect a b, .connected => g.connected a b = true
  | _, _ => False

/-! ## More of the same -/

theorem Extends.refl (g : Graph) : g.Extends g where
  node h := ⟨_, h, rfl, List.prefix_rfl⟩
  port h := h
  connected h := h

theorem Extends.trans (h' : g''.Extends g') (h : g'.Extends g) : g''.Extends g where
  node hn := by
    obtain ⟨node', hn', hdesc', hports'⟩ := h.node hn
    obtain ⟨node'', hn'', hdesc'', hports''⟩ := h'.node hn'
    exact ⟨node'', hn'', hdesc''.trans hdesc', hports'.trans hports''⟩
  port hp := h'.port (h.port hp)
  connected hpq := h'.connected (h.connected hpq)

theorem Extends.portsOf (h : g'.Extends g) (n : NodeId) :
    (g.portsOf n).toList <+: (g'.portsOf n).toList := by
  cases hn : g.node? n with
  | none => simp [Graph.portsOf, hn]
  | some node =>
    obtain ⟨node', hn', -, hports⟩ := h.node hn
    simpa [Graph.portsOf, hn, hn'] using hports

theorem Extends.mem_nodeIds (h : g'.Extends g) {n : NodeId} (hn : n ∈ g.nodeIds) :
    n ∈ g'.nodeIds := by
  rw [Graph.mem_nodeIds, ← node?_isSome] at hn ⊢
  obtain ⟨node, hnode⟩ := Option.isSome_iff_exists.1 hn
  obtain ⟨node', hnode', -⟩ := h.node hnode
  exact Option.isSome_iff_exists.2 ⟨node', hnode'⟩

theorem Extends.owner? (h : g'.Extends g) {p : PortId} {n : NodeId} (hp : g.owner? p = some n) :
    g'.owner? p = some n := by
  obtain ⟨port, hport, rfl⟩ := Option.map_eq_some_iff.1 hp
  rw [Graph.owner?, h.port hport]
  rfl

theorem Extends.kind? (h : g'.Extends g) {p : PortId} (hp : p ∈ g.portIds) :
    g'.kind? p = g.kind? p := by
  obtain ⟨port, hport⟩ := Option.isSome_iff_exists.1 (port?_isSome.2 (mem_portIds.1 hp))
  rw [Graph.kind?, Graph.kind?, h.port hport, hport]

/-! ## Calls -/

theorem extends_pushNode (g : Graph) (desc : String) :
    ({ g with nodes := g.nodes.push { desc } } : Graph).Extends g where
  node {n node} h := by
    obtain ⟨hlt, -⟩ := Array.getElem?_eq_some_iff.1 h
    refine ⟨node, ?_, rfl, List.prefix_rfl⟩
    simpa only [node?, Array.getElem?_push, if_neg (Nat.ne_of_lt hlt)] using h
  port h := h
  connected h := h

theorem extends_pushPort (g : Graph) (node : NodeId) (id : PortId) (port : Port) :
    ({ g with
      nodes := g.nodes.modify node.index fun n => { n with ports := n.ports.push id }
      ports := g.ports.push port } : Graph).Extends g where
  node {n old} h := by
    simp only [node?] at h ⊢
    rw [Array.getElem?_modify, h]
    split
    · exact ⟨_, rfl, rfl, by simp⟩
    · exact ⟨_, rfl, rfl, List.prefix_rfl⟩
  port {p old} h := by
    obtain ⟨hlt, -⟩ := Array.getElem?_eq_some_iff.1 h
    simpa only [port?, Array.getElem?_push, if_neg (Nat.ne_of_lt hlt)] using h
  connected h := h

theorem extends_insert (g : Graph) (a b : PortId) :
    ({ g with links := g.links.insert a b } : Graph).Extends g where
  node h := ⟨_, h, rfl, List.prefix_rfl⟩
  port h := h
  connected {p q} h := by
    simp only [Graph.connected] at h ⊢
    rw [Links.contains_insert, h, Bool.or_true]

/-- A call takes nothing away. -/
theorem extends_of_perform {call : Call} {answer : Answer}
    (h : g.perform call = .ok (answer, g')) : g'.Extends g := by
  rcases perform_eq_ok h with ⟨desc, -, -, -, rfl⟩ | ⟨node, desc, kind, -, -, -, -, rfl⟩ |
    ⟨a, b, -, -, -, -, -, -, rfl⟩
  · exact g.extends_pushNode desc
  · exact g.extends_pushPort node _ _
  · exact g.extends_insert a b

/-- Any number of calls take nothing away. -/
theorem extends_replay (g : Graph) (calls : List Call) : (g.replay calls).Extends g :=
  replay_induction (motive := (·.Extends g)) (.refl g)
    (fun hg h => (extends_of_perform h).trans hg) calls

/-! ## Answers -/

/-- A call that is answered has done what it was to do. -/
theorem holds_of_perform {call : Call} {answer : Answer}
    (h : g.perform call = .ok (answer, g')) : g'.Holds call answer := by
  rcases perform_eq_ok h with ⟨desc, rfl, rfl, -, rfl⟩ |
    ⟨node, desc, kind, rfl, rfl, -, hnode, rfl⟩ | ⟨a, b, rfl, rfl, -, -, -, -, rfl⟩
  · exact ⟨_, Array.getElem?_push_size, rfl⟩
  · refine ⟨Array.getElem?_push_size, ?_⟩
    rw [portsOf_pushPort hnode, if_pos rfl]
    exact Array.mem_push_self
  · show (g.links.insert a b).contains a b = true
    simp [Links.contains_insert]

/-- What a call was answered with lasts. -/
theorem Holds.mono {call : Call} {answer : Answer} (hg : g.Holds call answer)
    (h : g'.Extends g) : g'.Holds call answer := by
  cases call <;> cases answer
  case addNode.node desc n =>
    obtain ⟨node, hnode, rfl⟩ := hg
    obtain ⟨node', hnode', hdesc, -⟩ := h.node hnode
    exact ⟨node', hnode', hdesc⟩
  case addPort.port n desc kind p =>
    obtain ⟨hport, hmem⟩ := hg
    have hlisted := (h.portsOf n).subset (Array.mem_toList_iff.2 hmem)
    exact ⟨h.port hport, Array.mem_toList_iff.1 hlisted⟩
  case connect.connected a b => exact h.connected hg
  all_goals exact hg.elim

end Graph

end PortMatch
