import PortMatch.Graph.Build
import PortMatch.Proofs.Graph.Links

/-!
# Graphs that calls have built

A port knows its node, and a node lists its ports; links are kept in a set and in lists of partners.
The type of graphs does not force these stores to agree, but the operations that build a graph keep
them in agreement, whatever calls are made and whichever of them are refused.

* `Graph.owner?` — the node of a port;
* `Graph.Built` — a graph that a list of calls leaves behind;
* `Graph.WellFormed` — the stores of the graph agree;
* `Graph.perform_eq_ok`, `Graph.replay_induction` — what one call can do, and what follows for any
  number of them;
* `Graph.WellFormed.perform`, `Graph.Built.wellFormed` — one call keeps the agreement, so every
  graph that calls have built has it.
-/

namespace PortMatch

namespace Graph

/-- The node that a port belongs to. -/
def owner? (g : Graph) (p : PortId) : Option NodeId := (g.port? p).map Port.node

/-- A graph that a list of calls leaves behind, refused calls included. -/
def Built (g : Graph) : Prop := ∃ desc calls, g = (Graph.empty desc).replay calls

/-- The stores of a graph agree. -/
structure WellFormed (g : Graph) : Prop where
  /-- A node lists the ports that belong to it. -/
  mem_portsOf : ∀ {n p}, p ∈ g.portsOf n ↔ g.owner? p = some n
  /-- It lists them in ascending order. -/
  ascending : ∀ n, (g.portsOf n).toList.Pairwise fun p q => p.index < q.index
  /-- Ports belong to nodes of the graph. -/
  owner_lt : ∀ {p n}, g.owner? p = some n → n.index < g.nodeCount
  /-- The partners of a port are the ports that it is linked to. -/
  mem_neighbors : ∀ {p q}, q ∈ g.neighbors p ↔ g.connected p q = true
  /-- Ports of the graph are linked, each to others. -/
  connected_lt : ∀ {p q}, g.connected p q = true → p.index < g.portCount ∧ p ≠ q

/-! ## Lookups -/

theorem mem_nodeIds {g : Graph} {n : NodeId} : n ∈ g.nodeIds ↔ n.index < g.nodeCount := by
  cases n
  simp [nodeIds]

theorem mem_portIds {g : Graph} {p : PortId} : p ∈ g.portIds ↔ p.index < g.portCount := by
  cases p
  simp [portIds]

@[simp] theorem length_nodeIds (g : Graph) : g.nodeIds.length = g.nodeCount := by
  simp [nodeIds]

@[simp] theorem length_portIds (g : Graph) : g.portIds.length = g.portCount := by
  simp [portIds]

theorem nodup_nodeIds (g : Graph) : g.nodeIds.Nodup := by
  refine List.pairwise_map.2 (List.nodup_range.imp ?_)
  intro i j hij h
  exact hij (congrArg NodeId.index h)

theorem nodup_portIds (g : Graph) : g.portIds.Nodup := by
  refine List.pairwise_map.2 (List.nodup_range.imp ?_)
  intro i j hij h
  exact hij (congrArg PortId.index h)

theorem connected_comm (g : Graph) (p q : PortId) : g.connected p q = g.connected q p :=
  g.links.contains_comm p q

theorem node?_isSome {g : Graph} {n : NodeId} : (g.node? n).isSome ↔ n.index < g.nodeCount := by
  simp [node?, nodeCount]

theorem port?_isSome {g : Graph} {p : PortId} : (g.port? p).isSome ↔ p.index < g.portCount := by
  simp [port?, portCount]

theorem owner?_isSome {g : Graph} {p : PortId} :
    (g.owner? p).isSome ↔ p.index < g.portCount := by
  rw [owner?, Option.isSome_map, port?_isSome]

/-- A port that belongs to a node is a port of the graph. -/
theorem mem_portIds_of_owner {g : Graph} {p : PortId} {n : NodeId} (h : g.owner? p = some n) :
    p ∈ g.portIds :=
  mem_portIds.2 (owner?_isSome.1 (by rw [h]; rfl))

/-! ## What the operations do -/

theorem addNode_eq_ok {g g' : Graph} {desc : String} {id : NodeId}
    (h : g.addNode desc = .ok (id, g')) :
    desc ≠ "" ∧ id = ⟨g.nodeCount⟩ ∧ g' = { g with nodes := g.nodes.push { desc } } := by
  unfold addNode at h
  split at h
  · cases h
  · next hdesc =>
    cases h
    exact ⟨hdesc, rfl, rfl⟩

theorem addPort_eq_ok {g g' : Graph} {node : NodeId} {desc : String} {kind : PortKind}
    {id : PortId} (h : g.addPort node desc kind = .ok (id, g')) :
    desc ≠ "" ∧ node.index < g.nodeCount ∧ id = ⟨g.portCount⟩ ∧
      g' = { g with
        nodes := g.nodes.modify node.index fun n => { n with ports := n.ports.push id }
        ports := g.ports.push { desc, node, kind } } := by
  unfold addPort at h
  split at h
  · cases h
  · next hdesc =>
    split at h
    · cases h
    · next hnode =>
      cases h
      exact ⟨hdesc, Nat.lt_of_not_le hnode, rfl, rfl⟩

theorem connect_eq_ok {g g' : Graph} {a b : PortId} (h : g.connect a b = .ok g') :
    a.index < g.portCount ∧ b.index < g.portCount ∧ a ≠ b ∧ g.connected a b = false ∧
      g' = { g with links := g.links.insert a b } := by
  unfold connect at h
  split at h
  · cases h
  · split at h
    · cases h
    · split at h
      · cases h
      · split at h
        · cases h
        · next ha hb hab hnew =>
          cases h
          exact ⟨Nat.lt_of_not_le ha, Nat.lt_of_not_le hb, hab, by simpa using hnew, rfl⟩

theorem map_eq_ok {ε α β : Type} {x : Except ε α} {f : α → β} {b : β} (h : x.map f = .ok b) :
    ∃ a, x = .ok a ∧ f a = b := by
  cases x with
  | error e => cases h
  | ok a => exact ⟨a, rfl, Except.ok.inj h⟩

/-- A call that is answered has added a node, a port, or a link. -/
theorem perform_eq_ok {g g' : Graph} {call : Call} {answer : Answer}
    (h : g.perform call = .ok (answer, g')) :
    (∃ desc, call = .addNode desc ∧ answer = .node ⟨g.nodeCount⟩ ∧ desc ≠ "" ∧
      g' = { g with nodes := g.nodes.push { desc } }) ∨
    (∃ node desc kind, call = .addPort node desc kind ∧ answer = .port ⟨g.portCount⟩ ∧ desc ≠ "" ∧
      node.index < g.nodeCount ∧ g' = { g with
        nodes := g.nodes.modify node.index fun n => { n with ports := n.ports.push ⟨g.portCount⟩ }
        ports := g.ports.push { desc, node, kind } }) ∨
    (∃ a b, call = .connect a b ∧ answer = .connected ∧ a.index < g.portCount ∧
      b.index < g.portCount ∧ a ≠ b ∧ g.connected a b = false ∧
      g' = { g with links := g.links.insert a b }) := by
  cases call with
  | addNode desc =>
    obtain ⟨⟨id, g''⟩, hadd, hout⟩ := map_eq_ok h
    cases hout
    obtain ⟨hdesc, rfl, rfl⟩ := addNode_eq_ok hadd
    exact .inl ⟨desc, rfl, rfl, hdesc, rfl⟩
  | addPort node desc kind =>
    obtain ⟨⟨id, g''⟩, hadd, hout⟩ := map_eq_ok h
    cases hout
    obtain ⟨hdesc, hnode, rfl, rfl⟩ := addPort_eq_ok hadd
    exact .inr (.inl ⟨node, desc, kind, rfl, rfl, hdesc, hnode, rfl⟩)
  | connect a b =>
    obtain ⟨g'', hadd, hout⟩ := map_eq_ok h
    cases hout
    exact .inr (.inr ⟨a, b, rfl, rfl, connect_eq_ok hadd⟩)

/-- What holds of a graph and is kept by every call that is answered holds after any calls. -/
theorem replay_induction {g : Graph} {motive : Graph → Prop} (hstart : motive g)
    (hcall : ∀ {g g' call answer}, motive g → g.perform call = .ok (answer, g') → motive g')
    (calls : List Call) : motive (g.replay calls) := by
  induction calls generalizing g with
  | nil => exact hstart
  | cons call rest ih =>
    refine ih (g := g.after call) ?_
    unfold after
    split
    · next answer g' h => exact hcall hstart h
    · exact hstart

theorem portsOf_pushNode {g : Graph} {desc : String} {n : NodeId} :
    ({ g with nodes := g.nodes.push { desc } } : Graph).portsOf n = g.portsOf n := by
  simp only [portsOf, node?, Array.getElem?_push]
  split
  · next h => simp [h]
  · rfl

theorem portsOf_pushPort {g : Graph} {node : NodeId} {id : PortId} {ports : Array Port}
    (hnode : node.index < g.nodeCount) (n : NodeId) :
    ({ g with
        nodes := g.nodes.modify node.index fun n => { n with ports := n.ports.push id }
        ports := ports } : Graph).portsOf n
      = if node = n then (g.portsOf n).push id else g.portsOf n := by
  have hiff : node = n ↔ node.index = n.index := by
    cases node; cases n
    simp
  simp only [portsOf, node?, Array.getElem?_modify, hiff]
  split
  · next h =>
    rw [← h, Array.getElem?_eq_getElem hnode]
    rfl
  · rfl

theorem owner?_pushPort {g : Graph} {nodes : Array Node} {port : Port} (p : PortId) :
    ({ g with nodes := nodes, ports := g.ports.push port } : Graph).owner? p
      = if p = ⟨g.portCount⟩ then some port.node else g.owner? p := by
  have hiff : p = ⟨g.portCount⟩ ↔ p.index = g.ports.size := by
    cases p
    simp [portCount]
  simp only [owner?, port?, Array.getElem?_push, hiff]
  split <;> rfl

/-! ## Agreement is kept -/

namespace WellFormed

theorem empty (desc : String) : (Graph.empty desc).WellFormed where
  mem_portsOf := by simp [portsOf, node?, owner?, port?, Graph.empty]
  ascending := by simp [portsOf, node?, Graph.empty]
  owner_lt := by simp [owner?, port?, Graph.empty]
  mem_neighbors := by simp [neighbors, connected, Graph.empty]
  connected_lt := by simp [connected, Graph.empty]

theorem addNode {g : Graph} (hg : g.WellFormed) (desc : String) :
    ({ g with nodes := g.nodes.push { desc } } : Graph).WellFormed where
  mem_portsOf := by
    intro n p
    rw [portsOf_pushNode]
    exact hg.mem_portsOf
  ascending n := by
    rw [portsOf_pushNode]
    exact hg.ascending n
  owner_lt := by
    intro p n h
    have hlt := hg.owner_lt (p := p) h
    simp only [nodeCount, Array.size_push]
    exact Nat.lt_succ_of_lt hlt
  mem_neighbors := hg.mem_neighbors
  connected_lt := hg.connected_lt

theorem addPort {g : Graph} (hg : g.WellFormed) {node : NodeId} (hnode : node.index < g.nodeCount)
    (desc : String) (kind : PortKind) :
    ({ g with
      nodes := g.nodes.modify node.index fun n => { n with ports := n.ports.push ⟨g.portCount⟩ }
      ports := g.ports.push { desc, node, kind } } : Graph).WellFormed where
  mem_portsOf := by
    intro n p
    rw [portsOf_pushPort hnode, owner?_pushPort]
    have hnew : g.owner? ⟨g.portCount⟩ = none := by simp [owner?, port?, portCount]
    by_cases hp : p = ⟨g.portCount⟩
    · subst hp
      rw [if_pos rfl, Option.some_inj]
      split
      · simpa
      · next hn => simpa [hg.mem_portsOf, hnew] using hn
    · rw [if_neg hp, ← hg.mem_portsOf]
      split <;> simp [hp]
  ascending n := by
    rw [portsOf_pushPort hnode]
    split
    · -- the new port has the highest id so far
      rw [Array.toList_push, List.pairwise_append]
      refine ⟨hg.ascending n, List.pairwise_singleton .., ?_⟩
      intro p hp q hq
      have howner := hg.mem_portsOf.1 (Array.mem_toList_iff.1 hp)
      rw [List.mem_singleton.1 hq]
      exact mem_portIds.1 (mem_portIds_of_owner howner)
    · exact hg.ascending n
  owner_lt := by
    intro p n h
    simp only [nodeCount, Array.size_modify]
    rw [owner?_pushPort] at h
    split at h
    · cases h
      exact hnode
    · exact hg.owner_lt h
  mem_neighbors := hg.mem_neighbors
  connected_lt := by
    intro p q h
    obtain ⟨hp, hpq⟩ := hg.connected_lt h
    simp only [portCount, Array.size_push]
    exact ⟨Nat.lt_succ_of_lt hp, hpq⟩

theorem connect {g : Graph} (hg : g.WellFormed) {a b : PortId} (ha : a.index < g.portCount)
    (hb : b.index < g.portCount) (hab : a ≠ b) :
    ({ g with links := g.links.insert a b } : Graph).WellFormed where
  mem_portsOf := hg.mem_portsOf
  ascending := hg.ascending
  owner_lt := hg.owner_lt
  mem_neighbors := by
    intro p q
    have hold := hg.mem_neighbors (p := p) (q := q)
    simp only [neighbors, connected] at hold ⊢
    rw [Links.partners_insert _ hab, Links.contains_insert, Bool.or_eq_true, decide_eq_true_eq,
      ← hold]
    split
    · next hap =>
      subst hap
      simp only [List.mem_append, List.mem_singleton, true_and]
      grind
    · split
      · next hbp =>
        subst hbp
        simp only [List.mem_append, List.mem_singleton]
        grind
      · grind
  connected_lt := by
    intro p q h
    simp only [connected, Links.contains_insert, Bool.or_eq_true, decide_eq_true_eq] at h
    rcases h with (⟨rfl, rfl⟩ | ⟨rfl, rfl⟩) | h
    · exact ⟨ha, hab⟩
    · exact ⟨hb, hab.symm⟩
    · exact hg.connected_lt h

/-- A call keeps the stores in agreement. -/
theorem perform {g g' : Graph} {call : Call} {answer : Answer} (hg : g.WellFormed)
    (h : g.perform call = .ok (answer, g')) : g'.WellFormed := by
  rcases perform_eq_ok h with ⟨desc, -, -, -, rfl⟩ | ⟨node, desc, kind, -, -, -, hnode, rfl⟩ |
    ⟨a, b, -, -, ha, hb, hab, -, rfl⟩
  · exact hg.addNode desc
  · exact hg.addPort hnode desc kind
  · exact hg.connect ha hb hab

theorem replay {g : Graph} (hg : g.WellFormed) (calls : List Call) :
    (g.replay calls).WellFormed :=
  replay_induction hg perform calls

end WellFormed

theorem WellFormed.nodup_portsOf {g : Graph} (hg : g.WellFormed) (n : NodeId) :
    (g.portsOf n).toList.Nodup := by
  refine (hg.ascending n).imp ?_
  rintro p q hlt rfl
  exact Nat.lt_irrefl _ hlt

theorem WellFormed.mem_portIds {g : Graph} (hg : g.WellFormed) {n : NodeId} {p : PortId}
    (hp : p ∈ g.portsOf n) : p ∈ g.portIds :=
  mem_portIds_of_owner (hg.mem_portsOf.1 hp)

/-- The ports of a graph are those that belong to one of its nodes. -/
theorem WellFormed.mem_portIds_iff {g : Graph} (hg : g.WellFormed) {p : PortId} :
    p ∈ g.portIds ↔ ∃ n ∈ g.nodeIds, g.owner? p = some n := by
  refine ⟨fun hp => ?_, fun ⟨_, _, hn⟩ => mem_portIds_of_owner hn⟩
  obtain ⟨n, hn⟩ := Option.isSome_iff_exists.1 (owner?_isSome.2 (Graph.mem_portIds.1 hp))
  exact ⟨n, mem_nodeIds.2 (hg.owner_lt hn), hn⟩

/-- A node has no more ports than the graph. -/
theorem WellFormed.size_portsOf_le {g : Graph} (hg : g.WellFormed) (n : NodeId) :
    (g.portsOf n).size ≤ g.portCount := by
  have hsub : (g.portsOf n).toList ⊆ g.portIds :=
    fun p hp => hg.mem_portIds (Array.mem_toList_iff.1 hp)
  calc (g.portsOf n).size
    _ = (g.portsOf n).toList.length := Array.length_toList.symm
    _ ≤ g.portIds.length := (hg.nodup_portsOf n).length_le_of_subset hsub
    _ = g.portCount := g.length_portIds

/-- Every port of a node has a kind. -/
theorem WellFormed.exists_kind {g : Graph} (hg : g.WellFormed) {n : NodeId} {p : PortId}
    (hp : p ∈ g.portsOf n) : ∃ k, g.kind? p = some k := by
  have hport : (g.port? p).isSome := port?_isSome.2 (Graph.mem_portIds.1 (hg.mem_portIds hp))
  exact Option.isSome_iff_exists.1 (by rwa [kind?, Option.isSome_map])

/-- The stores of a graph that calls have built agree. -/
theorem Built.wellFormed {g : Graph} (hg : g.Built) : g.WellFormed := by
  obtain ⟨desc, calls, rfl⟩ := hg
  exact (WellFormed.empty desc).replay calls

end Graph

end PortMatch
