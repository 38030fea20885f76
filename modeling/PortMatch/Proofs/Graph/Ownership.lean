import Mathlib.Data.List.Nodup
import PortMatch.Proofs.Graph.Growth

/-!
# Who owns what

In a graph that calls have built, the nodes share out the ports among themselves: every port is in
the list of one node, the node that it belongs to, and there just once.  Nothing is without a
description, and nothing that a call was answered with is ever lost.

* `Graph.Described` — every node and every port has a description;
* `Graph.WellFormed.portsOf_perm` — the lists of all nodes together are the ports of the graph;
* `Graph.built_shares_ports` — what holds of every graph that calls have built.
-/

namespace PortMatch

/-! ## An example -/

/-- Two nodes that get their three ports by turns, with refused calls in between. -/
def byTurns : Graph := (Graph.empty "two").replay
  [.addNode "a", .addPort ⟨1⟩ "early" ⟨"wire"⟩, .addNode "b", .addPort ⟨1⟩ "p" ⟨"wire"⟩,
    .addPort ⟨0⟩ "q" ⟨"pipe"⟩, .addPort ⟨0⟩ "" ⟨"wire"⟩, .addPort ⟨1⟩ "r" ⟨"wire"⟩]

namespace Graph

variable {g g' : Graph}

/-! ## Descriptions -/

/-- Every node and every port has a description. -/
structure Described (g : Graph) : Prop where
  /-- The description of a node is not empty. -/
  node : ∀ {n node}, g.node? n = some node → node.desc ≠ ""
  /-- The description of a port is not empty. -/
  port : ∀ {p port}, g.port? p = some port → port.desc ≠ ""

theorem described_empty (desc : String) : (empty desc).Described where
  node h := by simp [empty, node?] at h
  port h := by simp [empty, port?] at h

theorem Described.perform {call : Call} {answer : Answer} (hg : g.Described)
    (h : g.perform call = .ok (answer, g')) : g'.Described := by
  rcases perform_eq_ok h with ⟨desc, -, -, hdesc, rfl⟩ |
    ⟨node, desc, kind, -, -, hdesc, -, rfl⟩ | ⟨a, b, -, -, -, -, -, -, rfl⟩
  · refine ⟨fun {n new} hn => ?_, hg.port⟩
    simp only [node?, Array.getElem?_push] at hn
    split at hn
    · cases hn
      exact hdesc
    · exact hg.node hn
  · refine ⟨fun {n new} hn => ?_, fun {p new} hp => ?_⟩
    · simp only [node?, Array.getElem?_modify] at hn
      split at hn
      · obtain ⟨old, hold, rfl⟩ := Option.map_eq_some_iff.1 hn
        show old.desc ≠ ""
        exact hg.node hold
      · exact hg.node hn
    · simp only [port?, Array.getElem?_push] at hp
      split at hp
      · cases hp
        exact hdesc
      · exact hg.port hp
  · exact ⟨hg.node, hg.port⟩

theorem Built.described (hg : g.Built) : g.Described := by
  obtain ⟨desc, calls, rfl⟩ := hg
  exact replay_induction (described_empty desc) Described.perform calls

/-! ## Ports -/

/-- The ports of all nodes, one node after the other, are the ports of the graph. -/
theorem WellFormed.portsOf_perm (hg : g.WellFormed) :
    (g.nodeIds.flatMap fun n => (g.portsOf n).toList).Perm g.portIds := by
  have hnodup : (g.nodeIds.flatMap fun n => (g.portsOf n).toList).Nodup := by
    refine List.nodup_flatMap.2 ⟨fun n _ => hg.nodup_portsOf n, ?_⟩
    refine g.nodup_nodeIds.imp fun {n m} hne p hn hm => hne ?_
    -- a port that two nodes list belongs to both of them
    have hown := hg.mem_portsOf.1 (Array.mem_toList_iff.1 hn)
    rw [hg.mem_portsOf.1 (Array.mem_toList_iff.1 hm)] at hown
    exact (Option.some.inj hown).symm
  refine (List.perm_ext_iff_of_nodup hnodup g.nodup_portIds).2 fun p => ?_
  simp only [List.mem_flatMap, Array.mem_toList_iff, hg.mem_portsOf, hg.mem_portIds_iff]

/-! ## Graphs that calls have built -/

/-- In a graph that calls have built, refused ones included, the nodes share out the ports: a node
lists the ports that belong to it, in ascending order, and taken together the lists have every port
of the graph once.  Nodes and ports have descriptions.  Further calls add to the graph, and take
back nothing that it has or that any of them was answered with. -/
theorem built_shares_ports (hg : g.Built) :
    (g.nodeIds.flatMap fun n => (g.portsOf n).toList).Perm g.portIds ∧
    (∀ n p, p ∈ g.portsOf n ↔ g.owner? p = some n) ∧
    (∀ n, (g.portsOf n).toList.Pairwise fun p q => p.index < q.index) ∧
    (∀ n p, p ∈ g.portsOf n → p ∈ g.portIds ∧ n ∈ g.nodeIds) ∧
    g.Described ∧
    (∀ calls, (g.replay calls).Extends g) ∧
    ∀ call answer g', g.perform call = .ok (answer, g') →
      ∀ calls, (g'.replay calls).Holds call answer := by
  have hwell := hg.wellFormed
  refine ⟨hwell.portsOf_perm, fun n p => hwell.mem_portsOf, hwell.ascending, ?_, hg.described,
    g.extends_replay, ?_⟩
  · intro n p hp
    exact ⟨hwell.mem_portIds hp, mem_nodeIds.2 (hwell.owner_lt (hwell.mem_portsOf.1 hp))⟩
  · intro call answer g' h calls
    exact (holds_of_perform h).mono (g'.extends_replay calls)

/-- The second node has the first port and the last one, and whatever is called next, these remain
what they are. -/
theorem built_shares_ports_byTurns : byTurns.portsOf ⟨1⟩ = #[⟨0⟩, ⟨2⟩] ∧
    (byTurns.nodeIds.flatMap fun n => (byTurns.portsOf n).toList).Perm [⟨0⟩, ⟨1⟩, ⟨2⟩] ∧
    ∀ calls, (byTurns.replay calls).port? ⟨2⟩
      = some { desc := "r", node := ⟨1⟩, kind := ⟨"wire"⟩ } := by
  obtain ⟨hperm, -, -, -, -, hextends, -⟩ := built_shares_ports (g := byTurns) ⟨_, _, rfl⟩
  have hids : byTurns.portIds = [⟨0⟩, ⟨1⟩, ⟨2⟩] := by decide +kernel
  refine ⟨by decide +kernel, hids ▸ hperm, fun calls => (hextends calls).port ?_⟩
  decide +kernel

end Graph

end PortMatch
