import Mathlib
import PortMatch.Search.Solution
import PortMatch.Search.Problem
import PortMatch.Proofs.Graph.WellFormed

/-!
# Placements

What a problem asks for, described without a search.  A placement says where nodes and ports of the
pattern go, as far as they go anywhere; it is valid when different things have different places, a
port stays with its node and keeps its kind, and links are kept.

Placements are compared by their codes.  The code of a placement goes through the nodes of the
pattern in the order in which the search takes them on, and lists the place of each node followed by
the places of its ports.

* `Problem.Places` — the valid placements of given nodes and their ports;
* `Problem.Solves` — the valid placements of the whole pattern;
* `Problem.searchOrder`, `Problem.pairwise_searchOrder` — the order of the nodes;
* `Problem.code` — the code of a placement; codes are compared as lists;
* `Problem.prefixPlacements` — the valid placements of the first nodes in the search order.
-/

namespace PortMatch

/-- Where nodes and ports of a pattern are placed, as far as they are. -/
@[ext]
structure Placement where
  /-- The place of a node. -/
  node : NodeId → Option NodeId
  /-- The place of a port. -/
  port : PortId → Option PortId

/-- The placement that an assignment describes. -/
def Assignment.placement (s : Assignment) : Placement := ⟨s.node?, s.port?⟩

/-- The placement that a solution describes. -/
def Solution.placement (s : Solution) : Placement := ⟨s.node?, s.port?⟩

namespace Problem

/-! ## Valid placements -/

/-- `pl` is a valid placement of the nodes `ns` and their ports, and of nothing else. -/
structure Places (P : Problem) (ns : List NodeId) (pl : Placement) : Prop where
  /-- The given nodes are placed. -/
  node_isSome : ∀ a, (pl.node a).isSome ↔ a ∈ ns
  /-- Their ports are placed. -/
  port_isSome : ∀ p, (pl.port p).isSome ↔ ∃ a ∈ ns, P.pattern.owner? p = some a
  /-- Nodes are placed on nodes of the target. -/
  node_mem : ∀ {a c}, pl.node a = some c → c ∈ P.target.nodeIds
  /-- Different nodes have different places. -/
  node_inj : ∀ {a b c}, pl.node a = some c → pl.node b = some c → a = b
  /-- Different ports have different places. -/
  port_inj : ∀ {p q r}, pl.port p = some r → pl.port q = some r → p = q
  /-- The place of a port belongs to the place of its node. -/
  owner : ∀ {p q a}, pl.port p = some q → P.pattern.owner? p = some a →
    ∃ c, pl.node a = some c ∧ P.target.owner? q = some c
  /-- The place of a port is of the kind of the port. -/
  kind : ∀ {p q}, pl.port p = some q → P.target.kind? q = P.pattern.kind? p
  /-- The places of linked ports are linked. -/
  link : ∀ {p q p' q'}, P.pattern.connected p q = true → pl.port p = some p' →
    pl.port q = some q' → P.target.connected p' q' = true

/-- `pl` is a valid placement of the whole pattern. -/
def Solves (P : Problem) (pl : Placement) : Prop := P.Places P.pattern.nodeIds pl

/-! ## Codes -/

/-- The nodes of the pattern in the order in which the search takes them on. -/
def searchOrder (P : Problem) : List NodeId := P.agenda.map Goal.node

/-- The places of the given nodes, each followed by the places of its ports, as numbers. -/
def codeOf (P : Problem) (ns : List NodeId) (pl : Placement) : List ℕ :=
  ns.flatMap fun a =>
    (pl.node a).toList.map NodeId.index
      ++ ((P.pattern.portsOf a).toList.filterMap pl.port).map PortId.index

/-- The code of a placement. -/
def code (P : Problem) (pl : Placement) : List ℕ := P.codeOf P.searchOrder pl

/-- The valid placements of the first nodes in the search order, at least of one. -/
def prefixPlacements (P : Problem) : Set Placement :=
  { pl | ∃ k, 1 ≤ k ∧ k ≤ P.searchOrder.length ∧ P.Places (P.searchOrder.take k) pl }

/-! ## The search order -/

theorem agenda_perm (P : Problem) : P.agenda.Perm P.goals := sorted_perm _

theorem mem_agenda {P : Problem} {g : Goal} (h : g ∈ P.agenda) :
    g.node ∈ P.pattern.nodeIds ∧ g.hosts = P.hostsOf g.node := by
  obtain ⟨n, hn, rfl⟩ := List.mem_map.1 (P.agenda_perm.mem_iff.1 h)
  exact ⟨hn, rfl⟩

theorem searchOrder_perm (P : Problem) : P.searchOrder.Perm P.pattern.nodeIds := by
  have hgoals : P.goals.map Goal.node = P.pattern.nodeIds := by
    simp [goals, List.map_map, Function.comp_def]
  exact hgoals ▸ P.agenda_perm.map Goal.node

theorem nodup_searchOrder (P : Problem) : P.searchOrder.Nodup :=
  P.searchOrder_perm.nodup_iff.2 P.pattern.nodup_nodeIds

theorem mem_searchOrder {P : Problem} {a : NodeId} : a ∈ P.searchOrder ↔ a ∈ P.pattern.nodeIds :=
  P.searchOrder_perm.mem_iff

theorem goal_le {g g' : Goal} (h : (compare g g').isLE) :
    g.hosts.length < g'.hosts.length ∨
      g.hosts.length = g'.hosts.length ∧ g.node.index ≤ g'.node.index := by
  have hcmp : compare g g' = (compare g.hosts.length g'.hosts.length).then
    (compare g.node.index g'.node.index) := rfl
  rw [hcmp] at h
  rcases Nat.lt_trichotomy g.hosts.length g'.hosts.length with hlt | heq | hgt
  · exact .inl hlt
  · refine .inr ⟨heq, Nat.le_of_not_lt fun hgt => ?_⟩
    rw [Nat.compare_eq_eq.2 heq, Nat.compare_eq_gt.2 hgt] at h
    cases h
  · rw [Nat.compare_eq_gt.2 hgt] at h
    cases h

/-- The nodes with the fewest hosts come first; of nodes with equally many, the one with the lowest
id. -/
theorem pairwise_searchOrder (P : Problem) :
    P.searchOrder.Pairwise fun a b =>
      (P.hostsOf a).length < (P.hostsOf b).length ∨
        (P.hostsOf a).length = (P.hostsOf b).length ∧ a.index < b.index := by
  have hne : P.agenda.Pairwise fun g g' => g.node ≠ g'.node :=
    List.pairwise_map.1 P.nodup_searchOrder
  refine List.pairwise_map.2 (((pairwise_sorted P.goals).and hne).imp_of_mem ?_)
  rintro g g' hg hg' ⟨hle, hnode⟩
  rw [← (mem_agenda hg).2, ← (mem_agenda hg').2]
  refine (goal_le hle).imp_right fun ⟨hlen, hindex⟩ => ⟨hlen, ?_⟩
  refine Nat.lt_of_le_of_ne hindex fun h => hnode ?_
  exact congrArg NodeId.mk h

end Problem

end PortMatch
