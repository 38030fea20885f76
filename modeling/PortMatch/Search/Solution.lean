import PortMatch.Assignment.Basic

/-!
# Solutions

A solution says where each node and each port of a pattern is found in the target, and how many
rounds of search it took.
-/

namespace PortMatch

/-- Where the nodes and ports of a pattern are found. -/
structure Solution where
  /-- The nodes with their images, ascending by node. -/
  nodes : List (NodeId × NodeId)
  /-- The ports with their images, ascending by port. -/
  ports : List (PortId × PortId)
  /-- The number of pins that the search made. -/
  rounds : Nat
  deriving DecidableEq

namespace Solution

/-- The solution that an assignment of the pattern amounts to. -/
def ofAssignment (pattern : Graph) (s : Assignment) (rounds : Nat) : Solution where
  nodes := pattern.nodeIds.filterMap fun a => (s.node? a).map fun c => (a, c)
  ports := pattern.portIds.filterMap fun a => (s.port? a).map fun c => (a, c)
  rounds := rounds

/-- Where a node is found. -/
def node? (s : Solution) (a : NodeId) : Option NodeId := s.nodes.lookup a

/-- Where a port is found. -/
def port? (s : Solution) (a : PortId) : Option PortId := s.ports.lookup a

end Solution

end PortMatch
