import PortMatch.Graph.Basic
import PortMatch.Report.Obstacle
import PortMatch.Sorted

/-!
# Matching problems

A problem asks for a place of every node and port of a pattern in a target: different nodes go to
different nodes, the ports of a node to different ports of its image, each to one of its own kind,
and linked ports to linked ports.

Before any search, the nodes of the target are looked through for each node of the pattern.  A
`Goal` is a node of the pattern together with its *hosts*, the nodes of the target that have at
least as many ports of every kind.  A node without hosts settles the problem, and so does a target
with fewer nodes than the pattern.

* `Problem.supports`, `Problem.hostsOf` — the hosts of a node;
* `Problem.agenda` — the goals, those with the fewest hosts first;
* `Problem.obstacle?` — what makes a search pointless, if anything does;
* `Problem.diagnose` — why a node has no host.
-/

namespace PortMatch

/-- A pattern to be found in a target. -/
structure Problem where
  /-- The graph whose nodes and ports have to be placed. -/
  pattern : Graph
  /-- The graph whose nodes and ports are the places. -/
  target : Graph

/-- A node to be placed, with the nodes of the target that may host it. -/
structure Goal where
  /-- The node to be placed. -/
  node : NodeId
  /-- The nodes that may host it, ascending. -/
  hosts : List NodeId
  deriving DecidableEq

/-- Goals are ordered by the number of their hosts, then by the id of the node. -/
instance : Ord Goal where
  compare := compareLex (compareOn fun g => g.hosts.length) (compareOn Goal.node)

instance : Std.TransOrd Goal :=
  inferInstanceAs
    (Std.TransCmp (compareLex (compareOn fun g : Goal => g.hosts.length) (compareOn Goal.node)))

namespace Problem

/-! ## Hosts -/

/-- Does the node `c` of the target have at least as many ports of every kind as the node `n` of the
pattern? -/
def supports (P : Problem) (n c : NodeId) : Bool :=
  let needed := P.pattern.kindsOf n
  let offered := P.target.kindsOf c
  needed.all fun k => needed.count k ≤ offered.count k

/-- The nodes of the target that may host the node `n` of the pattern, ascending. -/
def hostsOf (P : Problem) (n : NodeId) : List NodeId := P.target.nodeIds.filter (P.supports n)

/-- One goal for each node of the pattern, ascending by node. -/
def goals (P : Problem) : List Goal := P.pattern.nodeIds.map fun n => ⟨n, P.hostsOf n⟩

/-- The goals in the order in which the search takes them on: the fewer hosts, the sooner. -/
def agenda (P : Problem) : List Goal := sorted P.goals

/-! ## Obstacles before the search -/

/-- The largest number of ports of any node of the target. -/
def mostPorts (P : Problem) : Nat :=
  (P.target.nodeIds.map fun c => (P.target.portsOf c).size).max?.getD 0

/-- The largest number of ports of the kind `k` of any node of the target. -/
def mostOfKind (P : Problem) (k : PortKind) : Nat :=
  (P.target.nodeIds.map fun c => (P.target.kindsOf c).count k).max?.getD 0

/-- The kind of the port `p` of the node `n`, if the node has more ports of that kind than any node
of the target. -/
def scarceKind? (P : Problem) (n : NodeId) (p : PortId) : Option PortKind :=
  (P.pattern.kind? p).filter fun k => P.mostOfKind k < (P.pattern.kindsOf n).count k

/-- Why no node of the target can host the node `n`: the most specific reason that applies. -/
def diagnose (P : Problem) (n : NodeId) : Obstacle :=
  let ports := P.pattern.portsOf n
  if P.mostPorts < ports.size then
    .insufficientPorts (P.pattern.nodeDesc n) ports.size P.mostPorts
  else
    let scarce := ports.toList.findSome? fun p => (P.scarceKind? n p).map fun k => (p, k)
    match scarce with
    | some (p, k) => .incompatiblePortKind (P.pattern.portDesc p) k.name
    | none => .noCompatibleNode (P.pattern.nodeDesc n)

/-- What makes a search pointless: too few nodes in the target, or else the first node of the
pattern that has no host. -/
def obstacle? (P : Problem) : Option Obstacle :=
  if P.target.nodeCount < P.pattern.nodeCount then
    some (.tooFewNodes P.pattern.nodeCount P.target.nodeCount)
  else
    (P.goals.find? fun g => g.hosts.isEmpty).map fun g => P.diagnose g.node

end Problem

end PortMatch
