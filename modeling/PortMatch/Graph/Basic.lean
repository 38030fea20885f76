import PortMatch.Graph.Links

/-!
# Graphs of ports

A graph has nodes, every node has ports, and links join ports, never nodes.  The nodes are numbered
in the order in which they were added, and so are the ports of the graph as a whole; a node lists
its own ports in that order too.  Nodes and ports carry a description, which is how messages refer
to them, and a port has a kind.

A graph plays either part in a match: it is the pattern to be found or the target to find it in.

* `Graph.node?`, `Graph.port?`, `Graph.kind?` — what an id refers to, if it refers to anything;
* `Graph.portsOf` — the ports of a node;
* `Graph.neighbors`, `Graph.connected` — the links of a port;
* `Graph.nodeIds`, `Graph.portIds` — all ids, ascending.

The operations that build a graph are in `PortMatch.Graph.Build`.
-/

namespace PortMatch

open Text

/-- A node of a graph. -/
structure Node where
  /-- How messages refer to the node. -/
  desc : String
  /-- The ports of the node, in the order in which they were added. -/
  ports : Array PortId := #[]
  deriving DecidableEq

/-- A port of a graph. -/
structure Port where
  /-- How messages refer to the port. -/
  desc : String
  /-- The node that the port belongs to. -/
  node : NodeId
  /-- What the port is good for. -/
  kind : PortKind
  deriving DecidableEq

/-- The detailed form of a node. -/
def Node.detail (n : Node) : String :=
  Detail.record "Node"
    [("desc", quote n.desc), ("ports", Detail.list (n.ports.toList.map PortId.detail))]

/-- The detailed form of a port. -/
def Port.detail (p : Port) : String :=
  Detail.record "Port"
    [("desc", quote p.desc), ("node", p.node.detail), ("kind", p.kind.detail)]

/-- A graph whose nodes have ports, and whose links join ports. -/
structure Graph where
  /-- How messages refer to the graph. -/
  desc : String
  /-- The nodes; the id of a node is its position. -/
  nodes : Array Node := #[]
  /-- The ports of all nodes; the id of a port is its position. -/
  ports : Array Port := #[]
  /-- The links between ports. -/
  links : Links := {}

namespace Graph

/-! ## Lookups -/

/-- The node with the given id. -/
def node? (g : Graph) (n : NodeId) : Option Node := g.nodes[n.index]?

/-- The port with the given id. -/
def port? (g : Graph) (p : PortId) : Option Port := g.ports[p.index]?

/-- The kind of a port. -/
def kind? (g : Graph) (p : PortId) : Option PortKind := (g.port? p).map Port.kind

/-- The description of a node; the empty text if the graph does not have the node. -/
def nodeDesc (g : Graph) (n : NodeId) : String := (g.node? n).elim "" Node.desc

/-- The description of a port; the empty text if the graph does not have the port. -/
def portDesc (g : Graph) (p : PortId) : String := (g.port? p).elim "" Port.desc

/-- The ports of a node, in the order in which they were added; none if the graph does not have
the node. -/
def portsOf (g : Graph) (n : NodeId) : Array PortId := (g.node? n).elim #[] Node.ports

/-- The kinds of the ports of a node, one for each port. -/
def kindsOf (g : Graph) (n : NodeId) : List PortKind := (g.portsOf n).toList.filterMap g.kind?

/-! ## Links -/

/-- The ports linked to a port, in the order in which the links were made. -/
def neighbors (g : Graph) (p : PortId) : List PortId := g.links.partners p

/-- Are the two ports linked? -/
def connected (g : Graph) (a b : PortId) : Bool := g.links.contains a b

/-! ## The whole graph -/

/-- The number of nodes. -/
def nodeCount (g : Graph) : Nat := g.nodes.size

/-- The number of ports. -/
def portCount (g : Graph) : Nat := g.ports.size

/-- The number of links. -/
def linkCount (g : Graph) : Nat := g.links.size

/-- The ids of all nodes, ascending. -/
def nodeIds (g : Graph) : List NodeId := (List.range g.nodeCount).map NodeId.mk

/-- The ids of all ports, ascending. -/
def portIds (g : Graph) : List PortId := (List.range g.portCount).map PortId.mk

end Graph

end PortMatch
