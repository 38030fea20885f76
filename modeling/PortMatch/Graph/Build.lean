import PortMatch.Graph.Basic

/-!
# Building graphs

A graph grows by three operations: adding a node, adding a port to a node, and connecting two ports.
Each of them may be refused, and a `Rejection` says why; a refused operation changes nothing.

* `Graph.addNode`, `Graph.addPort`, `Graph.connect` — the operations;
* `Rejection.message`, `Rejection.detail` — the two written forms of a refusal;
* `Call`, `Graph.perform` — an operation as a value, and what it does;
* `Graph.ofCalls` — the graph that a list of calls builds, if none of them is refused;
* `Graph.replay` — the graph that a list of calls leaves behind, refused ones included.
-/

namespace PortMatch

open Text

/-! ## Refusals -/

/-- The things in a graph that have a description. -/
inductive Item where
  /-- A node of the graph. -/
  | node
  /-- A port of a node. -/
  | port
  deriving DecidableEq

/-- The name of a sort of thing, as messages use it. -/
def Item.name : Item → String
  | .node => "node"
  | .port => "port"

/-- Why an operation on a graph was refused. -/
inductive Rejection where
  /-- The description of the new node or port is empty. -/
  | emptyDescription (item : Item)
  /-- The graph does not have the node. -/
  | unknownNode (node : NodeId)
  /-- The graph does not have the port. -/
  | unknownPort (port : PortId)
  /-- The port was to be connected to itself. -/
  | selfLoop (port : PortId)
  /-- The two ports are connected already. -/
  | alreadyConnected (a b : PortId)
  deriving DecidableEq

/-- The message that explains a refusal. -/
def Rejection.message : Rejection → String
  | .emptyDescription item => item.name ++ " description must not be empty"
  | .unknownNode n => "unknown node " ++ n.detail
  | .unknownPort p => "unknown port " ++ p.detail
  | .selfLoop p => "port " ++ p.detail ++ " cannot be connected to itself"
  | .alreadyConnected a b => "ports " ++ a.detail ++ " and " ++ b.detail ++ " are already connected"

/-- The detailed form of a refusal. -/
def Rejection.detail : Rejection → String
  | .emptyDescription item => Detail.tuple "EmptyDescription" [quote item.name]
  | .unknownNode n => Detail.tuple "UnknownNode" [n.detail]
  | .unknownPort p => Detail.tuple "UnknownPort" [p.detail]
  | .selfLoop p => Detail.tuple "SelfLoop" [p.detail]
  | .alreadyConnected a b => Detail.tuple "DuplicateEdge" [a.detail, b.detail]

namespace Graph

/-! ## Operations -/

/-- The graph without nodes. -/
def empty (desc : String) : Graph where
  desc := desc

/-- Adds a node, and returns its id. -/
def addNode (g : Graph) (desc : String) : Except Rejection (NodeId × Graph) :=
  if desc = "" then .error (.emptyDescription .node)
  else .ok (⟨g.nodeCount⟩, { g with nodes := g.nodes.push { desc } })

/-- Adds a port to a node, and returns its id.  The links stay as they are: a port that is not linked
to any other needs no entry among them. -/
def addPort (g : Graph) (node : NodeId) (desc : String) (kind : PortKind) :
    Except Rejection (PortId × Graph) :=
  if desc = "" then .error (.emptyDescription .port)
  else if g.nodeCount ≤ node.index then .error (.unknownNode node)
  else
    let id : PortId := ⟨g.portCount⟩
    .ok (id,
      { g with
        nodes := g.nodes.modify node.index fun n => { n with ports := n.ports.push id }
        ports := g.ports.push { desc, node, kind } })

/-- Connects two ports. -/
def connect (g : Graph) (a b : PortId) : Except Rejection Graph :=
  if g.portCount ≤ a.index then .error (.unknownPort a)
  else if g.portCount ≤ b.index then .error (.unknownPort b)
  else if a = b then .error (.selfLoop a)
  else if g.connected a b then .error (.alreadyConnected a b)
  else .ok { g with links := g.links.insert a b }

end Graph

/-! ## Calls -/

/-- An operation that makes a graph grow. -/
inductive Call where
  /-- Add a node. -/
  | addNode (desc : String)
  /-- Add a port to a node. -/
  | addPort (node : NodeId) (desc : String) (kind : PortKind)
  /-- Connect two ports. -/
  | connect (a b : PortId)
  deriving DecidableEq

/-- What a successful operation returns. -/
inductive Answer where
  /-- The id of the new node. -/
  | node (id : NodeId)
  /-- The id of the new port. -/
  | port (id : PortId)
  /-- The two ports are connected now. -/
  | connected
  deriving DecidableEq

namespace Graph

/-- Performs a call: its answer and the graph after it, or the reason why it was refused. -/
def perform (g : Graph) : Call → Except Rejection (Answer × Graph)
  | .addNode desc => (g.addNode desc).map fun (id, g') => (.node id, g')
  | .addPort node desc kind => (g.addPort node desc kind).map fun (id, g') => (.port id, g')
  | .connect a b => (g.connect a b).map fun g' => (.connected, g')

/-- The graph that a list of calls builds from nothing; the first refusal, if there is one. -/
def ofCalls (desc : String) (calls : List Call) : Except Rejection Graph :=
  calls.foldlM (fun g call => (g.perform call).map Prod.snd) (empty desc)

/-- The graph after a call, which is the same graph if the call is refused. -/
def after (g : Graph) (call : Call) : Graph :=
  match g.perform call with
  | .ok (_, g') => g'
  | .error _ => g

/-- The graph after a list of calls, refused ones included. -/
def replay (g : Graph) (calls : List Call) : Graph := calls.foldl after g

end Graph

end PortMatch
