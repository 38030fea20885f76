import PortMatch.Graph.Basic
import PortMatch.Assignment.Images
import PortMatch.Assignment.Snapshot

/-!
# Assignments

An assignment maps nodes and ports of a pattern to nodes and ports of a target, all of them or only
some.  It is a table of ids and knows neither graph: the operations that need one are given it.

* `Assignment.unassigned` — every node and port of a pattern listed, none mapped;
* `Assignment.assignNode`, `Assignment.assignPort`, `Assignment.unassignNode` — the changes; the
  last one takes the ports of the node along;
* `Assignment.snapshot` — the assignment by descriptions.
-/

namespace PortMatch

/-- A mapping from nodes and ports of a pattern to nodes and ports of a target. -/
structure Assignment where
  /-- The images of the nodes. -/
  nodes : Images NodeId := ∅
  /-- The images of the ports. -/
  ports : Images PortId := ∅
  deriving DecidableEq

namespace Assignment

/-- The assignment that lists every node and port of the pattern and maps none of them. -/
def unassigned (pattern : Graph) : Assignment where
  nodes := Images.unassigned pattern.nodeIds
  ports := Images.unassigned pattern.portIds

/-! ## Changes -/

/-- Maps the node `a` to the node `c`. -/
def assignNode (s : Assignment) (a c : NodeId) : Assignment :=
  { s with nodes := s.nodes.assign a c }

/-- Maps the port `a` to the port `c`. -/
def assignPort (s : Assignment) (a c : PortId) : Assignment :=
  { s with ports := s.ports.assign a c }

/-- Takes back what the node `a` and the ports it has in the pattern are mapped to. -/
def unassignNode (s : Assignment) (pattern : Graph) (a : NodeId) : Assignment where
  nodes := s.nodes.clear [a]
  ports := s.ports.clear (pattern.portsOf a).toList

/-! ## Reading -/

/-- What the node `a` is mapped to. -/
def node? (s : Assignment) (a : NodeId) : Option NodeId := s.nodes.image? a

/-- What the port `a` is mapped to. -/
def port? (s : Assignment) (a : PortId) : Option PortId := s.ports.image? a

/-- The number of nodes that are mapped. -/
def assignedNodes (s : Assignment) : Nat := s.nodes.assigned

/-- The number of ports that are mapped. -/
def assignedPorts (s : Assignment) : Nat := s.ports.assigned

/-- Is every listed node and port mapped? -/
def isComplete (s : Assignment) : Bool := s.nodes.complete && s.ports.complete

/-! ## Snapshots -/

/-- The bindings of a table, ascending by id.  An id without a description is left out; an image
without one counts as no image. -/
def bindings {ι : Type} [Ord ι] [Std.TransOrd ι] (m : Images ι)
    (label imageLabel : ι → Option String) : List Binding :=
  m.toList.filterMap fun (a, c) => (label a).map fun l => ⟨l, c.bind imageLabel⟩

/-- The assignment by descriptions, those of mapped things taken from the pattern and those of
their images from the target. -/
def snapshot (s : Assignment) (pattern target : Graph) : Snapshot where
  nodes := bindings s.nodes (fun a => (pattern.node? a).map Node.desc)
    fun c => (target.node? c).map Node.desc
  ports := bindings s.ports (fun a => (pattern.port? a).map Port.desc)
    fun c => (target.port? c).map Port.desc

end Assignment

end PortMatch
