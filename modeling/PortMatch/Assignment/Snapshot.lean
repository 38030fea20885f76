import PortMatch.Text.Detail

/-!
# Snapshots

A snapshot shows a mapping by descriptions instead of ids, so that it can be read without the graphs
at hand.  It lists bindings, those of nodes apart from those of ports; a `Binding` is the
description of a mapped thing together with that of its image, if it has one.

* `Binding` — a line of a snapshot; bindings are ordered by their texts;
* `Snapshot.assignedNode` and the like — a snapshot with one more binding at the end;
* `Binding.detail`, `Snapshot.detail` — the detailed forms.
-/

namespace PortMatch

open Text

/-! ## Bindings -/

/-- The description of a thing and that of its image. -/
structure Binding where
  /-- The description of the mapped thing. -/
  label : String
  /-- The description of its image, if it has one. -/
  image : Option String
  deriving DecidableEq

namespace Binding

/-- Bindings are ordered by the description of the mapped thing, then by that of its image, where
having none comes first. -/
instance : Ord Binding where
  compare := compareLex (compareOn label) (compareOn image)

instance : Std.TransOrd Binding :=
  inferInstanceAs (Std.TransCmp (compareLex (compareOn label) (compareOn image)))

instance : Std.LawfulEqOrd Binding where
  eq_of_compare {a b} h := by
    obtain ⟨hlabel, himage⟩ := Ordering.then_eq_eq.1 h
    cases a; cases b
    exact congr (congrArg mk (Std.LawfulEqCmp.eq_of_compare hlabel))
      (Std.LawfulEqCmp.eq_of_compare himage)

/-- The detailed form of a binding. -/
def detail (b : Binding) : String :=
  Detail.record "Binding"
    [("abstract_desc", quote b.label), ("concrete_desc", Detail.option (b.image.map quote))]

end Binding

/-! ## Snapshots -/

/-- A mapping, shown by descriptions. -/
structure Snapshot where
  /-- The bindings of the nodes. -/
  nodes : List Binding := []
  /-- The bindings of the ports. -/
  ports : List Binding := []
  deriving DecidableEq

namespace Snapshot

/-- The snapshot with one more node, which is mapped. -/
def assignedNode (s : Snapshot) (label image : String) : Snapshot :=
  { s with nodes := s.nodes ++ [⟨label, some image⟩] }

/-- The snapshot with one more node, which is not mapped. -/
def unassignedNode (s : Snapshot) (label : String) : Snapshot :=
  { s with nodes := s.nodes ++ [⟨label, none⟩] }

/-- The snapshot with one more port, which is mapped. -/
def assignedPort (s : Snapshot) (label image : String) : Snapshot :=
  { s with ports := s.ports ++ [⟨label, some image⟩] }

/-- The snapshot with one more port, which is not mapped. -/
def unassignedPort (s : Snapshot) (label : String) : Snapshot :=
  { s with ports := s.ports ++ [⟨label, none⟩] }

/-- The detailed form of a snapshot. -/
def detail (s : Snapshot) : String :=
  Detail.record "AssignmentSnapshot"
    [("nodes", Detail.list (s.nodes.map Binding.detail)),
      ("ports", Detail.list (s.ports.map Binding.detail))]

end Snapshot

end PortMatch
