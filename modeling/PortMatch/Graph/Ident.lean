import PortMatch.Text.Detail

/-!
# Identities and kinds

The nodes and the ports of a graph are numbered in the order in which they were added, and are
referred to by these numbers.  `NodeId` and `PortId` keep the two kinds of number apart.  A
`PortKind` says what a port is good for: a port can only stand for a port of the same kind.

Ids are ordered by number, kinds by name; both orders are linear, so ids can be the keys of ordered
maps and sets.
-/

namespace PortMatch

open Text

/-! ## Node ids -/

/-- The number of a node within its graph. -/
structure NodeId where
  /-- The position of the node among the nodes of its graph. -/
  index : Nat
  deriving DecidableEq

namespace NodeId

instance : Ord NodeId where
  compare := compareOn index

instance : Std.TransOrd NodeId := inferInstanceAs (Std.TransCmp (compareOn index))

instance : Std.LawfulEqOrd NodeId where
  eq_of_compare {a b} h := by
    cases a; cases b
    exact congrArg mk (Nat.compare_eq_eq.1 h)

/-- The detailed form of a node id. -/
def detail (n : NodeId) : String := Detail.tuple "NodeId" [toString n.index]

end NodeId

/-! ## Port ids -/

/-- The number of a port within its graph. -/
structure PortId where
  /-- The position of the port among the ports of its graph. -/
  index : Nat
  deriving DecidableEq

namespace PortId

instance : Ord PortId where
  compare := compareOn index

instance : Std.TransOrd PortId := inferInstanceAs (Std.TransCmp (compareOn index))

instance : Std.LawfulEqOrd PortId where
  eq_of_compare {a b} h := by
    cases a; cases b
    exact congrArg mk (Nat.compare_eq_eq.1 h)

/-- The detailed form of a port id. -/
def detail (p : PortId) : String := Detail.tuple "PortId" [toString p.index]

end PortId

/-! ## Kinds -/

/-- What a port is good for. -/
structure PortKind where
  /-- The name that tells the kind from others. -/
  name : String
  deriving DecidableEq

namespace PortKind

instance : Ord PortKind where
  compare := compareOn name

instance : Std.TransOrd PortKind := inferInstanceAs (Std.TransCmp (compareOn name))

instance : Std.LawfulEqOrd PortKind where
  eq_of_compare {a b} h := by
    have hname : compare a.name b.name = .eq := h
    cases a; cases b
    exact congrArg mk (Std.LawfulEqCmp.eq_of_compare hname)

/-- The detailed form of a kind. -/
def detail (k : PortKind) : String := Detail.tuple "PortKind" [quote k.name]

end PortKind

end PortMatch
