import PortMatch.Text.Detail

/-!
# Obstacles

Why a pattern could not be matched: an `Obstacle` names the node, port or kind that is in the way,
or the limit that the search ran into.  Names are those that the graphs use in their descriptions.

* `Obstacle.message` — the obstacle in words;
* `Obstacle.detail` — its detailed form.
-/

namespace PortMatch

open Text

/-- Why a pattern could not be matched. -/
inductive Obstacle where
  /-- The target has fewer nodes than the pattern. -/
  | tooFewNodes (patternNodes targetNodes : Nat)
  /-- A node has more ports than any node of the target. -/
  | insufficientPorts (node : String) (needed available : Nat)
  /-- A node has more ports of the kind of this port than any node of the target. -/
  | incompatiblePortKind (port kind : String)
  /-- No single node of the target has enough ports of every kind that a node needs. -/
  | noCompatibleNode (node : String)
  /-- The search was stopped after this many rounds. -/
  | searchLimit (rounds : Nat)
  deriving DecidableEq

namespace Obstacle

/-- The obstacle in words. -/
def message : Obstacle → String
  | .tooFewNodes patternNodes targetNodes =>
    "the abstract graph has " ++ toString patternNodes ++ " nodes but the concrete graph only has "
      ++ toString targetNodes
  | .insufficientPorts node needed available =>
    "node " ++ quote node ++ " needs " ++ toString needed
      ++ " ports but no concrete node has more than " ++ toString available
  | .incompatiblePortKind port kind =>
    "no concrete node offers enough ports of kind " ++ quote kind ++ " for port " ++ quote port
  | .noCompatibleNode node =>
    "no concrete node has a compatible set of ports for node " ++ quote node
  | .searchLimit rounds => "search gave up after " ++ toString rounds ++ " rounds"

/-- The detailed form of an obstacle. -/
def detail : Obstacle → String
  | .tooFewNodes patternNodes targetNodes =>
    Detail.record "TooFewNodes"
      [("abstract_nodes", toString patternNodes), ("concrete_nodes", toString targetNodes)]
  | .insufficientPorts node needed available =>
    Detail.record "InsufficientPorts"
      [("node", quote node), ("needed", toString needed), ("available", toString available)]
  | .incompatiblePortKind port kind =>
    Detail.record "IncompatiblePortKind" [("port", quote port), ("kind", quote kind)]
  | .noCompatibleNode node => Detail.record "NoCompatibleNode" [("node", quote node)]
  | .searchLimit rounds => Detail.tuple "SearchLimit" [toString rounds]

end Obstacle

end PortMatch
