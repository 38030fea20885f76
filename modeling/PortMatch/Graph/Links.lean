import PortMatch.Graph.Ident
import Std.Data.ExtTreeMap
import Std.Data.ExtTreeSet

/-!
# Links

A link joins two ports and has no direction.  `Links` stores the links of a graph twice: as a set,
which answers whether two ports are joined, and as a list of partners for each port, which keeps the
order in which the links were made.

* `Link.between` — the link of two ports, the same for either order of the two;
* `Links.insert` — one more link;
* `Links.contains`, `Links.partners`, `Links.size` — what a graph asks of its links.
-/

namespace PortMatch

/-- A pair of joined ports, the one with the lower id first. -/
structure Link where
  /-- The port with the lower id. -/
  low : PortId
  /-- The port with the higher id. -/
  high : PortId
  deriving DecidableEq

namespace Link

instance : Ord Link where
  compare := compareLex (compareOn low) (compareOn high)

instance : Std.TransOrd Link :=
  inferInstanceAs (Std.TransCmp (compareLex (compareOn low) (compareOn high)))

instance : Std.LawfulEqOrd Link where
  eq_of_compare {a b} h := by
    obtain ⟨hlow, hhigh⟩ := Ordering.then_eq_eq.1 h
    cases a; cases b
    exact congr (congrArg mk (Std.LawfulEqCmp.eq_of_compare hlow))
      (Std.LawfulEqCmp.eq_of_compare hhigh)

/-- The link of two ports. -/
def between (a b : PortId) : Link := if a.index ≤ b.index then ⟨a, b⟩ else ⟨b, a⟩

theorem between_comm (a b : PortId) : between a b = between b a := by
  cases a; cases b
  grind [between]

end Link

/-- The links of a graph. -/
structure Links where
  /-- The pairs of joined ports. -/
  pairs : Std.ExtTreeSet Link := ∅
  /-- The partners of each joined port, in the order in which the links were made.  A port that is
  joined to no other has no entry. -/
  partnersOf : Std.ExtTreeMap PortId (List PortId) := ∅

namespace Links

/-- Are the two ports joined? -/
def contains (l : Links) (a b : PortId) : Bool := l.pairs.contains (Link.between a b)

/-- The ports joined to `a`, in the order in which the links were made. -/
def partners (l : Links) (a : PortId) : List PortId := l.partnersOf.getD a []

/-- The number of links. -/
def size (l : Links) : Nat := l.pairs.size

/-- Notes `b` as the latest partner of `a`. -/
def notePartner (l : Links) (a b : PortId) : Links :=
  { l with partnersOf := l.partnersOf.insert a (l.partners a ++ [b]) }

/-- The links with one more, between two different ports that are not joined yet. -/
def insert (l : Links) (a b : PortId) : Links :=
  { ((l.notePartner a b).notePartner b a) with pairs := l.pairs.insert (Link.between a b) }

end Links

end PortMatch
