import Std.Data.ExtTreeMap

/-!
# Images

A table that lists ids, each with the id it is mapped to or with nothing: an id may be listed and
not be mapped yet, which differs from not being listed at all.  Nodes and ports are mapped by one
such table each.

* `Images.image?` — what an id is mapped to;
* `Images.assign`, `Images.clear` — map one id; list ids as not mapped;
* `Images.assigned`, `Images.complete` — how many ids are mapped, and whether all listed ones are.

The table is an ordered map, so it lists its ids in ascending order, and two tables are equal when
they list the same ids with the same images.
-/

namespace PortMatch

/-- A table of ids with what they are mapped to. -/
abbrev Images (ι : Type) [Ord ι] : Type := Std.ExtTreeMap ι (Option ι)

namespace Images

variable {ι : Type} [Ord ι] [Std.TransOrd ι]

/-- What an id is mapped to; nothing if the id is not mapped or not listed. -/
def image? (m : Images ι) (a : ι) : Option ι := m[a]?.join

/-- Maps `a` to `c`, whatever it was mapped to before. -/
def assign (m : Images ι) (a c : ι) : Images ι := m.insert a (some c)

/-- Lists the given ids as not mapped, whatever they were mapped to before. -/
def clear (m : Images ι) (ids : List ι) : Images ι := ids.foldl (fun m a => m.insert a none) m

/-- The table that lists the given ids, none of them mapped. -/
def unassigned (ids : List ι) : Images ι := clear ∅ ids

/-- The number of ids that are mapped. -/
def assigned (m : Images ι) : Nat := m.toList.countP fun entry => entry.2.isSome

/-- Is every listed id mapped? -/
def complete (m : Images ι) : Bool := m.toList.all fun entry => entry.2.isSome

end Images

end PortMatch
