import PortMatch.Search.Cursor

/-!
# Frames

A frame holds what the search has not tried yet for one goal: a cursor for every host that is left,
in ascending order of the hosts.  The placements that a frame yields are *pins*; each names the host
and the places of the ports there.

* `Frame.fresh` — the frame of a goal at its beginning, for the hosts not in use elsewhere;
* `Frame.next` — the next pin, and the frame after it;
* `Frame.movesLeft_next_lt` — a frame that yields a pin has less left to do.
-/

namespace PortMatch

/-- A way to place a node of the pattern: its host, and the places of its ports. -/
structure Pin where
  /-- The host. -/
  host : NodeId
  /-- The places of the ports, in the order of the ports. -/
  choices : List Choice
  deriving DecidableEq

/-- What has not been tried yet for one goal. -/
structure Frame where
  /-- The goal. -/
  goal : Goal
  /-- A cursor for each host that is left. -/
  cursors : List Cursor
  deriving DecidableEq

namespace Cursor

/-- The next placement of the first cursor that has one, and the cursors from which to go on. -/
def firstNext (P : Problem) (live : Assignment) : List Cursor → Option Pin × List Cursor
  | [] => (none, [])
  | c :: rest =>
    match c.next P live with
    | (some choices, c') => (some ⟨c.host, choices⟩, c' :: rest)
    | (none, _) => firstNext P live rest

/-- A bound on the number of moves that are left for all of the cursors. -/
def totalMovesLeft : List Cursor → Nat
  | [] => 0
  | c :: rest => c.movesLeft + totalMovesLeft rest

theorem totalMovesLeft_firstNext_lt {P : Problem} {live : Assignment} {cs cs' : List Cursor}
    {pin : Pin} (h : firstNext P live cs = (some pin, cs')) :
    totalMovesLeft cs' < totalMovesLeft cs := by
  induction cs with
  | nil => cases h
  | cons c rest ih =>
    unfold firstNext at h
    split at h
    · next choices c' hnext =>
      cases h
      exact Nat.add_lt_add_right (movesLeft_next_lt hnext) _
    · exact Nat.lt_of_lt_of_le (ih h) (Nat.le_add_left _ _)

end Cursor

/-- A bound on the number of moves it takes to try all placements of a goal. -/
def Goal.moves (P : Problem) (g : Goal) : Nat :=
  Cursor.totalMovesLeft (g.hosts.map (Cursor.fresh P g.node))

namespace Frame

/-- The frame of a goal at its beginning.  Hosts that are in use are passed over. -/
def fresh (P : Problem) (inUse : NodeId → Bool) (g : Goal) : Frame where
  goal := g
  cursors := (g.hosts.filter fun c => !inUse c).map (Cursor.fresh P g.node)

/-- The next pin, and the frame from which to go on; nothing when everything has been tried. -/
def next (P : Problem) (live : Assignment) (f : Frame) : Option Pin × Frame :=
  let (pin, cursors) := Cursor.firstNext P live f.cursors
  (pin, { f with cursors })

/-- A bound on the number of moves that are left. -/
def movesLeft (f : Frame) : Nat := Cursor.totalMovesLeft f.cursors

theorem goal_next (P : Problem) (live : Assignment) (f : Frame) :
    (f.next P live).2.goal = f.goal := rfl

/-- A frame that yields a pin has less left to do. -/
theorem movesLeft_next_lt {P : Problem} {live : Assignment} {f f' : Frame} {pin : Pin}
    (h : f.next P live = (some pin, f')) : f'.movesLeft < f.movesLeft := by
  obtain ⟨hpin, rfl⟩ := Prod.mk.inj h
  exact Cursor.totalMovesLeft_firstNext_lt (Prod.ext hpin rfl)

/-- Passing over hosts leaves no more to do. -/
theorem movesLeft_fresh_le (P : Problem) (inUse : NodeId → Bool) (g : Goal) :
    (fresh P inUse g).movesLeft ≤ g.moves P := by
  unfold movesLeft fresh Goal.moves
  induction g.hosts with
  | nil => simp
  | cons c rest ih =>
    by_cases h : inUse c = true <;> simp [h, Cursor.totalMovesLeft] at * <;> omega

end Frame

end PortMatch
