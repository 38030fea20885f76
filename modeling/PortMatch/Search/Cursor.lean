import PortMatch.Search.Problem
import PortMatch.Assignment.Basic

/-!
# Cursors over port placements

Once a node of the pattern has a host, its ports have to be placed on the ports of the host.  A
`Cursor` runs through the ways of doing so, one at a time: each port goes to a free slot of the host
(a slot is a position in the host's list of ports) that holds a port of its own kind, and whose
links to the images of the ports placed so far are all there.  The ports are placed in their order
in the pattern, and the slots are tried in ascending order, so the placements come in the order of
their lists of slots.

A cursor goes only as far as the next placement and can be taken up again later.  It keeps no copy
of the assignment to other nodes: `live` is the assignment at the time of the call.

* `Cursor.fresh` — the cursor at its beginning;
* `Cursor.step` — one move: place one more port, or go back, or yield a placement;
* `Cursor.next` — the next placement, and the cursor after it;
* `Cursor.movesLeft`, `Cursor.movesLeft_step_lt` — a number that every move makes smaller, which
  is why `Cursor.next` ends.
-/

namespace PortMatch

/-- The place that one port of the pattern was given. -/
structure Choice where
  /-- The port of the pattern. -/
  port : PortId
  /-- The position of its image in the host's list of ports. -/
  slot : Nat
  /-- Its image. -/
  image : PortId
  deriving DecidableEq

/-- A run through the placements of the ports of one node on the ports of a host. -/
structure Cursor where
  /-- The host. -/
  host : NodeId
  /-- The ports placed so far, the latest first. -/
  placed : List Choice := []
  /-- The ports not placed yet, in order. -/
  ahead : List PortId
  /-- For each slot of the host, whether a port is placed there. -/
  taken : Array Bool
  /-- The first slot to try for the next port. -/
  start : Nat := 0
  /-- Are all placements behind? -/
  done : Bool := false
  deriving DecidableEq

/-! ## What a place has to satisfy -/

namespace Problem

/-- The images of the neighbors of a port that are placed already, those among `placed` and those
that `live` maps. -/
def anchors (P : Problem) (live : Assignment) (placed : List Choice) (port : PortId) :
    List PortId :=
  (P.pattern.neighbors port).filterMap fun q =>
    ((placed.find? fun ch => ch.port = q).map Choice.image).or (live.port? q)

end Problem

namespace Cursor

/-- The cursor over the placements of the ports of the node `n` on those of the host `c`, at its
beginning. -/
def fresh (P : Problem) (n c : NodeId) : Cursor where
  host := c
  ahead := (P.pattern.portsOf n).toList
  taken := Array.replicate (P.target.portsOf c).size false

/-- The place of `port` in a slot, if the slot is free, holds a port of the same kind, and is linked
to all anchors. -/
def place? (P : Problem) (c : Cursor) (anchors : List PortId) (port : PortId) (slot : Nat) :
    Option Choice :=
  match (P.target.portsOf c.host)[slot]?, c.taken[slot]? with
  | some image, some false =>
    if P.target.kind? image = P.pattern.kind? port ∧ anchors.all (P.target.connected image) then
      some ⟨port, slot, image⟩
    else none
  | _, _ => none

/-- The first place for `port` from the cursor's first slot on. -/
def choice? (P : Problem) (live : Assignment) (c : Cursor) (port : PortId) : Option Choice :=
  let anchors := P.anchors live c.placed port
  (List.range' c.start (c.taken.size - c.start)).findSome? (c.place? P anchors port)

/-! ## Moves -/

/-- Places the next port; `rest` are the ports after it. -/
def extend (c : Cursor) (ch : Choice) (rest : List PortId) : Cursor :=
  { c with
    placed := ch :: c.placed
    ahead := rest
    taken := c.taken.setIfInBounds ch.slot true
    start := 0 }

/-- Takes the latest placed port back, to try it on the slots after its own. -/
def retreat (c : Cursor) : Cursor :=
  match c.placed with
  | [] => { c with done := true }
  | ch :: rest =>
    { c with
      placed := rest
      ahead := ch.port :: c.ahead
      taken := c.taken.setIfInBounds ch.slot false
      start := ch.slot + 1 }

/-- What a move of a cursor leads to. -/
inductive Move where
  /-- The cursor has moved on. -/
  | moved (c : Cursor)
  /-- All ports are placed as given, and the cursor has gone back once. -/
  | yielded (choices : List Choice) (c : Cursor)

/-- The cursor after a move. -/
def Move.cursor : Move → Cursor
  | moved c => c
  | yielded _ c => c

/-- One move: the next port is placed in the first slot possible; if there is none the cursor goes
back; if no port is left the placement is complete. -/
def step (P : Problem) (live : Assignment) (c : Cursor) : Move :=
  match c.ahead with
  | [] => .yielded c.placed.reverse c.retreat
  | port :: rest =>
    match c.choice? P live port with
    | some ch => .moved (c.extend ch rest)
    | none => .moved c.retreat

/-! ## Why the moves come to an end

The list of the slots in use, together with the first slot to try next, goes up in the order of the
placements.  Read as a number whose digits count the slots that are left at each place, it goes
down. -/

/-- Of `slots` many slots, the number of those from `start` on, and one more. -/
def slotsLeft (slots start : Nat) : Nat := slots - start + 1

/-- What one slot counts for when `depth` ports are ahead: more than all slots together with one
port less ahead. -/
def slotWeight (slots : Nat) : Nat → Nat
  | 0 => slots + 2
  | depth + 1 => (slots + 2) * slotWeight slots depth

/-- The moves that are left after the given choices have been taken back, `depth` being the number
of ports ahead by then. -/
def movesBehind (slots : Nat) : Nat → List Choice → Nat
  | _, [] => 0
  | depth, ch :: rest =>
    slotsLeft slots (ch.slot + 1) * slotWeight slots depth + movesBehind slots (depth + 1) rest

/-- A bound on the number of moves that are left. -/
def movesLeft (c : Cursor) : Nat :=
  if c.done then 0
  else
    slotsLeft c.taken.size c.start * slotWeight c.taken.size c.ahead.length
      + movesBehind c.taken.size (c.ahead.length + 1) c.placed

theorem slotWeight_pos (slots depth : Nat) : 0 < slotWeight slots depth := by
  induction depth with
  | zero => simp [slotWeight]
  | succ depth ih => exact Nat.mul_pos (by omega) ih

theorem movesLeft_of_done {c : Cursor} (h : c.done = true) : c.movesLeft = 0 := by
  simp [movesLeft, h]

/-- Going back leaves fewer moves. -/
theorem movesLeft_retreat_lt {c : Cursor} (h : c.done = false) :
    c.retreat.movesLeft < c.movesLeft := by
  have hpos : 0 < slotsLeft c.taken.size c.start * slotWeight c.taken.size c.ahead.length :=
    Nat.mul_pos (by simp [slotsLeft]) (slotWeight_pos _ _)
  unfold retreat
  split
  · rw [movesLeft_of_done rfl]
    simp only [movesLeft, h, Bool.false_eq_true, if_false]
    omega
  · next ch rest hplaced =>
    simp only [movesLeft, h, hplaced, movesBehind, List.length_cons, Array.size_setIfInBounds,
      Bool.false_eq_true, if_false]
    omega

theorem choice?_slot {P : Problem} {live : Assignment} {c : Cursor} {port : PortId} {ch : Choice}
    (h : c.choice? P live port = some ch) : c.start ≤ ch.slot ∧ ch.slot < c.taken.size := by
  obtain ⟨slot, hmem, hplace⟩ := List.exists_of_findSome?_eq_some h
  obtain ⟨hstart, hstop⟩ := List.mem_range'_1.1 hmem
  unfold place? at hplace
  split at hplace
  · split at hplace
    · cases hplace
      exact ⟨hstart, by simp only; omega⟩
    · cases hplace
  · cases hplace

/-- Placing a port leaves fewer moves. -/
theorem movesLeft_extend_lt {c : Cursor} {ch : Choice} {port : PortId} {rest : List PortId}
    (h : c.done = false) (hahead : c.ahead = port :: rest) (hstart : c.start ≤ ch.slot)
    (hslot : ch.slot < c.taken.size) : (c.extend ch rest).movesLeft < c.movesLeft := by
  simp only [movesLeft, extend, h, hahead, movesBehind, slotsLeft, slotWeight, List.length_cons,
    Array.size_setIfInBounds, Bool.false_eq_true, if_false]
  have hpos := slotWeight_pos c.taken.size rest.length
  generalize slotWeight c.taken.size rest.length = w at *
  have hslots : c.taken.size - (ch.slot + 1) + 1 + 1 ≤ c.taken.size - c.start + 1 := by omega
  have hmul := Nat.mul_le_mul_right ((c.taken.size + 2) * w) hslots
  rw [Nat.add_mul _ 1, Nat.one_mul] at hmul
  have hall : (c.taken.size - 0 + 1) * w < (c.taken.size + 2) * w :=
    Nat.mul_lt_mul_of_pos_right (by omega) hpos
  omega

/-- Every move leaves fewer moves. -/
theorem movesLeft_step_lt (P : Problem) (live : Assignment) {c : Cursor} (h : c.done = false) :
    (c.step P live).cursor.movesLeft < c.movesLeft := by
  unfold step
  cases hahead : c.ahead with
  | nil => exact movesLeft_retreat_lt h
  | cons port rest =>
    cases hch : c.choice? P live port with
    | none => simpa only [hch, Move.cursor] using movesLeft_retreat_lt h
    | some ch =>
      obtain ⟨hstart, hslot⟩ := choice?_slot hch
      simpa only [hch, Move.cursor] using movesLeft_extend_lt h hahead hstart hslot

/-! ## The next placement -/

/-- The next placement, as the list of choices in the order of the ports, and the cursor from which
to go on; nothing when all placements are behind. -/
def next (P : Problem) (live : Assignment) (c : Cursor) : Option (List Choice) × Cursor :=
  if _hdone : c.done = true then (none, c)
  else
    match _hstep : c.step P live with
    | .moved c' => next P live c'
    | .yielded choices c' => (some choices, c')
termination_by c.movesLeft
decreasing_by
  have := movesLeft_step_lt P live (Bool.eq_false_iff.2 _hdone)
  rwa [_hstep] at this

/-- A cursor that yields a placement has fewer moves left. -/
theorem movesLeft_next_lt {P : Problem} {live : Assignment} {c c' : Cursor}
    {choices : List Choice} (h : c.next P live = (some choices, c')) :
    c'.movesLeft < c.movesLeft := by
  fun_induction next P live c with
  | case1 c _ => cases h
  | case2 c hdone c'' hstep ih =>
    have hlt := movesLeft_step_lt P live (Bool.eq_false_iff.2 hdone)
    rw [hstep] at hlt
    exact Nat.lt_trans (ih h) hlt
  | case3 c hdone cs c'' hstep =>
    have hlt := movesLeft_step_lt P live (Bool.eq_false_iff.2 hdone)
    rw [hstep] at hlt
    cases h
    exact hlt

end Cursor

end PortMatch
