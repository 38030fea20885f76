import Mathlib
import PortMatch.Search.Cursor

/-!
# Placements in columns

A cursor keeps each choice as a whole, with its port, its slot and its image.  Here a run through
the placements is set out in columns: the ports with their images, and the slots, are two lists that
are lengthened and shortened each on its own, and the next port is looked up by the number of ports
that are placed.  Nothing in the columns keeps them in step; that they are is a matter of how a turn
changes them.

* `Columns` — the lists, the marks, the first slot to try, and whether all placements are behind;
* `Columns.turn` — one turn of the loop that looks for the next placement;
* `Columns.InStep`, `Columns.InStep.turn` — how the columns go together, and that every turn keeps
  them so;
* `Columns.position`, `Columns.before_turn` — how far the run is, and that every turn takes it
  forward.
-/

namespace PortMatch

/-- A run through the placements of the ports of one node on the ports of a host, in columns. -/
structure Columns where
  /-- The host. -/
  host : NodeId
  /-- The ports placed so far, each with its image, in their order. -/
  pairs : List (PortId × PortId) := []
  /-- The slots in which they are placed. -/
  slots : List ℕ := []
  /-- For each slot of the host, whether a port is placed there. -/
  taken : Array Bool
  /-- The first slot to try for the next port. -/
  start : ℕ := 0
  /-- Are all placements behind? -/
  done : Bool := false
  deriving DecidableEq

namespace Columns

variable {P : Problem} {live : Assignment} {n : NodeId} {k : Columns}

/-! ## Turns -/

/-- The columns at the beginning. -/
def fresh (P : Problem) (host : NodeId) : Columns where
  host := host
  taken := Array.replicate (P.target.portsOf host).size false

/-- The image of a port, be it placed in the columns or mapped by `live`. -/
def image? (live : Assignment) (k : Columns) (q : PortId) : Option PortId :=
  ((k.pairs.find? fun pair => pair.1 = q).map Prod.snd).or (live.port? q)

/-- A slot with the port that it holds, if it is free, the port is of the right kind, and it is
linked to the images of all neighbors of `port` that have one. -/
def seat? (P : Problem) (live : Assignment) (k : Columns) (port : PortId) (slot : ℕ) :
    Option (ℕ × PortId) :=
  match (P.target.portsOf k.host)[slot]?, k.taken[slot]? with
  | some image, some false =>
    if P.target.kind? image = P.pattern.kind? port ∧
        ((P.pattern.neighbors port).all fun q => (k.image? live q).all (P.target.connected image))
    then some (slot, image)
    else none
  | _, _ => none

/-- The first slot that can be had from `start` on. -/
def firstSeat? (P : Problem) (live : Assignment) (k : Columns) (port : PortId) :
    Option (ℕ × PortId) :=
  (List.range' k.start ((P.target.portsOf k.host).size - k.start)).findSome?
    (k.seat? P live port)

/-- Every column is made one longer. -/
def push (k : Columns) (port : PortId) (slot : ℕ) (image : PortId) : Columns :=
  { k with
    pairs := k.pairs ++ [(port, image)]
    slots := k.slots ++ [slot]
    taken := k.taken.setIfInBounds slot true
    start := 0 }

/-- Every column is made one shorter, if there is a slot to take back. -/
def pop (k : Columns) : Columns :=
  match k.slots.getLast? with
  | none => { k with done := true }
  | some slot =>
    { k with
      pairs := k.pairs.dropLast
      slots := k.slots.dropLast
      taken := k.taken.setIfInBounds slot false
      start := slot + 1 }

/-- One turn of the loop that looks for the next placement of the ports of the node `n`. -/
def turn (P : Problem) (live : Assignment) (n : NodeId) (k : Columns) : Columns :=
  if k.done then k
  else
    match (P.pattern.portsOf n)[k.pairs.length]? with
    | none => k.pop
    | some port =>
      match k.firstSeat? P live port with
      | some (slot, image) => k.push port slot image
      | none => k.pop

theorem firstSeat?_eq_some {port image : PortId} {slot : ℕ}
    (h : k.firstSeat? P live port = some (slot, image)) :
    k.start ≤ slot ∧ (P.target.portsOf k.host)[slot]? = some image ∧
      k.taken[slot]? = some false := by
  obtain ⟨slot', hmem, hseat⟩ := List.exists_of_findSome?_eq_some h
  unfold seat? at hseat
  split at hseat
  · next himage hfree =>
    split at hseat
    · cases hseat
      exact ⟨(List.mem_range'_1.1 hmem).1, himage, hfree⟩
    · cases hseat
  · cases hseat

/-! ## How the columns go together -/

/-- The columns are those of a run through the placements of the ports of the node `n` on the ports
of the node `c`. -/
structure InStep (P : Problem) (n c : NodeId) (k : Columns) : Prop where
  /-- The host does not change. -/
  host : k.host = c
  /-- There is a slot for every port that is placed. -/
  length : k.slots.length = k.pairs.length
  /-- No more ports are placed than there are. -/
  length_le : k.pairs.length ≤ (P.pattern.portsOf n).size
  /-- The ports that are placed are the first ones of the node, and each has for its image the port
  that its slot holds. -/
  pairs : ∀ (j : ℕ) port image, k.pairs[j]? = some (port, image) →
    (P.pattern.portsOf n)[j]? = some port ∧
      ∃ slot, k.slots[j]? = some slot ∧ (P.target.portsOf c)[slot]? = some image
  /-- Different ports have different slots. -/
  nodup : k.slots.Nodup
  /-- Every port of the host has a mark. -/
  size : k.taken.size = (P.target.portsOf c).size
  /-- The slots that are marked are those of the ports that are placed. -/
  taken : ∀ i, k.taken[i]? = some true ↔ i ∈ k.slots
  /-- The first slot to try is one of the host, or the one after the last. -/
  start_le : k.start ≤ (P.target.portsOf c).size
  /-- At the end no port is placed. -/
  done : k.done = true → k.slots = []

namespace InStep

variable {c : NodeId}

theorem fresh (P : Problem) (n c : NodeId) : (Columns.fresh P c).InStep P n c where
  host := rfl
  length := rfl
  length_le := Nat.zero_le _
  pairs := by simp [Columns.fresh]
  nodup := List.nodup_nil
  size := Array.size_replicate
  taken := by simp [Columns.fresh, Array.getElem?_replicate]
  start_le := Nat.zero_le _
  done := fun _ => rfl

theorem lt_size (h : k.InStep P n c) {slot : ℕ} (hslot : slot ∈ k.slots) :
    slot < (P.target.portsOf c).size := by
  obtain ⟨hlt, -⟩ := Array.getElem?_eq_some_iff.1 ((h.taken slot).2 hslot)
  exact h.size ▸ hlt

/-- The next port is placed in a slot that is free. -/
theorem push (h : k.InStep P n c) (hdone : k.done = false) {port image : PortId} {slot : ℕ}
    (hport : (P.pattern.portsOf n)[k.pairs.length]? = some port)
    (himage : (P.target.portsOf c)[slot]? = some image) (hfree : k.taken[slot]? = some false) :
    (k.push port slot image).InStep P n c := by
  have hnew : slot ∉ k.slots := by
    rw [← h.taken, hfree]
    simp
  constructor
  case host => exact h.host
  case length => simp [Columns.push, h.length]
  case length_le =>
    obtain ⟨hlt, -⟩ := Array.getElem?_eq_some_iff.1 hport
    simpa [Columns.push] using hlt
  case pairs =>
    intro j q q' hj
    -- an earlier pair, the new one, or none at all
    rcases Nat.lt_trichotomy j k.pairs.length with hlt | rfl | hgt
    · have hj' : k.pairs[j]? = some (q, q') := by
        rwa [Columns.push, List.getElem?_append_left hlt] at hj
      obtain ⟨hq, slot', hslot', hq'⟩ := h.pairs j q q' hj'
      refine ⟨hq, slot', ?_, hq'⟩
      rwa [Columns.push, List.getElem?_append_left (h.length ▸ hlt)]
    · obtain ⟨rfl, rfl⟩ : port = q ∧ image = q' := by simpa [Columns.push] using hj
      exact ⟨hport, slot, by simp [Columns.push, ← h.length], himage⟩
    · obtain ⟨hlt, -⟩ := List.getElem?_eq_some_iff.1 hj
      simp only [Columns.push, List.length_append, List.length_singleton] at hlt
      omega
  case nodup =>
    have hnodup := h.nodup.concat hnew
    rwa [List.concat_eq_append] at hnodup
  case size => simpa [Columns.push] using h.size
  case taken =>
    intro i
    have hlt : slot < k.taken.size := (Array.getElem?_eq_some_iff.1 hfree).1
    by_cases hi : slot = i
    · subst hi
      simp [Columns.push, hlt]
    · simp [Columns.push, hi, Ne.symm hi, h.taken]
  case start_le => exact Nat.zero_le _
  case done =>
    intro hd
    rw [Columns.push, hdone] at hd
    cases hd

/-- The latest port is taken back. -/
theorem pop (h : k.InStep P n c) : k.pop.InStep P n c := by
  unfold Columns.pop
  split
  · next hlast =>
    exact { h with done := fun _ => List.getLast?_eq_none_iff.1 hlast }
  · next slot hlast =>
    obtain ⟨front, hslots⟩ := List.getLast?_eq_some_iff.1 hlast
    -- the slot that is taken back had been marked
    have hslot : slot < k.taken.size := by
      rw [h.size]
      exact h.lt_size (by simp [hslots])
    have hnodup := h.nodup
    rw [hslots, ← List.concat_eq_append, List.nodup_concat] at hnodup
    constructor
    case host => exact h.host
    case length => simp [h.length]
    case length_le => exact (List.dropLast_sublist _).length_le.trans h.length_le
    case pairs =>
      intro j q q' hj
      rw [List.getElem?_dropLast] at hj
      split at hj
      · next hlt =>
        obtain ⟨hq, slot', hslot', hq'⟩ := h.pairs j q q' hj
        refine ⟨hq, slot', ?_, hq'⟩
        rwa [List.getElem?_dropLast, if_pos (h.length ▸ hlt)]
      · cases hj
    case nodup => simpa [hslots] using hnodup.2
    case size => simpa using h.size
    case taken =>
      intro i
      by_cases hi : slot = i
      · subst hi
        simp [hslot, hslots, hnodup.1]
      · simp [hi, h.taken, hslots, Ne.symm hi]
    case start_le => exact h.size ▸ hslot
    case done =>
      intro hd
      have hnil := h.done hd
      simp [hslots] at hnil

/-- Every turn keeps the columns in step. -/
theorem turn (h : k.InStep P n c) (live : Assignment) : (k.turn P live n).InStep P n c := by
  unfold Columns.turn
  split
  · exact h
  · next hdone =>
    split
    · exact h.pop
    · next port hport =>
      split
      · next slot image hseat =>
        obtain ⟨-, himage, hfree⟩ := firstSeat?_eq_some hseat
        exact h.push (Bool.eq_false_iff.2 hdone) hport (h.host ▸ himage) hfree
      · exact h.pop

end InStep

/-! ## Positions -/

/-- How far the run is: the slots in use, and after them the first slot to try.  Positions are
compared in lexicographic order, in which a list comes before all of its extensions. -/
def position (k : Columns) : List ℕ := k.slots ++ [k.start]

/-- A port that is placed takes the run forward. -/
theorem position_lt_push {port image : PortId} {slot : ℕ} (h : k.start ≤ slot) :
    k.position < (k.push port slot image).position := by
  have hlt : [k.start] < [slot, 0] := by
    rcases Nat.lt_or_eq_of_le h with hlt | heq
    · exact List.cons_lt_cons_iff.2 (.inl hlt)
    · exact List.cons_lt_cons_iff.2 (.inr ⟨heq, List.nil_lt_cons 0 []⟩)
  have hmore : k.slots ++ [k.start] < k.slots ++ [slot, 0] := List.append_left_lt hlt
  simpa [position, push] using hmore

/-- A port that is taken back takes the run forward, to the slots after its own. -/
theorem position_lt_pop (h : k.pop.done = false) : k.position < k.pop.position := by
  unfold pop at h ⊢
  split
  · next hlast => simp [hlast] at h
  · next slot hlast =>
    obtain ⟨front, hslots⟩ := List.getLast?_eq_some_iff.1 hlast
    have hlt : [slot, k.start] < [slot + 1] := List.cons_lt_cons_iff.2 (.inl (Nat.lt_succ_self _))
    have hmore : front ++ [slot, k.start] < front ++ [slot + 1] := List.append_left_lt hlt
    simpa [position, hslots] using hmore

/-- The run is farther with the columns `k'` than with `k`, unless it is done by then. -/
def Before (k k' : Columns) : Prop :=
  k'.done = false → k.done = false ∧ k.position < k'.position

instance : Trans Before Before Before where
  trans hab hbc hdone :=
    have hb := hbc hdone
    have ha := hab hb.1
    ⟨ha.1, ha.2.trans hb.2⟩

/-- Every turn takes the run forward, until it is done. -/
theorem before_turn (live : Assignment) : k.Before (k.turn P live n) := by
  intro h
  unfold turn at h ⊢
  split at h
  · next hdone =>
    rw [hdone] at h
    cases h
  · next hdone =>
    refine ⟨Bool.eq_false_iff.2 hdone, ?_⟩
    rw [if_neg hdone]
    split at h
    · exact position_lt_pop h
    · split at h
      · next hseat => exact position_lt_push (firstSeat?_eq_some hseat).1
      · exact position_lt_pop h

end Columns

end PortMatch
