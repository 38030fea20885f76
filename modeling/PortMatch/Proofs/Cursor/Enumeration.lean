import Mathlib
import PortMatch.Proofs.Trail.Basic

/-!
# Enumerating the placements of a node

A cursor works its way through the slots of a host one port at a time, goes back where it gets
stuck, and stops in the middle of going back whenever it has something to yield.  What comes of this
is a list that can be written down without any of it: take all ways of giving each port a slot, in
lexicographic order of the slots, and keep those that place the ports as they should be placed.

* `Problem.seatings` — all ways of giving ports slots;
* `Problem.admits`, `Problem.allPortMaps` — the test, and the seatings that pass it;
* `Problem.mem_allPortMaps`, `Problem.pairwise_allPortMaps` — what the list holds, and its order;
* `Problem.portMaps_eq_allPortMaps` — a cursor at its beginning has just this list left;
* `Cursor.answer`, `Cursor.answer_eq` — what a cursor answers when it is called again and again;
* `Problem.cursor_enumerates_port_maps` — it answers with the list, entry by entry.
-/

namespace PortMatch

namespace Problem

variable {P : Problem} {live : Assignment} {n host : NodeId}

/-! ## All at once -/

/-- All ways of giving each of some ports a slot of a host that has the ports `images`, in the
lexicographic order of the slots. -/
def seatings (images : List PortId) : List PortId → List (List Choice)
  | [] => [[]]
  | p :: rest =>
    images.zipIdx.flatMap fun (q, slot) => (seatings images rest).map (⟨p, slot, q⟩ :: ·)

/-- Are the choices for different slots, each on a port of the right kind, and are all links kept,
those among the ports that are placed and those to ports that `live` maps? -/
def admits (P : Problem) (live : Assignment) (choices : List Choice) : Bool :=
  (choices.map Choice.slot).Nodup
    && (choices.all fun ch => P.target.kind? ch.image = P.pattern.kind? ch.port)
    && (choices.all fun ch => choices.all fun d =>
      P.pattern.connected ch.port d.port → P.target.connected ch.image d.image)
    && choices.all fun ch => (P.pattern.neighbors ch.port).all fun q =>
      (live.port? q).all (P.target.connected ch.image)

/-- All placements of the ports of the node `n` on the ports of `host`. -/
def allPortMaps (P : Problem) (live : Assignment) (n host : NodeId) : List (List Choice) :=
  (seatings (P.target.portsOf host).toList (P.pattern.portsOf n).toList).filter (P.admits live)

theorem mem_seatings {images ports : List PortId} {choices : List Choice} :
    choices ∈ seatings images ports ↔
      choices.map Choice.port = ports ∧ ∀ ch ∈ choices, images[ch.slot]? = some ch.image := by
  induction ports generalizing choices with
  | nil =>
    rw [seatings, List.mem_singleton, List.map_eq_nil_iff]
    refine ⟨?_, And.left⟩
    rintro rfl
    exact ⟨rfl, by simp⟩
  | cons p rest ih =>
    simp only [seatings, List.mem_flatMap, List.mem_map, ih, Prod.exists,
      List.mem_zipIdx_iff_getElem?]
    refine ⟨?_, ?_⟩
    · rintro ⟨q, slot, hslot, later, ⟨rfl, hlater⟩, rfl⟩
      exact ⟨rfl, List.forall_mem_cons.2 ⟨hslot, hlater⟩⟩
    · rintro ⟨hports, himages⟩
      obtain ⟨ch, later, rfl, rfl, rfl⟩ := List.map_eq_cons_iff.1 hports
      obtain ⟨hch, hlater⟩ := List.forall_mem_cons.1 himages
      exact ⟨ch.image, ch.slot, hch, later, ⟨rfl, hlater⟩, rfl⟩

theorem pairwise_seatings (images ports : List PortId) :
    (seatings images ports).Pairwise fun x y => x.map Choice.slot < y.map Choice.slot := by
  induction ports with
  | nil => simp [seatings]
  | cons p rest ih =>
    have hslots : images.zipIdx.Pairwise fun a b => a.2 < b.2 := by
      have hrange := List.pairwise_lt_range' (s := 0) (n := images.length)
      rw [← List.zipIdx_map_snd] at hrange
      exact List.pairwise_map.1 hrange
    refine List.pairwise_flatMap.2 ⟨fun a _ => List.pairwise_map.2 (ih.imp ?_), hslots.imp ?_⟩
    · intro x y hlt
      exact List.cons_lt_cons_iff.2 (.inr ⟨rfl, hlt⟩)
    · intro a b hlt x hx y hy
      obtain ⟨u, -, rfl⟩ := List.mem_map.1 hx
      obtain ⟨v, -, rfl⟩ := List.mem_map.1 hy
      exact List.cons_lt_cons_iff.2 (.inl hlt)

theorem mem_allPortMaps (hP : P.pattern.WellFormed) {choices : List Choice} :
    choices ∈ P.allPortMaps live n host ↔ P.IsPortMap live n host choices := by
  simp only [allPortMaps, List.mem_filter, mem_seatings, admits, Bool.and_eq_true,
    List.all_eq_true, decide_eq_true_eq, Option.all_eq_true, hP.mem_neighbors,
    Array.getElem?_toList]
  refine ⟨?_, fun h => ?_⟩
  · rintro ⟨⟨hports, himage⟩, ⟨⟨hslots, hkind⟩, hinner⟩, houter⟩
    exact ⟨hports, himage, hslots, hkind, hinner,
      fun ch hch q q' hq hq' => houter ch hch q hq q' hq'⟩
  · exact ⟨⟨h.ports, h.image⟩, ⟨⟨h.slots, h.kind⟩, h.inner⟩,
      fun ch hch q hq q' hq' => h.outer ch hch q q' hq hq'⟩

theorem pairwise_allPortMaps (P : Problem) (live : Assignment) (n host : NodeId) :
    (P.allPortMaps live n host).Pairwise fun x y => x.map Choice.slot < y.map Choice.slot :=
  (pairwise_seatings _ _).filter _

/-! ## The same list -/

/-- A cursor yields its placements in the lexicographic order of the slots. -/
theorem pairwise_slots_portMaps (P : Problem) (live : Assignment) (n host : NodeId) :
    (P.portMaps live n host).Pairwise fun x y => x.map Choice.slot < y.map Choice.slot := by
  rw [portMaps_eq]
  refine Cursor.pairwise_completions (fun c port => ?_) _ _
  refine List.pairwise_filterMap.2 (List.Pairwise.imp ?_ List.pairwise_lt_range')
  intro i j hij ch hch d hd
  obtain ⟨-, -, -, -, -, rfl⟩ := Cursor.place?_eq_some_iff.1 hch
  obtain ⟨-, -, -, -, -, rfl⟩ := Cursor.place?_eq_some_iff.1 hd
  exact hij

/-- A cursor at its beginning has all placements left. -/
theorem portMaps_eq_allPortMaps (hP : P.pattern.WellFormed)
    (hlive : ∀ p ∈ P.pattern.portsOf n, live.port? p = none) :
    P.portMaps live n host = P.allPortMaps live n host := by
  have hirrefl : Std.Irrefl fun x y : List Choice => x.map Choice.slot < y.map Choice.slot :=
    ⟨fun x => lt_irrefl _⟩
  have hasymm : Std.Antisymm fun x y : List Choice => x.map Choice.slot < y.map Choice.slot :=
    ⟨fun x y hlt hgt => absurd hgt (lt_asymm hlt)⟩
  refine (P.pairwise_slots_portMaps live n host).eq_of_mem_iff
    (P.pairwise_allPortMaps live n host) fun choices => ?_
  rw [mem_portMaps hP hlive, mem_allPortMaps hP]

end Problem

/-! ## Call after call -/

namespace Cursor

variable {P : Problem} {live : Assignment}

/-- What a cursor answers to one of the calls that are made to it one after the other; the calls are
counted from zero. -/
def answer (P : Problem) (live : Assignment) (c : Cursor) : ℕ → Option (List Choice)
  | 0 => (c.next P live).1
  | k + 1 => (c.next P live).2.answer P live k

theorem done_of_next_none {c c' : Cursor} (h : c.next P live = (none, c')) : c'.done = true := by
  fun_induction next P live c with
  | case1 c hdone =>
    cases h
    exact hdone
  | case2 c hdone c'' hstep ih => exact ih h
  | case3 c hdone choices c'' hstep => cases h

/-- A cursor answers with the placements that it has left, one after the other. -/
theorem answer_eq (P : Problem) (live : Assignment) (c : Cursor) (k : ℕ) :
    c.answer P live k = (c.remaining P live)[k]? := by
  induction k generalizing c with
  | zero =>
    rw [answer]
    rcases hnext : c.next P live with ⟨_ | choices, c'⟩
    · rw [remaining_of_next_none hnext]
      rfl
    · rw [remaining_of_next_some hnext]
      rfl
  | succ k ih =>
    rw [answer, ih]
    rcases hnext : c.next P live with ⟨_ | choices, c'⟩
    · rw [remaining_of_next_none hnext, remaining_of_done (done_of_next_none hnext)]
      rfl
    · rw [remaining_of_next_some hnext]
      rfl

end Cursor

/-! ## What a cursor enumerates -/

/-- A node with two linked ports, one of which is linked to the port of another node. -/
def linkedTwice : List Call :=
  [.addNode "a", .addPort ⟨0⟩ "p" ⟨"wire"⟩, .addPort ⟨0⟩ "q" ⟨"wire"⟩,
    .addNode "b", .addPort ⟨1⟩ "r" ⟨"wire"⟩, .connect ⟨0⟩ ⟨1⟩, .connect ⟨2⟩ ⟨0⟩]

/-- A node with three ports of one kind in a row, and a port that the first two are linked to. -/
def threeInARow : List Call :=
  [.addNode "x", .addPort ⟨0⟩ "i" ⟨"wire"⟩, .addPort ⟨0⟩ "j" ⟨"wire"⟩, .addPort ⟨0⟩ "k" ⟨"wire"⟩,
    .addNode "y", .addPort ⟨1⟩ "l" ⟨"wire"⟩, .connect ⟨0⟩ ⟨1⟩, .connect ⟨1⟩ ⟨2⟩,
    .connect ⟨0⟩ ⟨3⟩, .connect ⟨3⟩ ⟨1⟩]

/-- To find the two linked ports among the three in a row. -/
def twoInARow : Problem where
  pattern := (Graph.empty "two").replay linkedTwice
  target := (Graph.empty "row").replay threeInARow

namespace Problem

variable {P : Problem} {live : Assignment} {n host : NodeId}

/-- Called again and again, a cursor for a node none of whose ports is mapped yet answers with the
placements of its ports on the host, each once and in the lexicographic order of the slots, and then
with nothing any more.  If the node has no ports, there is one placement, which is empty. -/
theorem cursor_enumerates_port_maps (hP : P.pattern.Built) (hT : P.target.Built)
    (hlive : ∀ p ∈ P.pattern.portsOf n, live.port? p = none) :
    let maps := P.allPortMaps live n host
    (∀ k, (Cursor.fresh P n host).answer P live k = maps[k]?) ∧
    maps.Pairwise (fun x y => x.map Choice.slot < y.map Choice.slot) ∧
    (∀ choices, choices ∈ maps ↔ P.IsPortMap live n host choices) ∧
    (∀ choices ∈ maps, (choices.map Choice.image).Nodup) ∧
    (maps.map (List.map Choice.image)).Nodup ∧
    (P.pattern.portsOf n = #[] → maps = [[]]) := by
  have hsame : P.portMaps live n host = P.allPortMaps live n host :=
    portMaps_eq_allPortMaps hP.wellFormed hlive
  have hmem : ∀ choices, choices ∈ P.allPortMaps live n host ↔ P.IsPortMap live n host choices :=
    fun _ => mem_allPortMaps hP.wellFormed
  refine ⟨fun k => ?_, P.pairwise_allPortMaps live n host, hmem, fun choices hchoices => ?_, ?_,
    fun hports => ?_⟩
  · rw [Cursor.answer_eq, ← hsame, portMaps]
  · have hmap := (hmem choices).1 hchoices
    exact (List.Nodup.of_map _ hmap.slots).map_on fun ch hch d hd =>
      hmap.image_inj hT.wellFormed hch hd
  · -- the placements ascend by their images as well
    rw [← hsame]
    refine List.pairwise_map.2 ((pairwise_portMaps hT.wellFormed live n host).imp ?_)
    intro x y hlt himages
    have hindex := congrArg (List.map PortId.index) himages
    rw [List.map_map, List.map_map] at hindex
    exact absurd hlt (hindex ▸ lt_irrefl _)
  · rw [allPortMaps, hports]
    rfl

/-- Three of the nine seatings are placements: the first port goes next to the second one, and on
one of the two that are linked to the image of the third port. -/
theorem cursor_enumerates_port_maps_row :
    let live := (Assignment.unassigned twoInARow.pattern).assignPort ⟨2⟩ ⟨3⟩
    (∀ p ∈ twoInARow.pattern.portsOf ⟨0⟩, live.port? p = none) ∧
    (List.range 5).map (fun k => ((Cursor.fresh twoInARow ⟨0⟩ ⟨0⟩).answer twoInARow live k).map
      (List.map Choice.slot)) = [some [0, 1], some [1, 0], some [1, 2], none, none] := by
  intro live
  have hlive : ∀ p ∈ twoInARow.pattern.portsOf ⟨0⟩, live.port? p = none := by decide +kernel
  have hanswer : ∀ k, (Cursor.fresh twoInARow ⟨0⟩ ⟨0⟩).answer twoInARow live k
      = (twoInARow.allPortMaps live ⟨0⟩ ⟨0⟩)[k]? :=
    (cursor_enumerates_port_maps ⟨_, _, rfl⟩ ⟨_, _, rfl⟩ hlive).1
  refine ⟨hlive, ?_⟩
  simp only [hanswer]
  decide +kernel

end Problem

end PortMatch
