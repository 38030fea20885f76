import Mathlib
import PortMatch.Proofs.Search.Best
import PortMatch.Proofs.Search.Lazy

/-!
# The parts of the state of a search

A search keeps a stack of frames, an assignment, the hosts in use, the hosts that each frame has
left to try, and the best assignment so far.  They change at different places: a frame is given up,
but it is the node of the frame below that is unplaced; a frame is asked for a pin before anybody
knows whether the budget allows it.  Still, whenever the search looks at its stack or at its budget,
each part says the same about what is placed as the others do.

The trail carries the proof.  That the frames keep out of each other's way and that nothing better
has been missed is added to it here, and kept move by move.

* `Assignment.score`, `Assignment.exceeds_iff` — what assignments are compared by;
* `Frame.hostsLeft` — the hosts that a frame has left to try;
* `Search.checkpoints` — the states in which a search looks at its stack or, as
  `Search.step_of_drawn?` has it, at its budget;
* `Search.Consistent` — how the parts of a state agree;
* `Problem.Upholds`, `Problem.Upholds.moved` — what is added to the trail, and kept by every move;
* `Problem.checkpoints_consistent` — the parts agree in all of these states.
-/

namespace PortMatch

variable {P : Problem} {live : Assignment}

/-! ## Scores -/

namespace Assignment

/-- The numbers of nodes and of ports that are mapped; the nodes count first. -/
def score (s : Assignment) : ℕ ×ₗ ℕ := toLex (s.assignedNodes, s.assignedPorts)

/-- One assignment exceeds another if its score is greater. -/
theorem exceeds_iff {s t : Assignment} : s.exceeds t = true ↔ t.score < s.score := by
  have hcmp : compareLex (compareOn assignedNodes) (compareOn assignedPorts) s t
      = (compare s.assignedNodes t.assignedNodes).then
        (compare s.assignedPorts t.assignedPorts) := rfl
  rw [exceeds, hcmp, score, score, Prod.Lex.toLex_lt_toLex]
  rcases Nat.lt_trichotomy s.assignedNodes t.assignedNodes with hlt | heq | hgt
  · simp [Nat.compare_eq_lt.2 hlt, hlt.not_gt, hlt.ne']
  · simp [heq, Ordering.isGT_iff_eq_gt, Nat.compare_eq_gt]
  · simp [Nat.compare_eq_gt.2 hgt, hgt]

theorem score_le_better (s t : Assignment) : t.score ≤ (s.better t).score := by
  rw [better]
  split
  · exact le_refl _
  · next hno => exact le_of_not_gt (mt exceeds_iff.2 hno)

end Assignment

/-! ## Hosts that are left -/

theorem Cursor.map_host_firstNext (P : Problem) (live : Assignment) (cs : List Cursor) :
    (firstNext P live cs).2.map host <:+ cs.map host := by
  induction cs with
  | nil => exact List.suffix_refl _
  | cons c rest ih =>
    have hhost : (c.next P live).2.host = c.host := c.host_next
    unfold firstNext
    split
    · next choices c' hnext =>
      rw [hnext] at hhost
      rw [List.map_cons, List.map_cons, hhost]
    · exact ih.trans (List.suffix_cons _ _)

namespace Frame

/-- The hosts that a frame has left to try, in ascending order; the first one is the host that it
tries at present. -/
def hostsLeft (f : Frame) : List NodeId := f.cursors.map Cursor.host

/-- A frame passes over hosts and never comes back to one. -/
theorem hostsLeft_next {f f' : Frame} {p : Option Pin} (h : f.next P live = (p, f')) :
    f'.hostsLeft <:+ f.hostsLeft := by
  obtain rfl : (f.next P live).2 = f' := congrArg Prod.snd h
  exact Cursor.map_host_firstNext P live f.cursors

theorem mem_hostsLeft_fresh {inUse : NodeId → Bool} {g : Goal} {c : NodeId} :
    c ∈ (fresh P inUse g).hostsLeft ↔ c ∈ g.hosts ∧ inUse c = false := by
  simp [hostsLeft, fresh, Cursor.fresh, Function.comp_def]

end Frame

/-! ## When a search looks at its state -/

namespace Search

variable {s s' : Search}

/-- The states from `s` on in which the search looks at its stack, be it to take on a goal or to
resume a frame, or at its budget. -/
def checkpoints (P : Problem) (budget : ℕ) (s : Search) : List Search :=
  (s :: s.course P budget).flatMap fun s' => s' :: (s'.drawn? P).toList

/-! ## Agreement -/

/-- The parts of a state agree. -/
structure Consistent (P : Problem) (s : Search) : Prop where
  /-- The frames, the lowest one first, are for the first nodes in the search order. -/
  order : s.stack.reverse.map (fun f => f.goal.node) <+: P.searchOrder
  /-- The nodes that are mapped are those of the placed frames. -/
  nodes : ∀ a, (s.current.node? a).isSome ↔ ∃ f ∈ s.placed, f.goal.node = a
  /-- The ports that are mapped are the ports of these nodes. -/
  ports : ∀ p, (s.current.port? p).isSome ↔ ∃ f ∈ s.placed, p ∈ P.pattern.portsOf f.goal.node
  /-- The hosts in use are the images of the nodes that are mapped. -/
  inUse : ∀ c, c ∈ s.inUse ↔ ∃ a, s.current.node? a = some c
  /-- There are as many of them as there are nodes that are mapped. -/
  size_inUse : s.inUse.size = s.current.assignedNodes
  /-- No frame has a host left to try that the node of a frame below is mapped to. -/
  hostsLeft : s.stack.Pairwise fun f below =>
    ∀ c ∈ f.hostsLeft, s.current.node? below.goal.node ≠ some c
  /-- The assignment is not better than the best one. -/
  best : s.current.score ≤ s.best.score

/-- Drawing a pin changes nothing but what the topmost frame has left. -/
theorem Consistent.drawn (h : s.Consistent P) (hdrawn : s.drawn? P = some s') :
    s'.Consistent P := by
  obtain ⟨f, f', frames, p, hphase, hstack, hnext, rfl⟩ := drawn?_eq_some hdrawn
  have hgoal : f'.goal = f.goal := (Frame.remaining_of_next_some hnext).1
  have hsub : f'.hostsLeft <:+ f.hostsLeft := Frame.hostsLeft_next hnext
  have hplaced : placed { s with stack := f' :: frames } = s.placed := by
    simp only [placed, hphase, hstack, List.tail_cons]
  have horder := h.order
  have hhosts := h.hostsLeft
  rw [hstack] at horder hhosts
  obtain ⟨htop, hframes⟩ := List.pairwise_cons.1 hhosts
  constructor
  case order => simpa [hgoal] using horder
  case nodes => exact hplaced ▸ h.nodes
  case ports => exact hplaced ▸ h.ports
  case inUse => exact h.inUse
  case size_inUse => exact h.size_inUse
  case hostsLeft =>
    exact List.pairwise_cons.2 ⟨fun d hd c hc => htop d hd c (hsub.subset hc), hframes⟩
  case best => exact h.best

theorem node?_unpin (P : Problem) (s : Search) (n a : NodeId) :
    (s.unpin P n).current.node? a = if a = n then none else s.current.node? a := by
  rw [unpin, Assignment.unassignNode, Assignment.node?, Images.image?, Images.getElem?_clear]
  by_cases ha : a = n
  · simp [ha]
  · simp [ha, Assignment.node?, Images.image?]

theorem node?_of_giveUp {g : Goal} {frames : List Frame} {a c : NodeId}
    (h : (s.giveUp P g frames).current.node? a = some c) : s.current.node? a = some c := by
  cases frames with
  | nil => exact h
  | cons f frames =>
    rw [giveUp, node?_unpin] at h
    split at h
    · cases h
    · exact h

end Search

namespace Problem

variable {budget : ℕ} {s s' : Search} {t : Trail}

/-! ## Along the trail -/

/-- The hosts of a legal trail are different from each other. -/
theorem Legal.nodup_hosts (h : P.Legal t) : (t.map fun e => e.pin.host).Nodup := by
  induction t with
  | nil => exact List.nodup_nil
  | cons e t ih =>
    refine List.nodup_cons.2 ⟨fun hmem => ?_, ih h.1⟩
    obtain ⟨d, hd, hhost⟩ := List.mem_map.1 hmem
    exact h.2.host_ne d hd hhost

/-- Taking the latest pin back does not make a score greater. -/
theorem Legal.score_tail_le (h : P.Legal t) (hP : P.pattern.WellFormed)
    (hT : P.target.WellFormed) : (P.assemble t.tail).score ≤ (P.assemble t).score := by
  cases t with
  | nil => exact le_refl _
  | cons e t =>
    have hlt : (P.assemble t).assignedNodes < (P.assemble (e :: t)).assignedNodes := by
      rw [h.1.assignedNodes_assemble hP hT, h.assignedNodes_assemble hP hT]
      exact Nat.lt_succ_self _
    exact le_of_lt (Prod.Lex.toLex_lt_toLex.2 (.inl hlt))

namespace Tracks

theorem mem_inUse_iff (h : P.Tracks s t) {c : NodeId} :
    c ∈ s.inUse ↔ ∃ a, s.current.node? a = some c := by
  rw [Std.ExtTreeSet.mem_iff_contains, h.inUse, Trail.uses_iff, h.current]
  simp only [node?_assemble_eq_some_iff h.legal]
  refine ⟨?_, ?_⟩
  · rintro ⟨e, he, hhost⟩
    exact ⟨e.node, e, he, rfl, hhost⟩
  · rintro ⟨a, e, he, -, hhost⟩
    exact ⟨e, he, hhost⟩

theorem size_inUse (h : P.Tracks s t) : s.inUse.size = t.length := by
  have hnodup : s.inUse.toList.Nodup :=
    Std.ExtTreeSet.distinct_toList.imp fun hne heq => hne (Std.LawfulEqCmp.compare_eq_iff_eq.2 heq)
  have hperm : s.inUse.toList.Perm (t.map fun e => e.pin.host) := by
    refine (List.perm_ext_iff_of_nodup hnodup h.legal.nodup_hosts).2 fun c => ?_
    rw [Std.ExtTreeSet.mem_toList, Std.ExtTreeSet.mem_iff_contains, h.inUse, Trail.uses_iff,
      List.mem_map]
  rw [← Std.ExtTreeSet.length_toList, hperm.length_eq, List.length_map]

/-- The frames on the stack are for different nodes. -/
theorem pairwise_stack (h : P.Tracks s t) :
    s.stack.Pairwise fun f below => f.goal.node ≠ below.goal.node := by
  have hnodup := P.nodup_searchOrder.sublist h.order.sublist
  rw [List.map_reverse, List.nodup_reverse] at hnodup
  exact List.pairwise_map.1 hnodup

end Tracks

/-- The search `s` is at the trail `t`, its frames keep out of each other's way, and it has missed
nothing better than what it has placed. -/
structure Upholds (P : Problem) (s : Search) (t : Trail) : Prop where
  /-- The search is at the trail. -/
  tracks : P.Tracks s t
  /-- No frame has a host left to try that the node of a frame below is mapped to. -/
  hostsLeft : s.stack.Pairwise fun f below =>
    ∀ c ∈ f.hostsLeft, s.current.node? below.goal.node ≠ some c
  /-- The assignment is not better than the best one. -/
  best : s.current.score ≤ s.best.score

theorem upholds_start (hP : P.pattern.WellFormed) (hT : P.target.WellFormed) :
    P.Upholds (Search.start P) [] where
  tracks := (tracks_start hP hT).1
  hostsLeft := .nil
  best := le_refl _

namespace Upholds

/-- A frame that is opened passes over the hosts in use. -/
theorem descend (h : P.Upholds s t) (hphase : s.phase = .descend) {g : Goal} {rest : List Goal}
    (hpending : s.pending = g :: rest) : P.Upholds (s.descend P g rest) t where
  tracks := (h.tracks.descend hphase hpending).1
  hostsLeft := by
    refine List.pairwise_cons.2 ⟨fun d _ c hc hnode => ?_, h.hostsLeft⟩
    have huses := Std.ExtTreeSet.mem_iff_contains.1 (h.tracks.mem_inUse_iff.2 ⟨_, hnode⟩)
    rw [(Frame.mem_hostsLeft_fresh.1 hc).2] at huses
    cases huses
  best := h.best

/-- A pin maps a node that no other frame is for. -/
theorem pin (h : P.Upholds s t) (hphase : s.phase = .resume) {f f' : Frame} {frames : List Frame}
    (hstack : s.stack = f :: frames) {p : Pin} (hnext : f.next P s.current = (some p, f')) :
    P.Upholds (s.pin P p f' frames) (⟨f'.goal.node, p⟩ :: t) := by
  have htracks := (h.tracks.pin hphase hstack hnext).1
  have hhosts := h.hostsLeft
  rw [hstack] at hhosts
  obtain ⟨htop, hframes⟩ := List.pairwise_cons.1 hhosts
  have hsub : f'.hostsLeft <:+ f.hostsLeft := Frame.hostsLeft_next hnext
  have hkept : ∀ d ∈ frames,
      (s.pin P p f' frames).current.node? d.goal.node = s.current.node? d.goal.node := by
    intro d hd
    have hne := (List.pairwise_cons.1 htracks.pairwise_stack).1 d hd
    rw [Search.pin, Assignment.node?_place, if_neg hne]
  refine ⟨htracks, List.pairwise_cons.2 ⟨fun d hd c hc => ?_, hframes.imp_of_mem ?_⟩, ?_⟩
  · rw [hkept d hd]
    exact htop d hd c (hsub.subset hc)
  · intro d e _ he hde
    rwa [hkept e he]
  · exact s.best.score_le_better (s.current.place f'.goal.node p)

/-- Giving up a frame maps nothing. -/
theorem giveUp (h : P.Upholds s t) (hP : P.pattern.WellFormed) (hT : P.target.WellFormed)
    (hphase : s.phase = .resume) {f f' : Frame} {frames : List Frame}
    (hstack : s.stack = f :: frames) (hnext : f.next P s.current = (none, f')) :
    P.Upholds (s.giveUp P f'.goal frames) t.tail := by
  have htracks := (h.tracks.giveUp hP hphase hstack hnext).1
  have hhosts := h.hostsLeft
  rw [hstack] at hhosts
  refine ⟨htracks, ?_, ?_⟩
  · rw [s.stack_giveUp P f'.goal frames]
    exact (List.pairwise_cons.1 hhosts).2.imp fun hde c hc hnode =>
      hde c hc (Search.node?_of_giveUp hnode)
  · rw [htracks.current, s.best_giveUp P f'.goal frames]
    exact (h.tracks.legal.score_tail_le hP hT).trans (h.tracks.current ▸ h.best)

/-- Every move upholds what is said of a search at a trail. -/
theorem moved (h : P.Upholds s t) (hP : P.pattern.WellFormed) (hT : P.target.WellFormed)
    (hstep : s.step P budget = .moved s') : ∃ t', P.Upholds s' t' := by
  rcases Search.step_eq_moved hstep with ⟨g, rest, hphase, hpending, rfl⟩ |
    ⟨f, f', frames, p, hphase, hstack, hnext, -, rfl⟩ |
    ⟨f, f', frames, hphase, hstack, hnext, rfl⟩
  · exact ⟨_, h.descend hphase hpending⟩
  · exact ⟨_, h.pin hphase hstack hnext⟩
  · exact ⟨_, h.giveUp hP hT hphase hstack hnext⟩

/-- What is said of a search at a trail makes the parts of its state agree. -/
theorem consistent (h : P.Upholds s t) (hP : P.pattern.WellFormed) (hT : P.target.WellFormed) :
    s.Consistent P := by
  have hplaces := h.tracks.legal.places hP hT
  have hmem : ∀ a, a ∈ t.nodes ↔ ∃ f ∈ s.placed, f.goal.node = a := by
    intro a
    rw [Trail.nodes, List.map_reverse, List.mem_reverse, h.tracks.nodes, List.mem_map]
  constructor
  case order => exact h.tracks.order
  case nodes =>
    intro a
    rw [h.tracks.current, ← hmem]
    exact hplaces.node_isSome a
  case ports =>
    intro p
    rw [h.tracks.current]
    refine (hplaces.port_isSome p).trans ?_
    simp only [hmem, hP.mem_portsOf]
    refine ⟨?_, ?_⟩
    · rintro ⟨a, ⟨f, hf, rfl⟩, howner⟩
      exact ⟨f, hf, howner⟩
    · rintro ⟨f, hf, howner⟩
      exact ⟨_, ⟨f, hf, rfl⟩, howner⟩
  case inUse => exact fun c => h.tracks.mem_inUse_iff
  case size_inUse =>
    rw [h.tracks.size_inUse, h.tracks.current, h.tracks.legal.assignedNodes_assemble hP hT]
  case hostsLeft => exact h.hostsLeft
  case best => exact h.best

end Upholds

/-! ## All checkpoints -/

/-- Whenever a search looks at its stack or at its budget, the parts of its state agree: the frames
follow the search order, the nodes and ports that are mapped are those of the placed frames, the
hosts in use are their images, no frame has the host of a frame below left to try, and nothing
better has been missed. -/
theorem checkpoints_consistent (hP : P.pattern.Built) (hT : P.target.Built) (budget : ℕ) :
    ∀ s ∈ (Search.start P).checkpoints P budget, s.Consistent P := by
  have hcourse : ∀ s ∈ Search.start P :: (Search.start P).course P budget, s.Consistent P := by
    intro s hs
    obtain ⟨t, h⟩ := Search.forall_mem_course P budget (motive := fun s => ∃ t, P.Upholds s t)
      ⟨[], upholds_start hP.wellFormed hT.wellFormed⟩
      (fun ⟨t, h⟩ hstep => h.moved hP.wellFormed hT.wellFormed hstep) s hs
    exact h.consistent hP.wellFormed hT.wellFormed
  intro s hs
  obtain ⟨s', hs', hmem⟩ := List.mem_flatMap.1 hs
  rcases List.mem_cons.1 hmem with rfl | hdrawn
  · exact hcourse s hs'
  · exact (hcourse s' hs').drawn (Option.mem_toList.1 hdrawn)

/-- Once the first node is placed on the first host, the frame of the second node has only the
second host left to try. -/
theorem checkpoints_consistent_row :
    ∃ s ∈ (Search.start rowApart).checkpoints rowApart 1,
      s.stack.map Frame.hostsLeft = [[⟨1⟩], [⟨0⟩]] ∧
      s.current.node? ⟨0⟩ = some ⟨0⟩ ∧ s.Consistent rowApart := by
  have hrun : ∃ s ∈ (Search.start rowApart).checkpoints rowApart 1,
      s.stack.map Frame.hostsLeft = [[⟨1⟩], [⟨0⟩]] ∧ s.current.node? ⟨0⟩ = some ⟨0⟩ := by
    decide +kernel
  obtain ⟨s, hs, hhosts, hnode⟩ := hrun
  exact ⟨s, hs, hhosts, hnode, checkpoints_consistent ⟨_, _, rfl⟩ ⟨_, _, rfl⟩ 1 s hs⟩

end Problem

end PortMatch
