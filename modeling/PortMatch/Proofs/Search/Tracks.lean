import Mathlib
import PortMatch.Proofs.Search.Course
import PortMatch.Proofs.Search.FrameRemaining
import PortMatch.Proofs.Trail.Preorder

/-!
# The trail of a search

At every moment a search is at a trail: its assignment is the one that the trail amounts to, and the
hosts in use are those of the trail.  Its frames and pending goals then say which trails are still
to come.  A pin goes on to the first of these; taking on a goal or giving one up changes nothing
about them.

* `Search.ahead` — the trails that a search has still to come to;
* `Problem.Tracks` — a search is at a trail;
* `Problem.tracks_start` — at its beginning a search is at the empty trail, with all others ahead;
* `Problem.Tracks.descend`, `Problem.Tracks.pin`, `Problem.Tracks.giveUp` — the three moves.
-/

namespace PortMatch

variable {P : Problem}

/-- A frame at its beginning has all pins left that are possible after the trail. -/
theorem Frame.remaining_fresh {t : Trail} {inUse : NodeId → Bool} (h : ∀ c, inUse c = t.uses c)
    (g : Goal) : (Frame.fresh P inUse g).remaining P (P.assemble t) = P.pinsAfter t g := by
  simp only [Frame.remaining, Frame.fresh, Cursor.pins, List.flatMap_map, Problem.pinsAfter, h]
  rfl

namespace Search

/-- The frames of the goals that are placed, the latest first.  The topmost frame is not one of them
while the search is about to get a pin from it. -/
def placed (s : Search) : List Frame :=
  match s.phase with
  | .descend => s.stack
  | .resume => s.stack.tail

/-- The trails that come up when the given frames are resumed one after the other; `t` is the trail
below the first frame, and `pending` are the goals after its goal. -/
def resuming (P : Problem) : List Frame → List Goal → Trail → List Trail
  | [], _, _ => []
  | f :: frames, pending, t =>
    ((f.remaining P (P.assemble t)).flatMap fun pin =>
      (⟨f.goal.node, pin⟩ :: t) :: P.trailsFrom pending (⟨f.goal.node, pin⟩ :: t))
      ++ resuming P frames (f.goal :: pending) t.tail

/-- The trails that a search has still to come to from the trail `t`. -/
def ahead (P : Problem) (s : Search) (t : Trail) : List Trail :=
  match s.phase with
  | .descend => P.trailsFrom s.pending t ++ resuming P s.stack s.pending t.tail
  | .resume => resuming P s.stack s.pending t

end Search

namespace Problem

/-- The search `s` is at the trail `t`. -/
structure Tracks (P : Problem) (s : Search) (t : Trail) : Prop where
  /-- The assignment is that of the trail. -/
  current : s.current = P.assemble t
  /-- The hosts in use are those of the trail. -/
  inUse : ∀ c, s.inUse.contains c = t.uses c
  /-- The goals taken on and the pending ones make up the agenda. -/
  agenda : (s.stack.map Frame.goal).reverse ++ s.pending = P.agenda
  /-- The nodes of the trail are those of the placed goals. -/
  nodes : t.map Pinned.node = s.placed.map fun f => f.goal.node
  /-- The trail is incomplete while the search is about to get a pin. -/
  incomplete : s.phase = .resume → t.length < P.agenda.length
  /-- The pins of the trail were possible when they were made. -/
  legal : P.Legal t
  /-- So are those of the trails to come. -/
  legal_ahead : ∀ u ∈ s.ahead P t, P.Legal u

/-- A search begins at the empty trail. -/
theorem tracks_start (hP : P.pattern.WellFormed) (hT : P.target.WellFormed) :
    P.Tracks (Search.start P) [] ∧ (Search.start P).ahead P [] = P.trails := by
  have hahead : (Search.start P).ahead P [] = P.trails := List.append_nil _
  refine ⟨?_, hahead⟩
  constructor
  case current => rfl
  case inUse => intro c; rfl
  case agenda => rfl
  case nodes => rfl
  case incomplete => intro h; cases h
  case legal => trivial
  case legal_ahead => exact fun u hu => ((mem_trails hP hT).1 (hahead ▸ hu)).1

namespace Tracks

variable {s : Search} {t : Trail}

theorem length_eq (h : P.Tracks s t) : t.length = s.placed.length := by
  have hlen := congrArg List.length h.nodes
  rwa [List.length_map, List.length_map] at hlen

/-- Taking on a goal leaves the trail and the trails ahead as they are. -/
theorem descend (h : P.Tracks s t) (hphase : s.phase = .descend) {g : Goal} {rest : List Goal}
    (hpending : s.pending = g :: rest) :
    P.Tracks (s.descend P g rest) t ∧ (s.descend P g rest).ahead P t = s.ahead P t := by
  have hahead : (s.descend P g rest).ahead P t = s.ahead P t := by
    simp only [Search.ahead, Search.descend, hphase, hpending, Search.resuming, trailsFrom]
    rw [Frame.remaining_fresh h.inUse]
    rfl
  have hagenda := h.agenda
  rw [hpending] at hagenda
  refine ⟨?_, hahead⟩
  constructor
  case current => exact h.current
  case inUse => exact h.inUse
  case agenda => simpa [Search.descend, Frame.fresh] using hagenda
  case nodes => simpa [Search.placed, Search.descend, hphase] using h.nodes
  case incomplete =>
    intro _
    have hlen := h.length_eq
    simp only [Search.placed, hphase] at hlen
    rw [hlen, ← hagenda]
    simp
  case legal => exact h.legal
  case legal_ahead => exact hahead ▸ h.legal_ahead

/-- The frames are for the first nodes in the search order. -/
theorem order (h : P.Tracks s t) :
    s.stack.reverse.map (fun f => f.goal.node) <+: P.searchOrder := by
  have hagenda : (s.stack.map Frame.goal).reverse <+: P.agenda :=
    h.agenda ▸ List.prefix_append _ _
  have hnodes := hagenda.map Goal.node
  rwa [← List.map_reverse, List.map_map] at hnodes

/-- The nodes of the trail are the first ones in the search order. -/
theorem nodes_isPrefix (h : P.Tracks s t) : t.nodes <+: P.searchOrder := by
  have hplaced : s.placed <:+ s.stack := by
    unfold Search.placed
    split
    · exact List.suffix_refl _
    · exact List.tail_suffix _
  have hnodes : t.nodes = s.placed.reverse.map fun f => f.goal.node := by
    rw [Trail.nodes, List.map_reverse, h.nodes, List.map_reverse]
  rw [hnodes]
  exact ((List.reverse_prefix.2 hplaced).map _).trans h.order

/-- A pin goes on to the first of the trails ahead. -/
theorem pin (h : P.Tracks s t) (hphase : s.phase = .resume) {f f' : Frame} {frames : List Frame}
    (hstack : s.stack = f :: frames) {p : Pin} (hnext : f.next P s.current = (some p, f')) :
    P.Tracks (s.pin P p f' frames) (⟨f'.goal.node, p⟩ :: t) ∧
      s.ahead P t
        = (⟨f'.goal.node, p⟩ :: t) :: (s.pin P p f' frames).ahead P (⟨f'.goal.node, p⟩ :: t) := by
  obtain ⟨hgoal, hremaining⟩ := Frame.remaining_of_next_some hnext
  rw [h.current] at hremaining
  have hahead : s.ahead P t = (⟨f'.goal.node, p⟩ :: t)
      :: (s.pin P p f' frames).ahead P (⟨f'.goal.node, p⟩ :: t) := by
    simp only [Search.ahead, Search.pin, hphase, hstack, Search.resuming, hremaining, hgoal,
      List.flatMap_cons, List.tail_cons, List.cons_append, List.append_assoc]
  have hlegal := h.legal_ahead
  rw [hahead] at hlegal
  refine ⟨?_, hahead⟩
  constructor
  case current => simp only [Search.pin, h.current, assemble]
  case inUse =>
    intro c
    rw [Search.pin, Std.ExtTreeSet.contains_insert, h.inUse]
    by_cases hc : p.host = c
    · simp [Trail.uses, hc]
    · simp [Trail.uses, hc]
  case agenda => simpa [Search.pin, hstack, hgoal] using h.agenda
  case nodes => simpa [Search.placed, Search.pin, hphase, hstack] using h.nodes
  case incomplete => intro hresume; cases hresume
  case legal => exact hlegal _ List.mem_cons_self
  case legal_ahead => exact fun u hu => hlegal u (List.mem_cons_of_mem _ hu)

/-- Taking the latest node of a trail back leaves the trail before. -/
theorem unpin_assemble {e : Pinned} (h : P.Legal (e :: t)) (hP : P.pattern.WellFormed)
    (hcurrent : s.current = P.assemble (e :: t))
    (hinUse : ∀ c, s.inUse.contains c = Trail.uses (e :: t) c) :
    (s.unpin P e.node).current = P.assemble t ∧
      ∀ c, (s.unpin P e.node).inUse.contains c = t.uses c := by
  have hhost : (P.assemble (e :: t)).node? e.node = some e.pin.host :=
    (node?_assemble_eq_some_iff h).2 ⟨e, List.mem_cons_self, rfl, rfl⟩
  simp only [Search.unpin, hcurrent, hhost, unassignNode_assemble h hP, true_and,
    Option.elim_some]
  intro c
  rw [Std.ExtTreeSet.contains_erase, hinUse]
  by_cases hc : e.pin.host = c
  · subst hc
    simpa using h.2.host_new
  · simp [Trail.uses, hc]

/-- Giving up a frame goes back to the trail before the latest pin; nothing is lost ahead. -/
theorem giveUp (h : P.Tracks s t) (hP : P.pattern.WellFormed) (hphase : s.phase = .resume)
    {f f' : Frame} {frames : List Frame} (hstack : s.stack = f :: frames)
    (hnext : f.next P s.current = (none, f')) :
    P.Tracks (s.giveUp P f'.goal frames) t.tail ∧
      (s.giveUp P f'.goal frames).ahead P t.tail = s.ahead P t := by
  obtain ⟨hgoal, hremaining⟩ := Frame.remaining_of_next_none hnext
  rw [h.current] at hremaining
  have hnodes := h.nodes
  simp only [Search.placed, hphase, hstack, List.tail_cons] at hnodes
  have hphase' : (s.giveUp P f'.goal frames).phase = .resume :=
    (s.phase_giveUp P f'.goal frames).trans hphase
  have hstack' : (s.giveUp P f'.goal frames).stack = frames := s.stack_giveUp P f'.goal frames
  have hpending' : (s.giveUp P f'.goal frames).pending = f.goal :: s.pending := by
    rw [s.pending_giveUp P f'.goal frames, hgoal]
  have hahead : (s.giveUp P f'.goal frames).ahead P t.tail = s.ahead P t := by
    simp only [Search.ahead, hphase, hphase', hstack, hstack', hpending', Search.resuming,
      hremaining]
    rfl
  -- the node of the frame below is the latest one of the trail, and its pin is taken back
  have hback : (s.giveUp P f'.goal frames).current = P.assemble t.tail ∧
      ∀ c, (s.giveUp P f'.goal frames).inUse.contains c = Trail.uses t.tail c := by
    cases frames with
    | nil =>
      obtain rfl : t = [] := by simpa using hnodes
      exact ⟨h.current, h.inUse⟩
    | cons below frames =>
      cases t with
      | nil => cases hnodes
      | cons e t =>
        obtain ⟨hnode, -⟩ := List.cons.inj hnodes
        simp only [Search.giveUp, ← hnode]
        exact unpin_assemble h.legal hP h.current h.inUse
  refine ⟨?_, hahead⟩
  constructor
  case current => exact hback.1
  case inUse => exact hback.2
  case agenda => simpa [hstack', hpending', hstack] using h.agenda
  case nodes => simp only [Search.placed, hphase', hstack', List.map_tail, hnodes]
  case incomplete =>
    intro _
    exact Nat.lt_of_le_of_lt (by simp) (h.incomplete hphase)
  case legal =>
    cases t with
    | nil => trivial
    | cons e t => exact h.legal.1
  case legal_ahead => exact hahead ▸ h.legal_ahead

end Tracks

end Problem

end PortMatch
