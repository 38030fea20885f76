import Mathlib
import PortMatch.Proofs.Cursor.Enumeration
import PortMatch.Proofs.Search.Scan

/-!
# One pin at a time

A frame is asked for one pin after the other, and between two pins the search may go through any
number of deeper frames, which place and unplace other nodes.  The frame keeps no copy of the
assignment that it began with: its cursors read the one of the moment.  Still the pins that it
yields, from the moment when it is opened until it is given up, are those of a list that could have
been made in advance when it was opened.  For whenever the frame is resumed, all that was placed
above it has been taken back, and the trail below it is the one it began with.

* `Search.offers` — the pins that a frame yields, the frame being known by its height in the stack;
* `Search.GivesUp` — the frame is given up at some time;
* `Search.Draws` — the frame yields the pins of a list, as far as the search gets;
* `Problem.Holds` — a frame is on the stack, and the trail below it is still there;
* `Problem.Holds.moved`, `Problem.Holds.draws` — one move, and any number of them: the frame draws
  what it has left to yield after the trail below it;
* `Problem.allPins`, `Problem.mem_allPins` — the list made in advance, and what it holds;
* `Problem.frames_draw_allPins` — a frame that is opened draws that list.
-/

namespace PortMatch

namespace Search

variable {P : Problem} {budget height : ℕ} {s s' : Search} {pins : List Pin}

/-! ## What a frame yields -/

/-- The pin that the frame at the given height of the stack yields in the next move, if it is the
one to be resumed.  The pin counts even if the budget does not allow it. -/
def offer? (P : Problem) (height : ℕ) (s : Search) : Option Pin :=
  if s.phase = .resume ∧ s.stack.length = height then
    s.stack.head?.bind fun f => (f.next P s.current).1
  else none

/-- The states from `s` on, as long as the frame at the given height is on the stack. -/
def lifetime (P : Problem) (budget height : ℕ) (s : Search) : List Search :=
  (s :: s.course P budget).takeWhile fun s' => height ≤ s'.stack.length

/-- The pins that the frame at the given height yields from `s` on. -/
def offers (P : Problem) (budget height : ℕ) (s : Search) : List Pin :=
  (s.lifetime P budget height).filterMap (offer? P height)

/-- The frame at the given height is given up at some time after `s`. -/
def GivesUp (P : Problem) (budget height : ℕ) (s : Search) : Prop :=
  ∃ s' ∈ s.course P budget, s'.stack.length < height

instance (P : Problem) (budget height : ℕ) (s : Search) : Decidable (s.GivesUp P budget height) :=
  inferInstanceAs (Decidable (∃ s' ∈ s.course P budget, s'.stack.length < height))

/-- From `s` on, the frame at the given height yields the given pins, one after the other: all of
them if it is given up, and the first ones if the search ends before. -/
structure Draws (P : Problem) (budget height : ℕ) (s : Search) (pins : List Pin) : Prop where
  /-- It yields the first of the pins. -/
  isPrefix : s.offers P budget height <+: pins
  /-- If it is given up, it has yielded all of them. -/
  complete : s.GivesUp P budget height → s.offers P budget height = pins

theorem offer?_of_descend (h : s.phase = .descend) : s.offer? P height = none := by
  simp [offer?, h]

theorem offer?_of_lt (h : height < s.stack.length) : s.offer? P height = none := by
  simp [offer?, Nat.ne_of_gt h]

theorem offer?_of_resume {f : Frame} {below : List Frame} (hphase : s.phase = .resume)
    (hstack : s.stack = f :: below) :
    s.offer? P (below.length + 1) = (f.next P s.current).1 := by
  simp [offer?, hphase, hstack]

/-- A frame on the stack yields a pin in the next move, if at all, and the others after it. -/
theorem offers_eq (hle : height ≤ s.stack.length) :
    s.offers P budget height = (s.offer? P height).toList
      ++ ((s.course P budget).takeWhile fun s' => height ≤ s'.stack.length).filterMap
        (offer? P height) := by
  rw [offers, lifetime, List.takeWhile_cons_of_pos (by simpa using hle), List.filterMap_cons]
  cases s.offer? P height <;> rfl

theorem offers_of_moved (hstep : s.step P budget = .moved s') (hle : height ≤ s.stack.length) :
    s.offers P budget height = (s.offer? P height).toList ++ s'.offers P budget height := by
  rw [offers_eq hle, course_of_moved hstep]
  rfl

theorem offers_of_ended {how : Ending} (hstep : s.step P budget = .ended how s')
    (hle : height ≤ s.stack.length) :
    s.offers P budget height = (s.offer? P height).toList := by
  rw [offers_eq hle, course_of_ended hstep]
  exact List.append_nil _

theorem offers_of_lt (hlt : s.stack.length < height) : s.offers P budget height = [] := by
  rw [offers, lifetime, List.takeWhile_cons_of_neg (by simpa using hlt)]
  rfl

namespace Draws

/-- While the frame stays on the stack, a move draws what the frame yields in it. -/
theorem of_moved (h : s'.Draws P budget height pins) (hstep : s.step P budget = .moved s')
    (hle : height ≤ s.stack.length) (hle' : height ≤ s'.stack.length) :
    s.Draws P budget height ((s.offer? P height).toList ++ pins) := by
  have hoffers := offers_of_moved hstep hle
  constructor
  case isPrefix =>
    rw [hoffers]
    exact (List.prefix_append_right_inj _).2 h.isPrefix
  case complete =>
    intro hup
    simp only [GivesUp, course_of_moved hstep, List.mem_cons, exists_eq_or_imp] at hup
    rw [hoffers, h.complete (hup.resolve_left (Nat.not_lt_of_le hle'))]

/-- A frame that yields nothing and is given up draws nothing. -/
theorem of_givenUp (hstep : s.step P budget = .moved s') (hle : height ≤ s.stack.length)
    (hlt : s'.stack.length < height) (hnone : s.offer? P height = none) :
    s.Draws P budget height [] := by
  have hoffers : s.offers P budget height = [] := by
    rw [offers_of_moved hstep hle, hnone, offers_of_lt hlt]
    rfl
  exact ⟨hoffers ▸ List.nil_prefix, fun _ => hoffers⟩

/-- When the search ends, a frame has drawn what it yielded last. -/
theorem of_ended {how : Ending} (hstep : s.step P budget = .ended how s')
    (hle : height ≤ s.stack.length) (hpins : (s.offer? P height).toList <+: pins) :
    s.Draws P budget height pins := by
  refine ⟨offers_of_ended hstep hle ▸ hpins, ?_⟩
  rintro ⟨s'', hmem, -⟩
  rw [course_of_ended hstep] at hmem
  cases hmem

end Draws

end Search

namespace Problem

variable {P : Problem} {budget : ℕ} {s s' : Search} {t : Trail}

/-! ## What a frame has left -/

/-- The search `s` is at the trail `t`.  The frame `f` is on its stack, right above the frames
`below`, and `base` is the part of the trail that belongs to them. -/
structure Holds (P : Problem) (s : Search) (t base : Trail) (below : List Frame) (f : Frame) :
    Prop where
  /-- The search is at the trail. -/
  tracks : P.Tracks s t
  /-- The frame is on the stack. -/
  frame : f :: below <:+ s.stack
  /-- The trail below the frame is still there. -/
  trail : base <:+ t
  /-- It has a pin for each frame below. -/
  length_eq : base.length = below.length

namespace Holds

variable {f : Frame} {base : Trail} {below : List Frame}

theorem height_le (h : P.Holds s t base below f) : below.length + 1 ≤ s.stack.length :=
  h.frame.length_le

/-- When a frame is resumed, a frame on the stack either is that frame, and nothing is placed above
it; or it is further down, and yields nothing. -/
theorem top_or_covered (h : P.Holds s t base below f) (hphase : s.phase = .resume) {d : Frame}
    {frames : List Frame} (hstack : s.stack = d :: frames) :
    (f = d ∧ below = frames ∧ base = t) ∨
    (f :: below <:+ frames ∧ base <:+ t.tail ∧ s.offer? P (below.length + 1) = none) := by
  have hlen : t.length = frames.length := by
    rw [h.tracks.length_eq, Search.placed, hphase, hstack]
    rfl
  have hframe : f :: below <:+ d :: frames := hstack ▸ h.frame
  rcases List.suffix_cons_iff.1 hframe with htop | hcovered
  · obtain ⟨rfl, rfl⟩ := List.cons.inj htop
    exact .inl ⟨rfl, rfl, h.trail.eq_of_length (h.length_eq.trans hlen.symm)⟩
  · have hlt : below.length < frames.length := hcovered.length_le
    refine .inr ⟨hcovered, ?_, Search.offer?_of_lt ?_⟩
    · cases t with
      | nil => exact h.trail
      | cons e t =>
        -- the trail has a pin for the frame itself, which is not one of `base`
        refine (List.suffix_cons_iff.1 h.trail).resolve_left fun hsame => ?_
        rw [← hsame, h.length_eq] at hlen
        exact absurd hlen hlt.ne
    · rw [hstack]
      exact Nat.succ_lt_succ hlt

/-- What a frame yields is the first of what it has left. -/
theorem offer?_isPrefix (h : P.Holds s t base below f) :
    (s.offer? P (below.length + 1)).toList <+: f.remaining P (P.assemble base) := by
  cases hphase : s.phase with
  | descend =>
    rw [Search.offer?_of_descend hphase]
    exact List.nil_prefix
  | resume =>
    obtain ⟨d, frames, hstack⟩ := List.exists_cons_of_length_pos (Nat.zero_lt_of_lt h.height_le)
    rcases h.top_or_covered hphase hstack with ⟨rfl, rfl, rfl⟩ | ⟨-, -, hnone⟩
    · rw [Search.offer?_of_resume hphase hstack, ← h.tracks.current]
      rcases hnext : f.next P s.current with ⟨_ | p, f'⟩
      · exact List.nil_prefix
      · rw [(Frame.remaining_of_next_some hnext).2]
        exact List.cons_prefix_cons.2 ⟨rfl, List.nil_prefix⟩
    · rw [hnone]
      exact List.nil_prefix

/-- A move either leaves a frame on the stack, what it has left being one pin less if it yields one;
or the frame has nothing left and is given up. -/
theorem moved (h : P.Holds s t base below f) (hP : P.pattern.WellFormed)
    (hstep : s.step P budget = .moved s') :
    (∃ t' f', P.Holds s' t' base below f' ∧
      f.remaining P (P.assemble base)
        = (s.offer? P (below.length + 1)).toList ++ f'.remaining P (P.assemble base)) ∨
    (s'.stack.length < below.length + 1 ∧ s.offer? P (below.length + 1) = none ∧
      f.remaining P (P.assemble base) = []) := by
  rcases Search.step_eq_moved hstep with ⟨g, rest, hphase, hpending, rfl⟩ |
    ⟨d, d', frames, p, hphase, hstack, hnext, -, rfl⟩ | ⟨d, d', frames, hphase, hstack, hnext, rfl⟩
  · have htracks := (h.tracks.descend hphase hpending).1
    have hframe := h.frame.trans (List.suffix_cons (Frame.fresh P s.inUse.contains g) s.stack)
    refine .inl ⟨t, f, ⟨htracks, hframe, h.trail, h.length_eq⟩, ?_⟩
    rw [Search.offer?_of_descend hphase]
    rfl
  · have htracks := (h.tracks.pin hphase hstack hnext).1
    have htrail := h.trail.trans (List.suffix_cons ⟨d'.goal.node, p⟩ t)
    rcases h.top_or_covered hphase hstack with ⟨rfl, rfl, rfl⟩ | ⟨hcovered, -, hnone⟩
    · refine .inl ⟨_, d', ⟨htracks, List.suffix_refl _, htrail, h.length_eq⟩, ?_⟩
      rw [Search.offer?_of_resume hphase hstack, hnext, ← h.tracks.current]
      exact (Frame.remaining_of_next_some hnext).2
    · have hframe := hcovered.trans (List.suffix_cons d' frames)
      refine .inl ⟨_, f, ⟨htracks, hframe, htrail, h.length_eq⟩, ?_⟩
      rw [hnone]
      rfl
  · have htracks := (h.tracks.giveUp hP hphase hstack hnext).1
    have hstack' : (s.giveUp P d'.goal frames).stack = frames := s.stack_giveUp P _ _
    rcases h.top_or_covered hphase hstack with ⟨rfl, rfl, rfl⟩ | ⟨hcovered, htrail, hnone⟩
    · refine .inr ⟨by rw [hstack']; exact Nat.lt_succ_self _, ?_, ?_⟩
      · rw [Search.offer?_of_resume hphase hstack, hnext]
      · rw [← h.tracks.current]
        exact (Frame.remaining_of_next_none hnext).2
    · refine .inl ⟨_, f, ⟨htracks, hstack'.symm ▸ hcovered, htrail, h.length_eq⟩, ?_⟩
      rw [hnone]
      rfl

/-- Every frame on the stack draws what it has left to yield after the trail below it, whatever is
placed above it at present. -/
theorem draws (h : P.Holds s t base below f) (hP : P.pattern.WellFormed) (budget : ℕ) :
    s.Draws P budget (below.length + 1) (f.remaining P (P.assemble base)) := by
  fun_induction Search.course P budget s generalizing t f with
  | case1 s s' hstep ih =>
    rcases h.moved hP hstep with ⟨t', f', h', hremaining⟩ | ⟨hlt, hnone, hremaining⟩
    · rw [hremaining]
      exact (ih h').of_moved hstep h.height_le h'.height_le
    · rw [hremaining]
      exact .of_givenUp hstep h.height_le hlt hnone
  | case2 s how s' hstep => exact .of_ended hstep h.height_le h.offer?_isPrefix

end Holds

/-! ## The list made in advance -/

/-- All pins of the node `n`, host by host: those on hosts that are not in use, with the ports
placed in all ways that go with the assignment `live`. -/
def allPins (P : Problem) (live : Assignment) (inUse : NodeId → Bool) (n : NodeId) : List Pin :=
  ((P.hostsOf n).filter fun c => !inUse c).flatMap fun c =>
    (P.allPortMaps live n c).map (Pin.mk c)

theorem mem_allPins (hP : P.pattern.WellFormed) {live : Assignment} {inUse : NodeId → Bool}
    {n : NodeId} {pin : Pin} :
    pin ∈ P.allPins live inUse n ↔
      pin.host ∈ P.hostsOf n ∧ inUse pin.host = false ∧
        P.IsPortMap live n pin.host pin.choices := by
  simp only [allPins, List.mem_flatMap, List.mem_filter, Bool.not_eq_true', List.mem_map,
    mem_allPortMaps hP]
  refine ⟨?_, ?_⟩
  · rintro ⟨c, ⟨hc, hfree⟩, choices, hmap, rfl⟩
    exact ⟨hc, hfree, hmap⟩
  · rintro ⟨hc, hfree, hmap⟩
    exact ⟨pin.host, ⟨hc, hfree⟩, pin.choices, hmap, rfl⟩

/-- The pins ascend by their hosts, and those on one host by their slots. -/
theorem pairwise_allPins (P : Problem) (live : Assignment) (inUse : NodeId → Bool) (n : NodeId) :
    (P.allPins live inUse n).Pairwise fun x y =>
      x.host.index < y.host.index ∨
        x.host = y.host ∧ x.choices.map Choice.slot < y.choices.map Choice.slot := by
  refine List.pairwise_flatMap.2 ⟨fun c _ => ?_, ((P.pairwise_hostsOf n).filter _).imp ?_⟩
  · exact List.pairwise_map.2 ((P.pairwise_allPortMaps live n c).imp fun hlt => .inr ⟨rfl, hlt⟩)
  · intro c d hlt x hx y hy
    obtain ⟨u, -, rfl⟩ := List.mem_map.1 hx
    obtain ⟨v, -, rfl⟩ := List.mem_map.1 hy
    exact .inl hlt

/-- A frame that is opened has just this list left. -/
theorem Tracks.remaining_eq_allPins (h : P.Tracks s t) (hP : P.pattern.WellFormed)
    (hT : P.target.WellFormed) (hphase : s.phase = .descend) {g : Goal} {rest : List Goal}
    (hpending : s.pending = g :: rest) :
    (Frame.fresh P s.inUse.contains g).remaining P (P.assemble t)
      = P.allPins s.current s.inUse.contains g.node := by
  have hagenda : (s.stack.map Frame.goal).reverse ++ g :: rest = P.agenda := hpending ▸ h.agenda
  obtain ⟨-, hhosts⟩ := mem_agenda (P := P) (g := g) (by simp [← hagenda])
  have horder : t.nodes ++ (g :: rest).map Goal.node = P.searchOrder := by
    rw [Trail.nodes, List.map_reverse, h.nodes, Search.placed, hphase, searchOrder, ← hagenda,
      List.map_append, List.map_reverse, List.map_map]
    rfl
  have hlive : ∀ p ∈ P.pattern.portsOf g.node, (P.assemble t).port? p = none :=
    (h.legal.places hP hT).port_none hP (not_mem_nodes (horder ▸ P.nodup_searchOrder))
  rw [Frame.remaining_fresh h.inUse]
  simp only [pinsAfter, allPins, hhosts, h.current, h.inUse, portMaps_eq_allPortMaps hP hlive]

end Problem

/-! ## Frames of a run -/

/-- To find two linked ports among three in a row, which are not linked to any other port. -/
def rowApart : Problem where
  pattern := (Graph.empty "two").replay linkedTwice
  target := (Graph.empty "row").replay (threeInARow.take 8)

namespace Problem

variable {P : Problem} {budget : ℕ} {s : Search}

theorem exists_tracks (hP : P.pattern.WellFormed) (hT : P.target.WellFormed)
    (hs : s ∈ Search.start P :: (Search.start P).course P budget) : ∃ t, P.Tracks s t := by
  refine Search.forall_mem_course P budget (motive := fun s => ∃ t, P.Tracks s t)
    ⟨[], (tracks_start hP hT).1⟩ ?_ s hs
  rintro s s' ⟨t, h⟩ hstep
  obtain ⟨t', h', -⟩ := h.moved hP hstep
  exact ⟨t', h'⟩

/-- Whenever a search opens a frame, the frame yields the pins that could be listed at that moment:
for each host that is not in use, in ascending order, all placements of the ports in lexicographic
order.  It yields all of them if it is given up, and the first ones if the search ends before. -/
theorem frames_draw_allPins (hP : P.pattern.Built) (hT : P.target.Built)
    (hs : s ∈ Search.start P :: (Search.start P).course P budget) (hphase : s.phase = .descend)
    {g : Goal} {rest : List Goal} (hpending : s.pending = g :: rest) :
    let opened := s.descend P g rest
    let pins := P.allPins s.current s.inUse.contains g.node
    s.step P budget = .moved opened ∧
    opened.Draws P budget opened.stack.length pins ∧
    pins.Pairwise (fun x y => x.host.index < y.host.index ∨
      x.host = y.host ∧ x.choices.map Choice.slot < y.choices.map Choice.slot) ∧
    ∀ pin, pin ∈ pins ↔ pin.host ∈ P.hostsOf g.node ∧ s.inUse.contains pin.host = false ∧
      P.IsPortMap s.current g.node pin.host pin.choices := by
  intro opened pins
  obtain ⟨t, h⟩ := exists_tracks hP.wellFormed hT.wellFormed hs
  refine ⟨?_, ?_, P.pairwise_allPins _ _ _, fun pin => mem_allPins hP.wellFormed⟩
  · simp only [Search.step, hphase, hpending]
    rfl
  · have hlen : t.length = s.stack.length := by
      rw [h.length_eq, Search.placed, hphase]
    have htracks : P.Tracks opened t := (h.descend hphase hpending).1
    have hholds : P.Holds opened t t s.stack (Frame.fresh P s.inUse.contains g) :=
      ⟨htracks, List.suffix_refl _, List.suffix_refl _, hlen⟩
    have hpins : (Frame.fresh P s.inUse.contains g).remaining P (P.assemble t) = pins :=
      h.remaining_eq_allPins hP.wellFormed hT.wellFormed hphase hpending
    exact hpins ▸ hholds.draws hP.wellFormed budget

/-- The frame of the first node yields all four placements on the three ports in a row.  Each of
them is followed by a frame for the second node, which finds no place and is given up. -/
theorem frames_draw_allPins_row :
    let P := rowApart
    let opened := (Search.start P).descend P ⟨⟨0⟩, [⟨0⟩]⟩ [⟨⟨1⟩, [⟨0⟩, ⟨1⟩]⟩]
    (Search.start P).pending = [⟨⟨0⟩, [⟨0⟩]⟩, ⟨⟨1⟩, [⟨0⟩, ⟨1⟩]⟩] ∧
    opened.GivesUp P 10 1 ∧
    (opened.offers P 10 1).map (fun pin => pin.choices.map Choice.slot)
      = [[0, 1], [1, 0], [1, 2], [2, 1]] := by
  intro P opened
  have hpending : (Search.start P).pending = [⟨⟨0⟩, [⟨0⟩]⟩, ⟨⟨1⟩, [⟨0⟩, ⟨1⟩]⟩] := by decide +kernel
  have hup : opened.GivesUp P 10 1 := by decide +kernel
  have hdraws : opened.Draws P 10 1 (P.allPins (Search.start P).current
      (Search.start P).inUse.contains ⟨0⟩) :=
    (frames_draw_allPins ⟨_, _, rfl⟩ ⟨_, _, rfl⟩ List.mem_cons_self rfl hpending).2.1
  refine ⟨hpending, hup, ?_⟩
  rw [hdraws.complete hup]
  decide +kernel

end Problem

end PortMatch
