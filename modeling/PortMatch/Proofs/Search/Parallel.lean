import PortMatch.Proofs.Search.Course

/-!
# Searches in parallel

A search asks little of its problem: which goals there are, which ports the nodes have, which kinds
agree, which ports are linked.  Where two problems answer alike, their searches make the same moves
and go through the same states.  Only the names in their logs may differ.

* `Problem.Parallel` — the problems answer alike;
* `Problem.Parallel.next_eq`, `Problem.Parallel.frameNext_eq` — cursors and frames yield the same;
* `Note` — a piece of news by ids, and `Note.news`, the same in the words of a problem;
* `Search.inWords` — a state whose news are notes in the words of a problem;
* `Search.exists_notes_of_moved`, `Search.exists_notes_of_run` — one move leaves the same notes in
  all problems that answer alike, and so do all moves.
-/

namespace PortMatch

/-! ## Problems -/

/-- To a search, the problem `P'` is the same as the problem `P`. -/
structure Problem.Parallel (P P' : Problem) : Prop where
  /-- The patterns have the same nodes. -/
  nodeIds : P'.pattern.nodeIds = P.pattern.nodeIds
  /-- The patterns have the same ports. -/
  portIds : P'.pattern.portIds = P.pattern.portIds
  /-- Nodes have the same hosts. -/
  hostsOf : ∀ n, P'.hostsOf n = P.hostsOf n
  /-- Nodes of the patterns list the same ports. -/
  patternPorts : ∀ n, P'.pattern.portsOf n = P.pattern.portsOf n
  /-- Nodes of the targets list the same ports. -/
  targetPorts : ∀ c, P'.target.portsOf c = P.target.portsOf c
  /-- The same ports are of the same kind. -/
  kind : ∀ p q, P'.target.kind? q = P'.pattern.kind? p ↔ P.target.kind? q = P.pattern.kind? p
  /-- Ports of the patterns have the same neighbors, if perhaps in another order. -/
  mem_neighbors : ∀ p q, q ∈ P'.pattern.neighbors p ↔ q ∈ P.pattern.neighbors p
  /-- The same ports of the targets are linked. -/
  connected : ∀ p q, P'.target.connected p q = P.target.connected p q

theorem Problem.Parallel.refl (P : Problem) : P.Parallel P where
  nodeIds := rfl
  portIds := rfl
  hostsOf _ := rfl
  patternPorts _ := rfl
  targetPorts _ := rfl
  kind _ _ := Iff.rfl
  mem_neighbors _ _ := Iff.rfl
  connected _ _ := rfl

namespace Problem.Parallel

variable {P P' : Problem} (h : P.Parallel P')
include h

theorem goals_eq : P'.goals = P.goals := by
  rw [goals, goals, h.nodeIds]
  exact List.map_congr_left fun n _ => by rw [h.hostsOf]

theorem agenda_eq : P'.agenda = P.agenda := by rw [agenda, agenda, h.goals_eq]

theorem unassigned_eq :
    Assignment.unassigned P'.pattern = Assignment.unassigned P.pattern := by
  rw [Assignment.unassigned, Assignment.unassigned, h.nodeIds, h.portIds]

theorem unassignNode_eq (s : Assignment) (n : NodeId) :
    s.unassignNode P'.pattern n = s.unassignNode P.pattern n := by
  rw [Assignment.unassignNode, Assignment.unassignNode, h.patternPorts]

/-! ## Cursors and frames -/

theorem mem_anchors (live : Assignment) (placed : List Choice) (port : PortId) {r : PortId} :
    r ∈ P'.anchors live placed port ↔ r ∈ P.anchors live placed port := by
  simp only [anchors, List.mem_filterMap, h.mem_neighbors]

/-- A place has to be linked to all anchors, whatever order they come in. -/
theorem place?_eq (live : Assignment) (c : Cursor) (port : PortId) (slot : Nat) :
    c.place? P' (P'.anchors live c.placed port) port slot
      = c.place? P (P.anchors live c.placed port) port slot := by
  have hall : ∀ image, (P'.anchors live c.placed port).all (P'.target.connected image)
      = (P.anchors live c.placed port).all (P.target.connected image) := by
    intro image
    rw [Bool.eq_iff_iff]
    simp only [List.all_eq_true, h.mem_anchors, h.connected]
  simp only [Cursor.place?, h.targetPorts, h.kind, hall]

theorem step_eq (live : Assignment) (c : Cursor) : c.step P' live = c.step P live := by
  have hchoice : ∀ port, c.choice? P' live port = c.choice? P live port := by
    intro port
    exact congrArg (List.findSome? · _) (funext fun slot => h.place?_eq live c port slot)
  simp only [Cursor.step, hchoice]

theorem next_eq (live : Assignment) (c : Cursor) : c.next P' live = c.next P live := by
  fun_induction Cursor.next P live c with
  | case1 c hdone => rw [Cursor.next, dif_pos hdone]
  | case2 c hdone c' hstep ih =>
    rw [← h.step_eq] at hstep
    rw [Cursor.next, dif_neg hdone, hstep]
    exact ih
  | case3 c hdone choices c' hstep =>
    rw [← h.step_eq] at hstep
    rw [Cursor.next, dif_neg hdone, hstep]

theorem firstNext_eq (live : Assignment) (cs : List Cursor) :
    Cursor.firstNext P' live cs = Cursor.firstNext P live cs := by
  induction cs with
  | nil => rfl
  | cons c rest ih => rw [Cursor.firstNext, Cursor.firstNext, h.next_eq, ih]

theorem frameNext_eq (live : Assignment) (f : Frame) : f.next P' live = f.next P live := by
  rw [Frame.next, Frame.next, h.firstNext_eq]

theorem frameFresh_eq (inUse : NodeId → Bool) (g : Goal) :
    Frame.fresh P' inUse g = Frame.fresh P inUse g := by
  have hfresh : ∀ c, Cursor.fresh P' g.node c = Cursor.fresh P g.node c := by
    intro c
    rw [Cursor.fresh, Cursor.fresh, h.patternPorts, h.targetPorts]
  rw [Frame.fresh, Frame.fresh]
  exact congrArg (Frame.mk g) (List.map_congr_left fun c _ => hfresh c)

end Problem.Parallel

/-! ## News by ids -/

/-- A piece of news that a move of a search leaves behind, by ids: an event for an observer, or else
an entry for a log. -/
inductive Note where
  /-- A round begins. -/
  | round (index : Nat)
  /-- A node of the pattern is placed on a host. -/
  | pinning (node host : NodeId)
  /-- The alternatives of a number of nodes are used up. -/
  | backtracked (steps : Nat)
  /-- A log is told of a pin. -/
  | pin (round : Nat) (node host : NodeId)
  /-- A log is told that the search goes back to a node. -/
  | backtrack (depth : Nat) (node : NodeId)
  /-- A log is told that everything has been tried. -/
  | exhausted (rounds : Nat)

/-- The news in the words of a problem.  Events have no words. -/
def Note.news (P : Problem) : Note → News
  | round i => .event (.round i)
  | pinning n c => .event (.pinning n c)
  | backtracked steps => .event (.backtracked steps)
  | pin i n c => .entry (.pin i (P.pattern.nodeDesc n) (P.target.nodeDesc c))
  | backtrack depth n => .entry (.backtrack depth (P.pattern.nodeDesc n))
  | exhausted rounds => .entry (.exhausted rounds)

namespace Search

variable {P P' : Problem} {budget : Nat} {s t : Search}

/-- The state with other news, namely with the given notes in the words of the problem `P`; the
latest note comes first. -/
def inWords (s : Search) (P : Problem) (notes : List Note) : Search :=
  { s with news := notes.map (Note.news P) }

/-! ## Moves -/

theorem start_eq (h : P.Parallel P') : start P' = (start P).inWords P' [] := by
  rw [start, start, h.agenda_eq, h.unassigned_eq]
  rfl

theorem descend_inWords (h : P.Parallel P') (notes : List Note) (g : Goal) (rest : List Goal) :
    (s.inWords P' notes).descend P' g rest = (s.descend P g rest).inWords P' notes := by
  simp only [descend, inWords, h.frameFresh_eq]

theorem exists_notes_of_giveUp (s : Search) (g : Goal) (below : List Frame) (notes : List Note) :
    ∃ notes', ∀ P', P.Parallel P' →
      (s.inWords P' notes).giveUp P' g below = (s.giveUp P g below).inWords P' notes' := by
  cases below with
  | nil => exact ⟨.backtracked 1 :: notes, fun P' _ => rfl⟩
  | cons f below =>
    refine ⟨.backtrack (below.length + 1) f.goal.node :: .backtracked 1 :: notes, fun P' h => ?_⟩
    simp only [giveUp, unpin, h.unassignNode_eq]
    rfl

/-- A move leaves the same notes in all problems that answer alike. -/
theorem exists_notes_of_moved (hstep : s.step P budget = .moved t) (notes : List Note) :
    ∃ notes', ∀ P', P.Parallel P' →
      (s.inWords P' notes).step P' budget = .moved (t.inWords P' notes') := by
  rcases step_eq_moved hstep with ⟨g, rest, hphase, hpending, rfl⟩ |
    ⟨f, f', frames, p, hphase, hstack, hnext, hlt, rfl⟩ |
    ⟨f, f', frames, hphase, hstack, hnext, rfl⟩
  · refine ⟨notes, fun P' h => ?_⟩
    rw [← descend_inWords h]
    simp only [step, inWords, hphase, hpending]
  · refine ⟨.pinning f'.goal.node p.host :: .pin (s.rounds + 1) f'.goal.node p.host
      :: .round (s.rounds + 1) :: notes, fun P' h => ?_⟩
    simp only [step, inWords, hphase, hstack, h.frameNext_eq, hnext,
      if_neg (Nat.not_le_of_lt hlt)]
    rfl
  · obtain ⟨notes', hnotes⟩ := exists_notes_of_giveUp s f'.goal frames notes
    refine ⟨notes', fun P' h => ?_⟩
    rw [← hnotes P' h]
    simp only [step, inWords, hphase, hstack, h.frameNext_eq, hnext]

/-- So does the end. -/
theorem exists_notes_of_ended {how : Ending} (hstep : s.step P budget = .ended how t)
    (notes : List Note) :
    ∃ notes', ∀ P', P.Parallel P' →
      (s.inWords P' notes).step P' budget = .ended how (t.inWords P' notes') := by
  rcases step_eq_ended hstep with ⟨rfl, hphase, hpending, rfl⟩ | ⟨rfl, hphase, hstack, rfl⟩ |
    ⟨f, f', frames, p, rfl, hphase, hstack, hnext, hle, rfl⟩
  · exact ⟨notes, fun P' _ => by simp only [step, inWords, hphase, hpending]⟩
  · refine ⟨.exhausted s.rounds :: notes, fun P' _ => ?_⟩
    simp only [step, inWords, hphase, hstack]
    rfl
  · refine ⟨notes, fun P' h => ?_⟩
    simp only [step, inWords, hphase, hstack, h.frameNext_eq, hnext, if_pos hle]

/-- A search leaves the same notes in all problems that answer alike, and it ends in the same way in
all of them. -/
theorem exists_notes_of_run (P : Problem) (budget : Nat) (s : Search) (notes : List Note) :
    ∃ notes', ∀ P', P.Parallel P' → (s.inWords P' notes).run P' budget
      = ((s.run P budget).1, (s.run P budget).2.inWords P' notes') := by
  fun_induction run P budget s generalizing notes with
  | case1 s t hstep ih =>
    obtain ⟨moved, hmoved⟩ := exists_notes_of_moved hstep notes
    obtain ⟨notes', hnotes⟩ := ih moved
    exact ⟨notes', fun P' h => by rw [run_of_moved (hmoved P' h), hnotes P' h]⟩
  | case2 s how t hstep =>
    obtain ⟨notes', hnotes⟩ := exists_notes_of_ended hstep notes
    exact ⟨notes', fun P' h => run_of_ended (hnotes P' h)⟩

end Search

end PortMatch
