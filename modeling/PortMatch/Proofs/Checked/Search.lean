import Mathlib
import PortMatch.Proofs.Checked.Cursor
import PortMatch.Proofs.Checked.Preflight
import PortMatch.Proofs.Search.Best
import PortMatch.Proofs.Search.Events

/-!
# Checked searches

A search looks up the next goal by the number of its frames, and the hosts of the goal in a table;
it names nodes by their descriptions, counts its rounds with 64 bits, and counts what is placed.
Its moves are defined here once more with checked operations.

The checks never fail for a search that is *sound*: it is at a trail, its frames are sound, and it
keeps to its budget.  A search is sound at its beginning and stays so.

* `Plan` — what a search looks up;
* `Search.checkedStep`, `Search.checkedRun` — the moves, checked;
* `Search.Sound` — the invariant; `Search.Sound.moved` — it is kept;
* `Search.Sound.checkedStep_eq`, `Search.Sound.checkedRun_eq` — under it the checks do not fail.
-/

namespace PortMatch

/-- What a search looks up. -/
structure Plan where
  /-- The nodes of the pattern in the order in which they are taken on. -/
  order : Array NodeId
  /-- The hosts of each of them. -/
  hosts : HostTable

/-! ## Checked scores -/

namespace Assignment

/-- The numbers of nodes and of ports that are mapped, if they fit a word. -/
def score? (s : Assignment) : Option (ℕ × ℕ) := do
  let nodes ← fits? UInt32.size s.assignedNodes
  let ports ← fits? UInt32.size s.assignedPorts
  return (nodes, ports)

/-- The better one of two assignments by their scores. -/
def checkedBetter (s t : Assignment) : Option Assignment := do
  let old ← s.score?
  let new ← t.score?
  return if (compareLex (compareOn Prod.fst) (compareOn Prod.snd) new old).isGT then t else s

variable {s t : Assignment} {pattern : Graph}

theorem Lists.score?_eq (h : s.Lists pattern) (hsmall : pattern.Numbered) :
    s.score? = some (s.assignedNodes, s.assignedPorts) := by
  have hnodes : s.assignedNodes < UInt32.size := by
    calc s.assignedNodes
      _ ≤ pattern.nodeIds.length := h.assignedNodes_eq ▸ List.countP_le_length
      _ = pattern.nodeCount := pattern.length_nodeIds
      _ < UInt32.size := hsmall.nodes
  have hports : s.assignedPorts < UInt32.size := by
    calc s.assignedPorts
      _ ≤ pattern.portIds.length := h.assignedPorts_eq ▸ List.countP_le_length
      _ = pattern.portCount := pattern.length_portIds
      _ < UInt32.size := hsmall.ports
  rw [score?, fits?_eq hnodes, fits?_eq hports]
  rfl

theorem Lists.checkedBetter_eq (hs : s.Lists pattern) (ht : t.Lists pattern)
    (hsmall : pattern.Numbered) : s.checkedBetter t = some (s.better t) := by
  rw [checkedBetter, hs.score?_eq hsmall, ht.score?_eq hsmall]
  rfl

theorem Lists.better (hs : s.Lists pattern) (ht : t.Lists pattern) :
    (s.better t).Lists pattern := by
  unfold Assignment.better
  split
  · exact ht
  · exact hs

end Assignment

namespace Search

/-! ## Checked moves -/

/-- Takes on the next goal, looked up in the plan. -/
def checkedDescend (P : Problem) (plan : Plan) (s : Search) : Option Search := do
  let n ← plan.order[s.stack.length]?
  let hosts ← plan.hosts[n]?
  let f ← Frame.checkedFresh P s.inUse.contains ⟨n, hosts⟩
  return { s with phase := .resume, stack := f :: s.stack, pending := s.pending.tail }

/-- Places a goal, checked. -/
def checkedPin (P : Problem) (s : Search) (p : Pin) (f : Frame) (below : List Frame) :
    Option Search := do
  let n := f.goal.node
  let rounds ← fits? UInt64.size (s.rounds + 1)
  let desc ← P.pattern.nodeDesc? n
  let hostDesc ← P.target.nodeDesc? p.host
  let current := s.current.place n p
  let best ← s.best.checkedBetter current
  return { s with
    phase := .descend
    stack := f :: below
    current
    inUse := s.inUse.insert p.host
    best
    rounds
    news := .event (.pinning n p.host) :: .entry (.pin rounds desc hostDesc)
      :: .event (.round rounds) :: s.news }

/-- Gives up the topmost frame, checked. -/
def checkedGiveUp (P : Problem) (s : Search) (g : Goal) (below : List Frame) : Option Search :=
  let s := { s with
    stack := below
    pending := g :: s.pending
    news := .event (.backtracked 1) :: s.news }
  match below with
  | [] => some s
  | f :: _ => do
    let n := f.goal.node
    let desc ← P.pattern.nodeDesc? n
    let s := { s with news := .entry (.backtrack below.length desc) :: s.news }
    return s.unpin P n

/-- One move, checked.  That all goals are taken on shows by the number of frames. -/
def checkedStep (P : Problem) (plan : Plan) (budget : ℕ) (s : Search) : Option Move :=
  match s.phase with
  | .descend =>
    if s.stack.length = plan.order.size then some (.ended .found s)
    else (s.checkedDescend P plan).map .moved
  | .resume =>
    match s.stack with
    | [] => some (.ended .exhausted { s with news := .entry (.exhausted s.rounds) :: s.news })
    | f :: below => do
      match ← f.checkedNext P s.current with
      | (some p, f') =>
        if budget ≤ s.rounds then return .ended .outOfRounds s
        else (s.checkedPin P p f' below).map .moved
      | (none, f') => (s.checkedGiveUp P f'.goal below).map .moved

/-- All moves, checked. -/
def checkedRun (P : Problem) (plan : Plan) (budget : ℕ) (s : Search) :
    Option (Ending × Search) := do
  match ← s.checkedStep P plan budget with
  | .moved s' => s' |>.checkedRun P plan budget
  | .ended how s' => return (how, s')
partial_fixpoint

end Search

/-! ## Sound searches -/

/-- A plan that fits the problem. -/
structure Plan.Fits (P : Problem) (plan : Plan) : Prop where
  /-- The order is that of the agenda. -/
  order : plan.order.toList = P.agenda.map Goal.node
  /-- The table has the hosts of every node of the pattern. -/
  hosts : ∀ n ∈ P.pattern.nodeIds, plan.hosts[n]? = some (P.hostsOf n)

namespace Search

variable {P : Problem} {plan : Plan} {budget : ℕ} {s s' : Search}

/-- A search that the checks let pass. -/
structure Sound (P : Problem) (budget : ℕ) (s : Search) : Prop where
  /-- The search is at a trail. -/
  tracks : ∃ t, P.Tracks s t
  /-- Its frames are for nodes of the pattern, and their cursors are sound. -/
  frames : ∀ f ∈ s.stack, f.Sound P
  /-- The best assignment lists what the pattern has. -/
  best : s.best.Lists P.pattern
  /-- The rounds are within the budget. -/
  rounds : s.rounds ≤ budget

theorem sound_start (hP : P.pattern.WellFormed) (hT : P.target.WellFormed) (budget : ℕ) :
    (start P).Sound P budget where
  tracks := ⟨[], (Problem.tracks_start hP hT).1⟩
  frames := List.forall_mem_nil _
  best := Assignment.lists_unassigned _
  rounds := Nat.zero_le _

namespace Sound

/-- The next goal is a node of the pattern, with its hosts. -/
theorem goal_of_pending (h : s.Sound P budget) {g : Goal} {rest : List Goal}
    (hpending : s.pending = g :: rest) :
    g.node ∈ P.pattern.nodeIds ∧ g.hosts = P.hostsOf g.node := by
  obtain ⟨t, htracks⟩ := h.tracks
  refine Problem.mem_agenda ?_
  rw [← htracks.agenda, hpending]
  exact List.mem_append_right _ List.mem_cons_self

variable (hP : P.pattern.WellFormed) (hT : P.target.WellFormed)

include hP in
/-- A pin maps nothing that the pattern does not have. -/
theorem lists_pin (h : s.Sound P budget) (hphase : s.phase = .resume) {f f' : Frame}
    {frames : List Frame} (hstack : s.stack = f :: frames) {p : Pin}
    (hnext : f.next P s.current = (some p, f')) :
    (s.current.place f'.goal.node p).Lists P.pattern := by
  obtain ⟨t, htracks⟩ := h.tracks
  obtain ⟨hpin, -⟩ := htracks.pin hphase hstack hnext
  have hlists := hpin.legal.lists hP
  rwa [← hpin.current] at hlists

include hP in
/-- Every move keeps a search sound. -/
theorem moved (h : s.Sound P budget) (hstep : s.step P budget = .moved s') :
    s'.Sound P budget := by
  have hframes := h.frames
  obtain ⟨t, htracks⟩ := h.tracks
  refine ⟨(htracks.moved hP hstep).imp fun _ => And.left, ?_, ?_,
    rounds_within_of_moved h.rounds hstep⟩
  · rcases step_eq_moved hstep with ⟨g, rest, -, hpending, rfl⟩ |
      ⟨f, f', frames, p, -, hstack, hnext, -, rfl⟩ | ⟨f, f', frames, -, hstack, -, rfl⟩
    · obtain ⟨hnode, hhosts⟩ := h.goal_of_pending hpending
      refine List.forall_mem_cons.2 ⟨Frame.sound_fresh hnode ?_ _, hframes⟩
      rw [hhosts]
      exact List.filter_subset_self _
    · rw [hstack] at hframes
      obtain ⟨hf, hrest⟩ := List.forall_mem_cons.1 hframes
      have hf' := (hf.next s.current).1
      rw [hnext] at hf'
      exact List.forall_mem_cons.2 ⟨hf', hrest⟩
    · rw [hstack] at hframes
      rw [stack_giveUp]
      exact (List.forall_mem_cons.1 hframes).2
  · rcases step_eq_moved hstep with ⟨g, rest, -, -, rfl⟩ |
      ⟨f, f', frames, p, hphase, hstack, hnext, -, rfl⟩ | ⟨f, f', frames, -, -, -, rfl⟩
    · exact h.best
    · exact h.best.better (h.lists_pin hP hphase hstack hnext)
    · rw [best_giveUp]
      exact h.best

/-! ## The checks do not fail -/

variable (hsmallP : P.pattern.Numbered) (hsmallT : P.target.Numbered)

include hsmallT in
theorem checkedDescend_eq (h : s.Sound P budget) (hplan : plan.Fits P) {g : Goal}
    {rest : List Goal} (hpending : s.pending = g :: rest) :
    s.checkedDescend P plan = some (s.descend P g rest) := by
  obtain ⟨hnode, hhosts⟩ := h.goal_of_pending hpending
  have horder : plan.order[s.stack.length]? = some g.node := by
    obtain ⟨t, htracks⟩ := h.tracks
    rw [← Array.getElem?_toList, hplan.order, ← htracks.agenda, List.getElem?_map,
      List.getElem?_append_right (by simp)]
    simp [hpending]
  have hfresh := Frame.checkedFresh_eq hsmallT
    (hhosts ▸ List.filter_sublist : g.hosts.Sublist P.target.nodeIds) s.inUse.contains
  simp only [checkedDescend, horder, hplan.hosts _ hnode, ← hhosts, Option.bind_eq_bind,
    Option.bind_some, hfresh, hpending]
  rfl

include hP hsmallP in
theorem checkedPin_eq (h : s.Sound P budget) (hbudget : budget < UInt64.size)
    (hphase : s.phase = .resume) {f f' : Frame} {frames : List Frame}
    (hstack : s.stack = f :: frames) {p : Pin} (hnext : f.next P s.current = (some p, f'))
    (hlt : s.rounds < budget) :
    s.checkedPin P p f' frames = some (s.pin P p f' frames) := by
  obtain ⟨hf, hhost⟩ := (h.frames f (hstack ▸ List.mem_cons_self)).next s.current
  rw [hnext] at hf hhost
  simp only [checkedPin, fits?_eq (Nat.lt_of_le_of_lt hlt hbudget), Graph.nodeDesc?_eq hf.node,
    Graph.nodeDesc?_eq (hhost p rfl), Option.bind_eq_bind, Option.bind_some,
    h.best.checkedBetter_eq (h.lists_pin hP hphase hstack hnext) hsmallP]
  rfl

theorem checkedGiveUp_eq (h : s.Sound P budget) {f : Frame} {frames : List Frame}
    (hstack : s.stack = f :: frames) (g : Goal) :
    s.checkedGiveUp P g frames = some (s.giveUp P g frames) := by
  cases frames with
  | nil => rfl
  | cons below frames =>
    have hbelow : below.Sound P :=
      h.frames below (hstack ▸ List.mem_cons_of_mem _ List.mem_cons_self)
    simp only [checkedGiveUp, Graph.nodeDesc?_eq hbelow.node]
    rfl

include hP hT hsmallP hsmallT in
theorem checkedStep_eq (h : s.Sound P budget) (hplan : plan.Fits P)
    (hbudget : budget < UInt64.size) :
    s.checkedStep P plan budget = some (s.step P budget) := by
  have hlen : s.stack.length + s.pending.length = plan.order.size := by
    obtain ⟨t, htracks⟩ := h.tracks
    rw [← Array.length_toList, hplan.order, List.length_map, ← htracks.agenda]
    simp
  cases hphase : s.phase with
  | descend =>
    cases hpending : s.pending with
    | nil => simp [checkedStep, step, hphase, hpending, ← hlen]
    | cons g rest =>
      simp [checkedStep, step, hphase, hpending, ← hlen, h.checkedDescend_eq hsmallT hplan hpending]
  | resume =>
    cases hstack : s.stack with
    | nil => simp [checkedStep, step, hphase, hstack]
    | cons f frames =>
      have hf : f.Sound P := h.frames f (hstack ▸ List.mem_cons_self)
      simp only [checkedStep, step, hphase, hstack, hf.checkedNext_eq hP hT hsmallT]
      rcases hnext : f.next P s.current with ⟨_ | p, f'⟩
      · simp [h.checkedGiveUp_eq hstack]
      · by_cases hspent : budget ≤ s.rounds
        · simp [hspent]
        · simp [hspent,
            h.checkedPin_eq hP hsmallP hbudget hphase hstack hnext (Nat.lt_of_not_le hspent)]

include hP hT hsmallP hsmallT in
/-- A sound search gets to its end without a check that fails. -/
theorem checkedRun_eq (h : s.Sound P budget) (hplan : plan.Fits P)
    (hbudget : budget < UInt64.size) :
    s.checkedRun P plan budget = some (s.run P budget) := by
  fun_induction run P budget s with
  | case1 s s' hstep ih =>
    rw [checkedRun, h.checkedStep_eq hP hT hsmallP hsmallT hplan hbudget, hstep]
    exact ih (h.moved hP hstep)
  | case2 s how s' hstep =>
    rw [checkedRun, h.checkedStep_eq hP hT hsmallP hsmallT hplan hbudget, hstep]
    rfl

end Sound

end Search

end PortMatch
