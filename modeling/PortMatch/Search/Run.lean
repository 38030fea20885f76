import PortMatch.Search.Config
import PortMatch.Search.Frame
import PortMatch.Search.Trace
import Std.Data.ExtTreeSet

/-!
# The search

The search goes through the goals of the agenda and places one after the other.  It keeps a stack of
frames, one for each goal taken on, and works in two phases: it *descends* to the next goal by
opening a frame for it, and it *resumes* the topmost frame to get a pin from it.  A frame without
another pin is given up: its goal is pending again, and the goal below it is unplaced before its
frame is resumed in turn.

The search ends when no goal is pending, when the last frame is given up, or when a pin turns up
although the budget of rounds is used up.  Along the way it remembers the best assignment so far:
the first one among those with the most nodes, and among these with the most ports.

* `Search` — the state; `Search.start` — the state at the beginning;
* `Search.step` — one move;
* `Search.movesLeft`, `Search.movesLeft_step_lt` — a number that every move makes smaller;
* `Search.run` — all moves, to the end.
-/

namespace PortMatch

/-! ## Placing a node -/

/-- The assignment with the node `n` and its ports placed as the pin says. -/
def Assignment.place (s : Assignment) (n : NodeId) (pin : Pin) : Assignment :=
  pin.choices.foldl (fun s ch => s.assignPort ch.port ch.image) (s.assignNode n pin.host)

/-- Does `s` map more nodes than `t`, or as many nodes and more ports? -/
def Assignment.exceeds (s t : Assignment) : Bool :=
  (compareLex (compareOn assignedNodes) (compareOn assignedPorts) s t).isGT

/-! ## States -/

/-- What a search is about to do. -/
inductive Phase where
  /-- Take on the next goal. -/
  | descend
  /-- Get a pin from the topmost frame. -/
  | resume
  deriving DecidableEq

/-- The state of a search. -/
structure Search where
  /-- What the search is about to do. -/
  phase : Phase := .descend
  /-- The frames of the goals taken on, the latest first. -/
  stack : List Frame := []
  /-- The goals not taken on, in order. -/
  pending : List Goal
  /-- Where the nodes and ports are placed at present. -/
  current : Assignment
  /-- The hosts at present. -/
  inUse : Std.ExtTreeSet NodeId := ∅
  /-- The best assignment so far. -/
  best : Assignment
  /-- The number of pins so far. -/
  rounds : Nat := 0
  /-- The news so far, the latest first. -/
  news : List News := []

/-- How a search ends. -/
inductive Ending where
  /-- All goals are placed. -/
  | found
  /-- Everything has been tried. -/
  | exhausted
  /-- The budget of rounds is used up. -/
  | outOfRounds
  deriving DecidableEq

namespace Search

/-- The search for a solution of `P`, at its beginning. -/
def start (P : Problem) : Search where
  pending := P.agenda
  current := .unassigned P.pattern
  best := .unassigned P.pattern

/-! ## Moves -/

/-- Takes on the goal `g`; the goals after it are still pending. -/
def descend (P : Problem) (s : Search) (g : Goal) (rest : List Goal) : Search :=
  { s with
    phase := .resume
    stack := Frame.fresh P s.inUse.contains g :: s.stack
    pending := rest }

/-- Places a goal; `f` is what is left of its frame, `below` are the frames under it. -/
def pin (P : Problem) (s : Search) (p : Pin) (f : Frame) (below : List Frame) : Search :=
  let n := f.goal.node
  let current := s.current.place n p
  { s with
    phase := .descend
    stack := f :: below
    current
    inUse := s.inUse.insert p.host
    best := if current.exceeds s.best then current else s.best
    rounds := s.rounds + 1
    news := .event (.pinning n p.host)
      :: .entry (.pin (s.rounds + 1) (P.pattern.nodeDesc n) (P.target.nodeDesc p.host))
      :: .event (.round (s.rounds + 1)) :: s.news }

/-- Takes the place of the node `n` and its ports back. -/
def unpin (P : Problem) (s : Search) (n : NodeId) : Search :=
  { s with
    inUse := (s.current.node? n).elim s.inUse s.inUse.erase
    current := s.current.unassignNode P.pattern n }

/-- Gives up the topmost frame, which is for the goal `g`, and unplaces the goal below it. -/
def giveUp (P : Problem) (s : Search) (g : Goal) (below : List Frame) : Search :=
  let s := { s with
    stack := below
    pending := g :: s.pending
    news := .event (.backtracked 1) :: s.news }
  match below with
  | [] => s
  | f :: _ =>
    let n := f.goal.node
    let s := { s with
      news := .entry (.backtrack below.length (P.pattern.nodeDesc n)) :: s.news }
    s.unpin P n

/-- What a move of a search leads to. -/
inductive Move where
  /-- The search goes on. -/
  | moved (s : Search)
  /-- The search has ended. -/
  | ended (how : Ending) (s : Search)

/-- One move of a search that may make `budget` pins. -/
def step (P : Problem) (budget : Nat) (s : Search) : Move :=
  match s.phase with
  | .descend =>
    match s.pending with
    | [] => .ended .found s
    | g :: rest => .moved (s.descend P g rest)
  | .resume =>
    match s.stack with
    | [] => .ended .exhausted { s with news := .entry (.exhausted s.rounds) :: s.news }
    | f :: below =>
      match f.next P s.current with
      | (some p, f') =>
        if budget ≤ s.rounds then .ended .outOfRounds s else .moved (s.pin P p f' below)
      | (none, f') => .moved (s.giveUp P f'.goal below)

/-! ## Why the moves come to an end -/

/-- A bound on the number of moves it takes to descend through the given goals in all ways. -/
def movesToDescend (P : Problem) : List Goal → Nat
  | [] => 0
  | g :: rest => g.moves P * (movesToDescend P rest + 1) + 2

/-- A bound on the number of moves it takes to resume the given frames until they are all given up;
`pending` are the goals that are pending while the first frame is resumed. -/
def movesToResume (P : Problem) : List Frame → List Goal → Nat
  | [], _ => 0
  | f :: below, pending =>
    f.movesLeft * (movesToDescend P pending + 1) + 1 + movesToResume P below (f.goal :: pending)

/-- A bound on the number of moves that are left. -/
def movesLeft (P : Problem) (s : Search) : Nat :=
  (match s.phase with
    | .descend => movesToDescend P s.pending
    | .resume => 0) + movesToResume P s.stack s.pending

theorem movesLeft_descend_lt {P : Problem} {s : Search} {g : Goal} {rest : List Goal}
    (hphase : s.phase = .descend) (hpending : s.pending = g :: rest) :
    (s.descend P g rest).movesLeft P < s.movesLeft P := by
  have hle := Nat.mul_le_mul_right (movesToDescend P rest + 1)
    (Frame.movesLeft_fresh_le P s.inUse.contains g)
  simp only [movesLeft, descend, hphase, hpending, movesToDescend, movesToResume, Frame.fresh] at *
  omega

theorem movesLeft_pin_lt {P : Problem} {s : Search} {p : Pin} {f f' : Frame} {below : List Frame}
    (hphase : s.phase = .resume) (hstack : s.stack = f :: below)
    (hnext : f.next P s.current = (some p, f')) :
    (s.pin P p f' below).movesLeft P < s.movesLeft P := by
  have hgoal : f'.goal = f.goal := by rw [← Frame.goal_next P s.current f, hnext]
  have hle := Nat.mul_le_mul_right (movesToDescend P s.pending + 1)
    (Nat.succ_le_of_lt (Frame.movesLeft_next_lt hnext))
  rw [Nat.succ_mul] at hle
  simp only [movesLeft, pin, hphase, hstack, movesToResume, hgoal]
  omega

theorem movesLeft_giveUp_lt {P : Problem} {s : Search} {f : Frame} {below : List Frame}
    (hphase : s.phase = .resume) (hstack : s.stack = f :: below) :
    (s.giveUp P f.goal below).movesLeft P < s.movesLeft P := by
  have hle : (s.giveUp P f.goal below).movesLeft P
      = movesToResume P below (f.goal :: s.pending) := by
    cases below <;> simp [movesLeft, giveUp, unpin, hphase, movesToResume]
  rw [hle]
  simp only [movesLeft, hphase, hstack, movesToResume]
  omega

/-- Every move leaves fewer moves. -/
theorem movesLeft_step_lt {P : Problem} {budget : Nat} {s s' : Search}
    (h : s.step P budget = .moved s') : s'.movesLeft P < s.movesLeft P := by
  unfold step at h
  split at h
  · next hphase =>
    split at h
    · cases h
    · next g rest hpending =>
      cases h
      exact movesLeft_descend_lt hphase hpending
  · next hphase =>
    split at h
    · cases h
    · next f below hstack =>
      split at h
      · next p f' hnext =>
        split at h
        · cases h
        · cases h
          exact movesLeft_pin_lt hphase hstack hnext
      · next f' hnext =>
        have hgoal : f'.goal = f.goal := by rw [← Frame.goal_next P s.current f, hnext]
        cases h
        rw [hgoal]
        exact movesLeft_giveUp_lt hphase hstack

/-! ## Running to the end -/

/-- All moves from a state on: how the search ends, and the state at that moment. -/
def run (P : Problem) (budget : Nat) (s : Search) : Ending × Search :=
  match _hstep : s.step P budget with
  | .moved s' => run P budget s'
  | .ended how s' => (how, s')
termination_by s.movesLeft P
decreasing_by exact movesLeft_step_lt _hstep

end Search

end PortMatch
