import Mathlib
import PortMatch.Proofs.Search.Balance

/-!
# What a search writes to its log

The log of a search tells nothing that its observer could not work out.  A pin is logged with the
number of the pins so far, a step back with what it takes off the observer's stack, and both with
the descriptions of the nodes that the observer is told of.  So the log is a function of the events,
which looks at every event together with those before it.

* `Event.moments`, `Event.undone?`, `Event.undos` — the events one by one, and what is taken back;
* `Problem.entriesOf`, `Problem.log` — what should be logged with one event, and with all;
* `Search.logged` — what a search has logged so far;
* `Problem.Informs.log_eq` — every move logs what should be logged with its events.
-/

namespace PortMatch

/-! ## Events one by one -/

namespace Event

/-- The given events, each after all those that come before it; these begin with `before`. -/
def momentsFrom (before : List Event) : List Event → List (List Event × Event)
  | [] => []
  | e :: rest => (before, e) :: momentsFrom (before ++ [e]) rest

/-- The given events, each after all those that come before it. -/
def moments (events : List Event) : List (List Event × Event) := momentsFrom [] events

/-- The node that an event places, and its host. -/
def pinned? : Event → Option (NodeId × NodeId)
  | pinning node host => some (node, host)
  | _ => none

/-- What a step back after the events `before` takes back: the latest of the placed nodes, with their
number.  It may be that there is none, and no other event takes anything back. -/
def undone? (before : List Event) : Event → Option (Nat × NodeId)
  | backtracked _ => (stackAfter before).head?.map fun top => ((stackAfter before).length, top.1)
  | _ => none

/-- What is taken back, one after the other. -/
def undos (events : List Event) : List (Nat × NodeId) :=
  (moments events).filterMap fun m => undone? m.1 m.2

theorem momentsFrom_append (before events later : List Event) :
    momentsFrom before (events ++ later)
      = momentsFrom before events ++ momentsFrom (before ++ events) later := by
  induction events generalizing before with
  | nil => rw [List.append_nil]; rfl
  | cons e rest ih => simp [momentsFrom, ih]

theorem moments_append_singleton (events : List Event) (e : Event) :
    moments (events ++ [e]) = moments events ++ [(events, e)] := momentsFrom_append [] events [e]

theorem mem_of_mem_momentsFrom {before events : List Event} {m : List Event × Event}
    (h : m ∈ momentsFrom before events) : m.2 ∈ events := by
  induction events generalizing before with
  | nil => cases h
  | cons e rest ih =>
    rcases List.mem_cons.1 h with rfl | h
    · exact List.mem_cons_self
    · exact List.mem_cons_of_mem _ (ih h)

end Event

/-! ## The log of the events -/

namespace Entry

/-- Is a pin logged? -/
def isPin : Entry → Bool
  | pin .. => true
  | _ => false

/-- Is a step back logged? -/
def isBacktrack : Entry → Bool
  | backtrack .. => true
  | _ => false

/-- Is it logged that everything has been tried? -/
def isExhausted : Entry → Bool
  | exhausted _ => true
  | _ => false

/-- The entry that tells the result of a search. -/
def closing : Except (Report Obstacle) Solution → Entry
  | .ok sol => solveEnd sol.rounds
  | .error r => solveFailed r.cause

end Entry

namespace Problem

/-- What should be logged with an event after the events `before`. -/
def entriesOf (P : Problem) (budget : Nat) (before : List Event) : Event → List Entry
  | .starting pattern target =>
    [.solveStart pattern target P.pattern.nodeCount P.target.nodeCount budget]
  | .round _ => []
  | .pinning node host =>
    [.pin (before.countP Event.isPinning + 1) (P.pattern.nodeDesc node) (P.target.nodeDesc host)]
  | .backtracked steps =>
    (Event.undone? before (.backtracked steps)).toList.map fun u =>
      .backtrack u.1 (P.pattern.nodeDesc u.2)
  | .ending sol => [.solveEnd sol.rounds]
  | .failed r =>
    (if r.cause = none then [.exhausted (before.countP Event.isPinning)] else [])
      ++ [.solveFailed r.cause]

/-- What should be logged with the given events. -/
def log (P : Problem) (budget : Nat) (events : List Event) : List Entry :=
  (Event.moments events).flatMap fun m => P.entriesOf budget m.1 m.2

variable {P : Problem} {budget : Nat}

theorem log_append_singleton (events : List Event) (e : Event) :
    P.log budget (events ++ [e]) = P.log budget events ++ P.entriesOf budget events e := by
  rw [log, Event.moments_append_singleton, List.flatMap_append]
  simp [log]

/-! ## The sorts of entries -/

theorem filter_isPin_entriesOf (P : Problem) (budget : Nat) (before : List Event) (e : Event) :
    (P.entriesOf budget before e).filter Entry.isPin = e.pinned?.toList.map fun pair =>
      .pin (before.countP Event.isPinning + 1) (P.pattern.nodeDesc pair.1)
        (P.target.nodeDesc pair.2) := by
  cases e with
  | backtracked steps =>
    cases h : Event.undone? before (.backtracked steps) <;>
      simp [entriesOf, h, Entry.isPin, Event.pinned?]
  | failed r => cases h : r.cause <;> simp [entriesOf, h, Entry.isPin, Event.pinned?]
  | starting pattern target => rfl
  | round index => rfl
  | pinning node host => rfl
  | ending sol => rfl

theorem filter_isBacktrack_entriesOf (P : Problem) (budget : Nat) (before : List Event)
    (e : Event) :
    (P.entriesOf budget before e).filter Entry.isBacktrack
      = (e.undone? before).toList.map fun u => .backtrack u.1 (P.pattern.nodeDesc u.2) := by
  cases e with
  | backtracked steps =>
    cases h : Event.undone? before (.backtracked steps) <;> simp [entriesOf, h, Entry.isBacktrack]
  | failed r =>
    cases h : r.cause <;> simp [entriesOf, h, Entry.isBacktrack, Event.undone?]
  | starting pattern target => rfl
  | round index => rfl
  | pinning node host => rfl
  | ending sol => rfl

/-- The pins are logged in order, and counted from one. -/
theorem filter_isPin_log (P : Problem) (budget : Nat) (events : List Event) :
    (P.log budget events).filter Entry.isPin = (events.filterMap Event.pinned?).mapIdx fun i pair =>
      .pin (i + 1) (P.pattern.nodeDesc pair.1) (P.target.nodeDesc pair.2) := by
  have hcount : ∀ events : List Event,
      events.countP Event.isPinning = (events.filterMap Event.pinned?).length := by
    intro events
    rw [List.length_filterMap_eq_countP]
    congr 1
    funext e
    cases e <;> rfl
  induction events using List.reverseRecOn with
  | nil => rfl
  | append_singleton events e ih =>
    rw [log_append_singleton, List.filter_append, ih, filter_isPin_entriesOf, hcount,
      List.filterMap_append, List.mapIdx_append]
    cases hpin : e.pinned? <;> simp [hpin]

/-- The steps back that take something back are logged in order. -/
theorem filter_isBacktrack_log (P : Problem) (budget : Nat) (events : List Event) :
    (P.log budget events).filter Entry.isBacktrack = (Event.undos events).map fun u =>
      .backtrack u.1 (P.pattern.nodeDesc u.2) := by
  rw [log, List.filter_flatMap, Event.undos, List.filterMap_eq_flatMap_toList, List.map_flatMap]
  simp only [filter_isBacktrack_entriesOf]

/-- Between the beginning and the end, neither of the two is logged, nor that everything has been
tried. -/
theorem exists_log_eq (budget : Nat) (pattern target : String) {moves : List Event}
    (hmoves : ∀ e ∈ moves, e.isMove = true) :
    ∃ course, P.log budget (.starting pattern target :: moves)
        = .solveStart pattern target P.pattern.nodeCount P.target.nodeCount budget :: course ∧
      ∀ x ∈ course, x.level ≠ .info ∧ x.isExhausted = false := by
  refine ⟨_, rfl, ?_⟩
  intro x hx
  obtain ⟨m, hm, hx⟩ := List.mem_flatMap.1 hx
  have hmove := hmoves _ (Event.mem_of_mem_momentsFrom hm)
  obtain ⟨before, e⟩ := m
  cases e with
  | round index => cases hx
  | pinning node host =>
    obtain rfl := List.mem_singleton.1 hx
    exact ⟨Level.noConfusion, rfl⟩
  | backtracked steps =>
    obtain ⟨u, -, rfl⟩ := List.mem_map.1 hx
    exact ⟨Level.noConfusion, rfl⟩
  | starting pattern target => cases hmove
  | ending sol => cases hmove
  | failed r => cases hmove

/-- At the end the result is logged, and before it, if it is so, that everything has been tried. -/
theorem exists_entriesOf_closing_eq (P : Problem) (budget : Nat) (before : List Event)
    (result : Except (Report Obstacle) Solution) :
    ∃ last, P.entriesOf budget before (.closing result) = last ++ [.closing result] ∧
      last.length ≤ 1 ∧
      ∀ x, x ∈ last ↔ x = .exhausted (before.countP Event.isPinning) ∧
        ∃ r, result = .error r ∧ r.cause = none := by
  cases result with
  | ok sol => exact ⟨[], rfl, Nat.zero_le _, by simp⟩
  | error r =>
    refine ⟨_, rfl, ?_, fun x => ?_⟩
    · split <;> simp
    · by_cases hcause : r.cause = none <;> simp [hcause]

end Problem

/-! ## The log of a search -/

namespace Search

variable {P : Problem} {budget : Nat} {s s' : Search}

/-- What a search has logged so far, apart from its beginning. -/
def entries (s : Search) : List Entry := Trace.entries s.news.reverse

/-- All that a search has logged so far. -/
def logged (P : Problem) (budget : Nat) (s : Search) : List Entry :=
  .solveStart P.pattern.desc P.target.desc P.pattern.nodeCount P.target.nodeCount budget
    :: s.entries

theorem entries_pin (s : Search) (p : Pin) (f : Frame) (below : List Frame) :
    (s.pin P p f below).entries = s.entries ++
      [.pin (s.rounds + 1) (P.pattern.nodeDesc f.goal.node) (P.target.nodeDesc p.host)] := by
  simp only [entries, pin, List.reverse_cons, List.append_assoc, List.cons_append, List.nil_append]
  exact List.filterMap_append

theorem entries_giveUp (s : Search) (g : Goal) (below : List Frame) :
    (s.giveUp P g below).entries = s.entries ++ below.head?.toList.map fun f =>
      .backtrack below.length (P.pattern.nodeDesc f.goal.node) := by
  cases below <;>
    simp [entries, Trace.entries, giveUp, unpin, List.filterMap_cons, News.entry?]

end Search

namespace Problem

variable {P : Problem} {budget : Nat} {s s' : Search} {t best : Trail} {events before : List Event}

theorem Told.countP_isPinning_eq (h : P.Told events t best) :
    events.countP Event.isPinning = events.countP Event.isRound := by
  induction h with
  | starting => rfl
  | pin h he ih => rw [List.countP_append, List.countP_append, ih]; rfl
  | back h ih => rw [List.countP_append, List.countP_append, ih]; rfl

/-- Before a step back the events lead to a trail. -/
theorem Told.exists_told_of_backtracked (h : P.Told events t best) {steps : Nat}
    (hback : before ++ [.backtracked steps] <+: events) : ∃ t best, P.Told before t best := by
  induction h with
  | starting => cases (concat_isPrefix_singleton.1 hback).2
  | pin h he ih =>
    rcases concat_isPrefix_pair.1 hback with ⟨-, hlast⟩ | ⟨-, hlast⟩ | hback
    · cases hlast
    · cases hlast
    · exact ih hback
  | back h ih =>
    rcases concat_isPrefix_concat.1 hback with ⟨rfl, -⟩ | hback
    · exact ⟨_, _, h⟩
    · exact ih hback

/-- The stack holds the nodes that were placed and not taken back. -/
theorem Told.length_stackAfter_add (h : P.Told events t best) :
    (Event.stackAfter events).length + Event.stepsBack events
      = events.countP Event.isPinning := by
  rw [h.countP_isPinning_eq, h.countP_isRound_eq, h.stackAfter_eq, List.length_map, Nat.add_comm]

namespace Informs

/-- A pin is logged as it is told. -/
theorem logged_pin (h : P.Informs s t best) {f f' : Frame} {frames : List Frame}
    (hstack : s.stack = f :: frames) (p : Pin)
    (hlog : s.logged P budget = P.log budget (s.told P)) :
    (s.pin P p f' frames).logged P budget = P.log budget ((s.pin P p f' frames).told P) := by
  have htold : (s.pin P p f' frames).told P
      = s.told P ++ [.round (s.rounds + 1)] ++ [.pinning f'.goal.node p.host] := by
    rw [List.append_assoc]
    exact congrArg (_ :: ·) (s.events_pin p f' frames)
  have hcount : s.rounds = (s.told P).countP Event.isPinning := by
    rw [h.rounds_eq, (h.told (Search.not_givenUp_of_cons hstack)).countP_isPinning_eq]
  have hlogged : (s.pin P p f' frames).logged P budget = s.logged P budget ++
      [.pin (s.rounds + 1) (P.pattern.nodeDesc f'.goal.node) (P.target.nodeDesc p.host)] :=
    congrArg (_ :: ·) (s.entries_pin p f' frames)
  rw [hlogged, htold, log_append_singleton, log_append_singleton, ← hlog]
  simp [entriesOf, hcount, Event.isPinning]

/-- A step back is logged with the node that it takes back, if there is one. -/
theorem logged_giveUp (h : P.Informs s t best) (hphase : s.phase = .resume) {f : Frame}
    {frames : List Frame} (hstack : s.stack = f :: frames) (g : Goal)
    (hlog : s.logged P budget = P.log budget (s.told P)) :
    (s.giveUp P g frames).logged P budget = P.log budget ((s.giveUp P g frames).told P) := by
  have htold : (s.giveUp P g frames).told P = s.told P ++ [.backtracked 1] :=
    congrArg (_ :: ·) (s.events_giveUp g frames)
  have hlogged : (s.giveUp P g frames).logged P budget = s.logged P budget ++
      frames.head?.toList.map fun f =>
        .backtrack frames.length (P.pattern.nodeDesc f.goal.node) :=
    congrArg (_ :: ·) (s.entries_giveUp g frames)
  have hnodes := h.tracks.nodes
  simp only [Search.placed, hphase, hstack, List.tail_cons] at hnodes
  have hstacked := (h.told (Search.not_givenUp_of_cons hstack)).stackAfter_eq
  rw [hlogged, htold, log_append_singleton, ← hlog, entriesOf, Event.undone?, hstacked]
  -- the latest node of the trail is that of the frame below
  cases frames with
  | nil =>
    obtain rfl : t = [] := by simpa using hnodes
    rfl
  | cons f' frames =>
    cases t with
    | nil => cases hnodes
    | cons e t =>
      obtain ⟨hnode, hrest⟩ := List.cons.inj hnodes
      have hlen := congrArg List.length hrest
      simp only [List.length_map] at hlen
      simp [Pinned.pair, hnode, hlen]

/-- Every move logs what should be logged with its events. -/
theorem logged_moved (h : P.Informs s t best) {limit : Nat} (hstep : s.step P limit = .moved s')
    (hlog : s.logged P budget = P.log budget (s.told P)) :
    s'.logged P budget = P.log budget (s'.told P) := by
  rcases Search.step_eq_moved hstep with ⟨g, rest, -, -, rfl⟩ |
    ⟨f, f', frames, p, -, hstack, -, -, rfl⟩ | ⟨f, f', frames, hphase, hstack, -, rfl⟩
  · exact hlog
  · exact h.logged_pin hstack p hlog
  · exact h.logged_giveUp hphase hstack _ hlog

end Informs

end Problem

end PortMatch
