import Mathlib
import PortMatch.Proofs.Search.Informs

/-!
# The accounts of a search

With every round a node is placed, and with every step back one is unplaced; only the step back from
the last frame finds no node to unplace.  So at every moment the rounds that the observer has been
told of are as many as the steps back and the placed nodes together.

* `Event.stepsBack` — the steps back that events tell of;
* `Problem.Told.countP_isRound_eq` — the balance of the events that lead to a trail;
* `Problem.Informs.rounds_eq_of_not_givenUp`, `Problem.Informs.stepsBack_of_givenUp` — the balance
  of a search.
-/

namespace PortMatch

namespace Event

/-- The steps back that an event tells of. -/
def steps : Event → Nat
  | backtracked steps => steps
  | starting _ _ | round _ | pinning _ _ | ending _ | failed _ => 0

/-- The steps back that the given events tell of, all together. -/
def stepsBack (events : List Event) : Nat := (events.map steps).sum

theorem stepsBack_append (events later : List Event) :
    stepsBack (events ++ later) = stepsBack events + stepsBack later := by
  rw [stepsBack, List.map_append, List.sum_append]
  rfl

theorem countP_isRound_closing (result : Except (Report Obstacle) Solution) :
    [closing result].countP isRound = 0 := by
  cases result <;> rfl

theorem stepsBack_closing (result : Except (Report Obstacle) Solution) :
    stepsBack [closing result] = 0 := by
  cases result <;> rfl

end Event

namespace Problem

variable {P : Problem} {s : Search} {t best : Trail}

/-- On the way to a trail, every round has placed a node that was unplaced by a step back or else is
one of the trail. -/
theorem Told.countP_isRound_eq {events : List Event} (h : P.Told events t best) :
    events.countP Event.isRound = Event.stepsBack events + t.length := by
  induction h with
  | starting => rfl
  | @pin events t best e h he ih =>
    have hround : [Event.round (events.countP Event.isRound + 1),
        .pinning e.node e.pin.host].countP Event.isRound = 1 := rfl
    have hsteps : Event.stepsBack [.round (events.countP Event.isRound + 1),
        .pinning e.node e.pin.host] = 0 := rfl
    rw [List.countP_append, Event.stepsBack_append, hround, hsteps, ih, List.length_cons]
    rfl
  | @back events t best e h ih =>
    have hround : [Event.backtracked 1].countP Event.isRound = 0 := rfl
    have hsteps : Event.stepsBack [.backtracked 1] = 1 := rfl
    rw [List.countP_append, Event.stepsBack_append, hround, hsteps, ih, List.length_cons]
    omega

namespace Informs

/-- The rounds of a search are the steps back and the nodes of the trail that it is at. -/
theorem rounds_eq_of_not_givenUp (h : P.Informs s t best) (hgoing : ¬ s.GivenUp) :
    s.rounds = Event.stepsBack (s.told P) + t.length :=
  h.rounds_eq.trans (h.told hgoing).countP_isRound_eq

/-- After the last frame has been given up nothing is placed, and there was one more step back than
there were rounds. -/
theorem stepsBack_of_givenUp (h : P.Informs s t best) (hgiven : s.GivenUp) :
    t = [] ∧ Event.stepsBack (s.told P) = s.rounds + 1 := by
  have hnodes := h.tracks.nodes
  simp only [Search.placed, hgiven.1, hgiven.2, List.tail_nil, List.map_nil,
    List.map_eq_nil_iff] at hnodes
  subst hnodes
  obtain ⟨events, hevents, htold⟩ := h.told_givenUp hgiven
  refine ⟨rfl, ?_⟩
  rw [h.rounds_eq, htold, Event.stepsBack_append, List.countP_append, hevents.countP_isRound_eq]
  rfl

end Informs

end Problem

end PortMatch
