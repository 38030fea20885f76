import Mathlib
import PortMatch.Proofs.Search.Best
import PortMatch.Proofs.Search.Told

/-!
# What a search tells about its state

At every moment the observer of a search has been told how it got to its trail.  Only the step back
from the last frame is different: it is told as all others are, but nothing is taken back with it.

* `Search.told` — all that the observer has been told so far;
* `Search.GivenUp` — there is no frame left;
* `Problem.Informs` — the observer has been told about the trail and the best one;
* `Problem.Informs.moved` — every move keeps him informed;
* `Problem.exists_told` — what he has been told at the end.
-/

namespace PortMatch

namespace Search

/-- All that the observer of a search has been told so far. -/
def told (P : Problem) (s : Search) : List Event :=
  .starting P.pattern.desc P.target.desc :: s.events

/-- All frames have been given up. -/
def GivenUp (s : Search) : Prop := s.phase = .resume ∧ s.stack = []

variable {s : Search}

theorem not_givenUp_of_descend (h : s.phase = .descend) : ¬ s.GivenUp := by
  rintro ⟨hphase, -⟩
  rw [h] at hphase
  cases hphase

theorem not_givenUp_of_cons {f : Frame} {frames : List Frame} (h : s.stack = f :: frames) :
    ¬ s.GivenUp := by
  rintro ⟨-, hstack⟩
  rw [h] at hstack
  cases hstack

end Search

namespace Problem

variable {P : Problem} {budget : ℕ} {s s' : Search} {t best : Trail}

/-- The observer of the search `s` has been told how it got to the trail `t`, and `best` is the first
among the deepest trails on the way. -/
structure Informs (P : Problem) (s : Search) (t best : Trail) : Prop where
  /-- The search is at the trail. -/
  tracks : P.Tracks s t
  /-- Its best assignment is that of the best trail. -/
  best_eq : s.best = P.assemble best
  /-- The observer has counted the rounds. -/
  rounds_eq : s.rounds = (s.told P).countP Event.isRound
  /-- The events lead to the trail. -/
  told : ¬ s.GivenUp → P.Told (s.told P) t best
  /-- After the last frame has been given up, there is one more step back. -/
  told_givenUp : s.GivenUp →
    ∃ events, P.Told events t best ∧ s.told P = events ++ [.backtracked 1]

theorem informs_start (hP : P.pattern.WellFormed) (hT : P.target.WellFormed) :
    P.Informs (Search.start P) [] [] := by
  constructor
  case tracks => exact (tracks_start hP hT).1
  case best_eq => rfl
  case rounds_eq => rfl
  case told => exact fun _ => .starting
  case told_givenUp => exact fun h => absurd h (Search.not_givenUp_of_descend rfl)

namespace Informs

/-- Taking on a goal is not told. -/
theorem descend (h : P.Informs s t best) (hphase : s.phase = .descend) {g : Goal}
    {rest : List Goal} (hpending : s.pending = g :: rest) :
    P.Informs (s.descend P g rest) t best := by
  constructor
  case tracks => exact (h.tracks.descend hphase hpending).1
  case best_eq => exact h.best_eq
  case rounds_eq => exact h.rounds_eq
  case told => exact fun _ => h.told (Search.not_givenUp_of_descend hphase)
  case told_givenUp => exact fun hgiven => absurd hgiven (Search.not_givenUp_of_cons rfl)

/-- With a pin the observer is told of a round and of the node. -/
theorem pin (h : P.Informs s t best) (hP : P.pattern.WellFormed) (hT : P.target.WellFormed)
    (hphase : s.phase = .resume) {f f' : Frame} {frames : List Frame}
    (hstack : s.stack = f :: frames) {p : Pin} (hnext : f.next P s.current = (some p, f')) :
    P.Informs (s.pin P p f' frames) (⟨f'.goal.node, p⟩ :: t)
      (best.deeper (⟨f'.goal.node, p⟩ :: t)) := by
  obtain ⟨htracks, -⟩ := h.tracks.pin hphase hstack hnext
  have hmem : ⟨f'.goal.node, p⟩ :: t ∈ P.trails :=
    (mem_trails hP hT).2 ⟨htracks.legal, List.cons_ne_nil _ _, htracks.nodes_isPrefix⟩
  have hbefore : P.Told (s.told P) t best := h.told (Search.not_givenUp_of_cons hstack)
  have htold : (s.pin P p f' frames).told P
      = s.told P ++ [.round (s.rounds + 1), .pinning f'.goal.node p.host] :=
    congrArg (_ :: ·) (s.events_pin p f' frames)
  constructor
  case tracks => exact htracks
  case best_eq =>
    have hbest : (s.pin P p f' frames).best = s.best.better (s.pin P p f' frames).current := rfl
    rw [hbest, h.best_eq, htracks.current]
    exact better_assemble hP hT hbefore.best_mem (List.mem_cons_of_mem _ hmem)
  case rounds_eq =>
    rw [htold, List.countP_append, ← h.rounds_eq]
    rfl
  case told =>
    intro _
    rw [htold, h.rounds_eq]
    exact hbefore.pin hmem
  case told_givenUp => exact fun hgiven => absurd hgiven (Search.not_givenUp_of_descend rfl)

/-- Giving up a frame is told as a step back. -/
theorem giveUp (h : P.Informs s t best) (hP : P.pattern.WellFormed) (hphase : s.phase = .resume)
    {f f' : Frame} {frames : List Frame} (hstack : s.stack = f :: frames)
    (hnext : f.next P s.current = (none, f')) :
    P.Informs (s.giveUp P f'.goal frames) t.tail best := by
  have hbefore : P.Told (s.told P) t best := h.told (Search.not_givenUp_of_cons hstack)
  have htold : (s.giveUp P f'.goal frames).told P = s.told P ++ [.backtracked 1] :=
    congrArg (_ :: ·) (s.events_giveUp f'.goal frames)
  have hnodes := h.tracks.nodes
  simp only [Search.placed, hphase, hstack, List.tail_cons] at hnodes
  constructor
  case tracks => exact (h.tracks.giveUp hP hphase hstack hnext).1
  case best_eq => rw [Search.best_giveUp, h.best_eq]
  case rounds_eq =>
    rw [htold, List.countP_append, ← h.rounds_eq, Search.rounds_giveUp]
    rfl
  case told =>
    intro hgoing
    rw [htold]
    cases t with
    | nil =>
      -- the frame was the last one
      obtain rfl : frames = [] := by simpa using hnodes.symm
      exact absurd ⟨hphase, rfl⟩ hgoing
    | cons e t => exact hbefore.back
  case told_givenUp =>
    rintro ⟨-, hnil⟩
    rw [Search.stack_giveUp] at hnil
    obtain rfl : t = [] := by simpa [hnil] using hnodes
    exact ⟨s.told P, hbefore, htold⟩

/-- Every move keeps the observer informed. -/
theorem moved (h : P.Informs s t best) (hP : P.pattern.WellFormed) (hT : P.target.WellFormed)
    (hstep : s.step P budget = .moved s') : ∃ t' best', P.Informs s' t' best' := by
  rcases Search.step_eq_moved hstep with ⟨g, rest, hphase, hpending, rfl⟩ |
    ⟨f, f', frames, p, hphase, hstack, hnext, -, rfl⟩ |
    ⟨f, f', frames, hphase, hstack, hnext, rfl⟩
  · exact ⟨_, _, h.descend hphase hpending⟩
  · exact ⟨_, _, h.pin hP hT hphase hstack hnext⟩
  · exact ⟨_, _, h.giveUp hP hphase hstack hnext⟩

end Informs

/-- At the end the observer has been told how the search got to its last trail, and then, if it has
tried everything, of one more step back. -/
theorem exists_told (hP : P.pattern.WellFormed) (hT : P.target.WellFormed) {how : Ending}
    (hrun : (Search.start P).run P budget = (how, s)) :
    ∃ events steps t best, P.Told events t best ∧ s.told P = events ++ steps ∧
      s.current = P.assemble t ∧ s.best = P.assemble best ∧
      (steps = [] ∨ how = .exhausted ∧ steps = [.backtracked 1]) := by
  obtain ⟨last, ⟨t, best, h⟩, hended⟩ := Search.exists_last P budget
    (motive := fun s => ∃ t best, P.Informs s t best) ⟨_, _, informs_start hP hT⟩
    fun ⟨_, _, h⟩ hstep => h.moved hP hT hstep
  replace hended : last.step P budget = .ended how s := by rw [hended, hrun]
  have htold : s.told P = last.told P := congrArg (_ :: ·) (Search.events_of_ended hended)
  obtain ⟨news, hsame⟩ := Search.exists_news_of_ended hended
  have hcurrent : s.current = P.assemble t := by rw [hsame, ← h.tracks.current]
  have hbest : s.best = P.assemble best := by rw [hsame, ← h.best_eq]
  rw [htold, hcurrent, hbest]
  by_cases hgiven : last.GivenUp
  · obtain ⟨events, hevents, hlast⟩ := h.told_givenUp hgiven
    refine ⟨events, [.backtracked 1], t, best, hevents, hlast, rfl, rfl, .inr ⟨?_, rfl⟩⟩
    rcases Search.step_eq_ended hended with ⟨-, hphase, -⟩ | ⟨hhow, -⟩ |
      ⟨f, f', frames, p, -, -, hstack, -⟩
    · exact absurd hgiven (Search.not_givenUp_of_descend hphase)
    · exact hhow
    · exact absurd hgiven (Search.not_givenUp_of_cons hstack)
  · exact ⟨_, [], t, best, h.told hgiven, (List.append_nil _).symm, rfl, rfl, .inl rfl⟩

end Problem

end PortMatch
