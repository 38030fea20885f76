import Mathlib
import PortMatch.Proofs.Search.Course
import PortMatch.Proofs.Solve.Correct

/-!
# Why an attempt comes to an end

There are four loops in a search.  A cursor makes moves until it has a placement to yield; a frame
passes over its cursors until one of them yields; a search gives up frames until one of them has a
pin; and it takes on one goal after the other.  None of the loops counts how often it goes round.
They are described here as relations between states, which say nothing about an end, and then shown
to end: a number goes down from round to round.

The number for the search as a whole has to be made up of what all of its frames and pending goals
have left, since frames come and go and hosts are tried again under every new frame.  The budget is
not needed for it, and a budget as large as that number never stops a search.

* `MovesTo`, `EndsWithin` — runs of a loop, and what it means that they end;
* `EndsWithin.of_lt` — loops end if a number goes down;
* `Cursor.Goes`, `Frame.Passes`, `Search.Backs`, `Search.Rounds` — the four loops;
* `Search.Goes` — all moves of a search, one by one;
* `Problem.solve_terminates` — the loops end, and what `Cursor.next`, `Frame.next` and `Search.run`
  return is what is found at their ends.
-/

namespace PortMatch

/-! ## Loops -/

/-- A loop that goes round by `move` leads from one state to another in the given number of
rounds. -/
inductive MovesTo {α : Type} (move : α → α → Prop) : ℕ → α → α → Prop
  /-- No round leads anywhere else. -/
  | here (a : α) : MovesTo move 0 a a
  /-- One more round at the beginning. -/
  | onward {k : ℕ} {a b c : α} (first : move a b) (rest : MovesTo move k b c) :
    MovesTo move (k + 1) a c

/-- A loop ends, whatever state it begins in. -/
structure EndsWithin {α : Type} (move : α → α → Prop) (bound : α → ℕ) : Prop where
  /-- Every round makes the bound smaller. -/
  decreases : ∀ a b, move a b → bound b < bound a
  /-- No run has more rounds than the bound says. -/
  rounds_le : ∀ {k a b}, MovesTo move k a b → k ≤ bound a
  /-- Every run comes to a state in which the loop does not go on. -/
  exists_last : ∀ a, ∃ k last, MovesTo move k a last ∧ ∀ b, ¬ move last b

section Loops

variable {α : Type} {move : α → α → Prop} {bound : α → ℕ}

theorem MovesTo.add_bound_le (h : ∀ a b, move a b → bound b < bound a) {k : ℕ} {a b : α}
    (hrun : MovesTo move k a b) : k + bound b ≤ bound a := by
  induction hrun with
  | here a => exact (Nat.zero_add _).le
  | onward first rest ih =>
    have hlt := h _ _ first
    omega

/-- A loop ends if every round makes a number smaller. -/
theorem EndsWithin.of_lt (h : ∀ a b, move a b → bound b < bound a) : EndsWithin move bound where
  decreases := h
  rounds_le hrun := (Nat.le_add_right _ _).trans (hrun.add_bound_le h)
  exists_last a := by
    induction hn : bound a using Nat.strong_induction_on generalizing a with
    | _ n ih =>
      by_cases hstop : ∃ b, move a b
      · obtain ⟨b, hmove⟩ := hstop
        obtain ⟨k, last, hrun, hlast⟩ := ih (bound b) (hn ▸ h a b hmove) b rfl
        exact ⟨k + 1, last, .onward hmove hrun, hlast⟩
      · exact ⟨0, a, .here a, not_exists.1 hstop⟩

end Loops

variable {P : Problem} {live : Assignment} {budget : ℕ}

/-! ## Cursors -/

namespace Cursor

/-- One round of the loop that looks for the next placement. -/
def Goes (P : Problem) (live : Assignment) (c c' : Cursor) : Prop :=
  c.done = false ∧ c.step P live = .moved c'

/-- What the loop gives when it does not go on from a cursor. -/
def Gives (P : Problem) (live : Assignment) (last : Cursor) :
    Option (List Choice) × Cursor → Prop
  | (none, c) => last.done = true ∧ c = last
  | (some choices, c) => last.done = false ∧ last.step P live = .yielded choices c

theorem endsWithin_goes (P : Problem) (live : Assignment) :
    EndsWithin (Goes P live) movesLeft := by
  refine .of_lt ?_
  rintro c c' ⟨hdone, hstep⟩
  have hlt := movesLeft_step_lt P live hdone
  rwa [hstep] at hlt

/-- The next placement is what is found at the end of the loop. -/
theorem exists_gives_next (P : Problem) (live : Assignment) (c : Cursor) :
    ∃ k last, MovesTo (Goes P live) k c last ∧ last.Gives P live (c.next P live) := by
  fun_induction next P live c with
  | case1 c hdone => exact ⟨0, c, .here c, hdone, rfl⟩
  | case2 c hdone c' hstep ih =>
    obtain ⟨k, last, hrun, hgives⟩ := ih
    exact ⟨k + 1, last, .onward ⟨Bool.eq_false_iff.2 hdone, hstep⟩ hrun, hgives⟩
  | case3 c hdone choices c' hstep =>
    exact ⟨0, c, .here c, Bool.eq_false_iff.2 hdone, hstep⟩

end Cursor

/-! ## Frames -/

namespace Frame

/-- One round of the loop that looks for the next pin: the first cursor has nothing to yield. -/
def Passes (P : Problem) (live : Assignment) (f f' : Frame) : Prop :=
  ∃ c rest, f.cursors = c :: rest ∧ (c.next P live).1 = none ∧ f' = { f with cursors := rest }

/-- What the loop gives when it does not go on from a frame. -/
def Gives (P : Problem) (live : Assignment) (last : Frame) : Option Pin × Frame → Prop
  | (none, f) => last.cursors = [] ∧ f = last
  | (some pin, f) => ∃ c rest choices c', last.cursors = c :: rest ∧
      c.next P live = (some choices, c') ∧ pin = ⟨c.host, choices⟩ ∧
      f = { last with cursors := c' :: rest }

theorem endsWithin_passes (P : Problem) (live : Assignment) :
    EndsWithin (Passes P live) fun f => f.cursors.length := by
  refine .of_lt ?_
  rintro f f' ⟨c, rest, hcursors, -, rfl⟩
  simp [hcursors]

/-- The next pin is what is found at the end of the loop. -/
theorem exists_gives_next (P : Problem) (live : Assignment) (f : Frame) :
    ∃ k last, MovesTo (Passes P live) k f last ∧ last.Gives P live (f.next P live) := by
  obtain ⟨goal, cursors⟩ := f
  induction cursors with
  | nil => exact ⟨0, _, .here _, rfl, rfl⟩
  | cons c rest ih =>
    rcases hnext : c.next P live with ⟨_ | choices, c'⟩
    · obtain ⟨k, last, hrun, hgives⟩ := ih
      refine ⟨k + 1, last, .onward ⟨c, rest, rfl, by rw [hnext], rfl⟩ hrun, ?_⟩
      simpa only [next, Cursor.firstNext, hnext] using hgives
    · refine ⟨0, _, .here _, ?_⟩
      simp only [next, Cursor.firstNext, hnext]
      exact ⟨c, rest, choices, c', rfl, hnext, rfl, rfl⟩

end Frame

/-! ## Searches -/

namespace Search

/-- One move of a search. -/
def Goes (P : Problem) (budget : ℕ) (s s' : Search) : Prop := s.step P budget = .moved s'

/-- One round of the loop that looks for a frame with a pin: the topmost one has none. -/
def Backs (P : Problem) (budget : ℕ) (s s' : Search) : Prop :=
  s.phase = .resume ∧ s.Goes P budget s' ∧ s'.phase = .resume

/-- One round of the loop that takes on the goals: a frame for the next one, then as many steps back
as it takes, and a pin. -/
def Rounds (P : Problem) (budget : ℕ) (s s' : Search) : Prop :=
  s.phase = .descend ∧ s'.phase = .descend ∧ ∃ k opened ready, s.Goes P budget opened ∧
    MovesTo (Backs P budget) k opened ready ∧ ready.Goes P budget s'

theorem endsWithin_goes (P : Problem) (budget : ℕ) : EndsWithin (Goes P budget) (movesLeft P) :=
  .of_lt fun _ _ h => movesLeft_step_lt h

/-- Going back uses frames up. -/
theorem endsWithin_backs (P : Problem) (budget : ℕ) :
    EndsWithin (Backs P budget) fun s => s.stack.length := by
  refine .of_lt ?_
  rintro s s' ⟨hphase, hstep, hphase'⟩
  rcases step_eq_moved hstep with ⟨g, rest, hdescend, -, -⟩ | ⟨f, f', frames, p, -, -, -, -, rfl⟩ |
    ⟨f, f', frames, -, hstack, -, rfl⟩
  · rw [hphase] at hdescend
    cases hdescend
  · cases hphase'
  · simp [stack_giveUp, hstack]

theorem endsWithin_rounds (P : Problem) (budget : ℕ) :
    EndsWithin (Rounds P budget) (movesLeft P) := by
  refine .of_lt ?_
  rintro s s' ⟨-, -, k, opened, ready, hopen, hbacks, hpin⟩
  have hback := hbacks.add_bound_le fun _ _ h => movesLeft_step_lt h.2.1
  calc s'.movesLeft P
    _ < ready.movesLeft P := movesLeft_step_lt hpin
    _ ≤ opened.movesLeft P := (Nat.le_add_left _ _).trans hback
    _ < s.movesLeft P := movesLeft_step_lt hopen

/-- The result of a search is what is found at the end of its moves. -/
theorem exists_ended_run (P : Problem) (budget : ℕ) (s : Search) :
    ∃ k last, MovesTo (Goes P budget) k s last ∧
      last.step P budget = .ended (s.run P budget).1 (s.run P budget).2 := by
  fun_induction run P budget s with
  | case1 s s' hstep ih =>
    obtain ⟨k, last, hrun, hended⟩ := ih
    exact ⟨k + 1, last, .onward hstep hrun, hended⟩
  | case2 s how s' hstep => exact ⟨0, s, .here s, hstep⟩

theorem rounds_add_movesLeft_le {s s' : Search} (h : s.Goes P budget s') :
    s'.rounds + s'.movesLeft P ≤ s.rounds + s.movesLeft P := by
  have hlt := movesLeft_step_lt h
  rcases step_eq_moved h with ⟨g, rest, -, -, rfl⟩ | ⟨f, f', frames, p, -, -, -, -, rfl⟩ |
    ⟨f, f', frames, -, -, -, rfl⟩
  · exact Nat.add_le_add_left hlt.le s.rounds
  · simp only [pin] at hlt ⊢
    omega
  · rw [rounds_giveUp]
    exact Nat.add_le_add_left hlt.le s.rounds

/-- A budget that allows a round for every move is not what ends a search. -/
theorem run_ne_outOfRounds (h : (start P).movesLeft P ≤ budget) :
    ((start P).run P budget).1 ≠ .outOfRounds := by
  intro hout
  obtain ⟨last, hlast, hended⟩ := exists_last P budget (s := start P)
    (motive := fun s => s.rounds + s.movesLeft P ≤ (start P).movesLeft P) (Nat.zero_add _).le
    fun hle hstep => (rounds_add_movesLeft_le hstep).trans hle
  rw [hout] at hended
  rcases step_eq_ended hended with ⟨hhow, -⟩ | ⟨hhow, -⟩ |
    ⟨f, f', frames, p, -, hphase, hstack, -, hspent, -⟩
  · cases hhow
  · cases hhow
  · -- the frame that has the pin is not used up
    have hpos : 0 < last.movesLeft P := by
      simp only [movesLeft, hphase, hstack, movesToResume]
      omega
    omega

end Search

namespace Problem

/-- Every loop of a search ends, from whatever state and under every budget, and what the functions
return is what is found at the end.  A budget that allows a round for every move that the search may
have to make is never the reason to stop. -/
theorem solve_terminates (P : Problem) :
    (∀ live, EndsWithin (Cursor.Goes P live) Cursor.movesLeft ∧
      ∀ c, ∃ k last, MovesTo (Cursor.Goes P live) k c last ∧
        last.Gives P live (c.next P live)) ∧
    (∀ live, EndsWithin (Frame.Passes P live) (fun f => f.cursors.length) ∧
      ∀ f, ∃ k last, MovesTo (Frame.Passes P live) k f last ∧
        last.Gives P live (f.next P live)) ∧
    ∀ budget, EndsWithin (Search.Backs P budget) (fun s => s.stack.length) ∧
      EndsWithin (Search.Rounds P budget) (Search.movesLeft P) ∧
      EndsWithin (Search.Goes P budget) (Search.movesLeft P) ∧
      (∀ s, ∃ k last, MovesTo (Search.Goes P budget) k s last ∧
        last.step P budget = .ended (s.run P budget).1 (s.run P budget).2) ∧
      ((Search.start P).movesLeft P ≤ budget →
        ((Search.start P).run P budget).1 ≠ .outOfRounds) := by
  refine ⟨fun live => ⟨Cursor.endsWithin_goes P live, Cursor.exists_gives_next P live⟩,
    fun live => ⟨Frame.endsWithin_passes P live, Frame.exists_gives_next P live⟩,
    fun budget => ⟨Search.endsWithin_backs P budget, Search.endsWithin_rounds P budget,
      Search.endsWithin_goes P budget, Search.exists_ended_run P budget,
      Search.run_ne_outOfRounds⟩⟩

/-- The budget that is used unless another one is asked for is never used up where the pair is
nowhere. -/
theorem solve_terminates_pair :
    ((Search.start (pairAmong [])).run (pairAmong []) 10000).1 ≠ .outOfRounds := by
  obtain ⟨-, -, hsearch⟩ := solve_terminates (pairAmong [])
  obtain ⟨-, -, -, -, hbudget⟩ := hsearch 10000
  exact hbudget (by decide +kernel)

end Problem

end PortMatch
