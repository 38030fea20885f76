import PortMatch.Proofs.Search.Course

/-!
# What a search tells its observer

An observer is told two events with each pin and one with each step back, and nothing with any other
move.  So the events that a search has told so far grow with its moves, and count its rounds.

* `Event.isRound`, `Event.isPinning`, `Event.isMove` — sorts of events;
* `Event.closing` — the event that tells the result;
* `Search.events` — what the observer has been told so far;
* `Search.events_pin`, `Search.events_giveUp` — what the moves add to it;
* `Search.countP_isPinning_events` — the pins that were told are the rounds.
-/

namespace PortMatch

namespace Event

/-- Does a round begin? -/
def isRound : Event → Bool
  | round _ => true
  | _ => false

/-- Is a node placed? -/
def isPinning : Event → Bool
  | pinning _ _ => true
  | _ => false

/-- Is it one of the events between the beginning and the end of a search? -/
def isMove : Event → Bool
  | round _ | pinning _ _ | backtracked _ => true
  | starting _ _ | ending _ | failed _ => false

/-- The event that tells the result of a search. -/
def closing : Except (Report Obstacle) Solution → Event
  | .ok sol => ending sol
  | .error r => failed r

theorem isPinning_closing (result : Except (Report Obstacle) Solution) :
    (closing result).isPinning = false := by
  cases result <;> rfl

end Event

namespace Search

variable {P : Problem} {budget : Nat} {s s' : Search}

/-- What the observer of a search has been told so far, in order. -/
def events (s : Search) : List Event := Trace.events s.news.reverse

theorem events_pin (s : Search) (p : Pin) (f : Frame) (below : List Frame) :
    (s.pin P p f below).events
      = s.events ++ [.round (s.rounds + 1), .pinning f.goal.node p.host] := by
  simp only [events, pin, List.reverse_cons, List.append_assoc, List.cons_append, List.nil_append]
  exact List.filterMap_append

theorem events_giveUp (s : Search) (g : Goal) (below : List Frame) :
    (s.giveUp P g below).events = s.events ++ [.backtracked 1] := by
  cases below <;> simp [events, Trace.events, giveUp, unpin, News.event?]

/-- The end of a search adds nothing to the events; they are followed by a last one that tells the
result. -/
theorem events_of_ended {how : Ending} (h : s.step P budget = .ended how s') :
    s'.events = s.events := by
  rcases step_eq_ended h with ⟨-, -, -, rfl⟩ | ⟨-, -, -, rfl⟩ | ⟨-, -, -, -, -, -, -, -, -, rfl⟩
  · rfl
  · simp [events, Trace.events, News.event?]
  · rfl

/-! ## Growth -/

theorem news_of_moved (h : s.step P budget = .moved s') : s.news <:+ s'.news := by
  rcases step_eq_moved h with ⟨g, rest, -, -, rfl⟩ | ⟨f, f', frames, p, -, -, -, -, rfl⟩ |
    ⟨f, f', frames, -, -, -, rfl⟩
  · exact List.suffix_refl _
  · exact ⟨[_, _, _], rfl⟩
  · cases frames with
    | nil => exact ⟨[_], rfl⟩
    | cons below frames => exact ⟨[_, _], rfl⟩

theorem rounds_le_of_moved (h : s.step P budget = .moved s') : s.rounds ≤ s'.rounds := by
  rcases step_eq_moved h with ⟨g, rest, -, -, rfl⟩ | ⟨f, f', frames, p, -, -, -, -, rfl⟩ |
    ⟨f, f', frames, -, -, -, rfl⟩
  · exact Nat.le_refl _
  · exact Nat.le_succ _
  · exact Nat.le_of_eq (s.rounds_giveUp P _ _).symm

theorem news_of_ended {how : Ending} (h : s.step P budget = .ended how s') :
    s.news <:+ s'.news := by
  rcases step_eq_ended h with ⟨-, -, -, rfl⟩ | ⟨-, -, -, rfl⟩ | ⟨-, -, -, -, -, -, -, -, -, rfl⟩
  · exact List.suffix_refl _
  · exact List.suffix_cons _ _
  · exact List.suffix_refl _

theorem rounds_of_ended {how : Ending} (h : s.step P budget = .ended how s') :
    s'.rounds = s.rounds := by
  obtain ⟨news, rfl⟩ := exists_news_of_ended h
  rfl

/-- Running on only adds news. -/
theorem news_run (P : Problem) (budget : Nat) (s : Search) :
    s.news <:+ (s.run P budget).2.news := by
  obtain ⟨last, hlast, hended⟩ := exists_last P budget
    (motive := fun s' => s.news <:+ s'.news) (List.suffix_refl _)
    fun h hstep => h.trans (news_of_moved hstep)
  exact hlast.trans (news_of_ended hended)

/-- Running on only adds rounds. -/
theorem rounds_run (P : Problem) (budget : Nat) (s : Search) :
    s.rounds ≤ (s.run P budget).2.rounds := by
  obtain ⟨last, hlast, hended⟩ := exists_last P budget
    (motive := fun s' => s.rounds ≤ s'.rounds) (Nat.le_refl _)
    fun h hstep => Nat.le_trans h (rounds_le_of_moved hstep)
  rwa [rounds_of_ended hended]

/-! ## Rounds -/

/-- A search counts its rounds as its observer counts the pins. -/
theorem countP_isPinning_events (P : Problem) (budget : Nat) :
    ((start P).run P budget).2.events.countP Event.isPinning
      = ((start P).run P budget).2.rounds := by
  obtain ⟨last, hlast, hended⟩ := exists_last P budget (s := start P)
    (motive := fun s => s.events.countP Event.isPinning = s.rounds) rfl (by
      intro s s' h hstep
      rcases step_eq_moved hstep with ⟨g, rest, -, -, rfl⟩ | ⟨f, f', frames, p, -, -, -, -, rfl⟩ |
        ⟨f, f', frames, -, -, -, rfl⟩
      · exact h
      · rw [events_pin, List.countP_append, h]
        rfl
      · rw [events_giveUp, List.countP_append, h, rounds_giveUp]
        rfl)
  rw [events_of_ended hended, rounds_of_ended hended, hlast]

/-- The rounds stay within the budget. -/
theorem rounds_within_of_moved (h : s.rounds ≤ budget) (hstep : s.step P budget = .moved s') :
    s'.rounds ≤ budget := by
  rcases step_eq_moved hstep with ⟨g, rest, -, -, rfl⟩ | ⟨f, f', frames, p, -, -, -, hlt, rfl⟩ |
    ⟨f, f', frames, -, -, -, rfl⟩
  · exact h
  · exact hlt
  · rwa [rounds_giveUp]

theorem exists_last_of_rounds_le (h : s.rounds ≤ budget) :
    ∃ last : Search, last.rounds ≤ budget ∧
      last.step P budget = .ended (s.run P budget).1 (s.run P budget).2 :=
  exists_last P budget (motive := fun s => s.rounds ≤ budget) h rounds_within_of_moved

end Search

end PortMatch
