import PortMatch.Proofs.Search.Events

/-!
# Replaying a search

An observer who knows nothing about a search but its events can follow it with a stack.  A node that
is placed goes onto the stack together with its host, and a step back takes the latest node off.

* `Event.apply`, `Event.stackAfter` — the stack;
* `Event.Peak` — the moment at which the stack is higher than ever before, and never gets higher;
* `Event.Peak.of_le`, `Event.Peak.of_lt` — the peak after one more event.
-/

namespace PortMatch

namespace Event

/-- What an event does to the stack. -/
def apply (stack : List (NodeId × NodeId)) : Event → List (NodeId × NodeId)
  | pinning node host => (node, host) :: stack
  | backtracked _ => stack.tail
  | starting _ _ | round _ | ending _ | failed _ => stack

/-- The stack after the given events, the latest node first. -/
def stackAfter (events : List Event) : List (NodeId × NodeId) := events.foldl apply []

theorem stackAfter_append_singleton (events : List Event) (e : Event) :
    stackAfter (events ++ [e]) = apply (stackAfter events) e := by
  rw [stackAfter, List.foldl_append]
  rfl

theorem stackAfter_append_closing (events : List Event)
    (result : Except (Report Obstacle) Solution) :
    stackAfter (events ++ [closing result]) = stackAfter events := by
  rw [stackAfter_append_singleton]
  cases result <;> rfl

/-! ## The peak -/

/-- After the events `top`, and not before, the stack is as high as it ever gets. -/
structure Peak (events top : List Event) : Prop where
  /-- It is a moment of the search. -/
  isPrefix : top <+: events
  /-- The stack is never higher. -/
  length_le : ∀ told, told <+: events → (stackAfter told).length ≤ (stackAfter top).length
  /-- It has not been as high before. -/
  length_lt : ∀ told, told <+: top → told ≠ top →
    (stackAfter told).length < (stackAfter top).length

namespace Peak

variable {events top : List Event} {e : Event}

theorem nil : Peak [] [] := by
  constructor
  case isPrefix => exact List.nil_prefix
  case length_le =>
    intro told htold
    obtain rfl := List.prefix_nil.1 htold
    exact Nat.le_refl _
  case length_lt => exact fun told htold hne => absurd (List.prefix_nil.1 htold) hne

theorem of_le (h : Peak events top)
    (hle : (stackAfter (events ++ [e])).length ≤ (stackAfter top).length) :
    Peak (events ++ [e]) top := by
  constructor
  case isPrefix => exact h.isPrefix.trans (List.prefix_append _ _)
  case length_le =>
    intro told htold
    rcases List.prefix_concat_iff.1 htold with rfl | htold
    · exact hle
    · exact h.length_le told htold
  case length_lt => exact h.length_lt

theorem of_lt (h : Peak events top)
    (hlt : (stackAfter top).length < (stackAfter (events ++ [e])).length) :
    Peak (events ++ [e]) (events ++ [e]) := by
  have hbelow : ∀ told, told <+: events →
      (stackAfter told).length < (stackAfter (events ++ [e])).length :=
    fun told htold => Nat.lt_of_le_of_lt (h.length_le told htold) hlt
  constructor
  case isPrefix => exact List.prefix_refl _
  case length_le =>
    intro told htold
    rcases List.prefix_concat_iff.1 htold with rfl | htold
    · exact Nat.le_refl _
    · exact Nat.le_of_lt (hbelow told htold)
  case length_lt =>
    intro told htold hne
    rcases List.prefix_concat_iff.1 htold with rfl | htold
    · exact absurd rfl hne
    · exact hbelow told htold

/-- Only a node that is placed can move the peak. -/
theorem of_not_isPinning (h : Peak events top) (he : e.isPinning = false) :
    Peak (events ++ [e]) top := by
  refine h.of_le (Nat.le_trans ?_ (h.length_le events (List.prefix_refl _)))
  rw [stackAfter_append_singleton]
  cases e with
  | pinning node host => cases he
  | backtracked steps => exact (List.tail_sublist _).length_le
  | starting pattern target => exact Nat.le_refl _
  | round index => exact Nat.le_refl _
  | ending solution => exact Nat.le_refl _
  | failed report => exact Nat.le_refl _

end Peak

end Event

end PortMatch
