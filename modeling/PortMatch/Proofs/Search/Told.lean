import Mathlib
import PortMatch.Proofs.Search.Replay
import PortMatch.Proofs.Trail.Depth

/-!
# What the events tell about the trail

The events that an observer has been told so far determine the trail that the search is at, as far
as the nodes and their hosts are concerned, and the best trail that it has come to.

* `Problem.Told` — the events that lead to a trail, and to the best one;
* `Problem.Told.stackAfter_eq`, `Problem.Told.exists_peak` — how the stack shows both;
* `Problem.Told.inPlace`, `Problem.Told.pinning_of_round` — the order of the events.
-/

namespace PortMatch

section Lists

variable {α : Type} {l m : List α} {x y z : α}

theorem concat_isPrefix_concat : l ++ [x] <+: m ++ [y] ↔ l = m ∧ x = y ∨ l ++ [x] <+: m := by
  rw [List.prefix_concat_iff, List.append_singleton_inj]

theorem concat_isPrefix_singleton : l ++ [x] <+: [y] ↔ l = [] ∧ x = y := by
  rw [← List.nil_append [y], concat_isPrefix_concat]
  simp

theorem concat_isPrefix_pair :
    l ++ [x] <+: m ++ [y, z] ↔ l = m ++ [y] ∧ x = z ∨ l = m ∧ x = y ∨ l ++ [x] <+: m := by
  rw [List.append_cons m, concat_isPrefix_concat, concat_isPrefix_concat]

end Lists

/-- A node with its host. -/
def Pinned.pair (e : Pinned) : NodeId × NodeId := (e.node, e.pin.host)

namespace Problem

/-! ## Events that lead to a trail -/

/-- `P.Told events t best`: the events tell how a search got to the trail `t`, and `best` is the
first among the deepest trails on the way. -/
inductive Told (P : Problem) : List Event → Trail → Trail → Prop where
  /-- The search begins. -/
  | starting : Told P [.starting P.pattern.desc P.target.desc] [] []
  /-- A round begins, and a node is placed. -/
  | pin {events : List Event} {t best : Trail} {e : Pinned} (h : Told P events t best)
    (he : e :: t ∈ P.trails) :
    Told P (events ++ [.round (events.countP Event.isRound + 1), .pinning e.node e.pin.host])
      (e :: t) (best.deeper (e :: t))
  /-- The search goes back. -/
  | back {events : List Event} {t best : Trail} {e : Pinned} (h : Told P events (e :: t) best) :
    Told P (events ++ [.backtracked 1]) t best

/-- After the given events, the node is the next one to be placed, and it can be placed on the
host. -/
structure NextPin (P : Problem) (before : List Event) (node host : NodeId) : Prop where
  /-- A round has just begun. -/
  round : ∃ earlier index, before = earlier ++ [.round index]
  /-- In the search order, the node comes after those on the stack. -/
  order : P.searchOrder[(Event.stackAfter before).length]? = some node
  /-- The node is not on the stack. -/
  node_new : ∀ pair ∈ Event.stackAfter before, pair.1 ≠ node
  /-- Neither is the host. -/
  host_new : ∀ pair ∈ Event.stackAfter before, pair.2 ≠ host

/-- An event is told in its place after the given ones. -/
def InPlace (P : Problem) (before : List Event) : Event → Prop
  | .starting _ _ => before = []
  | .round index => index = before.countP Event.isRound + 1
  | .pinning node host => P.NextPin before node host
  | .backtracked _ => Event.stackAfter before ≠ []
  | .ending _ | .failed _ => False

variable {P : Problem}

namespace Told

variable {events before : List Event} {t best : Trail}

/-- The stack holds the nodes of the trail. -/
theorem stackAfter_eq (h : P.Told events t best) :
    Event.stackAfter events = t.map Pinned.pair := by
  induction h with
  | starting => rfl
  | pin h he ih =>
    rw [List.append_cons, Event.stackAfter_append_singleton, Event.stackAfter_append_singleton, ih]
    rfl
  | back h ih =>
    rw [Event.stackAfter_append_singleton, ih]
    rfl

theorem best_mem (h : P.Told events t best) : best ∈ [] :: P.trails := by
  induction h with
  | starting => exact List.mem_cons_self
  | pin h he ih =>
    rw [Trail.deeper]
    split
    · exact List.mem_cons_of_mem _ he
    · exact ih
  | back h ih => exact ih

theorem legal (h : P.Told events t best) (hP : P.pattern.WellFormed) (hT : P.target.WellFormed) :
    P.Legal t := by
  induction h with
  | starting => exact trivial
  | pin h he ih => exact ((mem_trails hP hT).1 he).1
  | back h ih => exact ih.1

/-- At its peak the stack holds the nodes of the best trail. -/
theorem exists_peak (h : P.Told events t best) :
    ∃ top, Event.Peak events top ∧ Event.stackAfter top = best.map Pinned.pair := by
  induction h with
  | starting => exact ⟨[], Event.Peak.nil.of_not_isPinning rfl, rfl⟩
  | @pin events t best e h he ih =>
    obtain ⟨top, hpeak, htop⟩ := ih
    -- the round leaves the stack as it is, and the node makes it as high as the new trail is deep
    have hround := hpeak.of_not_isPinning (e := .round (events.countP Event.isRound + 1)) rfl
    have hstack := (h.pin he).stackAfter_eq
    rw [List.append_cons] at hstack ⊢
    rw [Trail.deeper]
    split
    · next hlt =>
      refine ⟨_, hround.of_lt ?_, hstack⟩
      rwa [hstack, htop, List.length_map, List.length_map]
    · next hle =>
      refine ⟨top, hround.of_le ?_, htop⟩
      rw [hstack, htop, List.length_map, List.length_map]
      exact Nat.le_of_not_lt hle
  | back h ih =>
    obtain ⟨top, hpeak, htop⟩ := ih
    exact ⟨top, hpeak.of_not_isPinning rfl, htop⟩

/-! ## The order of the events -/

theorem exists_moves (h : P.Told events t best) :
    ∃ moves, events = .starting P.pattern.desc P.target.desc :: moves ∧
      ∀ e ∈ moves, e.isMove = true := by
  induction h with
  | starting => exact ⟨[], rfl, by simp⟩
  | pin h he ih =>
    obtain ⟨moves, rfl, hmoves⟩ := ih
    exact ⟨_, rfl, List.forall_mem_append.2 ⟨hmoves, by simp [Event.isMove]⟩⟩
  | back h ih =>
    obtain ⟨moves, rfl, hmoves⟩ := ih
    exact ⟨_, rfl, List.forall_mem_append.2 ⟨hmoves, by simp [Event.isMove]⟩⟩

/-- The next pin of a trail is for the next node in the search order. -/
theorem nextPin (h : P.Told events t best) (hP : P.pattern.WellFormed) (hT : P.target.WellFormed)
    {e : Pinned} (he : e :: t ∈ P.trails) (index : ℕ) :
    P.NextPin (events ++ [.round index]) e.node e.pin.host := by
  obtain ⟨⟨-, hext⟩, -, horder⟩ := (mem_trails hP hT).1 he
  have hstack : Event.stackAfter (events ++ [.round index]) = t.map Pinned.pair := by
    rw [Event.stackAfter_append_singleton, h.stackAfter_eq]
    rfl
  constructor
  case round => exact ⟨events, index, rfl⟩
  case order =>
    obtain ⟨rest, hrest⟩ := horder
    rw [hstack, List.length_map, ← Trail.length_nodes, ← hrest, Trail.nodes_cons]
    simp
  case node_new =>
    rw [hstack, List.forall_mem_map]
    exact fun d hd hnode => hext.node_new (Trail.mem_nodes.2 ⟨d, hd, hnode⟩)
  case host_new =>
    rw [hstack, List.forall_mem_map]
    exact hext.host_ne

/-- Every event is told in its place. -/
theorem inPlace (h : P.Told events t best) (hP : P.pattern.WellFormed) (hT : P.target.WellFormed)
    {x : Event} (hx : before ++ [x] <+: events) : P.InPlace before x := by
  induction h with
  | starting =>
    obtain ⟨rfl, rfl⟩ := concat_isPrefix_singleton.1 hx
    rfl
  | pin h he ih =>
    rcases concat_isPrefix_pair.1 hx with ⟨rfl, rfl⟩ | ⟨rfl, rfl⟩ | hx
    · exact h.nextPin hP hT he _
    · rfl
    · exact ih hx
  | back h ih =>
    rcases concat_isPrefix_concat.1 hx with ⟨rfl, rfl⟩ | hx
    · exact fun hnil => List.cons_ne_nil _ _ (h.stackAfter_eq.symm.trans hnil)
    · exact ih hx

/-- A round begins with a pin. -/
theorem pinning_of_round (h : P.Told events t best) {index : ℕ}
    (hround : before ++ [.round index] <+: events) :
    ∃ node host, before ++ [.round index, .pinning node host] <+: events := by
  induction h with
  | starting => cases (concat_isPrefix_singleton.1 hround).2
  | pin h he ih =>
    rcases concat_isPrefix_pair.1 hround with ⟨-, hlast⟩ | ⟨rfl, hindex⟩ | hround
    · cases hlast
    · rw [hindex]
      exact ⟨_, _, List.prefix_refl _⟩
    · obtain ⟨node, host, hmore⟩ := ih hround
      exact ⟨node, host, hmore.trans (List.prefix_append _ _)⟩
  | back h ih =>
    rcases concat_isPrefix_concat.1 hround with ⟨-, hlast⟩ | hround
    · cases hlast
    · obtain ⟨node, host, hmore⟩ := ih hround
      exact ⟨node, host, hmore.trans (List.prefix_append _ _)⟩

end Told

end Problem

end PortMatch
