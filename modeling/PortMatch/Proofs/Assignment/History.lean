import Mathlib
import PortMatch.Proofs.Assignment.Listing

/-!
# Histories of assignments

An assignment can be changed in three ways, any number of times and in any order, by ids that need
not be those of a graph.  What becomes of an id is told by the last change that touches it, whatever
came before: a node is touched by the changes that name it, and a port also by those that unassign
the node it belongs to.

* `Change`, `Assignment.replay` — a change, and changes that are made one after the other;
* `Change.touchesNode`, `Change.touchesPort` — the ids that a change touches;
* `Change.Apart` — two changes that touch no id both;
* `Assignment.Sets`, `Assignment.sets_nodes`, `Assignment.sets_ports` — one change, id by id;
* `Assignment.Sets.getElem?_replay` — any number of them: the last one that touches an id counts;
* `Assignment.replay_comm` — changes that touch different ids can be made in either order;
* `Images.encard_assigned`, `Images.complete_iff` — what is computed from a table as a whole;
* `Assignment.Begins` — the assignments with which a history can begin;
* `Assignment.last_change_wins` — what any history makes of an assignment.
-/

namespace PortMatch

/-- A change of an assignment. -/
inductive Change where
  /-- A node is mapped to a node. -/
  | assignNode (a c : NodeId)
  /-- A port is mapped to a port. -/
  | assignPort (p q : PortId)
  /-- The place of a node and those of its ports are taken back. -/
  | unassignNode (a : NodeId)
  deriving DecidableEq

namespace Change

/-- Is the node `a` touched by a change? -/
def touchesNode (a : NodeId) : Change → Bool
  | assignNode b _ | unassignNode b => b = a
  | assignPort _ _ => false

/-- Is the port `p` touched by a change?  A node that is unassigned takes its ports along. -/
def touchesPort (pattern : Graph) (p : PortId) : Change → Bool
  | assignPort q _ => q = p
  | unassignNode a => pattern.owner? p = some a
  | assignNode _ _ => false

/-- What the nodes that a change touches are mapped to by it. -/
def nodeImage : Change → Option NodeId
  | assignNode _ c => some c
  | assignPort _ _ | unassignNode _ => none

/-- What the ports that a change touches are mapped to by it. -/
def portImage : Change → Option PortId
  | assignPort _ q => some q
  | assignNode _ _ | unassignNode _ => none

/-- The changes touch no id both. -/
structure Apart (pattern : Graph) (x y : Change) : Prop where
  /-- They touch different nodes. -/
  nodes : ∀ a, ¬ (x.touchesNode a = true ∧ y.touchesNode a = true)
  /-- They touch different ports. -/
  ports : ∀ p, ¬ (x.touchesPort pattern p = true ∧ y.touchesPort pattern p = true)

theorem eq_assignNode_iff {x : Change} {a c : NodeId} :
    x = .assignNode a c ↔ x.touchesNode a = true ∧ x.nodeImage = some c := by
  cases x <;> simp [touchesNode, nodeImage]

theorem eq_assignPort_iff {G : Graph} {x : Change} {p q : PortId} :
    x = .assignPort p q ↔ x.touchesPort G p = true ∧ x.portImage = some q := by
  cases x <;> simp [touchesPort, portImage]

end Change

/-! ## Tables as a whole -/

namespace Images

variable {ι : Type} [Ord ι] [Std.TransOrd ι] [Std.LawfulEqOrd ι]

/-- The number of mapped entries is the number of ids that have an image. -/
theorem encard_assigned (m : Images ι) : {a | (m.image? a).isSome = true}.encard = m.assigned := by
  classical
  have hmapped : {a | (m.image? a).isSome = true}
      = ((m.toList.filter fun entry => entry.2.isSome).map Prod.fst).toFinset := by
    ext a
    simp only [image?, Set.mem_ofPred_eq, List.coe_toFinset, List.mem_map, List.mem_filter,
      Prod.exists, exists_and_right, exists_eq_right,
      Std.ExtTreeMap.mem_toList_iff_getElem?_eq_some]
    rcases m[a]? with _ | _ | c <;> simp
  have hnodup : ((m.toList.filter fun entry => entry.2.isSome).map Prod.fst).Nodup := by
    refine List.pairwise_map.2 ((m.distinct_keys_toList.filter _).imp ?_)
    rintro x y hne heq
    exact hne (Std.LawfulEqCmp.compare_eq_iff_eq.2 heq)
  rw [hmapped, Set.encard_coe_eq_coe_finsetCard, List.toFinset_card_of_nodup hnodup,
    List.length_map, assigned, List.countP_eq_length_filter]

/-- A table is complete if every id that it lists has an image. -/
theorem complete_iff {m : Images ι} :
    m.complete = true ↔ ∀ a, m[a]?.isSome = true → (m.image? a).isSome = true := by
  simp only [complete, List.all_eq_true, Prod.forall,
    Std.ExtTreeMap.mem_toList_iff_getElem?_eq_some]
  refine forall_congr' fun a => ?_
  rw [image?]
  rcases m[a]? with _ | _ | c <;> simp

end Images

namespace Assignment

variable {G : Graph} {s start : Assignment} {history : List Change}

/-- The assignment after a change. -/
def change (s : Assignment) (pattern : Graph) : Change → Assignment
  | .assignNode a c => s.assignNode a c
  | .assignPort p q => s.assignPort p q
  | .unassignNode a => s.unassignNode pattern a

/-- The assignment after changes that are made one after the other. -/
def replay (s : Assignment) (pattern : Graph) (history : List Change) : Assignment :=
  history.foldl (fun s x => s.change pattern x) s

theorem replay_append (s : Assignment) (G : Graph) (xs ys : List Change) :
    s.replay G (xs ++ ys) = (s.replay G xs).replay G ys :=
  List.foldl_append

/-- Assignments with the same entries are equal. -/
theorem eq_of_getElem? {t : Assignment} (hnodes : ∀ a : NodeId, s.nodes[a]? = t.nodes[a]?)
    (hports : ∀ p : PortId, s.ports[p]? = t.ports[p]?) : s = t := by
  obtain ⟨nodes, ports⟩ := s
  obtain ⟨nodes', ports'⟩ := t
  obtain rfl : nodes = nodes' := Std.ExtTreeMap.ext_getElem? hnodes
  obtain rfl : ports = ports' := Std.ExtTreeMap.ext_getElem? hports
  rfl

/-! ## One change, id by id -/

/-- A change sets the entry of the id `a` in a table to the given image if it touches the id, and
leaves the entry as it is if it does not. -/
def Sets {ι : Type} [Ord ι] [Std.TransOrd ι] (G : Graph) (table : Assignment → Images ι) (a : ι)
    (touches : Change → Bool) (image : Change → Option ι) : Prop :=
  ∀ s x, (table (s.change G x))[a]? = if touches x then some (image x) else (table s)[a]?

theorem sets_nodes (G : Graph) (a : NodeId) :
    Sets G Assignment.nodes a (Change.touchesNode a) Change.nodeImage := by
  intro s x
  cases x with
  | assignNode b c =>
    simp [change, assignNode, Images.getElem?_assign, Change.touchesNode, Change.nodeImage]
  | assignPort p q => simp [change, assignPort, Change.touchesNode]
  | unassignNode b =>
    simp [change, unassignNode, Images.getElem?_clear, Change.touchesNode, Change.nodeImage,
      eq_comm]

theorem sets_ports (hG : G.WellFormed) (p : PortId) :
    Sets G Assignment.ports p (Change.touchesPort G p) Change.portImage := by
  intro s x
  cases x with
  | assignNode b c => simp [change, assignNode, Change.touchesPort]
  | assignPort q r =>
    simp [change, assignPort, Images.getElem?_assign, Change.touchesPort, Change.portImage]
  | unassignNode b =>
    simp [change, unassignNode, Images.getElem?_clear, Change.touchesPort, Change.portImage,
      hG.mem_portsOf]

/-! ## Any number of changes -/

namespace Sets

variable {ι : Type} [Ord ι] [Std.TransOrd ι] {table : Assignment → Images ι} {a : ι}
  {touches : Change → Bool} {image : Change → Option ι}

theorem touches_of_findRev? {x : Change} (h : history.findRev? touches = some x) :
    x ∈ history ∧ touches x = true := by
  rw [List.findRev?_eq_find?_reverse] at h
  exact ⟨List.mem_reverse.1 (List.mem_of_find?_eq_some h), List.find?_some h⟩

/-- The entry of an id is what the last change that touches the id has set it to. -/
theorem getElem?_replay (h : Sets G table a touches image) (s : Assignment)
    (history : List Change) :
    (table (s.replay G history))[a]?
      = ((history.findRev? touches).map image).or (table s)[a]? := by
  induction history generalizing s with
  | nil => rfl
  | cons x rest ih =>
    show (table ((s.change G x).replay G rest))[a]? = _
    rw [ih, h, List.findRev?]
    cases rest.findRev? touches with
    | some y => rfl
    | none => by_cases hx : touches x = true <;> simp [hx]

/-- An id that has no image at first has the image `c` if `y`, the change that gives it this image,
is the last one that touches it. -/
theorem image?_replay_eq_some_iff (h : Sets G table a touches image)
    (hstart : (table start).image? a = none) {c : ι} {y : Change}
    (hy : ∀ x, x = y ↔ touches x = true ∧ image x = some c) :
    (table (start.replay G history)).image? a = some c ↔ history.findRev? touches = some y := by
  rw [Images.image?] at hstart ⊢
  rw [h.getElem?_replay]
  cases hlast : history.findRev? touches with
  | none => simp [hstart]
  | some x =>
    have htouches : touches x = true := (touches_of_findRev? hlast).2
    simp [hy, htouches]

/-- The ids listed in the end are those listed at first and those that a change touches. -/
theorem isSome_getElem?_replay (h : Sets G table a touches image) :
    (table (start.replay G history))[a]?.isSome = true ↔
      (table start)[a]?.isSome = true ∨ ∃ x ∈ history, touches x = true := by
  rw [h.getElem?_replay, Option.isSome_or, Option.isSome_map, Bool.or_eq_true,
    List.findRev?_eq_find?_reverse, List.find?_isSome, or_comm]
  simp only [List.mem_reverse]

/-- If two histories do not both touch an id, their order does not matter to its entry. -/
theorem getElem?_replay_comm (h : Sets G table a touches image) (s : Assignment)
    {xs ys : List Change}
    (hapart : ∀ x ∈ xs, ∀ y ∈ ys, ¬ (touches x = true ∧ touches y = true)) :
    (table ((s.replay G xs).replay G ys))[a]? = (table ((s.replay G ys).replay G xs))[a]? := by
  simp only [h.getElem?_replay]
  cases hx : xs.findRev? touches with
  | none => rfl
  | some x =>
    cases hy : ys.findRev? touches with
    | none => rfl
    | some y =>
      obtain ⟨hxmem, hxtouch⟩ := touches_of_findRev? hx
      obtain ⟨hymem, hytouch⟩ := touches_of_findRev? hy
      exact absurd ⟨hxtouch, hytouch⟩ (hapart x hxmem y hymem)

end Sets

/-- A node is mapped to what the last change that touches it maps it to, if that change maps it. -/
theorem node?_replay_eq_some_iff {a c : NodeId} (hstart : start.node? a = none) :
    (start.replay G history).node? a = some c ↔
      history.findRev? (Change.touchesNode a) = some (.assignNode a c) :=
  (sets_nodes G a).image?_replay_eq_some_iff hstart fun _ => Change.eq_assignNode_iff

/-- So is a port. -/
theorem port?_replay_eq_some_iff (hG : G.WellFormed) {p q : PortId}
    (hstart : start.port? p = none) :
    (start.replay G history).port? p = some q ↔
      history.findRev? (Change.touchesPort G p) = some (.assignPort p q) :=
  (sets_ports hG p).image?_replay_eq_some_iff hstart fun _ => Change.eq_assignPort_iff

/-- Changes that touch no id both can be made in either order. -/
theorem replay_comm (hG : G.WellFormed) (s : Assignment) {xs ys : List Change}
    (hapart : ∀ x ∈ xs, ∀ y ∈ ys, x.Apart G y) :
    (s.replay G xs).replay G ys = (s.replay G ys).replay G xs :=
  eq_of_getElem?
    (fun a => (sets_nodes G a).getElem?_replay_comm s fun x hx y hy => (hapart x hx y hy).nodes a)
    fun p => (sets_ports hG p).getElem?_replay_comm s fun x hx y hy => (hapart x hx y hy).ports p

/-! ## Histories from the beginning -/

/-- An assignment with which a history can begin, and the nodes and ports that it lists. -/
inductive Begins (G : Graph) : Assignment → List NodeId → List PortId → Prop where
  /-- The pattern is listed, nothing is mapped. -/
  | unassigned : Begins G (.unassigned G) G.nodeIds G.portIds
  /-- Nothing is listed. -/
  | empty : Begins G {} [] []

namespace Begins

variable {nodes : List NodeId} {ports : List PortId}

theorem node?_eq_none (h : Begins G start nodes ports) (a : NodeId) : start.node? a = none := by
  cases h with
  | unassigned => exact node?_unassigned G a
  | empty => rfl

theorem port?_eq_none (h : Begins G start nodes ports) (p : PortId) : start.port? p = none := by
  cases h with
  | unassigned => exact port?_unassigned G p
  | empty => rfl

theorem isSome_nodes (h : Begins G start nodes ports) (a : NodeId) :
    start.nodes[a]?.isSome = true ↔ a ∈ nodes := by
  cases h with
  | unassigned => exact (lists_unassigned G).nodes a
  | empty => simp

theorem isSome_ports (h : Begins G start nodes ports) (p : PortId) :
    start.ports[p]?.isSome = true ↔ p ∈ ports := by
  cases h with
  | unassigned => exact (lists_unassigned G).ports p
  | empty => simp

end Begins

end Assignment

/-- A node with two ports. -/
def nodeOfTwo : Graph :=
  (Graph.empty "one").replay
    [.addNode "a", .addPort ⟨0⟩ "p" ⟨"wire"⟩, .addPort ⟨0⟩ "q" ⟨"wire"⟩]

/-- Changes by ids of the node and of its ports, and by others. -/
def mixedChanges : List Change :=
  [.assignNode ⟨0⟩ ⟨4⟩, .assignPort ⟨0⟩ ⟨7⟩, .assignPort ⟨5⟩ ⟨6⟩, .unassignNode ⟨0⟩,
    .assignPort ⟨1⟩ ⟨3⟩, .assignNode ⟨2⟩ ⟨2⟩]

namespace Assignment

variable {G : Graph} {start : Assignment}

/-- Whatever changes are made to an assignment that maps nothing, by whatever ids: each node and
each port is mapped as the last change that touches it says.  The counts are those of the nodes and
ports that are mapped, and the assignment is complete if all ids are mapped that were listed at
first or are touched by a change.  Changes that touch no id both can be made in either order. -/
theorem last_change_wins (hG : G.Built) {nodes : List NodeId} {ports : List PortId}
    (hstart : Begins G start nodes ports) (history : List Change) :
    let s := start.replay G history
    (∀ a c, s.node? a = some c ↔
      history.findRev? (Change.touchesNode a) = some (.assignNode a c)) ∧
    (∀ p q, s.port? p = some q ↔
      history.findRev? (Change.touchesPort G p) = some (.assignPort p q)) ∧
    {a | (s.node? a).isSome = true}.encard = s.assignedNodes ∧
    {p | (s.port? p).isSome = true}.encard = s.assignedPorts ∧
    (s.isComplete = true ↔
      (∀ a, (a ∈ nodes ∨ ∃ x ∈ history, x.touchesNode a = true) → (s.node? a).isSome = true) ∧
      ∀ p, (p ∈ ports ∨ ∃ x ∈ history, x.touchesPort G p = true) → (s.port? p).isSome = true) ∧
    ∀ before xs ys after, history = before ++ xs ++ ys ++ after →
      (∀ x ∈ xs, ∀ y ∈ ys, x.Apart G y) → start.replay G (before ++ ys ++ xs ++ after) = s := by
  intro s
  refine ⟨fun a c => node?_replay_eq_some_iff (hstart.node?_eq_none a),
    fun p q => port?_replay_eq_some_iff hG.wellFormed (hstart.port?_eq_none p),
    Images.encard_assigned s.nodes, Images.encard_assigned s.ports, ?_, ?_⟩
  · simp only [isComplete, Bool.and_eq_true, Images.complete_iff, ← hstart.isSome_nodes,
      ← hstart.isSome_ports, ← (sets_nodes G _).isSome_getElem?_replay,
      ← (sets_ports hG.wellFormed _).isSome_getElem?_replay]
    rfl
  · rintro before xs ys after rfl hapart
    simp only [s, replay_append, replay_comm hG.wellFormed _ hapart]

/-- Changes by ids that the graph does not have count like any others.  The first port is listed and
has lost its place together with its node, so the assignment is not complete. -/
theorem last_change_wins_mixed :
    let s := ({} : Assignment).replay nodeOfTwo mixedChanges
    Begins nodeOfTwo {} [] [] ∧ s.node? ⟨2⟩ = some ⟨2⟩ ∧ s.port? ⟨1⟩ = some ⟨3⟩ ∧
      s.port? ⟨0⟩ ≠ some ⟨7⟩ ∧ {p | (s.port? p).isSome = true}.encard = 2 ∧
      s.isComplete = false := by
  intro s
  obtain ⟨hnode, hport, -, hports, hcomplete, -⟩ :=
    last_change_wins (G := nodeOfTwo) ⟨_, _, rfl⟩ .empty mixedChanges
  have htwo : s.assignedPorts = 2 := by decide +kernel
  refine ⟨.empty, (hnode _ _).2 (by decide), (hport _ _).2 (by decide +kernel),
    mt (hport _ _).1 (by decide +kernel), by rw [hports, htwo]; rfl, ?_⟩
  rw [Bool.eq_false_iff]
  intro hall
  have hmapped := (hcomplete.1 hall).2 ⟨0⟩ (.inr ⟨.unassignNode ⟨0⟩, by decide, by decide +kernel⟩)
  exact absurd hmapped (by decide +kernel)

end Assignment

end PortMatch
