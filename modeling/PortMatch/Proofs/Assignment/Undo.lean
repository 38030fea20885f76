import PortMatch.Proofs.Assignment.History

/-!
# Taking a placement back

A node is placed by mapping it and then some of its ports, in any order and some of them more than
once.  Nothing is noted of what that changes.  Unassigning the node takes it all back nevertheless:
it goes by the ports that the pattern says the node has, and before the placement all of these were
listed as not mapped, because an assignment never stops listing an id.

* `Assignment.Reached` — the assignments that changes lead to, each change by its own pattern;
* `Assignment.Reached.isSome_nodes`, `Assignment.Reached.isSome_ports` — what has been listed stays
  listed;
* `Assignment.Sets.getElem?_replay_of_not_touches`, `Assignment.Sets.getElem?_replay_concat` —
  changes that do not touch an id, and a last change that does;
* `Assignment.unassign_undoes_placement` — placing a node and unassigning it changes nothing, and
  other ids do not notice it.
-/

namespace PortMatch

/-- The changes that map the node `n` and then ports, each to a port of the target. -/
def Change.placing (n c : NodeId) (ports : List (PortId × PortId)) : List Change :=
  .assignNode n c :: ports.map fun (p, q) => .assignPort p q

namespace Images

variable {ι : Type} [Ord ι] [Std.TransOrd ι]

theorem getElem?_eq_some_none {m : Images ι} {a : ι} (hlisted : m[a]?.isSome = true)
    (himage : m.image? a = none) : m[a]? = some none := by
  obtain ⟨c, hc⟩ := Option.isSome_iff_exists.1 hlisted
  rw [image?, hc] at himage
  rw [hc]
  exact congrArg some himage

end Images

namespace Assignment

variable {G : Graph} {start s : Assignment}

/-! ## What is listed stays listed -/

/-- The assignments that changes lead to.  The nodes that are unassigned on the way need not be
nodes of one pattern. -/
inductive Reached (start : Assignment) : Assignment → Prop where
  /-- Nothing has been changed. -/
  | start : Reached start start
  /-- One more change has been made. -/
  | change {s : Assignment} (H : Graph) (x : Change) (h : Reached start s) :
    Reached start (s.change H x)

theorem reached_replay (start : Assignment) (H : Graph) (history : List Change) :
    Reached start (start.replay H history) := by
  induction history using List.reverseRecOn with
  | nil => exact .start
  | append_singleton rest x ih =>
    rw [replay_append]
    exact .change H x ih

theorem isSome_nodes_change (s : Assignment) (H : Graph) (x : Change) {a : NodeId}
    (ha : s.nodes[a]?.isSome = true) : (s.change H x).nodes[a]?.isSome = true := by
  rw [sets_nodes]
  split
  · rfl
  · exact ha

theorem isSome_ports_change (s : Assignment) (H : Graph) (x : Change) {p : PortId}
    (hp : s.ports[p]?.isSome = true) : (s.change H x).ports[p]?.isSome = true := by
  cases x with
  | assignNode a c => exact hp
  | assignPort q r =>
    rw [change, assignPort, Images.getElem?_assign]
    split
    · rfl
    · exact hp
  | unassignNode a =>
    rw [change, unassignNode, Images.getElem?_clear]
    split
    · rfl
    · exact hp

theorem Reached.isSome_nodes (h : Reached start s) {a : NodeId}
    (ha : start.nodes[a]?.isSome = true) : s.nodes[a]?.isSome = true := by
  induction h with
  | start => exact ha
  | change H x _ ih => exact isSome_nodes_change _ H x ih

theorem Reached.isSome_ports (h : Reached start s) {p : PortId}
    (hp : start.ports[p]?.isSome = true) : s.ports[p]?.isSome = true := by
  induction h with
  | start => exact hp
  | change H x _ ih => exact isSome_ports_change _ H x ih

/-! ## Changes that touch an id and changes that do not -/

namespace Sets

variable {ι : Type} [Ord ι] [Std.TransOrd ι] {table : Assignment → Images ι} {a : ι}
  {touches : Change → Bool} {image : Change → Option ι} {history : List Change}

/-- Changes that do not touch an id leave its entry as it is. -/
theorem getElem?_replay_of_not_touches (h : Sets G table a touches image) (s : Assignment)
    (hnot : ∀ x ∈ history, touches x = false) : (table (s.replay G history))[a]? = (table s)[a]? := by
  have hlast : history.findRev? touches = none := by
    rw [List.findRev?_eq_find?_reverse, List.find?_eq_none]
    intro x hx
    simp [hnot x (List.mem_reverse.1 hx)]
  rw [h.getElem?_replay, hlast]
  rfl

/-- A last change that touches an id sets its entry, whatever it was before. -/
theorem getElem?_replay_concat (h : Sets G table a touches image) (s : Assignment)
    (history : List Change) {x : Change} (hx : touches x = true) :
    (table (s.replay G (history ++ [x])))[a]? = some (image x) := by
  rw [replay_append]
  exact (h _ x).trans (if_pos hx)

end Sets

/-! ## Placing a node and taking it back -/

section Placing

variable {n : NodeId} {ports : List (PortId × PortId)}

/-- A placement maps the node. -/
theorem node?_replay_placing (s : Assignment) (n c : NodeId) (ports : List (PortId × PortId)) :
    (s.replay G (Change.placing n c ports)).node? n = some c := by
  have hports : ∀ x ∈ ports.map fun (p, q) => Change.assignPort p q, x.touchesNode n = false := by
    intro x hx
    obtain ⟨e, -, rfl⟩ := List.mem_map.1 hx
    rfl
  have hentry : (s.replay G (Change.placing n c ports)).nodes[n]? = some (some c) :=
    ((sets_nodes G n).getElem?_replay_of_not_touches _ hports).trans
      ((sets_nodes G n s (.assignNode n c)).trans (if_pos (decide_eq_true rfl)))
  rw [node?, Images.image?, hentry]
  rfl

/-- Placing a node does not touch other nodes, and unassigning it does not either. -/
theorem touchesNode_placing {a c : NodeId} (ha : a ≠ n) {x : Change}
    (hx : x ∈ Change.placing n c ports ++ [.unassignNode n]) : x.touchesNode a = false := by
  rcases List.mem_append.1 hx with hx | hx
  · rcases List.mem_cons.1 hx with rfl | hx
    · exact decide_eq_false ha.symm
    · obtain ⟨e, -, rfl⟩ := List.mem_map.1 hx
      rfl
  · rw [List.mem_singleton.1 hx]
    exact decide_eq_false ha.symm

/-- Nor does it touch ports that the node does not have. -/
theorem touchesPort_placing (hG : G.WellFormed) (hports : ∀ e ∈ ports, e.1 ∈ G.portsOf n)
    {c : NodeId} {p : PortId} (hp : p ∉ G.portsOf n) {x : Change}
    (hx : x ∈ Change.placing n c ports ++ [.unassignNode n]) : x.touchesPort G p = false := by
  rcases List.mem_append.1 hx with hx | hx
  · rcases List.mem_cons.1 hx with rfl | hx
    · rfl
    · obtain ⟨e, he, rfl⟩ := List.mem_map.1 hx
      exact decide_eq_false fun hep => hp (hep ▸ hports e he)
  · rw [List.mem_singleton.1 hx]
    exact decide_eq_false fun howner => hp (hG.mem_portsOf.2 howner)

/-- So the entries of other nodes are the same all the while. -/
theorem getElem?_nodes_placing {a c : NodeId} (ha : a ≠ n) {made : List Change}
    (hmade : made <+: Change.placing n c ports ++ [.unassignNode n]) :
    (s.replay G made).nodes[a]? = s.nodes[a]? :=
  (sets_nodes G a).getElem?_replay_of_not_touches s fun _ hx =>
    touchesNode_placing ha (hmade.subset hx)

/-- And so are those of ports that the node does not have. -/
theorem getElem?_ports_placing (hG : G.WellFormed) (hports : ∀ e ∈ ports, e.1 ∈ G.portsOf n)
    {c : NodeId} {p : PortId} (hp : p ∉ G.portsOf n) {made : List Change}
    (hmade : made <+: Change.placing n c ports ++ [.unassignNode n]) :
    (s.replay G made).ports[p]? = s.ports[p]? :=
  (sets_ports hG p).getElem?_replay_of_not_touches s fun _ hx =>
    touchesPort_placing hG hports hp (hmade.subset hx)

/-- A node that is listed and not mapped, and whose ports are not mapped either, can be placed and
unassigned: the assignment is the same as before, and other ids have read the same all the while. -/
theorem unassign_undoes_placement (hG : G.Built) (hs : Reached (unassigned G) s)
    (hn : n ∈ G.nodeIds) (hnode : s.node? n = none) (hfree : ∀ p ∈ G.portsOf n, s.port? p = none)
    (c : NodeId) (hports : ∀ e ∈ ports, e.1 ∈ G.portsOf n) :
    let changes := Change.placing n c ports ++ [.unassignNode n]
    (s.replay G (Change.placing n c ports)).node? n = some c ∧ s.replay G changes = s ∧
      ∀ made, made <+: changes →
        (∀ a, a ≠ n → (s.replay G made).node? a = s.node? a) ∧
        ∀ p, p ∉ G.portsOf n → (s.replay G made).port? p = s.port? p := by
  intro changes
  have hwf : G.WellFormed := hG.wellFormed
  refine ⟨node?_replay_placing s n c ports, eq_of_getElem? (fun a => ?_) fun p => ?_,
    fun made hmade => ⟨fun a ha => ?_, fun p hp => ?_⟩⟩
  · by_cases ha : a = n
    · -- the last change lists the node as not mapped, which is how it was listed before
      subst ha
      have hlisted := hs.isSome_nodes (((lists_unassigned G).nodes a).2 hn)
      rw [Images.getElem?_eq_some_none hlisted hnode]
      exact (sets_nodes G a).getElem?_replay_concat s _ (decide_eq_true rfl)
    · exact getElem?_nodes_placing ha (List.prefix_refl changes)
  · by_cases hp : p ∈ G.portsOf n
    · have hlisted := hs.isSome_ports (((lists_unassigned G).ports p).2 (hwf.mem_portIds hp))
      rw [Images.getElem?_eq_some_none hlisted (hfree p hp)]
      exact (sets_ports hwf p).getElem?_replay_concat s _ (decide_eq_true (hwf.mem_portsOf.1 hp))
    · exact getElem?_ports_placing hwf hports hp (List.prefix_refl changes)
  · exact congrArg Option.join (getElem?_nodes_placing ha hmade)
  · exact congrArg Option.join (getElem?_ports_placing hwf hports hp hmade)

end Placing

/-- The ports that are mapped are those of the node, out of order and one of them twice.  A port that
the graph does not have has been mapped before and stays mapped. -/
theorem unassign_undoes_placement_twice :
    let s := (unassigned nodeOfTwo).replay nodeOfTwo (mixedChanges.take 4)
    let ports : List (PortId × PortId) := [(⟨1⟩, ⟨3⟩), (⟨0⟩, ⟨3⟩), (⟨1⟩, ⟨2⟩)]
    let changes := Change.placing ⟨0⟩ ⟨3⟩ ports ++ [.unassignNode ⟨0⟩]
    Reached (unassigned nodeOfTwo) s ∧ s.node? ⟨0⟩ = none ∧
      (∀ p ∈ nodeOfTwo.portsOf ⟨0⟩, s.port? p = none) ∧
      (∀ e ∈ ports, e.1 ∈ nodeOfTwo.portsOf ⟨0⟩) ∧ s.port? ⟨5⟩ = some ⟨6⟩ ∧
      s.replay nodeOfTwo changes = s ∧
      (s.replay nodeOfTwo (changes.take 3)).port? ⟨5⟩ = some ⟨6⟩ := by
  intro s ports changes
  have hs : Reached (unassigned nodeOfTwo) s := reached_replay _ _ _
  have hnode : s.node? ⟨0⟩ = none := by decide +kernel
  have hfree : ∀ p ∈ nodeOfTwo.portsOf ⟨0⟩, s.port? p = none := by decide +kernel
  have hports : ∀ e ∈ ports, e.1 ∈ nodeOfTwo.portsOf ⟨0⟩ := by decide +kernel
  have hfive : s.port? ⟨5⟩ = some ⟨6⟩ := by decide +kernel
  obtain ⟨-, hsame, hothers⟩ :=
    unassign_undoes_placement ⟨_, _, rfl⟩ hs (by decide) hnode hfree ⟨3⟩ hports
  refine ⟨hs, hnode, hfree, hports, hfive, hsame, ?_⟩
  rw [← hfive]
  exact (hothers _ (List.take_prefix 3 changes)).2 ⟨5⟩ (by decide +kernel)

end Assignment

end PortMatch
