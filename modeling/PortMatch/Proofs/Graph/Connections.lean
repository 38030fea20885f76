import Mathlib
import PortMatch.Proofs.Graph.History

/-!
# Links and the calls that made them

The links of a graph are kept twice, as a set of pairs and as a list of partners for each port, and
each answered call to connect two ports adds to both.  So both can be read off the calls: the set
has the pairs of ports that were connected, and the list of a port has the other ends of its
connections, in the order of the calls.

* `Graph.connections` — the pairs of ports that calls have connected;
* `Graph.LinkedBy` — the links of a graph are those of the given connections;
* `Graph.LinkedBy.perform`, `Graph.LinkedBy.replay` — one call, and any number of them;
* `Graph.sum_length_partners` — every connection is on the lists of two ports;
* `Graph.built_links_agree` — what this means for graphs that calls have built.
-/

namespace PortMatch

/-- The two ports that a call is to connect, if that is what it is for. -/
def Call.ends? : Call → Option (PortId × PortId)
  | .connect a b => some (a, b)
  | .addNode _ | .addPort _ _ _ => none

/-- The other end of a connection that has `p` as one of its ends. -/
def partner? (p : PortId) (ends : PortId × PortId) : Option PortId :=
  if ends.1 = p then some ends.2 else if ends.2 = p then some ends.1 else none

theorem between_of_partner? {p q : PortId} {ends : PortId × PortId}
    (h : partner? p ends = some q) : Link.between ends.1 ends.2 = Link.between p q := by
  unfold partner? at h
  split at h
  · next hp =>
    cases h
    rw [hp]
  · split at h
    · next hp =>
      cases h
      rw [hp, Link.between_comm]
    · cases h

/-- A connection is on the lists of its two ends. -/
theorem length_filterMap_partner?_cons (p : PortId) {ends : PortId × PortId}
    (hends : ends.1 ≠ ends.2) (made : List (PortId × PortId)) :
    ((ends :: made).filterMap (partner? p)).length
      = (if ends.1 = p then 1 else 0) + (if ends.2 = p then 1 else 0)
        + (made.filterMap (partner? p)).length := by
  rw [List.filterMap_cons, partner?]
  grind

theorem sum_ite_eq_count (ids : List PortId) (p : PortId) :
    (ids.map fun a => if p = a then 1 else 0).sum = ids.count p := by
  induction ids with
  | nil => rfl
  | cons a rest ih =>
    rw [List.map_cons, List.sum_cons, ih, List.count_cons, Nat.add_comm]
    simp only [beq_iff_eq, eq_comm (a := a)]

namespace Graph

variable {g g' : Graph} {made : List (PortId × PortId)}

/-- The pairs of ports that are connected by those of the calls that are answered, in order. -/
def connections (g : Graph) (calls : List Call) : List (PortId × PortId) :=
  (g.answered calls).filterMap Call.ends?

theorem connections_cons_of_ok {call : Call} {answer : Answer}
    (h : g.perform call = .ok (answer, g')) (rest : List Call) :
    g.connections (call :: rest) = call.ends?.toList ++ g'.connections rest := by
  rw [connections, answered_cons_of_ok h, List.filterMap_cons]
  cases call.ends? <;> rfl

theorem connections_cons_of_error {call : Call} {e : Rejection} (h : g.perform call = .error e)
    (rest : List Call) : g.connections (call :: rest) = g.connections rest := by
  rw [connections, answered_cons_of_error h, connections]

/-- The links of the graph are those of the given connections. -/
structure LinkedBy (g : Graph) (made : List (PortId × PortId)) : Prop where
  /-- The neighbors of a port are the other ends of its connections, in order. -/
  neighbors : ∀ a, g.neighbors a = made.filterMap (partner? a)
  /-- Two ports are linked if they were connected, in either direction. -/
  connected : ∀ a b, g.connected a b = true ↔ (a, b) ∈ made ∨ (b, a) ∈ made
  /-- There is a link for each connection. -/
  linkCount : g.linkCount = made.length
  /-- The ends of a connection are two ports of the graph. -/
  ends : ∀ e ∈ made, e.1 ∈ g.portIds ∧ e.2 ∈ g.portIds ∧ e.1 ≠ e.2
  /-- No two ports were connected twice. -/
  distinct : made.Pairwise fun e f => Link.between e.1 e.2 ≠ Link.between f.1 f.2

/-! ## Every call keeps the stores in step -/

namespace LinkedBy

theorem empty (desc : String) : (Graph.empty desc).LinkedBy [] where
  neighbors a := Links.partners_empty a
  connected a b := by simp [Graph.connected, Graph.empty]
  linkCount := rfl
  ends := by simp
  distinct := .nil

theorem connect (h : g.LinkedBy made) {a b : PortId} (ha : a ∈ g.portIds) (hb : b ∈ g.portIds)
    (hab : a ≠ b) (hnew : g.connected a b = false) :
    ({ g with links := g.links.insert a b } : Graph).LinkedBy (made ++ [(a, b)]) where
  neighbors p := by
    have hold := h.neighbors
    simp only [Graph.neighbors] at hold ⊢
    rw [Links.partners_insert _ hab, List.filterMap_append, hold, hold, hold]
    simp only [partner?, List.filterMap_cons, List.filterMap_nil]
    split
    · next hap => rw [hap]
    · split
      · next hbp => rw [hbp]
      · rw [List.append_nil]
  connected p q := by
    have hold := h.connected p q
    simp only [Graph.connected] at hold ⊢
    rw [Links.contains_insert, Bool.or_eq_true, decide_eq_true_eq, hold]
    grind
  linkCount := by
    rw [List.length_append, ← h.linkCount]
    exact g.links.size_insert hnew
  ends := List.forall_mem_append.2 ⟨h.ends, List.forall_mem_singleton.2 ⟨ha, hb, hab⟩⟩
  distinct := by
    refine List.pairwise_append.2 ⟨h.distinct, List.pairwise_singleton .., ?_⟩
    intro e he f hf hsame
    obtain rfl := List.mem_singleton.1 hf
    -- a connection between the same ports would make them linked already
    have hold : g.connected a b = true := by
      rcases Link.between_eq_between_iff.1 hsame with ⟨rfl, rfl⟩ | ⟨rfl, rfl⟩
      · exact (h.connected _ _).2 (.inl he)
      · exact (h.connected _ _).2 (.inr he)
    rw [hnew] at hold
    cases hold

/-- A call that is answered adds the connection that it makes, if it makes one. -/
theorem perform (h : g.LinkedBy made) {call : Call} {answer : Answer}
    (hcall : g.perform call = .ok (answer, g')) : g'.LinkedBy (made ++ call.ends?.toList) := by
  rcases perform_eq_ok hcall with ⟨desc, rfl, -, -, rfl⟩ |
    ⟨node, desc, kind, rfl, -, -, -, rfl⟩ | ⟨a, b, rfl, -, ha, hb, hab, hnew, rfl⟩
  · rw [Call.ends?, Option.toList_none, List.append_nil]
    exact ⟨h.neighbors, h.connected, h.linkCount, h.ends, h.distinct⟩
  · rw [Call.ends?, Option.toList_none, List.append_nil]
    refine ⟨h.neighbors, h.connected, h.linkCount, fun e he => ?_, h.distinct⟩
    obtain ⟨h₁, h₂, hne⟩ := h.ends e he
    simp only [mem_portIds, portCount, Array.size_push] at h₁ h₂ ⊢
    exact ⟨Nat.lt_succ_of_lt h₁, Nat.lt_succ_of_lt h₂, hne⟩
  · exact h.connect (mem_portIds.2 ha) (mem_portIds.2 hb) hab hnew

/-- Any number of calls add the connections that they make. -/
theorem replay (h : g.LinkedBy made) (calls : List Call) :
    (g.replay calls).LinkedBy (made ++ g.connections calls) := by
  induction calls generalizing g made with
  | nil => exact (List.append_nil made).symm ▸ h
  | cons call rest ih =>
    show ((g.after call).replay rest).LinkedBy _
    cases hcall : g.perform call with
    | ok out =>
      rw [after_of_ok hcall, connections_cons_of_ok hcall, ← List.append_assoc]
      exact ih (h.perform hcall)
    | error e =>
      rw [after_of_error hcall, connections_cons_of_error hcall]
      exact ih h

/-! ## Reading the stores -/

theorem nodup_neighbors (h : g.LinkedBy made) (a : PortId) : (g.neighbors a).Nodup := by
  rw [h.neighbors, List.Nodup, List.pairwise_filterMap]
  refine h.distinct.imp fun hne b hb c hc hbc => hne ?_
  rw [between_of_partner? hb, between_of_partner? hc, hbc]

end LinkedBy

/-- Each of the given connections is on the lists of two ports. -/
theorem sum_length_partners {ids : List PortId} (hids : ids.Nodup)
    (hmade : ∀ e ∈ made, e.1 ∈ ids ∧ e.2 ∈ ids ∧ e.1 ≠ e.2) :
    (ids.map fun a => (made.filterMap (partner? a)).length).sum = 2 * made.length := by
  have hcount : ∀ p ∈ ids, (ids.map fun a => if p = a then 1 else 0).sum = 1 := fun p hp =>
    (sum_ite_eq_count ids p).trans (List.count_eq_one_of_mem hids hp)
  induction made with
  | nil => simp
  | cons e rest ih =>
    obtain ⟨⟨h₁, h₂, hne⟩, hrest⟩ := List.forall_mem_cons.1 hmade
    simp only [length_filterMap_partner?_cons _ hne, List.sum_map_add, hcount _ h₁, hcount _ h₂,
      ih hrest, List.length_cons]
    omega

/-! ## Graphs that calls have built -/

/-- In a graph that calls have built, refused ones included, the two stores of the links tell the
same.  Being linked has no direction, a port is linked to the ports on its list, each of them is
there once, and the port itself is not.  Two ports are linked if an answered call connected them,
and the list of a port has the other ends of its connections in the order of the calls.  There is a
link for each call that made one, and each link is on two lists. -/
theorem built_links_agree (desc : String) (calls : List Call) :
    let g := (Graph.empty desc).replay calls
    let made := (Graph.empty desc).connections calls
    (∀ a b, g.connected a b = g.connected b a) ∧
    (∀ a b, g.connected a b = true ↔ b ∈ g.neighbors a) ∧
    (∀ a b, (g.neighbors a).count b = (g.connected a b).toNat) ∧
    (∀ a, a ∉ g.neighbors a) ∧
    (∀ a b, b ∈ g.neighbors a → a ∈ g.portIds ∧ b ∈ g.portIds) ∧
    (∀ a b, g.connected a b = true ↔ (a, b) ∈ made ∨ (b, a) ∈ made) ∧
    (∀ a, g.neighbors a = made.filterMap (partner? a)) ∧
    g.linkCount = made.length ∧
    (g.portIds.map fun a => (g.neighbors a).length).sum = 2 * g.linkCount := by
  intro g made
  have hg : g.WellFormed := (WellFormed.empty desc).replay calls
  have hlinked : g.LinkedBy made := (LinkedBy.empty desc).replay calls
  refine ⟨g.connected_comm, fun a b => hg.mem_neighbors.symm, fun a b => ?_, fun a ha => ?_,
    fun a b hb => ?_, hlinked.connected, hlinked.neighbors, hlinked.linkCount, ?_⟩
  · cases hab : g.connected a b with
    | true => exact List.count_eq_one_of_mem (hlinked.nodup_neighbors a) (hg.mem_neighbors.2 hab)
    | false =>
      refine List.count_eq_zero_of_not_mem fun hmem => ?_
      rw [hg.mem_neighbors.1 hmem] at hab
      cases hab
  · exact (hg.connected_lt (hg.mem_neighbors.1 ha)).2 rfl
  · have hab := hg.mem_neighbors.1 hb
    have hba := hab
    rw [g.connected_comm] at hba
    exact ⟨mem_portIds.2 (hg.connected_lt hab).1, mem_portIds.2 (hg.connected_lt hba).1⟩
  · simp only [hlinked.neighbors, hlinked.linkCount]
    exact sum_length_partners g.nodup_portIds hlinked.ends

/-- The list of a port has all its connections, on whichever side of a call the port was; the second
call to connect the first two ports is refused. -/
example : ((empty "g").replay [.addNode "n", .addPort ⟨0⟩ "p" ⟨"wire"⟩, .addPort ⟨0⟩ "q" ⟨"wire"⟩,
    .connect ⟨1⟩ ⟨0⟩, .addPort ⟨0⟩ "r" ⟨"wire"⟩, .connect ⟨0⟩ ⟨1⟩, .connect ⟨0⟩ ⟨2⟩]).neighbors ⟨0⟩
      = [⟨1⟩, ⟨2⟩] := by
  decide +kernel

end Graph

end PortMatch
