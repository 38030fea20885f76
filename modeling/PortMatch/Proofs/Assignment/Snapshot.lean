import PortMatch.Proofs.Assignment.Undo
import PortMatch.Proofs.Placement.Labels

/-!
# What a snapshot depends on

A snapshot is taken of an assignment at any moment, whatever has been changed before, and against
any two graphs, which need not have the ids that the assignment lists.  It shows the mapping and
nothing else: the ids of the one graph that are listed, in ascending order, with their images as far
as the other graph has them.  Neither the order of the changes nor the order in which a table
happens to enumerate its entries shows in it.

* `Assignment.byId`, `Assignment.byId_eq_toList` — entries in any order, put in order;
* `Assignment.bindings_eq_map_filter`, `Assignment.countP_bindings` — the bindings of one table, and
  how many of them have an image;
* `Assignment.within` — an assignment without the ids that a graph does not have;
* `Assignment.snapshot_shows_mapping` — what a snapshot shows, and what it depends on.
-/

namespace PortMatch

namespace Assignment

/-! ## One table -/

section Table

variable {ι : Type} [Ord ι] [Std.TransOrd ι]

/-- Entries that come in any order, ascending by id. -/
def byId (entries : List (ι × Option ι)) : List (ι × Option ι) :=
  entries.mergeSort fun x y => (compare x.1 y.1).isLE

variable [Std.LawfulEqOrd ι] {m : Images ι} {ids : List ι}

/-- A table has one list of its entries that ascends by id, in whatever order they come. -/
theorem byId_eq_toList {entries : List (ι × Option ι)} (h : entries.Perm m.toList) :
    byId entries = m.toList := by
  have hperm : (byId entries).Perm m.toList := (List.mergeSort_perm _ _).trans h
  have hsorted : (byId entries).Pairwise fun x y => (compare x.1 y.1).isLE = true := by
    refine List.pairwise_mergeSort (fun x y z hxy hyz => ?_) (fun x y => ?_) entries
    · exact Std.TransCmp.isLE_trans hxy hyz
    · rw [Std.OrientedOrd.eq_swap (a := y.1)]
      cases compare x.1 y.1 <;> rfl
  have hlist : m.toList.Pairwise fun x y => (compare x.1 y.1).isLE = true :=
    m.ordered_keys_toList.imp fun hlt => by rw [hlt]; rfl
  refine hperm.eq_of_pairwise (fun x y hx hy hxy hyx => ?_) hsorted hlist
  -- entries with the same id are the same entry
  have hid : x.1 = y.1 := Std.LawfulEqCmp.eq_of_compare (Std.OrientedCmp.isLE_antisymm hxy hyx)
  have hx' := Std.ExtTreeMap.mem_toList_iff_getElem?_eq_some.1 (hperm.mem_iff.1 hx)
  have hy' := Std.ExtTreeMap.mem_toList_iff_getElem?_eq_some.1 hy
  rw [hid, hy'] at hx'
  exact Prod.ext hid (Option.some.inj hx').symm

variable [DecidableEq ι] {label imageLabel : ι → Option String} {desc : ι → String}

/-- The listed ones among the given ids are the given ones among those listed. -/
theorem keys_filter_mem (hascend : ids.Pairwise fun a b => compare a b = .lt) :
    (m.keys.filter fun a => a ∈ ids) = ids.filter fun a => a ∈ m := by
  refine Images.eq_of_ascending (m.ordered_keys.filter _) (hascend.filter _) fun a => ?_
  simp [and_comm]

/-- The bindings of a table, if just the given ids have descriptions. -/
theorem bindings_eq_map_filter (hascend : ids.Pairwise fun a b => compare a b = .lt)
    (hlabel : ∀ a, label a = if a ∈ ids then some (desc a) else none) :
    bindings m label imageLabel
      = (ids.filter fun a => a ∈ m).map fun a => ⟨desc a, (m.image? a).bind imageLabel⟩ := by
  have hlist : m.toList = m.keys.map fun a => (a, m.image? a) :=
    Images.toList_eq m.ordered_keys fun a => by
      rw [Std.ExtTreeMap.mem_keys, Std.ExtTreeMap.mem_iff_isSome_getElem?]
  rw [← keys_filter_mem hascend, bindings, hlist, List.filterMap_map, ← List.filterMap_eq_map,
    List.filterMap_filter]
  apply List.filterMap_congr
  intro a _
  by_cases ha : a ∈ ids <;> simp [hlabel, ha]

/-- If the images of the given ids all have descriptions, a binding has an image just if its id is
mapped. -/
theorem countP_bindings (hascend : ids.Pairwise fun a b => compare a b = .lt)
    (hlabel : ∀ a, label a = if a ∈ ids then some (desc a) else none)
    (himage : ∀ a ∈ ids, ∀ c, m.image? a = some c → (imageLabel c).isSome = true) :
    (bindings m label imageLabel).countP (fun b => b.image.isSome)
      = Images.assigned (m.filter fun a _ => a ∈ ids) := by
  have hentry : ∀ a, (m.filter fun a _ => a ∈ ids)[a]? = if a ∈ ids then m[a]? else none := by
    intro a
    rw [Std.ExtTreeMap.getElem?_filter']
    by_cases ha : a ∈ ids <;> cases m[a]? <;> simp [ha]
  have hlisted : ∀ a, (m.filter fun a _ => a ∈ ids)[a]?.isSome = true ↔
      a ∈ ids.filter fun a => a ∈ m := by
    intro a
    rw [hentry, List.mem_filter, decide_eq_true_iff, Std.ExtTreeMap.mem_iff_isSome_getElem?]
    by_cases ha : a ∈ ids <;> simp [ha]
  rw [bindings_eq_map_filter hascend hlabel, List.countP_map,
    Images.assigned_eq (hascend.filter _) hlisted]
  refine List.countP_congr fun a ha => ?_
  have hids : a ∈ ids := (List.mem_filter.1 ha).1
  simp only [Function.comp_apply, Images.image?, hentry, if_pos hids]
  cases hc : m[a]?.join with
  | none => rfl
  | some c => simpa using himage a hids c hc

/-- Tables with the same entries for the given ids have the same bindings. -/
theorem bindings_congr {m' : Images ι} (hascend : ids.Pairwise fun a b => compare a b = .lt)
    (hlabel : ∀ a, label a = if a ∈ ids then some (desc a) else none)
    (hentry : ∀ a ∈ ids, m'[a]? = m[a]?) :
    bindings m' label imageLabel = bindings m label imageLabel := by
  have hlisted : (ids.filter fun a => a ∈ m') = ids.filter fun a => a ∈ m := by
    refine List.filter_congr fun a ha => ?_
    simp only [Std.ExtTreeMap.mem_iff_isSome_getElem?, hentry a ha]
  rw [bindings_eq_map_filter hascend hlabel, bindings_eq_map_filter hascend hlabel, hlisted]
  refine List.map_congr_left fun a ha => ?_
  rw [Images.image?, Images.image?, hentry a (List.mem_filter.1 ha).1]

end Table

/-! ## Snapshots -/

/-- The binding that a snapshot against two graphs shows for a node of the first one. -/
def nodeBinding (s : Assignment) (pattern target : Graph) (a : NodeId) : Binding :=
  ⟨pattern.nodeDesc a, (s.node? a).bind fun c => (target.node? c).map Node.desc⟩

/-- The binding that a snapshot against two graphs shows for a port of the first one. -/
def portBinding (s : Assignment) (pattern target : Graph) (p : PortId) : Binding :=
  ⟨pattern.portDesc p, (s.port? p).bind fun q => (target.port? q).map Port.desc⟩

/-- The snapshot that is made from the entries of two tables, which come in any order. -/
def snapshotOf (nodes : List (NodeId × Option NodeId)) (ports : List (PortId × Option PortId))
    (pattern target : Graph) : Snapshot where
  nodes := (byId nodes).filterMap fun (a, c) =>
    (pattern.node? a).map fun n => ⟨n.desc, (c.bind target.node?).map Node.desc⟩
  ports := (byId ports).filterMap fun (p, q) =>
    (pattern.port? p).map fun t => ⟨t.desc, (q.bind target.port?).map Port.desc⟩

/-- The assignment without the ids that the graph does not have. -/
def within (s : Assignment) (g : Graph) : Assignment where
  nodes := s.nodes.filter fun a _ => a ∈ g.nodeIds
  ports := s.ports.filter fun p _ => p ∈ g.portIds

theorem nodeLabel_eq (g : Graph) (a : NodeId) :
    (g.node? a).map Node.desc = if a ∈ g.nodeIds then some (g.nodeDesc a) else none := by
  split
  · next ha => exact Graph.node?_of_mem ha
  · next ha =>
    rw [Graph.mem_nodeIds, ← Graph.node?_isSome, Option.not_isSome_iff_eq_none] at ha
    rw [ha]
    rfl

theorem portLabel_eq (g : Graph) (p : PortId) :
    (g.port? p).map Port.desc = if p ∈ g.portIds then some (g.portDesc p) else none := by
  split
  · next hp => exact Graph.port?_of_mem hp
  · next hp =>
    rw [Graph.mem_portIds, ← Graph.port?_isSome, Option.not_isSome_iff_eq_none] at hp
    rw [hp]
    rfl

/-- A snapshot shows the ids of the first graph that are listed, and what they are mapped to in the
second one. -/
theorem snapshot_eq (s : Assignment) (A C : Graph) :
    s.snapshot A C =
      ⟨(A.nodeIds.filter fun a => a ∈ s.nodes).map (s.nodeBinding A C),
        (A.portIds.filter fun p => p ∈ s.ports).map (s.portBinding A C)⟩ := by
  rw [snapshot, bindings_eq_map_filter A.ascending_nodeIds (nodeLabel_eq A),
    bindings_eq_map_filter A.ascending_portIds (portLabel_eq A)]
  rfl

/-- It does not matter in which order the tables enumerate their entries. -/
theorem snapshotOf_eq (s : Assignment) (A C : Graph) {nodes : List (NodeId × Option NodeId)}
    {ports : List (PortId × Option PortId)} (hnodes : nodes.Perm s.nodes.toList)
    (hports : ports.Perm s.ports.toList) : snapshotOf nodes ports A C = s.snapshot A C := by
  rw [snapshotOf, byId_eq_toList hnodes, byId_eq_toList hports, snapshot, bindings, bindings]
  simp [Option.map_bind, Function.comp_def]

/-- If changes have led from the assignment that lists the pattern to another one, the pattern is
still listed, so a snapshot shows all of it. -/
theorem Reached.snapshot_eq {s : Assignment} {A : Graph} (hs : Reached (unassigned A) s)
    (C : Graph) :
    s.snapshot A C = ⟨A.nodeIds.map (s.nodeBinding A C), A.portIds.map (s.portBinding A C)⟩ := by
  have hnodes : (A.nodeIds.filter fun a => a ∈ s.nodes) = A.nodeIds := by
    refine List.filter_eq_self.2 fun a ha => decide_eq_true ?_
    rw [Std.ExtTreeMap.mem_iff_isSome_getElem?]
    exact hs.isSome_nodes (((lists_unassigned A).nodes a).2 ha)
  have hports : (A.portIds.filter fun p => p ∈ s.ports) = A.portIds := by
    refine List.filter_eq_self.2 fun p hp => decide_eq_true ?_
    rw [Std.ExtTreeMap.mem_iff_isSome_getElem?]
    exact hs.isSome_ports (((lists_unassigned A).ports p).2 hp)
  rw [Assignment.snapshot_eq, hnodes, hports]

/-- A snapshot of an assignment, whatever it has been through, against any two graphs: one binding
for each listed node of the first graph, in ascending order, and the same for ports.  It is
determined by the entries for these ids, whatever other ids are listed and in whatever order entries
come.  An assignment that began with the first graph listed shows a binding for each of its ids.  If
all images are in the second graph, the bindings with an image are as many as the ids of the first
graph that are mapped. -/
theorem snapshot_shows_mapping (s : Assignment) (A C : Graph) :
    s.snapshot A C =
      ⟨(A.nodeIds.filter fun a => a ∈ s.nodes).map (s.nodeBinding A C),
        (A.portIds.filter fun p => p ∈ s.ports).map (s.portBinding A C)⟩ ∧
    (∀ nodes ports, nodes.Perm s.nodes.toList → ports.Perm s.ports.toList →
      snapshotOf nodes ports A C = s.snapshot A C) ∧
    (∀ t : Assignment, (∀ a ∈ A.nodeIds, t.nodes[a]? = s.nodes[a]?) →
      (∀ p ∈ A.portIds, t.ports[p]? = s.ports[p]?) → t.snapshot A C = s.snapshot A C) ∧
    (Reached (unassigned A) s →
      (s.snapshot A C).nodes.length = A.nodeCount ∧ (s.snapshot A C).ports.length = A.portCount ∧
      (∀ i < A.nodeCount, (s.snapshot A C).nodes[i]? = some (s.nodeBinding A C ⟨i⟩)) ∧
      ∀ i < A.portCount, (s.snapshot A C).ports[i]? = some (s.portBinding A C ⟨i⟩)) ∧
    ((∀ a ∈ A.nodeIds, ∀ c, s.node? a = some c → c ∈ C.nodeIds) →
      ((s.snapshot A C).nodes.countP fun b => b.image.isSome) = (s.within A).assignedNodes) ∧
    ((∀ p ∈ A.portIds, ∀ q, s.port? p = some q → q ∈ C.portIds) →
      ((s.snapshot A C).ports.countP fun b => b.image.isSome) = (s.within A).assignedPorts) := by
  refine ⟨snapshot_eq s A C, fun nodes ports => snapshotOf_eq s A C, fun t hnodes hports => ?_,
    fun hs => ?_, fun himage => ?_, fun himage => ?_⟩
  · rw [snapshot, snapshot, bindings_congr A.ascending_nodeIds (nodeLabel_eq A) hnodes,
      bindings_congr A.ascending_portIds (portLabel_eq A) hports]
  · rw [hs.snapshot_eq]
    refine ⟨by simp, by simp, fun i hi => ?_, fun i hi => ?_⟩
    · simp [Graph.nodeIds, hi]
    · simp [Graph.portIds, hi]
  · refine countP_bindings A.ascending_nodeIds (nodeLabel_eq A) fun a ha c hc => ?_
    rw [Option.isSome_map, Graph.node?_isSome]
    exact Graph.mem_nodeIds.1 (himage a ha c hc)
  · refine countP_bindings A.ascending_portIds (portLabel_eq A) fun p hp q hq => ?_
    rw [Option.isSome_map, Graph.port?_isSome]
    exact Graph.mem_portIds.1 (himage p hp q hq)

/-- Two nodes, of which the second has a port. -/
def twoNodes : Graph :=
  (Graph.empty "two").replay [.addNode "x", .addNode "y", .addPort ⟨1⟩ "r" ⟨"wire"⟩]

/-- A node and a port that the first graph does not have are mapped too and do not show.  The second
port is shown without its image, which the second graph does not have. -/
theorem snapshot_shows_mapping_foreign :
    let s := (unassigned nodeOfTwo).replay nodeOfTwo
      (mixedChanges ++ [.assignNode ⟨0⟩ ⟨1⟩, .assignPort ⟨0⟩ ⟨0⟩])
    Reached (unassigned nodeOfTwo) s ∧ s.node? ⟨2⟩ = some ⟨2⟩ ∧ s.port? ⟨1⟩ = some ⟨3⟩ ∧
      (s.snapshot nodeOfTwo twoNodes).ports.length = 2 ∧
      (s.snapshot nodeOfTwo twoNodes).nodes[0]? = some ⟨"a", some "y"⟩ ∧
      (s.snapshot nodeOfTwo twoNodes).ports[1]? = some ⟨"q", none⟩ ∧
      (∀ a ∈ nodeOfTwo.nodeIds, ∀ c, s.node? a = some c → c ∈ twoNodes.nodeIds) ∧
      s.assignedNodes = 2 ∧
      ((s.snapshot nodeOfTwo twoNodes).nodes.countP fun b => b.image.isSome) = 1 := by
  intro s
  have hs : Reached (unassigned nodeOfTwo) s := reached_replay _ _ _
  have hnode : s.node? ⟨0⟩ = some ⟨1⟩ := by decide +kernel
  have himage : ∀ a ∈ nodeOfTwo.nodeIds, ∀ c, s.node? a = some c → c ∈ twoNodes.nodeIds := by
    intro a ha c hc
    obtain rfl : a = ⟨0⟩ := List.mem_singleton.1 ha
    obtain rfl : ⟨1⟩ = c := Option.some.inj (hnode.symm.trans hc)
    decide
  obtain ⟨-, -, -, hshown, hcount, -⟩ := snapshot_shows_mapping s nodeOfTwo twoNodes
  obtain ⟨-, hlength, hnodes, hports⟩ := hshown hs
  refine ⟨hs, by decide +kernel, by decide +kernel, hlength, ?_, ?_, himage, by decide +kernel, ?_⟩
  · exact (hnodes 0 (by decide)).trans (by decide +kernel)
  · exact (hports 1 (by decide)).trans (by decide +kernel)
  · exact (hcount himage).trans (by decide +kernel)

end Assignment

end PortMatch
