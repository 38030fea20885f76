import Mathlib
import PortMatch.Proofs.Graph.WellFormed
import PortMatch.Search.Problem

/-!
# Checked operations

The functions of a search give a value for all arguments: a description that is missing reads as the
empty text, a port without a kind is not counted, a mark that is set outside of an array is dropped,
and numbers grow without bounds.  To see that none of this ever comes into play, the search is run a
second time with *checked* operations, which give nothing in these cases, and the two runs are
compared.

These are the checked operations on numbers, arrays and graphs.  On a graph whose stores agree, and
which is small enough for its ids to be numbered with 32 bits, they all give what the unchecked ones
do.

* `fits?`, `setAt?` — a number that has to fit a machine word; an entry that has to be there;
* `Graph.nodeDesc?`, `Graph.portDesc?`, `Graph.allNodes?` — descriptions and ids;
* `Tally`, `Graph.tally?` — the ports of a node, counted kind by kind;
* `Graph.Numbered` — the graphs that are small enough;
* `Tally.Counts`, `Graph.WellFormed.exists_tally?` — what a tally says.
-/

namespace PortMatch

/-! ## Numbers and arrays -/

/-- A number, if it fits a machine word that has the given number of values. -/
def fits? (size n : ℕ) : Option ℕ := if n < size then some n else none

theorem fits?_eq {size n : ℕ} (h : n < size) : fits? size n = some n := if_pos h

/-- The array with another mark at a position, if it has this position. -/
def setAt? (marks : Array Bool) (i : ℕ) (mark : Bool) : Option (Array Bool) :=
  if i < marks.size then some (marks.setIfInBounds i mark) else none

theorem setAt?_eq {marks : Array Bool} {i : ℕ} (h : i < marks.size) (mark : Bool) :
    setAt? marks i mark = some (marks.setIfInBounds i mark) := if_pos h

/-- A function that gives something for every element of a list can be mapped over the list. -/
theorem mapM_eq_some {α β : Type} {f : α → Option β} {g : α → β} {l : List α}
    (h : ∀ a ∈ l, f a = some (g a)) : l.mapM f = some (l.map g) := by
  induction l with
  | nil => rfl
  | cons a rest ih =>
    obtain ⟨ha, hrest⟩ := List.forall_mem_cons.1 h
    rw [List.mapM_cons, ha, ih hrest]
    rfl

/-- So can a search for the first element that has a value. -/
theorem findSomeM?_eq_some {α β : Type} {f : α → Option (Option β)} {g : α → Option β}
    {l : List α} (h : ∀ a ∈ l, f a = some (g a)) : l.findSomeM? f = some (l.findSome? g) := by
  induction l with
  | nil => rfl
  | cons a rest ih =>
    obtain ⟨ha, hrest⟩ := List.forall_mem_cons.1 h
    rw [List.findSomeM?_cons, ha, List.findSome?_cons, ih hrest]
    cases g a <;> rfl

/-! ## Tallies -/

/-- Kinds of ports with their numbers. -/
abbrev Tally : Type := Std.ExtTreeMap PortKind ℕ

namespace Tally

/-- One more port of the kind `k`, if its number still fits a word. -/
def add? (t : Tally) (k : PortKind) : Option Tally :=
  (fits? UInt32.size (t.getD k 0 + 1)).map (t.insert k)

/-- Are there at least as many ports of every kind in `offered` as there are in `needed`? -/
def covers (needed offered : Tally) : Bool :=
  needed.toList.all fun entry => entry.2 ≤ offered.getD entry.1 0

/-- The tally has the given kinds, each as often as it is listed, and no others. -/
def Counts (t : Tally) (ks : List PortKind) : Prop :=
  ∀ k, t[k]? = if k ∈ ks then some (ks.count k) else none

variable {t : Tally} {ks : List PortKind}

theorem counts_empty : (∅ : Tally).Counts [] := by
  intro k
  simp

theorem Counts.getElem? (h : t.Counts ks) {k : PortKind} (hk : k ∈ ks) :
    t[k]? = some (ks.count k) := by
  rw [h k, if_pos hk]

theorem Counts.getD (h : t.Counts ks) (k : PortKind) : t.getD k 0 = ks.count k := by
  rw [Std.ExtTreeMap.getD_eq_getD_getElem?, h k]
  by_cases hk : k ∈ ks
  · simp [hk]
  · simp [hk, List.count_eq_zero_of_not_mem hk]

theorem Counts.insert (h : t.Counts ks) (k : PortKind) :
    Counts (t.insert k (t.getD k 0 + 1)) (ks ++ [k]) := by
  intro k'
  rw [Std.ExtTreeMap.getElem?_insert, h.getD, h k']
  simp only [Std.LawfulEqCmp.compare_eq_iff_eq]
  by_cases hk : k = k'
  · subst hk
    simp
  · simp [hk, Ne.symm hk, List.count_append]

theorem Counts.add? (h : t.Counts ks) (hsmall : ks.length + 1 < UInt32.size) (k : PortKind) :
    ∃ t', t.add? k = some t' ∧ t'.Counts (ks ++ [k]) := by
  have hcount : t.getD k 0 ≤ ks.length := h.getD k ▸ List.count_le_length
  refine ⟨_, ?_, h.insert k⟩
  rw [Tally.add?, fits?_eq (by omega)]
  rfl

/-- Tallies are compared kind by kind, so they can stand for the kinds that they count. -/
theorem Counts.covers_iff {t' : Tally} {ks' : List PortKind} (h : t.Counts ks)
    (h' : t'.Counts ks') : t.covers t' = true ↔ ∀ k ∈ ks, ks.count k ≤ ks'.count k := by
  simp only [covers, List.all_eq_true, decide_eq_true_eq, h'.getD]
  refine ⟨fun hall k hk => ?_, ?_⟩
  · exact hall (k, _) (Std.ExtTreeMap.mem_toList_iff_getElem?_eq_some.2 (h.getElem? hk))
  · rintro hall ⟨k, m⟩ hmem
    have hentry := Std.ExtTreeMap.mem_toList_iff_getElem?_eq_some.1 hmem
    rw [h k] at hentry
    split at hentry
    · next hk =>
      cases hentry
      exact hall k hk
    · cases hentry

end Tally

/-! ## Graphs -/

namespace Graph

/-- The description of a node. -/
def nodeDesc? (g : Graph) (n : NodeId) : Option String := (g.node? n).map Node.desc

/-- The description of a port. -/
def portDesc? (g : Graph) (p : PortId) : Option String := (g.port? p).map Port.desc

/-- The ids of all nodes, if they can be numbered with 32 bits. -/
def allNodes? (g : Graph) : Option (List NodeId) :=
  (List.range g.nodeCount).mapM fun i => (fits? UInt32.size i).map NodeId.mk

/-- The kinds of the ports of a node, counted. -/
def tally? (g : Graph) (n : NodeId) : Option Tally :=
  (g.portsOf n).toList.foldlM (fun t p => (g.kind? p).bind t.add?) ∅

/-- The nodes and the ports of a graph can be numbered with 32 bits. -/
structure Numbered (g : Graph) : Prop where
  /-- There are not too many nodes. -/
  nodes : g.nodeCount < UInt32.size
  /-- There are not too many ports. -/
  ports : g.portCount < UInt32.size

variable {g : Graph} {n : NodeId} {p : PortId}

theorem nodeDesc?_eq (h : n ∈ g.nodeIds) : g.nodeDesc? n = some (g.nodeDesc n) := by
  have hlt : n.index < g.nodes.size := mem_nodeIds.1 h
  simp [nodeDesc?, nodeDesc, node?, hlt]

theorem portDesc?_eq (h : p ∈ g.portIds) : g.portDesc? p = some (g.portDesc p) := by
  have hlt : p.index < g.ports.size := mem_portIds.1 h
  simp [portDesc?, portDesc, port?, hlt]

theorem Numbered.allNodes?_eq (h : g.Numbered) : g.allNodes? = some g.nodeIds := by
  refine mapM_eq_some fun i hi => ?_
  rw [fits?_eq ((List.mem_range.1 hi).trans h.nodes)]
  rfl

theorem exists_foldlM_add? {ps : List PortId} (hkinds : ∀ p ∈ ps, (g.kind? p).isSome) {t : Tally}
    {ks : List PortKind} (h : t.Counts ks) (hsmall : ks.length + ps.length < UInt32.size) :
    ∃ t', ps.foldlM (fun t p => (g.kind? p).bind t.add?) t = some t' ∧
      t'.Counts (ks ++ ps.filterMap g.kind?) := by
  induction ps generalizing t ks with
  | nil => exact ⟨t, rfl, by simpa using h⟩
  | cons p rest ih =>
    obtain ⟨hp, hrest⟩ := List.forall_mem_cons.1 hkinds
    obtain ⟨k, hk⟩ := Option.isSome_iff_exists.1 hp
    rw [List.length_cons] at hsmall
    obtain ⟨t', hadd, h'⟩ := h.add? (by omega) k
    obtain ⟨t'', hfold, h''⟩ := ih hrest h' (by simp; omega)
    refine ⟨t'', ?_, ?_⟩
    · rw [List.foldlM_cons, hk]
      exact (congrArg (· >>= _) hadd).trans hfold
    · rw [List.filterMap_cons_some hk]
      simpa using h''

/-- The ports of a node can be counted. -/
theorem WellFormed.exists_tally? (hg : g.WellFormed) (hsmall : g.Numbered) (n : NodeId) :
    ∃ t, g.tally? n = some t ∧ t.Counts (g.kindsOf n) := by
  refine exists_foldlM_add? (fun p hp => ?_) Tally.counts_empty ?_
  · obtain ⟨k, hk⟩ := hg.exists_kind (Array.mem_toList_iff.1 hp)
    rw [hk]
    rfl
  · rw [List.length_nil, Nat.zero_add, Array.length_toList]
    exact Nat.lt_of_le_of_lt (hg.size_portsOf_le n) hsmall.ports

end Graph

end PortMatch
