import Mathlib
import PortMatch.Proofs.Checked.Basic
import PortMatch.Proofs.Placement.Hosts

/-!
# Checked preparations

What comes before a search, with checked operations.  The ports of every node of the target are
counted once, and those of each node of the pattern are compared with them; the hosts that are found
go into a table, from which the agenda is made up.  Where a node has no hosts, its diagnosis looks
kinds up in the tally of the node.

* `Problem.supply?`, `Problem.checkedHosts?` — the tallies, and the table of hosts;
* `Problem.checkedDiagnose`, `Problem.checkedAgenda` — what is done with them;
* `Problem.checkedPreflight` — an obstacle, or the table of hosts;
* `Problem.checkedPreflight_of_obstacle`, `Problem.exists_checkedPreflight_of_free` — the checks do
  not fail, and the outcome is that of the unchecked operations.
-/

namespace PortMatch

/-- Nodes of a target, each with a tally of its ports. -/
abbrev Supply : Type := List (NodeId × Tally)

/-- The hosts of nodes, in a table. -/
abbrev HostTable : Type := Std.ExtTreeMap NodeId (List NodeId)

/-! ## Checked operations -/

/-- The nodes that offer what is needed. -/
def Supply.hosts (supply : Supply) (needed : Tally) : List NodeId :=
  (supply.filter fun entry => needed.covers entry.2).map Prod.fst

/-- The largest number of ports of the kind `k` of any node. -/
def Supply.most (supply : Supply) (k : PortKind) : ℕ :=
  (supply.map fun entry => entry.2.getD k 0).max?.getD 0

namespace Problem

/-- The tallies of the nodes of the target. -/
def supply? (P : Problem) : Option Supply := do
  let nodes ← P.target.allNodes?
  nodes.mapM fun c => (P.target.tally? c).map fun t => (c, t)

/-- The first of the given ports of a node whose kind is scarce, as an obstacle. -/
def checkedScarce (P : Problem) (needed : Tally) (supply : Supply) :
    List PortId → Option (Option Obstacle)
  | [] => some none
  | p :: rest => do
    let k ← P.pattern.kind? p
    let count ← needed[k]?
    if supply.most k < count then
      let desc ← P.pattern.portDesc? p
      return some (.incompatiblePortKind desc k.name)
    else checkedScarce P needed supply rest

/-- Why no node of the target can host the node `n`, checked. -/
def checkedDiagnose (P : Problem) (n : NodeId) (needed : Tally) (supply : Supply) :
    Option Obstacle :=
  let ports := P.pattern.portsOf n
  if P.mostPorts < ports.size then
    (P.pattern.nodeDesc? n).map fun desc => .insufficientPorts desc ports.size P.mostPorts
  else do
    match ← P.checkedScarce needed supply ports.toList with
    | some o => return o
    | none => (P.pattern.nodeDesc? n).map .noCompatibleNode

/-- The table with the hosts of the given nodes added, or why the first node without hosts has
none. -/
def checkedHosts? (P : Problem) (supply : Supply) :
    List NodeId → HostTable → Option (Except Obstacle HostTable)
  | [], table => some (.ok table)
  | n :: rest, table => do
    let needed ← P.pattern.tally? n
    if (supply.hosts needed).isEmpty then (P.checkedDiagnose n needed supply).map .error
    else checkedHosts? P supply rest (table.insert n (supply.hosts needed))

/-- What makes a search pointless, or the hosts of all nodes of the pattern. -/
def checkedPreflight (P : Problem) : Option (Except Obstacle HostTable) :=
  if P.target.nodeCount < P.pattern.nodeCount then
    some (.error (.tooFewNodes P.pattern.nodeCount P.target.nodeCount))
  else do
    let supply ← P.supply?
    let nodes ← P.pattern.allNodes?
    P.checkedHosts? supply nodes ∅

/-- The goals in the order in which the search takes them on, looked up in a table. -/
def checkedAgenda (P : Problem) (table : HostTable) : Option (List Goal) := do
  let nodes ← P.pattern.allNodes?
  let goals ← nodes.mapM fun n => table[n]?.map (Goal.mk n)
  return sorted goals

/-! ## The supply -/

variable {P : Problem} {supply : Supply} {n : NodeId} {needed : Tally}

/-- The supply lists the nodes of the target with their tallies. -/
structure Supplies (P : Problem) (supply : Supply) : Prop where
  /-- The nodes are those of the target, in order. -/
  nodes : supply.map Prod.fst = P.target.nodeIds
  /-- Each has its own tally. -/
  counts : ∀ entry ∈ supply, entry.2.Counts (P.target.kindsOf entry.1)

theorem exists_supply? (hT : P.target.WellFormed) (hsmall : P.target.Numbered) :
    ∃ supply, P.supply? = some supply ∧ P.Supplies supply := by
  choose tally htally hcounts using hT.exists_tally? hsmall
  refine ⟨P.target.nodeIds.map fun c => (c, tally c), ?_, ?_, ?_⟩
  · rw [supply?, hsmall.allNodes?_eq]
    exact mapM_eq_some fun c _ => by rw [htally]; rfl
  · rw [List.map_map]
    exact List.map_id _
  · intro entry hentry
    obtain ⟨c, -, rfl⟩ := List.mem_map.1 hentry
    exact hcounts c

namespace Supplies

theorem hosts_eq (h : P.Supplies supply) (hneeded : needed.Counts (P.pattern.kindsOf n)) :
    supply.hosts needed = P.hostsOf n := by
  rw [Supply.hosts, hostsOf, ← h.nodes, List.filter_map]
  congr 1
  apply List.filter_congr
  intro entry hentry
  rw [Bool.eq_iff_iff, hneeded.covers_iff (h.counts entry hentry)]
  simp [supports]

theorem most_eq (h : P.Supplies supply) (k : PortKind) : supply.most k = P.mostOfKind k := by
  have hcounts : supply.map (fun entry => entry.2.getD k 0)
      = supply.map (fun entry => (P.target.kindsOf entry.1).count k) :=
    List.map_congr_left fun entry hentry => (h.counts entry hentry).getD k
  rw [Supply.most, mostOfKind, ← h.nodes, List.map_map, hcounts]
  rfl

/-! ## Diagnoses -/

theorem checkedScarce_eq (h : P.Supplies supply) (hP : P.pattern.WellFormed)
    (hneeded : needed.Counts (P.pattern.kindsOf n)) {ports : List PortId}
    (hports : ∀ p ∈ ports, p ∈ P.pattern.portsOf n) :
    P.checkedScarce needed supply ports
      = some ((ports.findSome? fun p => (P.scarceKind? n p).map fun k => (p, k)).map
        fun (p, k) => .incompatiblePortKind (P.pattern.portDesc p) k.name) := by
  induction ports with
  | nil => rfl
  | cons p rest ih =>
    obtain ⟨hp, hrest⟩ := List.forall_mem_cons.1 hports
    obtain ⟨k, hk⟩ := hP.exists_kind hp
    have hmem : k ∈ P.pattern.kindsOf n := List.mem_filterMap.2 ⟨p, Array.mem_toList_iff.2 hp, hk⟩
    have hscarce : P.scarceKind? n p
        = if P.mostOfKind k < (P.pattern.kindsOf n).count k then some k else none := by
      simp [scarceKind?, hk, Option.filter]
    simp only [checkedScarce, hk, hneeded.getElem? hmem, Option.bind_eq_bind, Option.bind_some,
      h.most_eq, ih hrest, Graph.portDesc?_eq (hP.mem_portIds hp), List.findSome?_cons, hscarce]
    split <;> rfl

theorem checkedDiagnose_eq (h : P.Supplies supply) (hP : P.pattern.WellFormed)
    (hn : n ∈ P.pattern.nodeIds) (hneeded : needed.Counts (P.pattern.kindsOf n)) :
    P.checkedDiagnose n needed supply = some (P.diagnose n) := by
  rw [checkedDiagnose, diagnose, Graph.nodeDesc?_eq hn,
    h.checkedScarce_eq hP hneeded fun p hp => Array.mem_toList_iff.1 hp]
  split
  · rfl
  · cases ((P.pattern.portsOf n).toList.findSome? fun p =>
      (P.scarceKind? n p).map fun k => (p, k)) <;> rfl

/-! ## The table of hosts -/

/-- The first node without hosts ends the work on the table. -/
theorem checkedHosts?_of_find?_some (h : P.Supplies supply) (hP : P.pattern.WellFormed)
    (hsmall : P.pattern.Numbered) {nodes : List NodeId} (hnodes : nodes ⊆ P.pattern.nodeIds)
    (hfind : (nodes.find? fun n => (P.hostsOf n).isEmpty) = some n) (table : HostTable) :
    P.checkedHosts? supply nodes table = some (.error (P.diagnose n)) := by
  induction nodes generalizing table with
  | nil => cases hfind
  | cons m rest ih =>
    obtain ⟨hm, hrest⟩ := List.cons_subset.1 hnodes
    obtain ⟨needed, htally, hneeded⟩ := hP.exists_tally? hsmall m
    rw [checkedHosts?, htally, Option.bind_eq_bind, Option.bind_some, h.hosts_eq hneeded]
    cases hempty : (P.hostsOf m).isEmpty with
    | true =>
      obtain rfl : m = n := by simpa [hempty] using hfind
      rw [if_pos rfl, h.checkedDiagnose_eq hP hm hneeded]
      rfl
    | false =>
      rw [if_neg Bool.false_ne_true]
      exact ih hrest (by simpa [hempty] using hfind) _

/-- If every node has hosts, they all get into the table. -/
theorem exists_checkedHosts? (h : P.Supplies supply) (hP : P.pattern.WellFormed)
    (hsmall : P.pattern.Numbered) {nodes : List NodeId} (hhosts : ∀ n ∈ nodes, P.hostsOf n ≠ [])
    (table : HostTable) :
    ∃ table', P.checkedHosts? supply nodes table = some (.ok table') ∧
      ∀ n, table'[n]? = if n ∈ nodes then some (P.hostsOf n) else table[n]? := by
  induction nodes generalizing table with
  | nil => exact ⟨table, rfl, by simp⟩
  | cons m rest ih =>
    obtain ⟨hm, hrest⟩ := List.forall_mem_cons.1 hhosts
    obtain ⟨needed, htally, hneeded⟩ := hP.exists_tally? hsmall m
    obtain ⟨table', htable, hentries⟩ := ih hrest (table.insert m (P.hostsOf m))
    refine ⟨table', ?_, fun n => ?_⟩
    · rw [checkedHosts?, htally, Option.bind_eq_bind, Option.bind_some, h.hosts_eq hneeded,
        if_neg (by simpa using hm), htable]
    · rw [hentries, Std.ExtTreeMap.getElem?_insert]
      simp only [Std.LawfulEqCmp.compare_eq_iff_eq, List.mem_cons]
      grind

end Supplies

/-! ## Before the search -/

section Small

variable (hP : P.pattern.WellFormed) (hT : P.target.WellFormed) (hsmallP : P.pattern.Numbered)
  (hsmallT : P.target.Numbered)

include hP hT hsmallP hsmallT

theorem checkedPreflight_of_obstacle {o : Obstacle} (ho : P.obstacle? = some o) :
    P.checkedPreflight = some (.error o) := by
  unfold obstacle? at ho
  unfold checkedPreflight
  split at ho
  · next hlt =>
    cases ho
    rw [if_pos hlt]
  · next hle =>
    rw [goals, List.find?_map, Option.map_map] at ho
    obtain ⟨n, hfind, rfl⟩ := Option.map_eq_some_iff.1 ho
    obtain ⟨supply, hsupply, h⟩ := exists_supply? hT hsmallT
    rw [if_neg hle, hsupply, hsmallP.allNodes?_eq]
    exact h.checkedHosts?_of_find?_some hP hsmallP (List.Subset.refl _) hfind ∅

theorem exists_checkedPreflight_of_free (hfree : P.obstacle? = none) :
    ∃ table, P.checkedPreflight = some (.ok table) ∧
      ∀ n ∈ P.pattern.nodeIds, table[n]? = some (P.hostsOf n) := by
  unfold obstacle? at hfree
  unfold checkedPreflight
  split at hfree
  · cases hfree
  · next hle =>
    have hhosts : ∀ n ∈ P.pattern.nodeIds, P.hostsOf n ≠ [] := by simpa [goals] using hfree
    obtain ⟨supply, hsupply, h⟩ := exists_supply? hT hsmallT
    obtain ⟨table, htable, hentries⟩ := h.exists_checkedHosts? hP hsmallP hhosts ∅
    refine ⟨table, ?_, fun n hn => by rw [hentries, if_pos hn]⟩
    rw [if_neg hle, hsupply, hsmallP.allNodes?_eq]
    exact htable

end Small

theorem checkedAgenda_eq (hsmall : P.pattern.Numbered) {table : HostTable}
    (htable : ∀ n ∈ P.pattern.nodeIds, table[n]? = some (P.hostsOf n)) :
    P.checkedAgenda table = some P.agenda := by
  have hgoals : P.pattern.nodeIds.mapM (fun n => table[n]?.map (Goal.mk n)) = some P.goals :=
    mapM_eq_some fun n hn => by rw [htable n hn]; rfl
  rw [checkedAgenda, hsmall.allNodes?_eq, Option.bind_eq_bind, Option.bind_some, hgoals]
  rfl

end Problem

end PortMatch
