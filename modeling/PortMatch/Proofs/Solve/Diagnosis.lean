import Mathlib
import PortMatch.Proofs.Solve.Preflight

/-!
# The diagnosis of a node without hosts

A node of the pattern that has no host settles the problem, and the report tells why, as far as one
reason can tell it.  The node may have more ports than any node of the target; or else more ports of
one kind than any of them; or else, although each kind of port that it needs is there in sufficient
number, it is not all on one node.  The first of these reasons that applies is given, for the first
node that has no host.

* `Problem.Covers`, `Problem.Outgrows`, `Problem.Scarce` — what is compared, without aggregates;
* `Problem.Diagnosis` — the reason for a node, by the rule of the first that applies;
* `Problem.diagnosis_iff` — it is the one that `Problem.diagnose` computes;
* `Problem.scattered_of_not_covers` — what the last of the reasons says about the target;
* `Problem.solve_diagnoses` — the report on a problem with a node that has no host.
-/

namespace PortMatch

/-- The largest number that is given to an element of a list is computed with zero as a default,
which does not matter unless the list is empty. -/
theorem isGreatest_max_map {α : Type} {l : List α} (hne : l ≠ []) (f : α → ℕ) :
    IsGreatest {m | ∃ a ∈ l, f a = m} ((l.map f).max?.getD 0) := by
  have hmap : l.map f ≠ [] := mt List.map_eq_nil_iff.1 hne
  obtain ⟨m, hm⟩ := Option.isSome_iff_exists.1 (List.isSome_max?_iff.2 hmap)
  have hgreatest : IsGreatest {m | m ∈ l.map f} m := List.max?_eq_some_iff.1 hm
  simp only [List.mem_map] at hgreatest
  rwa [hm]

/-! ## An example -/

/-- A node that is easy to place, one with ports of two kinds, and one with many ports. -/
def easyMixedLarge : List Call :=
  [.addNode "easy", .addPort ⟨0⟩ "e" ⟨"wire"⟩,
    .addNode "mixed", .addPort ⟨1⟩ "p" ⟨"wire"⟩, .addPort ⟨1⟩ "q" ⟨"pipe"⟩,
    .addNode "large", .addPort ⟨2⟩ "r" ⟨"wire"⟩, .addPort ⟨2⟩ "s" ⟨"wire"⟩,
    .addPort ⟨2⟩ "t" ⟨"wire"⟩]

/-- To find these nodes among nodes with ports of one kind, and a node without ports. -/
def severalAmongPlain : Problem where
  pattern := (Graph.empty "several").replay easyMixedLarge
  target := (Graph.empty "plain").replay (twoOfAKind ++ [.addNode "bare"])

namespace Problem

variable {P : Problem} {n c : NodeId}

/-! ## Comparing ports -/

/-- The node `c` of the target has at least as many ports of every kind as the node `n` of the
pattern. -/
def Covers (P : Problem) (n c : NodeId) : Prop :=
  ∀ k, (P.pattern.kindsOf n).count k ≤ (P.target.kindsOf c).count k

/-- Every node of the target has fewer ports than the node `n` of the pattern. -/
def Outgrows (P : Problem) (n : NodeId) : Prop :=
  ∀ c ∈ P.target.nodeIds, (P.target.portsOf c).size < (P.pattern.portsOf n).size

/-- Every node of the target has fewer ports of the kind `k` than the node `n` of the pattern. -/
def Scarce (P : Problem) (n : NodeId) (k : PortKind) : Prop :=
  ∀ c ∈ P.target.nodeIds, (P.target.kindsOf c).count k < (P.pattern.kindsOf n).count k

theorem covers_iff : P.Covers n c ↔ P.supports n c = true := by
  simp only [Covers, supports, List.all_eq_true, decide_eq_true_eq]
  refine ⟨fun h k _ => h k, fun h k => ?_⟩
  by_cases hk : k ∈ P.pattern.kindsOf n
  · exact h k hk
  · rw [List.count_eq_zero_of_not_mem hk]
    exact Nat.zero_le _

/-- A node that no node of the target covers is one without hosts. -/
theorem hostsOf_eq_nil_iff :
    P.hostsOf n = [] ↔ ∀ c ∈ P.target.nodeIds, ¬ P.Covers n c := by
  simp [hostsOf, List.filter_eq_nil_iff, covers_iff]

section Aggregates

variable (hnodes : P.target.nodeIds ≠ [])

include hnodes

theorem isGreatest_mostPorts :
    IsGreatest {m | ∃ c ∈ P.target.nodeIds, (P.target.portsOf c).size = m} P.mostPorts :=
  isGreatest_max_map hnodes _

theorem mostPorts_lt_iff : P.mostPorts < (P.pattern.portsOf n).size ↔ P.Outgrows n := by
  rw [(isGreatest_mostPorts hnodes).lt_iff]
  simp [Outgrows]

theorem mostOfKind_lt_iff {k : PortKind} :
    P.mostOfKind k < (P.pattern.kindsOf n).count k ↔ P.Scarce n k := by
  rw [mostOfKind, (isGreatest_max_map hnodes _).lt_iff]
  simp [Scarce]

end Aggregates

/-! ## The rule -/

/-- The reason why no node of the target can host the node `n`, which is the first one that
applies. -/
inductive Diagnosis (P : Problem) (n : NodeId) : Obstacle → Prop where
  /-- Every node of the target has fewer ports. -/
  | ports {available : ℕ} (hmore : P.Outgrows n)
    (hmost : IsGreatest {m | ∃ c ∈ P.target.nodeIds, (P.target.portsOf c).size = m} available) :
    Diagnosis P n
      (.insufficientPorts (P.pattern.nodeDesc n) (P.pattern.portsOf n).size available)
  /-- Every node of the target has fewer ports of one kind.  The first port of such a kind is
  named. -/
  | kind {before after : List PortId} {p : PortId} {k : PortKind} (hless : ¬ P.Outgrows n)
    (hports : (P.pattern.portsOf n).toList = before ++ p :: after)
    (hkind : P.pattern.kind? p = some k) (hscarce : P.Scarce n k)
    (hbefore : ∀ q ∈ before, ∀ k', P.pattern.kind? q = some k' → ¬ P.Scarce n k') :
    Diagnosis P n (.incompatiblePortKind (P.pattern.portDesc p) k.name)
  /-- Neither is so. -/
  | together (hless : ¬ P.Outgrows n)
    (hkinds : ∀ p ∈ P.pattern.portsOf n, ∀ k, P.pattern.kind? p = some k → ¬ P.Scarce n k) :
    Diagnosis P n (.noCompatibleNode (P.pattern.nodeDesc n))

/-- What the node `n` needs is there, but not all on one node. -/
structure Scattered (P : Problem) (n : NodeId) : Prop where
  /-- For every kind of its ports there is a node with enough of them. -/
  each : ∀ k ∈ P.pattern.kindsOf n, ∃ c ∈ P.target.nodeIds,
    (P.pattern.kindsOf n).count k ≤ (P.target.kindsOf c).count k
  /-- No node has enough of all. -/
  none : ∀ c ∈ P.target.nodeIds, ∃ k ∈ P.pattern.kindsOf n,
    (P.target.kindsOf c).count k < (P.pattern.kindsOf n).count k
  /-- Its ports are of two kinds at least. -/
  kinds : ∃ p ∈ P.pattern.portsOf n, ∃ q ∈ P.pattern.portsOf n,
    P.pattern.kind? p ≠ P.pattern.kind? q
  /-- The target has two nodes at least. -/
  nodes : 2 ≤ P.target.nodeCount

theorem scarceKind?_eq_some_iff (hnodes : P.target.nodeIds ≠ []) {p : PortId} {k : PortKind} :
    P.scarceKind? n p = some k ↔ P.pattern.kind? p = some k ∧ P.Scarce n k := by
  rw [scarceKind?, Option.filter_eq_some_iff, decide_eq_true_eq, mostOfKind_lt_iff hnodes]

theorem scarceKind?_eq_none_iff (hnodes : P.target.nodeIds ≠ []) {p : PortId} :
    P.scarceKind? n p = none ↔ ∀ k, P.pattern.kind? p = some k → ¬ P.Scarce n k := by
  rw [scarceKind?, Option.filter_eq_none_iff]
  simp only [decide_eq_true_eq, mostOfKind_lt_iff hnodes]

/-- The reason is the one that the rule gives. -/
theorem diagnosis_diagnose (hnodes : P.target.nodeIds ≠ []) (n : NodeId) :
    P.Diagnosis n (P.diagnose n) := by
  simp only [diagnose]
  split
  · next hlt => exact .ports ((mostPorts_lt_iff hnodes).1 hlt) (isGreatest_mostPorts hnodes)
  · next hle =>
    have hless : ¬ P.Outgrows n := mt (mostPorts_lt_iff hnodes).2 hle
    split
    · next p k hfind =>
      obtain ⟨before, q, after, hports, hq, hbefore⟩ := List.findSome?_eq_some_iff.1 hfind
      obtain ⟨k', hk', hsame⟩ := Option.map_eq_some_iff.1 hq
      obtain ⟨rfl, rfl⟩ := Prod.mk.inj hsame
      obtain ⟨hkind, hscarce⟩ := (scarceKind?_eq_some_iff hnodes).1 hk'
      refine .kind hless hports hkind hscarce fun q hq => ?_
      exact (scarceKind?_eq_none_iff hnodes).1 (Option.map_eq_none_iff.1 (hbefore q hq))
    · next hfind =>
      rw [List.findSome?_eq_none_iff] at hfind
      refine .together hless fun p hp => (scarceKind?_eq_none_iff hnodes).1 ?_
      exact Option.map_eq_none_iff.1 (hfind p (Array.mem_toList_iff.2 hp))

/-- The rule gives no other reason. -/
theorem diagnosis_iff (hnodes : P.target.nodeIds ≠ []) {o : Obstacle} :
    P.Diagnosis n o ↔ o = P.diagnose n := by
  refine ⟨fun h => ?_, ?_⟩
  · cases h with
    | ports hmore hmost =>
      rw [diagnose, if_pos ((mostPorts_lt_iff hnodes).2 hmore),
        hmost.unique (isGreatest_mostPorts hnodes)]
    | @kind before after p k hless hports hkind hscarce hbefore =>
      have hfind : ((P.pattern.portsOf n).toList.findSome? fun p =>
          (P.scarceKind? n p).map fun k => (p, k)) = some (p, k) := by
        refine List.findSome?_eq_some_iff.2 ⟨before, p, after, hports, ?_, fun q hq => ?_⟩
        · rw [(scarceKind?_eq_some_iff hnodes).2 ⟨hkind, hscarce⟩]
          rfl
        · rw [(scarceKind?_eq_none_iff hnodes).2 (hbefore q hq)]
          rfl
      rw [diagnose, if_neg (mt (mostPorts_lt_iff hnodes).1 hless), hfind]
    | together hless hkinds =>
      have hfind : ((P.pattern.portsOf n).toList.findSome? fun p =>
          (P.scarceKind? n p).map fun k => (p, k)) = none := by
        refine List.findSome?_eq_none_iff.2 fun p hp => ?_
        rw [(scarceKind?_eq_none_iff hnodes).2 (hkinds p (Array.mem_toList_iff.1 hp))]
        rfl
      rw [diagnose, if_neg (mt (mostPorts_lt_iff hnodes).1 hless), hfind]
  · rintro rfl
    exact diagnosis_diagnose hnodes n

/-! ## What the last reason says -/

theorem mem_kindsOf {g : Graph} {n : NodeId} {k : PortKind} :
    k ∈ g.kindsOf n ↔ ∃ p ∈ g.portsOf n, g.kind? p = some k := by
  simp [Graph.kindsOf, List.mem_filterMap]

/-- A node that falls short of another one has too few ports of a kind that the other one has. -/
theorem exists_lt_count_of_not_covers (h : ¬ P.Covers n c) :
    ∃ k ∈ P.pattern.kindsOf n,
      (P.target.kindsOf c).count k < (P.pattern.kindsOf n).count k := by
  rw [covers_iff] at h
  simpa [supports] using h

/-- Where each kind by itself is no obstacle, a node without hosts needs two kinds at least, and
there is more than one node that it could be on. -/
theorem scattered_of_not_covers (hnodes : P.target.nodeIds ≠ [])
    (hnone : ∀ c ∈ P.target.nodeIds, ¬ P.Covers n c)
    (hkinds : ∀ p ∈ P.pattern.portsOf n, ∀ k, P.pattern.kind? p = some k → ¬ P.Scarce n k) :
    P.Scattered n := by
  have heach : ∀ k ∈ P.pattern.kindsOf n, ∃ c ∈ P.target.nodeIds,
      (P.pattern.kindsOf n).count k ≤ (P.target.kindsOf c).count k := by
    intro k hk
    obtain ⟨p, hp, hpk⟩ := mem_kindsOf.1 hk
    simpa [Scarce] using hkinds p hp k hpk
  have hshort : ∀ c ∈ P.target.nodeIds, ∃ k ∈ P.pattern.kindsOf n,
      (P.target.kindsOf c).count k < (P.pattern.kindsOf n).count k :=
    fun c hc => exists_lt_count_of_not_covers (hnone c hc)
  -- the kind that some node lacks is there on another node, which lacks another kind
  obtain ⟨c, hc⟩ := List.exists_mem_of_ne_nil _ hnodes
  obtain ⟨k, hk, hlack⟩ := hshort c hc
  obtain ⟨d, hd, henough⟩ := heach k hk
  obtain ⟨k', hk', hlack'⟩ := hshort d hd
  constructor
  case each => exact heach
  case none => exact hshort
  case kinds =>
    obtain ⟨p, hp, hpk⟩ := mem_kindsOf.1 hk
    obtain ⟨q, hq, hqk⟩ := mem_kindsOf.1 hk'
    refine ⟨p, hp, q, hq, fun hsame => ?_⟩
    rw [hpk, hqk, Option.some_inj] at hsame
    exact absurd henough (Nat.not_le_of_lt (hsame ▸ hlack'))
  case nodes =>
    have hcd : c.index ≠ d.index := by
      intro hsame
      obtain rfl : c = d := congrArg NodeId.mk hsame
      exact absurd henough (Nat.not_le_of_lt hlack)
    rw [Graph.mem_nodeIds] at hc hd
    omega

/-! ## The report -/

/-- The node that is diagnosed is the first one that has no host. -/
theorem obstacle?_eq_diagnose (hcount : P.pattern.nodeCount ≤ P.target.nodeCount) {v : NodeId}
    (hv : v ∈ P.pattern.nodeIds) (hnone : P.hostsOf v = [])
    (hleast : ∀ n ∈ P.pattern.nodeIds, n.index < v.index → P.hostsOf n ≠ []) :
    P.obstacle? = some (P.diagnose v) := by
  have hfind : P.pattern.nodeIds.find? (fun n => (P.hostsOf n).isEmpty) = some v := by
    rw [Graph.nodeIds, List.find?_map, Option.map_eq_some_iff]
    refine ⟨v.index, List.find?_range_eq_some.2 ⟨?_, ?_, fun i hi => ?_⟩, rfl⟩
    · simpa using hnone
    · exact List.mem_range.2 (Graph.mem_nodeIds.1 hv)
    · have hlt : i < P.pattern.nodeCount := Nat.lt_trans hi (Graph.mem_nodeIds.1 hv)
      simpa using hleast ⟨i⟩ (Graph.mem_nodeIds.2 hlt) hi
  rw [obstacle?, if_neg (Nat.not_lt_of_le hcount), goals, List.find?_map, Option.map_map]
  exact Option.map_eq_some_iff.2 ⟨v, hfind, rfl⟩

/-- If the target has enough nodes, and `v` is the first node of the pattern that no node of the
target covers, the attempt fails with the reason that the rule gives for `v`, and with no other.
When that reason is that no node is compatible, the target has what `v` needs, but not on one
node. -/
theorem solve_diagnoses (config : Config) (hcount : P.pattern.nodeCount ≤ P.target.nodeCount)
    {v : NodeId} (hv : v ∈ P.pattern.nodeIds) (hnone : ∀ c ∈ P.target.nodeIds, ¬ P.Covers v c)
    (hleast : ∀ n ∈ P.pattern.nodeIds, n.index < v.index →
      ∃ c ∈ P.target.nodeIds, P.Covers n c) :
    ∃ r o, (P.solve config).result = .error r ∧ r.cause = some o ∧
      (∀ o', P.Diagnosis v o' ↔ o' = o) ∧
      (o = .noCompatibleNode (P.pattern.nodeDesc v) → P.Scattered v) := by
  have hnodes : P.target.nodeIds ≠ [] := by
    refine List.ne_nil_of_length_pos ?_
    have hlt := Graph.mem_nodeIds.1 hv
    rw [Graph.length_nodeIds]
    omega
  have hbefore : ∀ n ∈ P.pattern.nodeIds, n.index < v.index → P.hostsOf n ≠ [] := by
    intro n hn hlt hnil
    obtain ⟨c, hc, hcovers⟩ := hleast n hn hlt
    exact hostsOf_eq_nil_iff.1 hnil c hc hcovers
  have ho := obstacle?_eq_diagnose hcount hv (hostsOf_eq_nil_iff.2 hnone) hbefore
  refine ⟨_, P.diagnose v, congrArg Prod.fst (attempt_of_obstacle ho config.budget), rfl,
    fun o => diagnosis_iff hnodes, fun hlast => ?_⟩
  have hrule := diagnosis_diagnose hnodes v
  rw [hlast] at hrule
  cases hrule with
  | together hless hkinds => exact scattered_of_not_covers hnodes hnone hkinds

/-- The first node has a host, and the second one does not, although there are as many ports of each
kind as it needs.  The third one has too many ports, but it does not come first. -/
theorem solve_diagnoses_several :
    (∀ c ∈ severalAmongPlain.target.nodeIds, ¬ severalAmongPlain.Covers ⟨1⟩ c) ∧
    (∃ c ∈ severalAmongPlain.target.nodeIds, severalAmongPlain.Covers ⟨0⟩ c) ∧
    ∃ r, severalAmongPlain.solve.result = .error r ∧ r.cause = some (.noCompatibleNode "mixed") ∧
      severalAmongPlain.Scattered ⟨1⟩ := by
  have hnone : ∀ c ∈ severalAmongPlain.target.nodeIds, ¬ severalAmongPlain.Covers ⟨1⟩ c := by
    simp only [covers_iff]
    decide +kernel
  have hsome : ∃ c ∈ severalAmongPlain.target.nodeIds, severalAmongPlain.Covers ⟨0⟩ c := by
    simp only [covers_iff]
    decide +kernel
  have hleast : ∀ n ∈ severalAmongPlain.pattern.nodeIds, n.index < 1 →
      ∃ c ∈ severalAmongPlain.target.nodeIds, severalAmongPlain.Covers n c := by
    intro n _ hlt
    obtain rfl : n = ⟨0⟩ := congrArg NodeId.mk (Nat.lt_one_iff.1 hlt)
    exact hsome
  obtain ⟨r, o, hr, ho, hrule, hlast⟩ := solve_diagnoses (P := severalAmongPlain) {}
    (by decide +kernel) (v := ⟨1⟩) (by decide +kernel) hnone hleast
  have hreason : severalAmongPlain.diagnose ⟨1⟩ = .noCompatibleNode "mixed" := by decide +kernel
  have hdesc : severalAmongPlain.pattern.nodeDesc ⟨1⟩ = "mixed" := by decide +kernel
  obtain rfl := (hrule _).1 (hreason ▸ diagnosis_diagnose (by decide +kernel) ⟨1⟩)
  exact ⟨hnone, hsome, r, hr, ho, hlast (by rw [hdesc])⟩

end Problem

end PortMatch
