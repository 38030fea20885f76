import Mathlib
import PortMatch.Proofs.Graph.Renaming
import PortMatch.Proofs.Placement.Hosts
import PortMatch.Proofs.Search.Parallel

/-!
# Problems under other names

Two problems whose graphs differ in descriptions, in the names of kinds and in the order of their
links are the same problem to a search, as long as kinds that differ keep different names.  Before
the search they have the same obstacle too, apart from the words.

* `Problem.Renamed` — the problem under other names;
* `Problem.Renamed.parallel` — to a search, it is the same;
* `Finding`, `Finding.obstacle` — an obstacle by ids, and in the words of a pattern;
* `Problem.finding?`, `Problem.obstacle?_eq` — the obstacle of a problem, by ids;
* `Problem.Renamed.finding?_eq` — under other names, it is the same.
-/

namespace PortMatch

namespace Problem

variable {P P' : Problem} {rename : PortKind → PortKind}

/-- The problem `P'` is the problem `P` under other names. -/
structure Renamed (rename : PortKind → PortKind) (P P' : Problem) : Prop where
  /-- The pattern is the same under other names. -/
  pattern : P.pattern.Renamed rename P'.pattern
  /-- So is the target. -/
  target : P.target.Renamed rename P'.target

end Problem

/-! ## Obstacles by ids -/

/-- An obstacle, by ids instead of descriptions. -/
inductive Finding where
  /-- The target has fewer nodes than the pattern. -/
  | tooFewNodes (patternNodes targetNodes : ℕ)
  /-- A node has more ports than any node of the target. -/
  | insufficientPorts (node : NodeId) (needed available : ℕ)
  /-- A node has more ports of the kind of this port than any node of the target. -/
  | incompatiblePortKind (port : PortId)
  /-- No single node of the target has enough ports of every kind that a node needs. -/
  | noCompatibleNode (node : NodeId)
  /-- The search was stopped after this many rounds. -/
  | searchLimit (rounds : ℕ)

/-- The obstacle in the words of a pattern. -/
def Finding.obstacle (pattern : Graph) : Finding → Obstacle
  | tooFewNodes patternNodes targetNodes => .tooFewNodes patternNodes targetNodes
  | insufficientPorts n needed available =>
    .insufficientPorts (pattern.nodeDesc n) needed available
  | incompatiblePortKind p =>
    .incompatiblePortKind (pattern.portDesc p) ((pattern.kind? p).elim "" PortKind.name)
  | noCompatibleNode n => .noCompatibleNode (pattern.nodeDesc n)
  | searchLimit rounds => .searchLimit rounds

namespace Problem

variable {P P' : Problem} {rename : PortKind → PortKind}

/-- The first port of the node `n` whose kind is scarce in the target, and that kind. -/
def scarce? (P : Problem) (n : NodeId) : Option (PortId × PortKind) :=
  (P.pattern.portsOf n).toList.findSome? fun p => (P.scarceKind? n p).map fun k => (p, k)

/-- Why no node of the target can host the node `n`, by ids. -/
def findingAt (P : Problem) (n : NodeId) : Finding :=
  if P.mostPorts < (P.pattern.portsOf n).size then
    .insufficientPorts n (P.pattern.portsOf n).size P.mostPorts
  else
    match P.scarce? n with
    | some (p, _) => .incompatiblePortKind p
    | none => .noCompatibleNode n

/-- What makes a search pointless, by ids. -/
def finding? (P : Problem) : Option Finding :=
  if P.target.nodeCount < P.pattern.nodeCount then
    some (.tooFewNodes P.pattern.nodeCount P.target.nodeCount)
  else
    (P.goals.find? fun g => g.hosts.isEmpty).map fun g => P.findingAt g.node

theorem kind?_of_scarce? {n : NodeId} {p : PortId} {k : PortKind} (h : P.scarce? n = some (p, k)) :
    P.pattern.kind? p = some k := by
  obtain ⟨q, -, hq⟩ := List.exists_of_findSome?_eq_some h
  obtain ⟨k', hk', hpair⟩ := Option.map_eq_some_iff.1 hq
  obtain ⟨rfl, rfl⟩ := Prod.mk.inj hpair
  exact (Option.filter_eq_some_iff.1 hk').1

theorem diagnose_eq (P : Problem) (n : NodeId) :
    P.diagnose n = (P.findingAt n).obstacle P.pattern := by
  rw [findingAt]
  split
  · next hlt => exact if_pos hlt
  · next hle =>
    rw [diagnose, if_neg hle, ← scarce?]
    rcases hscarce : P.scarce? n with _ | ⟨p, k⟩
    · rfl
    · simp [Finding.obstacle, kind?_of_scarce? hscarce]

/-- The obstacle of a problem, found by ids and put in words. -/
theorem obstacle?_eq (P : Problem) :
    P.obstacle? = P.finding?.map (Finding.obstacle P.pattern) := by
  unfold obstacle? finding?
  split
  · rfl
  · rw [Option.map_map]
    exact congrArg (Option.map · _) (funext fun g => P.diagnose_eq g.node)

/-! ## The same under other names -/

namespace Renamed

section WellFormed

variable (h : P.Renamed rename P') (hinj : Function.Injective rename)
  (hP : P.pattern.WellFormed) (hT : P.target.WellFormed) (hP' : P'.pattern.WellFormed)
  (hT' : P'.target.WellFormed)

include h hinj hP hT hP' hT'

theorem supports_eq (n c : NodeId) : P'.supports n c = P.supports n c := by
  rw [Bool.eq_iff_iff, supports_iff_subperm, supports_iff_subperm, h.pattern.kindsOf hP hP',
    h.target.kindsOf hT hT', List.map_subperm_map_iff hinj]

theorem hostsOf_eq (n : NodeId) : P'.hostsOf n = P.hostsOf n := by
  rw [hostsOf, hostsOf, h.target.nodeIds]
  exact List.filter_congr fun c _ => h.supports_eq hinj hP hT hP' hT' n c

/-- To a search, a problem under other names is the same. -/
theorem parallel : P.Parallel P' where
  nodeIds := h.pattern.nodeIds
  portIds := h.pattern.portIds
  hostsOf := h.hostsOf_eq hinj hP hT hP' hT'
  patternPorts := h.pattern.portsOf hP hP'
  targetPorts := h.target.portsOf hT hT'
  kind p q := by
    rw [h.target.kind?, h.pattern.kind?, (Option.map_injective hinj).eq_iff]
  mem_neighbors _ _ := h.pattern.mem_neighbors hP hP'
  connected := h.target.connected

omit hP hP' in
theorem mostOfKind_eq (k : PortKind) : P'.mostOfKind (rename k) = P.mostOfKind k := by
  simp only [mostOfKind, h.target.nodeIds, h.target.kindsOf hT hT',
    List.count_map_of_injective _ _ hinj]

theorem scarceKind?_eq (n : NodeId) (p : PortId) :
    P'.scarceKind? n p = (P.scarceKind? n p).map rename := by
  rw [scarceKind?, scarceKind?, h.pattern.kind?]
  cases P.pattern.kind? p with
  | none => rfl
  | some k =>
    simp only [Option.map_some, Option.filter_some, h.mostOfKind_eq hinj hT hT',
      h.pattern.kindsOf hP hP', List.count_map_of_injective _ _ hinj]
    split <;> rfl

theorem scarce?_eq (n : NodeId) :
    P'.scarce? n = (P.scarce? n).map fun (p, k) => (p, rename k) := by
  rw [scarce?, scarce?, List.map_findSome?, h.pattern.portsOf hP hP']
  congr 1
  funext p
  rw [h.scarceKind?_eq hinj hP hT hP' hT', Function.comp_apply, Option.map_map, Option.map_map]
  rfl

theorem findingAt_eq (n : NodeId) : P'.findingAt n = P.findingAt n := by
  have hmost : P'.mostPorts = P.mostPorts := by
    simp only [mostPorts, h.target.nodeIds, h.target.portsOf hT hT']
  rw [findingAt, findingAt, hmost, h.pattern.portsOf hP hP', h.scarce?_eq hinj hP hT hP' hT']
  rcases P.scarce? n with _ | ⟨p, k⟩
  · rfl
  · rfl

/-- A problem has the same obstacle under other names, apart from the words. -/
theorem finding?_eq : P'.finding? = P.finding? := by
  have hgoals : P'.goals = P.goals := (h.parallel hinj hP hT hP' hT').goals_eq
  rw [finding?, finding?, h.pattern.nodeCount, h.target.nodeCount, hgoals]
  simp only [h.findingAt_eq hinj hP hT hP' hT']

end WellFormed

end Renamed

end Problem

end PortMatch
