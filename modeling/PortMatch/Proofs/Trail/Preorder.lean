import Mathlib
import PortMatch.Proofs.Trail.OfPlacement

/-!
# All trails, in preorder

The trails that a search can leave form a tree: a trail has the trails that go on from it below it.
This file lists them by plain recursion on the goals, each trail before those below it, and shows
that the list holds exactly the legal trails along the search order and that its codes ascend.

* `Problem.pinsAfter` — the pins that are possible for a goal after a trail;
* `Problem.trailsFrom`, `Problem.trails` — the trails below a trail, and all trails;
* `Problem.mem_trails` — the legal trails along the search order, apart from the empty one;
* `Problem.pairwise_trails` — their codes ascend.
-/

namespace PortMatch

namespace Problem

variable {P : Problem}

/-- The pins that are possible for a goal after the trail `t`, ascending by host. -/
def pinsAfter (P : Problem) (t : Trail) (g : Goal) : List Pin :=
  (g.hosts.filter fun c => !t.uses c).flatMap fun c =>
    (P.portMaps (P.assemble t) g.node c).map (Pin.mk c)

/-- The trails that go on from `t` through the given goals, each before those that go on from it. -/
def trailsFrom (P : Problem) : List Goal → Trail → List Trail
  | [], _ => []
  | g :: rest, t =>
    (P.pinsAfter t g).flatMap fun pin =>
      (⟨g.node, pin⟩ :: t) :: P.trailsFrom rest (⟨g.node, pin⟩ :: t)

/-- All trails along the agenda, apart from the empty one. -/
def trails (P : Problem) : List Trail := P.trailsFrom P.agenda []

theorem mem_goals {g : Goal} :
    g ∈ P.goals ↔ g.node ∈ P.pattern.nodeIds ∧ g.hosts = P.hostsOf g.node := by
  obtain ⟨n, hosts⟩ := g
  simp only [goals, List.mem_map, Goal.mk.injEq]
  refine ⟨?_, ?_⟩
  · rintro ⟨m, hm, rfl, rfl⟩
    exact ⟨hm, rfl⟩
  · rintro ⟨hn, rfl⟩
    exact ⟨n, hn, rfl, rfl⟩

/-! ## Membership -/

theorem mem_pinsAfter {t : Trail} (h : P.Legal t) (hP : P.pattern.WellFormed)
    (hT : P.target.WellFormed) {g : Goal} (hg : g ∈ P.goals) (hnew : g.node ∉ t.nodes) {pin : Pin} :
    pin ∈ P.pinsAfter t g ↔ P.Extends t ⟨g.node, pin⟩ := by
  obtain ⟨hnode, hhosts⟩ := mem_goals.1 hg
  have hlive : ∀ p ∈ P.pattern.portsOf g.node, (P.assemble t).port? p = none :=
    (h.places hP hT).port_none hP hnew
  simp only [pinsAfter, List.mem_flatMap, List.mem_filter, Bool.not_eq_true', List.mem_map,
    mem_portMaps hP hlive, hhosts]
  refine ⟨?_, ?_⟩
  · rintro ⟨c, ⟨hc, hfree⟩, choices, hmap, rfl⟩
    exact ⟨hnode, hnew, hc, hfree, hmap⟩
  · intro hext
    exact ⟨pin.host, ⟨hext.host_mem, hext.host_new⟩, pin.choices, hext.ports, rfl⟩

theorem not_mem_nodes {t : Trail} {g : Goal} {rest : List Goal}
    (h : (t.nodes ++ (g :: rest).map Goal.node).Nodup) : g.node ∉ t.nodes := by
  rw [List.map_cons, List.nodup_middle, List.nodup_cons, List.mem_append, not_or] at h
  exact h.1.1

theorem nodup_nodes_cons {t : Trail} {g : Goal} {rest : List Goal}
    (h : (t.nodes ++ (g :: rest).map Goal.node).Nodup) (pin : Pin) :
    (Trail.nodes (⟨g.node, pin⟩ :: t) ++ rest.map Goal.node).Nodup := by
  rw [Trail.nodes_cons, List.append_assoc]
  exact h

theorem Legal.of_append {t u : Trail} (h : P.Legal (u ++ t)) : P.Legal t := by
  induction u with
  | nil => exact h
  | cons e u ih => exact ih h.1

/-- The trails that go on from `t` are the legal ones whose further nodes begin the given goals. -/
theorem mem_trailsFrom {goals : List Goal} {t : Trail} (h : P.Legal t) (hP : P.pattern.WellFormed)
    (hT : P.target.WellFormed) (hgoals : ∀ g ∈ goals, g ∈ P.goals)
    (hnodup : (t.nodes ++ goals.map Goal.node).Nodup) {u : Trail} :
    u ∈ P.trailsFrom goals t ↔
      P.Legal u ∧ ∃ added : Trail, added ≠ [] ∧ u = added ++ t ∧
        added.nodes <+: goals.map Goal.node := by
  induction goals generalizing t with
  | nil =>
    simp only [trailsFrom, List.not_mem_nil, false_iff, List.map_nil, List.prefix_nil]
    rintro ⟨-, added, hne, -, hnil⟩
    exact hne (by simpa [Trail.nodes] using hnil)
  | cons g rest ih =>
    have hmem : ∀ pin, pin ∈ P.pinsAfter t g ↔ P.Extends t ⟨g.node, pin⟩ := fun pin =>
      mem_pinsAfter h hP hT (hgoals g (by simp)) (not_mem_nodes hnodup)
    simp only [trailsFrom, List.mem_flatMap, List.mem_cons, hmem]
    have hbelow := fun (pin : Pin) (hext : P.Extends t ⟨g.node, pin⟩) =>
      ih (t := ⟨g.node, pin⟩ :: t) ⟨h, hext⟩ (fun g' hg' => hgoals g' (by simp [hg']))
        (nodup_nodes_cons hnodup pin)
    refine ⟨?_, ?_⟩
    · rintro ⟨pin, hext, rfl | hu⟩
      · exact ⟨⟨h, hext⟩, [⟨g.node, pin⟩], by simp, rfl, by simp [Trail.nodes]⟩
      · obtain ⟨hlegal, added, -, rfl, hbegin⟩ := (hbelow pin hext).1 hu
        refine ⟨hlegal, added ++ [⟨g.node, pin⟩], by simp, by simp, ?_⟩
        simpa [Trail.nodes] using hbegin
    · rintro ⟨hlegal, added, hne, rfl, hbegin⟩
      -- the first pin that was added is for `g`
      obtain ⟨later, e, rfl⟩ : ∃ later e, added = later ++ [e] :=
        ⟨_, _, (List.dropLast_append_getLast hne).symm⟩
      simp only [Trail.nodes, List.reverse_append, List.reverse_singleton, List.singleton_append,
        List.map_cons, List.cons_prefix_cons] at hbegin
      obtain ⟨hnode, hbegin⟩ := hbegin
      obtain ⟨n, pin⟩ := e
      obtain rfl : n = g.node := hnode
      have hsplit : later ++ [⟨g.node, pin⟩] ++ t = later ++ ⟨g.node, pin⟩ :: t := by simp
      have hfirst : P.Legal (⟨g.node, pin⟩ :: t) := Legal.of_append (hsplit ▸ hlegal)
      have hext : P.Extends t ⟨g.node, pin⟩ := hfirst.2
      refine ⟨pin, hext, ?_⟩
      by_cases hlater : later = []
      · exact .inl (by rw [hlater]; rfl)
      · exact .inr ((hbelow pin hext).2 ⟨hlegal, later, hlater, hsplit, hbegin⟩)

/-- The trails are the legal ones along the search order, apart from the empty one. -/
theorem mem_trails (hP : P.pattern.WellFormed) (hT : P.target.WellFormed) {t : Trail} :
    t ∈ P.trails ↔ P.Legal t ∧ t ≠ [] ∧ t.nodes <+: P.searchOrder := by
  have hgoals : ∀ g ∈ P.agenda, g ∈ P.goals := fun g hg => P.agenda_perm.mem_iff.1 hg
  rw [trails, mem_trailsFrom (t := []) trivial hP hT hgoals P.nodup_searchOrder]
  refine ⟨?_, ?_⟩
  · rintro ⟨hlegal, added, hne, rfl, hbegin⟩
    rw [List.append_nil] at hlegal ⊢
    exact ⟨hlegal, hne, hbegin⟩
  · rintro ⟨hlegal, hne, hbegin⟩
    exact ⟨hlegal, t, hne, by simp, hbegin⟩

/-! ## Order -/

theorem lt_append_of_lt {x y : List ℕ} (h : x < y) (hlen : x.length = y.length) (u v : List ℕ) :
    x ++ u < y ++ v := by
  induction x generalizing y with
  | nil =>
    cases y with
    | nil => exact absurd h (lt_irrefl _)
    | cons b y => cases hlen
  | cons a x ih =>
    cases y with
    | nil => cases hlen
    | cons b y =>
      rw [List.cons_append, List.cons_append, List.cons_lt_cons_iff]
      refine (List.cons_lt_cons_iff.1 h).imp_right fun ⟨hab, hlt⟩ => ⟨hab, ?_⟩
      exact ih hlt (by simpa using hlen)

theorem lt_append_of_ne_nil (x : List ℕ) {u : List ℕ} (hu : u ≠ []) : x < x ++ u := by
  obtain ⟨a, v, rfl⟩ := List.exists_cons_of_ne_nil hu
  conv_lhs => rw [← List.append_nil x]
  exact List.append_left_lt (List.nil_lt_cons a v)

/-- The pins for a goal ascend. -/
theorem pairwise_pinsAfter (hT : P.target.WellFormed) (t : Trail) {g : Goal} (hg : g ∈ P.goals) :
    (P.pinsAfter t g).Pairwise fun pin pin' => pin.code < pin'.code := by
  have hhosts := P.pairwise_hostsOf g.node
  rw [← (mem_goals.1 hg).2] at hhosts
  refine List.pairwise_flatMap.2 ⟨fun c _ => ?_, (hhosts.filter _).imp ?_⟩
  · refine List.pairwise_map.2 ((pairwise_portMaps hT _ _ _).imp ?_)
    intro x y hlt
    exact List.cons_lt_cons_iff.2 (.inr ⟨rfl, hlt⟩)
  · intro c d hlt pin hpin pin' hpin'
    obtain ⟨x, -, rfl⟩ := List.mem_map.1 hpin
    obtain ⟨y, -, rfl⟩ := List.mem_map.1 hpin'
    exact List.cons_lt_cons_iff.2 (.inl hlt)

theorem code_of_mem_trailsFrom {goals : List Goal} {t u : Trail} (h : u ∈ P.trailsFrom goals t) :
    ∃ rest, rest ≠ [] ∧ u.code = t.code ++ rest := by
  induction goals generalizing t with
  | nil => cases h
  | cons g goals ih =>
    obtain ⟨pin, -, hu⟩ := List.mem_flatMap.1 h
    rcases List.mem_cons.1 hu with rfl | hu
    · exact ⟨pin.code, by simp [Pin.code], Trail.code_cons _ _⟩
    · obtain ⟨rest, -, hcode⟩ := ih hu
      refine ⟨pin.code ++ rest, by simp [Pin.code], ?_⟩
      rw [hcode, Trail.code_cons, List.append_assoc]

theorem length_code_pin {t : Trail} {n : NodeId} {pin : Pin} (h : P.Extends t ⟨n, pin⟩) :
    pin.code.length = (P.pattern.portsOf n).size + 1 := by
  have hlen := congrArg List.length h.ports.ports
  rw [List.length_map, Array.length_toList] at hlen
  simp [Pin.code, hlen]

/-- The trails that go on from a trail ascend. -/
theorem pairwise_trailsFrom {goals : List Goal} {t : Trail} (h : P.Legal t)
    (hP : P.pattern.WellFormed) (hT : P.target.WellFormed) (hgoals : ∀ g ∈ goals, g ∈ P.goals)
    (hnodup : (t.nodes ++ goals.map Goal.node).Nodup) :
    (P.trailsFrom goals t).Pairwise fun u v => u.code < v.code := by
  induction goals generalizing t with
  | nil => exact .nil
  | cons g rest ih =>
    have hg : g ∈ P.goals := hgoals g (by simp)
    have hmem : ∀ pin, pin ∈ P.pinsAfter t g ↔ P.Extends t ⟨g.node, pin⟩ :=
      fun pin => mem_pinsAfter h hP hT hg (not_mem_nodes hnodup)
    refine List.pairwise_flatMap.2 ⟨fun pin hpin => List.pairwise_cons.2 ⟨?_, ?_⟩, ?_⟩
    · intro u hu
      obtain ⟨later, hne, hcode⟩ := code_of_mem_trailsFrom hu
      rw [hcode]
      exact lt_append_of_ne_nil _ hne
    · exact ih ⟨h, (hmem pin).1 hpin⟩ (fun g' hg' => hgoals g' (by simp [hg']))
        (nodup_nodes_cons hnodup pin)
    · refine (P.pairwise_pinsAfter hT t hg).imp_of_mem ?_
      intro pin pin' hpin hpin' hlt u hu v hv
      have hlen : pin.code.length = pin'.code.length := by
        rw [length_code_pin ((hmem pin).1 hpin), length_code_pin ((hmem pin').1 hpin')]
      have hcode : ∀ {pin : Pin} {u : Trail},
          u ∈ (⟨g.node, pin⟩ :: t) :: P.trailsFrom rest (⟨g.node, pin⟩ :: t) →
          ∃ later, u.code = t.code ++ (pin.code ++ later) := by
        intro pin u hu
        rcases List.mem_cons.1 hu with rfl | hu
        · exact ⟨[], by rw [Trail.code_cons, List.append_nil]⟩
        · obtain ⟨later, -, hcode⟩ := code_of_mem_trailsFrom hu
          exact ⟨later, by rw [hcode, Trail.code_cons, List.append_assoc]⟩
      obtain ⟨later, hcu⟩ := hcode hu
      obtain ⟨later', hcv⟩ := hcode hv
      rw [hcu, hcv]
      exact List.append_left_lt (lt_append_of_lt hlt hlen later later')

/-- The codes of all trails ascend. -/
theorem pairwise_trails (hP : P.pattern.WellFormed) (hT : P.target.WellFormed) :
    P.trails.Pairwise fun u v => u.code < v.code :=
  pairwise_trailsFrom (t := []) trivial hP hT (fun _ hg => P.agenda_perm.mem_iff.1 hg)
    P.nodup_searchOrder

end Problem

end PortMatch
