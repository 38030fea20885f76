import Mathlib
import PortMatch.Proofs.Placement.Solution
import PortMatch.Proofs.Solve.Correct

/-!
# The rounds of a search

Every pin of a search leaves a new valid placement of the first few nodes, and no such placement is
passed over on the way.  So the rounds of a search count placements: an exhausted search has counted
all of them, and a solution tells its own rank.

* `Search.visited` — the placements right after the pins of a search;
* `Problem.visited_isPrefix` — they are the first ones of all placements, in preorder;
* `Problem.ncard_le_code_of_solve_eq_ok` — a solution tells its rank;
* `Problem.pins_enumerate_placements` — what this means for the pins and rounds of a search.
-/

namespace PortMatch

/-- The placements right after the pins of a search, in order. -/
def Search.visited (P : Problem) (budget : ℕ) (s : Search) : List Placement :=
  (s.pinned P budget).map fun s' => s'.current.placement

theorem ncard_eq_length {α : Type} {S : Set α} {l : List α} (hnodup : l.Nodup)
    (hmem : ∀ a, a ∈ l ↔ a ∈ S) : S.ncard = l.length := by
  classical
  have hset : S = (l.toFinset : Set α) := by
    ext a
    rw [List.coe_toFinset, Set.mem_ofPred_eq, hmem]
  rw [hset, Set.ncard_coe_finset, List.toFinset_card_of_nodup hnodup]

namespace Problem

variable {P : Problem} {budget : ℕ}

theorem visited_eq {seen : List Trail} (h : P.Visits budget (Search.start P) [] seen) :
    (Search.start P).visited P budget = seen.map fun t => (P.assemble t).placement := by
  have hassign := congrArg (List.map Assignment.placement) h.assignments
  rwa [List.map_map, List.map_map] at hassign

theorem nodup_placements (hP : P.pattern.WellFormed) (hT : P.target.WellFormed) :
    P.placements.Nodup := by
  refine (pairwise_placements hP hT).imp ?_
  intro x y hlt heq
  exact absurd (heq ▸ hlt) (lt_irrefl _)

/-- The placements that a search comes to are the first ones of all, in preorder. -/
theorem visited_isPrefix {seen : List Trail} (h : P.Visits budget (Search.start P) [] seen)
    (hseen : seen <+: P.trails) : (Search.start P).visited P budget <+: P.placements := by
  rw [visited_eq h]
  exact hseen.map _

/-- Along a prefix of the placements no lesser placement is left out. -/
theorem mem_of_code_lt (hP : P.pattern.WellFormed) (hT : P.target.WellFormed)
    {first : List Placement} (hfirst : first <+: P.placements) {pl pl' : Placement}
    (hpl : pl ∈ first) (hpl' : pl' ∈ P.placements) (hlt : P.code pl' < P.code pl) :
    pl' ∈ first := by
  obtain ⟨later, hlater⟩ := hfirst
  have hascend := pairwise_placements hP hT
  rw [← hlater] at hascend hpl'
  rcases List.mem_append.1 hpl' with hmem | hmem
  · exact hmem
  · exact absurd hlt (lt_asymm ((List.pairwise_append.1 hascend).2.2 pl hpl pl' hmem))

/-- A solution parts the trails: those that the search has read have at most its code, and all
others have a greater one. -/
theorem exists_split_of_solve_eq_ok (hP : P.pattern.WellFormed) (hT : P.target.WellFormed)
    {config : Config} {sol : Solution} (h : (P.solve config).result = .ok sol) :
    ∃ read later, P.trails = read ++ later ∧ read.length = sol.rounds ∧
      (∀ t ∈ read, Trail.code t ≤ P.code sol.placement) ∧
      ∀ t ∈ later, P.code sol.placement < Trail.code t := by
  obtain ⟨before, last, later, hsplit, hlast, -, rfl⟩ := exists_trail_of_solve_eq_ok hP hT h
  have hmem : last ∈ [] :: P.trails := by simp [hsplit]
  have hascend := pairwise_cons_trails hP hT
  rw [hsplit, List.append_cons, List.pairwise_append, List.pairwise_append] at hascend
  obtain ⟨⟨-, -, hbefore⟩, -, hlater⟩ := hascend
  rw [(solves_of_trail hP hT hsplit hlast).placement_ofAssignment,
    code_of_mem_cons_trails hP hT hmem]
  -- the empty trail comes first, and no round is needed for it
  refine ⟨(before ++ [last]).tail, later, ?_, ?_, ?_, fun t => hlater last (by simp) t⟩
  · have htail := congrArg List.tail hsplit
    rwa [List.append_cons, List.tail_append_of_ne_nil (by simp)] at htail
  · simp [Solution.ofAssignment]
  · intro t ht
    rcases List.mem_append.1 (List.mem_of_mem_tail ht) with ht | ht
    · exact le_of_lt (hbefore t ht last (List.mem_singleton_self last))
    · rw [List.mem_singleton.1 ht]

/-- The rank of a solution among the placements is the number of rounds. -/
theorem ncard_le_code_of_solve_eq_ok (hP : P.pattern.WellFormed) (hT : P.target.WellFormed)
    {config : Config} {sol : Solution} (h : (P.solve config).result = .ok sol) :
    {pl ∈ P.prefixPlacements | P.code pl ≤ P.code sol.placement}.ncard = sol.rounds := by
  obtain ⟨read, later, hsplit, hlen, hread, hlater⟩ := exists_split_of_solve_eq_ok hP hT h
  have hcode : ∀ t ∈ P.trails, P.code (P.assemble t).placement = t.code :=
    fun t ht => code_of_mem_cons_trails hP hT (List.mem_cons_of_mem _ ht)
  have hsub : ∀ t ∈ read, t ∈ P.trails := by
    intro t ht
    rw [hsplit]
    exact List.mem_append_left _ ht
  have hnodup : (read.map fun t => (P.assemble t).placement).Nodup := by
    have hall := nodup_placements hP hT
    rw [placements, hsplit, List.map_append] at hall
    exact hall.sublist (List.sublist_append_left _ _)
  rw [ncard_eq_length hnodup, List.length_map, hlen]
  intro pl
  rw [Set.mem_sep_iff, ← mem_placements hP hT, placements, List.mem_map, List.mem_map]
  refine ⟨?_, ?_⟩
  · rintro ⟨t, ht, rfl⟩
    exact ⟨⟨t, hsub t ht, rfl⟩, hcode t (hsub t ht) ▸ hread t ht⟩
  · rintro ⟨⟨t, ht, rfl⟩, hle⟩
    rw [hcode t ht] at hle
    rw [hsplit] at ht
    rcases List.mem_append.1 ht with ht | ht
    · exact ⟨t, ht, rfl⟩
    · exact absurd (hlater t ht) (not_lt_of_ge hle)

/-- If there is no obstacle, the pins of a search leave valid placements of the first nodes in the
search order: each a new one, in the order of their codes, and none left out on the way.  The rounds
count them, so an exhausted search has as many rounds as there are such placements, and a solution
tells its rank among them. -/
theorem pins_enumerate_placements (hP : P.pattern.Built) (hT : P.target.Built)
    (hfree : P.obstacle? = none) (config : Config) :
    let start := Search.start P
    let visited := start.visited P config.budget
    (∀ pl ∈ visited, pl ∈ P.prefixPlacements) ∧
    (visited.Pairwise fun x y => P.code x < P.code y) ∧
    (∀ pl ∈ visited, ∀ pl' ∈ P.prefixPlacements, P.code pl' < P.code pl → pl' ∈ visited) ∧
    (start.pinned P config.budget).map Search.rounds = List.range' 1 visited.length ∧
    (start.run P config.budget).2.rounds = visited.length ∧
    (∀ r, (P.solve config).result = .error r → r.cause = none →
      (start.run P config.budget).2.rounds = P.prefixPlacements.ncard) ∧
    ∀ sol, (P.solve config).result = .ok sol →
      sol.rounds = {pl ∈ P.prefixPlacements | P.code pl ≤ P.code sol.placement}.ncard := by
  intro start visited
  obtain ⟨seen, hvisits, hscans⟩ := exists_visits hP.wellFormed hT.wellFormed config.budget
  have hfirst : visited <+: P.placements := visited_isPrefix hvisits hscans.isPrefix
  have hmem : ∀ pl, pl ∈ P.placements ↔ pl ∈ P.prefixPlacements :=
    fun pl => mem_placements hP.wellFormed hT.wellFormed
  have hlen : visited.length = seen.length := by
    rw [show visited = _ from visited_eq hvisits, List.length_map]
  have htotal : (start.run P config.budget).2.rounds = visited.length := by
    rw [hlen]
    exact hvisits.total.trans (Nat.zero_add _)
  refine ⟨?_, ?_, ?_, ?_, htotal, ?_, ?_⟩
  · exact fun pl hpl => (hmem pl).1 (hfirst.subset hpl)
  · exact (pairwise_placements hP.wellFormed hT.wellFormed).sublist hfirst.sublist
  · intro pl hpl pl' hpl' hlt
    exact mem_of_code_lt hP.wellFormed hT.wellFormed hfirst hpl ((hmem pl').2 hpl') hlt
  · rw [hlen]
    exact hvisits.rounds
  · intro r hr hcause
    rcases solve_eq_error hr with ⟨o, ho, -⟩ | ⟨-, hhow, -⟩ | ⟨-, -, hlimit⟩
    · rw [hfree] at ho
      cases ho
    · -- everything was read
      rw [hhow] at hscans
      have hall : visited = P.placements := by
        rw [show visited = _ from visited_eq hvisits, hscans.exhausted.1]
        rfl
      rw [htotal, hall, ncard_eq_length (nodup_placements hP.wellFormed hT.wellFormed) hmem]
    · rw [hcause] at hlimit
      cases hlimit
  · exact fun sol hsol => (ncard_le_code_of_solve_eq_ok hP.wellFormed hT.wellFormed hsol).symm

/-- Among three nodes of which the last two are linked, the pair is the third placement. -/
theorem pins_enumerate_placements_pair : (pairAmong [.connect ⟨1⟩ ⟨2⟩]).obstacle? = none ∧
    {pl ∈ (pairAmong [.connect ⟨1⟩ ⟨2⟩]).prefixPlacements |
      (pairAmong [.connect ⟨1⟩ ⟨2⟩]).code pl
        ≤ (pairAmong [.connect ⟨1⟩ ⟨2⟩]).code lastTwo.placement}.ncard = 3 := by
  have hfree : (pairAmong [.connect ⟨1⟩ ⟨2⟩]).obstacle? = none := by decide +kernel
  obtain ⟨-, -, -, -, -, -, hrank⟩ :=
    pins_enumerate_placements ⟨_, _, rfl⟩ ⟨_, _, rfl⟩ hfree {}
  exact ⟨hfree, (hrank lastTwo solve_pairAmong).symm⟩

end Problem

end PortMatch
