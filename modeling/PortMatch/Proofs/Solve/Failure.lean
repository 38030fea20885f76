import Mathlib
import PortMatch.Proofs.Search.Best
import PortMatch.Proofs.Solve.Correct

/-!
# What a failure reports

A report on a failure shows how far the attempt got.  After an obstacle that is not far: nothing is
placed.  A search that fails shows the deepest valid placement that it came to, and the least one of
that depth; if it has tried everything, nothing deeper exists.

* `Problem.exists_trail_of_solve_eq_error` — the trails behind the report of a failed search;
* `Problem.code_lt_of_firstDeepest` — the first trail among the deepest has the least code of them;
* `Problem.solve_reports_deepest` — what the report of a failed search shows;
* `Problem.solve_reports_placement` — what the report of any failure shows.
-/

namespace PortMatch

/-! ## Examples -/

/-- The report that the pair is nowhere: its first node has a place, and its second one none. -/
def pairNowhere : Report Obstacle where
  pattern := "pair"
  target := "three"
  reached := some
    { nodes := [⟨"a", some "x"⟩, ⟨"b", none⟩]
      ports := [⟨"p", some "i"⟩, ⟨"q", none⟩] }
  cause := none

theorem solve_pairAmong_nil : (pairAmong []).solve.result = .error pairNowhere := by
  decide +kernel

/-- The report that the pair was not found in two rounds. -/
def pairNotYet : Report Obstacle := { pairNowhere with cause := some (.searchLimit 2) }

theorem solve_pairAmong_two_rounds :
    ((pairAmong [.connect ⟨1⟩ ⟨2⟩]).solve ⟨2⟩).result = .error pairNotYet := by
  decide +kernel

namespace Problem

variable {P : Problem} {config : Config} {r : Report Obstacle}

/-! ## The trails behind a report -/

theorem length_agenda (P : Problem) : P.agenda.length = P.pattern.nodeCount := by
  rw [P.agenda_perm.length_eq]
  simp [goals]

theorem length_le_of_mem_trails (hP : P.pattern.WellFormed) (hT : P.target.WellFormed) {t : Trail}
    (ht : t ∈ [] :: P.trails) : t.length ≤ P.agenda.length := by
  obtain ⟨-, hnodes⟩ := (mem_cons_trails hP hT).1 ht
  rw [← Trail.length_nodes, ← length_searchOrder]
  exact hnodes.length_le

/-- The report of a failed search shows the first trail among the deepest that the search has read,
none of which is complete; without a cause, it has read them all. -/
theorem exists_trail_of_solve_eq_error (hP : P.pattern.WellFormed) (hT : P.target.WellFormed)
    (hfree : P.obstacle? = none) (h : (P.solve config).result = .error r) :
    ∃ seen t, seen <+: P.trails ∧ Trail.FirstDeepest ([] :: seen) t ∧ t ∈ [] :: P.trails ∧
      t.length < P.agenda.length ∧ (Search.start P).reach P config.budget = t.length ∧
      r.toOutline
        = ⟨P.pattern.desc, P.target.desc, some (P.labels (P.assemble t).placement)⟩ ∧
      (r.cause = none → seen = P.trails) := by
  rcases solve_eq_report h with ⟨o, ho, -⟩ | ⟨-, how, s, hrun, hend⟩
  · rw [hfree] at ho
    cases ho
  obtain ⟨seen, hvisits, hscans⟩ := exists_visits hP hT config.budget
  have hseen := hscans.isPrefix
  obtain ⟨t, hdeepest, hbest⟩ := hvisits.best_eq hP hT hseen
  rw [hrun] at hscans hbest
  have ht : t ∈ [] :: P.trails :=
    (List.cons_prefix_cons.2 ⟨rfl, hseen⟩).subset hdeepest.mem
  have hfound : how ≠ .found := by
    rcases hend with ⟨rfl, -⟩ | ⟨rfl, -⟩
    · exact Ending.noConfusion
    · exact Ending.noConfusion
  have hlt : t.length < P.agenda.length :=
    lt_of_le_of_ne (length_le_of_mem_trails hP hT ht) (hscans.incomplete hfound t hdeepest.mem)
  have hshown : s.best.snapshot P.pattern P.target = P.labels (P.assemble t).placement := by
    rw [hbest]
    exact ((mem_cons_trails hP hT).1 ht).1.snapshot_assemble hP hT
  refine ⟨seen, t, hseen, hdeepest, ht, hlt, hvisits.reach_eq hP hT hseen hdeepest, ?_, ?_⟩
  · rcases hend with ⟨-, rfl⟩ | ⟨-, rfl⟩
    · rw [report, hshown]
    · rw [report, hshown]
  · intro hcause
    rcases hend with ⟨rfl, -⟩ | ⟨-, rfl⟩
    · exact hscans.exhausted.1
    · cases hcause

/-- All trails ascend, so the first one among the deepest of those that were read is the least of
its depth. -/
theorem code_lt_of_firstDeepest (hP : P.pattern.WellFormed) (hT : P.target.WellFormed)
    {seen : List Trail} {t u : Trail} (hseen : seen <+: P.trails)
    (ht : Trail.FirstDeepest ([] :: seen) t) (hu : u ∈ [] :: P.trails)
    (hlen : u.length = t.length) (hne : u ≠ t) : t.code < u.code := by
  obtain ⟨later, hlater⟩ := hseen
  obtain ⟨before, after, hsplit, hbefore, -⟩ := ht
  have hascend := pairwise_cons_trails hP hT
  have hall : [] :: P.trails = before ++ t :: (after ++ later) := by
    rw [← hlater, ← List.cons_append, hsplit, List.append_assoc, List.cons_append]
  rw [hall] at hascend hu
  rcases List.mem_append.1 hu with hu | hu
  · exact absurd hlen (Nat.ne_of_lt (hbefore u hu))
  · rcases List.mem_cons.1 hu with rfl | hu
    · exact absurd rfl hne
    · exact List.rel_of_pairwise_cons (List.pairwise_append.1 hascend).2.1 hu

/-! ## The report of a failed search -/

/-- The report of a failed search shows a valid placement of the first `k` nodes in the search order,
where `k` is the greatest depth that a pin of the search reached.  Some node is missing from it, it
is the least valid placement of these nodes, and if the search has tried everything, one node more
has no valid placement. -/
theorem solve_reports_deepest (hP : P.pattern.Built) (hT : P.target.Built)
    (hfree : P.obstacle? = none) (h : (P.solve config).result = .error r) :
    let k := (Search.start P).reach P config.budget
    k < P.pattern.nodeCount ∧
    (∃ pl, r.reached = some (P.labels pl) ∧ P.Places (P.searchOrder.take k) pl ∧
      ∀ pl', P.Places (P.searchOrder.take k) pl' → pl' ≠ pl → P.code pl < P.code pl') ∧
    (r.cause = none → ¬ ∃ pl, P.Places (P.searchOrder.take (k + 1)) pl) := by
  obtain ⟨seen, t, hseen, hdeepest, ht, hlt, hreach, houtline, hcause⟩ :=
    exists_trail_of_solve_eq_error hP.wellFormed hT.wellFormed hfree h
  intro k
  rw [show k = t.length from hreach]
  have horder := P.length_searchOrder
  have hcode := fun {t} => code_of_mem_cons_trails hP.wellFormed hT.wellFormed (t := t)
  refine ⟨P.length_agenda ▸ hlt, ⟨(P.assemble t).placement, ?_, ?_, ?_⟩, ?_⟩
  · exact congrArg Outline.reached houtline
  · exact (places_take_iff hP.wellFormed hT.wellFormed (by omega)).2 ⟨t, ht, rfl, rfl⟩
  · intro pl' hpl' hne
    obtain ⟨u, hu, hlen, rfl⟩ := (places_take_iff hP.wellFormed hT.wellFormed (by omega)).1 hpl'
    rw [hcode ht, hcode hu]
    refine code_lt_of_firstDeepest hP.wellFormed hT.wellFormed hseen hdeepest hu hlen ?_
    rintro rfl
    exact hne rfl
  · -- everything was read, and nothing was deeper
    rintro hnone ⟨pl, hpl⟩
    obtain ⟨u, hu, hlen, -⟩ := (places_take_iff hP.wellFormed hT.wellFormed (by omega)).1 hpl
    rw [← hcause hnone] at hu
    have hle := hdeepest.length_le hu
    omega

/-- Without links among the three nodes, only the first node of the pair has a place. -/
theorem solve_reports_deepest_pair : (pairAmong []).obstacle? = none ∧
    (pairAmong []).solve.result = .error pairNowhere ∧
    (Search.start (pairAmong [])).reach (pairAmong []) 10000 = 1 ∧
    (∃ pl, pairNowhere.reached = some ((pairAmong []).labels pl) ∧
      (pairAmong []).Places [⟨0⟩] pl) ∧
    ¬ ∃ pl, (pairAmong []).Places [⟨0⟩, ⟨1⟩] pl := by
  have hfree : (pairAmong []).obstacle? = none := by decide +kernel
  have hreach : (Search.start (pairAmong [])).reach (pairAmong []) 10000 = 1 := by decide +kernel
  have horder : (pairAmong []).searchOrder = [⟨0⟩, ⟨1⟩] := by decide +kernel
  obtain ⟨-, ⟨pl, hshown, hplaces, -⟩, hnone⟩ :=
    solve_reports_deepest ⟨_, _, rfl⟩ ⟨_, _, rfl⟩ hfree solve_pairAmong_nil
  have hk : (Search.start (pairAmong [])).reach (pairAmong []) ({} : Config).budget = 1 := hreach
  rw [hk, horder] at hplaces hnone
  exact ⟨hfree, solve_pairAmong_nil, hreach, ⟨pl, hshown, hplaces⟩, hnone rfl⟩

/-! ## The report of any failure -/

theorem nodeCount_pos_of_obstacle {o : Obstacle} (ho : P.obstacle? = some o) :
    0 < P.pattern.nodeCount := by
  refine Nat.pos_of_ne_zero fun hzero => ?_
  have hnone : P.obstacle? = none := by
    refine obstacle?_eq_none_iff.2 ⟨hzero ▸ Nat.zero_le _, fun a ha => ?_⟩
    rw [Graph.mem_nodeIds, hzero] at ha
    exact absurd ha (Nat.not_lt_zero _)
  rw [hnone] at ho
  cases ho

/-- The report of any failure shows an incomplete trail, and the empty one if there is an obstacle. -/
theorem exists_legal_of_solve_eq_error (hP : P.pattern.WellFormed) (hT : P.target.WellFormed)
    (h : (P.solve config).result = .error r) :
    ∃ t, P.Legal t ∧ t.length < P.pattern.nodeCount ∧
      r.toOutline
        = ⟨P.pattern.desc, P.target.desc, some (P.labels (P.assemble t).placement)⟩ ∧
      ∀ o, P.obstacle? = some o → r.cause = some o ∧ t = [] := by
  rcases solve_eq_report h with ⟨o, ho, rfl⟩ | ⟨hfree, -⟩
  · have hnil : P.Legal [] := trivial
    refine ⟨[], hnil, nodeCount_pos_of_obstacle ho, ?_, fun o' ho' => ⟨ho.symm.trans ho', rfl⟩⟩
    rw [← hnil.snapshot_assemble hP hT]
    rfl
  · obtain ⟨seen, t, -, -, ht, hlt, -, houtline, -⟩ :=
      exists_trail_of_solve_eq_error hP hT hfree h
    refine ⟨t, ((mem_cons_trails hP hT).1 ht).1, P.length_agenda ▸ hlt, houtline, ?_⟩
    intro o ho
    rw [hfree] at ho
    cases ho

theorem exists_not_mem_nodes {t : Trail} (hlt : t.length < P.pattern.nodeCount) :
    ∃ a ∈ P.pattern.nodeIds, a ∉ t.nodes := by
  by_contra hall
  have hsub : P.pattern.nodeIds ⊆ t.nodes := fun a ha => by_contra fun hnew => hall ⟨a, ha, hnew⟩
  have hle := (P.pattern.nodup_nodeIds.subperm hsub).length_le
  rw [Trail.length_nodes] at hle
  simp only [Graph.nodeIds, List.length_map, List.length_range] at hle
  omega

/-- The report of any failure names both graphs, and shows a valid placement of part of the pattern:
each node and each port in its turn, a port as assigned just when its node is, and some node as not
assigned.  An obstacle before the search is reported as the cause, and then nothing is assigned. -/
theorem solve_reports_placement (hP : P.pattern.Built) (hT : P.target.Built)
    (h : (P.solve config).result = .error r) :
    r.pattern = P.pattern.desc ∧ r.target = P.target.desc ∧
    ∃ shown, r.reached = some shown ∧
      shown.nodes.map Binding.label = P.pattern.nodes.toList.map Node.desc ∧
      shown.ports.map Binding.label = P.pattern.ports.toList.map Port.desc ∧
      (∃ ns pl, ns ⊆ P.pattern.nodeIds ∧ P.Places ns pl ∧ shown = P.labels pl) ∧
      (∀ p a, P.pattern.owner? p = some a → shown.showsPort p = shown.showsNode a) ∧
      (∃ a ∈ P.pattern.nodeIds, shown.showsNode a = false) ∧
      ∀ o, P.obstacle? = some o → r.cause = some o ∧
        (∀ a, shown.showsNode a = false) ∧ ∀ p, shown.showsPort p = false := by
  obtain ⟨t, hlegal, hlt, houtline, hcause⟩ :=
    exists_legal_of_solve_eq_error hP.wellFormed hT.wellFormed h
  have hplaces := hlegal.places hP.wellFormed hT.wellFormed
  have hnode : ∀ {a}, (P.labels (P.assemble t).placement).showsNode a = true ↔ a ∈ t.nodes :=
    hplaces.showsNode_iff hlegal.nodes_subset
  refine ⟨congrArg Outline.pattern houtline, congrArg Outline.target houtline,
    P.labels (P.assemble t).placement, congrArg Outline.reached houtline, P.map_label_nodes _,
    P.map_label_ports _, ⟨t.nodes, _, hlegal.nodes_subset, hplaces, rfl⟩, ?_, ?_, ?_⟩
  · intro p a howner
    rw [Bool.eq_iff_iff, hplaces.showsPort_iff, hnode, howner]
    simp
  · obtain ⟨a, ha, hnew⟩ := exists_not_mem_nodes hlt
    exact ⟨a, ha, Bool.eq_false_iff.2 (mt hnode.1 hnew)⟩
  · intro o ho
    obtain ⟨hreported, rfl⟩ := hcause o ho
    refine ⟨hreported, fun a => Bool.eq_false_iff.2 (mt hnode.1 (by simp [Trail.nodes])),
      fun p => ?_⟩
    rw [Bool.eq_false_iff, ne_eq, hplaces.showsPort_iff]
    simp [Trail.nodes]

/-- Two rounds are not enough to find the pair on the last two of three nodes; what is shown then is
the first placement of one node. -/
theorem solve_reports_placement_pair :
    ((pairAmong [.connect ⟨1⟩ ⟨2⟩]).solve ⟨2⟩).result = .error pairNotYet ∧
    (∃ shown ns pl, pairNotYet.reached = some shown ∧
      (pairAmong [.connect ⟨1⟩ ⟨2⟩]).Places ns pl ∧
      shown = (pairAmong [.connect ⟨1⟩ ⟨2⟩]).labels pl) := by
  obtain ⟨-, -, shown, hreached, -, -, ⟨ns, pl, -, hplaces, hshown⟩, -⟩ :=
    solve_reports_placement ⟨_, _, rfl⟩ ⟨_, _, rfl⟩ solve_pairAmong_two_rounds
  exact ⟨solve_pairAmong_two_rounds, shown, ns, pl, hreached, hplaces, hshown⟩

end Problem

end PortMatch
