import Mathlib
import PortMatch.Proofs.Placement.Solution
import PortMatch.Proofs.Search.Informs
import PortMatch.Proofs.Solve.Failure

/-!
# What an observer can tell

An observer of `Problem.solve` who keeps track of its events with a stack can tell what comes of it.
A solution places the nodes as the stack does at the end, and a report shows them as the stack did
when it first was at its highest.

* `Problem.Replays` — what the events say about the search and its result;
* `Problem.exists_told_of_solve` — the trails behind the events and the result;
* `Problem.solve_replays` — the events of every attempt replay it.
-/

namespace PortMatch

/-! ## An example -/

/-- What an observer is told when the pair is nowhere. -/
def toldNowhere : List Event :=
  [.starting "pair" "three", .round 1, .pinning ⟨0⟩ ⟨0⟩, .backtracked 1, .round 2,
    .pinning ⟨0⟩ ⟨1⟩, .backtracked 1, .round 3, .pinning ⟨0⟩ ⟨2⟩, .backtracked 1, .backtracked 1,
    .failed pairNowhere]

theorem events_pairAmong_nil : (pairAmong []).solve.trace.events = toldNowhere := by
  decide +kernel

namespace Problem

variable {P : Problem} {config : Config} {result : Except (Report Obstacle) Solution}
  {t : Trail}

/-! ## Reading the stack -/

theorem node?_assemble_eq_lookup (P : Problem) (t : Trail) (a : NodeId) :
    (P.assemble t).node? a = (t.map Pinned.pair).lookup a := by
  induction t with
  | nil => simp [assemble]
  | cons e t ih =>
    rw [assemble, Assignment.node?_place, List.map_cons, Pinned.pair, List.lookup_cons, ih]
    by_cases ha : e.node = a
    · simp [ha]
    · simp [ha, beq_false_of_ne (Ne.symm ha)]

/-- Read id by id, the assignment of a legal trail lists the nodes and hosts of the trail. -/
theorem Legal.perm_pairs (h : P.Legal t) :
    (t.map Pinned.pair).Perm (pairs P.pattern.nodeIds (P.assemble t).node?) := by
  have hnodup : (t.map Pinned.pair).Nodup := by
    have hnodes := h.nodup_nodes
    rw [Trail.nodes, List.map_reverse, List.nodup_reverse] at hnodes
    exact List.Nodup.of_map Prod.fst (by rwa [List.map_map])
  refine (List.perm_ext_iff_of_nodup hnodup (nodup_pairs P.pattern.nodup_nodeIds _)).2 ?_
  rintro ⟨a, c⟩
  rw [mem_pairs, node?_assemble_eq_some_iff h, List.mem_map]
  refine ⟨?_, ?_⟩
  · rintro ⟨e, he, hpair⟩
    obtain ⟨rfl, rfl⟩ := Prod.mk.inj hpair
    exact ⟨h.nodes_subset (Trail.mem_nodes.2 ⟨e, he, rfl⟩), e, he, rfl, rfl⟩
  · rintro ⟨-, e, he, rfl, rfl⟩
    exact ⟨e, he, rfl⟩

/-! ## The trails behind the events -/

theorem events_solve_of_free (hfree : P.obstacle? = none) (config : Config) :
    (P.solve config).trace.events
      = ((Search.start P).run P config.budget).2.told P ++ [.closing (P.solve config).result] := by
  rw [events_solve, events_attempt_of_free hfree]
  rfl

/-- The events before the last one lead to the trail that a solution is read off, and to the one that
a report shows.  After a search that has tried everything, there is one more step back. -/
theorem exists_told_of_solve (hP : P.pattern.WellFormed) (hT : P.target.WellFormed)
    (config : Config) :
    ∃ events steps t best, P.Told events t best ∧
      (P.solve config).trace.events = (events ++ steps) ++ [.closing (P.solve config).result] ∧
      (steps = [] ∨ steps = [.backtracked 1] ∧
        ∃ r, (P.solve config).result = .error r ∧ r.cause = none) ∧
      (∀ sol, (P.solve config).result = .ok sol →
        sol.nodes = pairs P.pattern.nodeIds (P.assemble t).node?) ∧
      ∀ r, (P.solve config).result = .error r →
        r.reached = some (P.labels (P.assemble best).placement) := by
  cases ho : P.obstacle? with
  | some o =>
    have hresult : (P.solve config).result = .error (P.report (.unassigned P.pattern) (some o)) :=
      congrArg Prod.fst (attempt_of_obstacle ho config.budget)
    have hnil : P.Legal [] := trivial
    -- there is no search, so both trails are empty
    refine ⟨_, [], [], [], .starting, ?_, .inl rfl, ?_, ?_⟩
    · rw [events_solve, attempt_of_obstacle ho]
      rfl
    · intro sol hsol
      rw [hresult] at hsol
      cases hsol
    · intro r hr
      rw [hresult] at hr
      cases hr
      exact congrArg some (hnil.snapshot_assemble hP hT)
  | none =>
    rcases hrun : (Search.start P).run P config.budget with ⟨how, s⟩
    obtain ⟨events, steps, t, best, htold, hlast, hcurrent, hbest, hsteps⟩ := exists_told hP hT hrun
    have hresult : (P.solve config).result = P.verdict config.budget s how := by
      have hattempt := congrArg Prod.fst (attempt_of_free ho config.budget)
      rwa [hrun] at hattempt
    refine ⟨events, steps, t, best, htold, ?_, ?_, ?_, ?_⟩
    · rw [events_solve_of_free ho, hrun, hlast]
    · refine hsteps.imp_right ?_
      rintro ⟨rfl, rfl⟩
      exact ⟨rfl, _, hresult, rfl⟩
    · intro sol hsol
      obtain ⟨-, s', hrun', rfl⟩ := solve_eq_ok hsol
      obtain ⟨-, rfl⟩ := Prod.mk.inj (hrun.symm.trans hrun')
      rw [hcurrent]
      rfl
    · intro r hr
      have hlegal := ((mem_cons_trails hP hT).1 htold.best_mem).1
      rw [← hlegal.snapshot_assemble hP hT, ← hbest]
      rcases solve_eq_report hr with ⟨o, ho', -⟩ | ⟨-, how', s', hrun', hend⟩
      · rw [ho] at ho'
        cases ho'
      · obtain ⟨-, rfl⟩ := Prod.mk.inj (hrun.symm.trans hrun')
        rcases hend with ⟨-, rfl⟩ | ⟨-, rfl⟩ <;> rfl

/-! ## Replaying an attempt -/

/-- The events replay the search that led to the result. -/
structure Replays (P : Problem) (result : Except (Report Obstacle) Solution)
    (events : List Event) : Prop where
  /-- The beginning is told first and the result last, and neither is told in between. -/
  frame : ∃ moves, events = .starting P.pattern.desc P.target.desc :: (moves ++ [.closing result]) ∧
    ∀ e ∈ moves, e.isMove = true
  /-- The rounds are counted from one, and each begins with a pin. -/
  round : ∀ {before index}, before ++ [.round index] <+: events →
    index = before.countP Event.isRound + 1 ∧
      ∃ node host, before ++ [.round index, .pinning node host] <+: events
  /-- There are no other pins, and each places the next node, on a host that is not in use. -/
  pinning : ∀ {before node host}, before ++ [.pinning node host] <+: events →
    P.NextPin before node host
  /-- A step back that finds the stack empty is the last move of a search that has tried
  everything. -/
  backtracked : ∀ {before steps}, before ++ [.backtracked steps] <+: events →
    Event.stackAfter before = [] →
      ∃ r, result = .error r ∧ r.cause = none ∧ events = before ++ [.backtracked steps, .failed r]
  /-- The stack at the end holds the nodes of a solution. -/
  solution : ∀ {sol}, result = .ok sol → (Event.stackAfter events).Perm sol.nodes
  /-- A report shows the nodes as the stack held them at its peak. -/
  report : ∀ {r}, result = .error r → ∃ shown top, r.reached = some shown ∧
    Event.Peak events top ∧
    shown.nodes = P.pattern.nodeIds.map fun a =>
      ⟨P.pattern.nodeDesc a, ((Event.stackAfter top).lookup a).map P.target.nodeDesc⟩

/-- All rounds and pins are told on the way to the last trail. -/
theorem isPrefix_of_steps {events steps before : List Event} {e : Event}
    (hsteps : steps = [] ∨ steps = [.backtracked 1])
    (he : e.isRound = true ∨ e.isPinning = true)
    (h : before ++ [e] <+: (events ++ steps) ++ [.closing result]) : before ++ [e] <+: events := by
  rcases concat_isPrefix_concat.1 h with ⟨-, rfl⟩ | h
  · cases result <;> simp [Event.closing, Event.isRound, Event.isPinning] at he
  rcases hsteps with rfl | rfl
  · rwa [List.append_nil] at h
  · rcases concat_isPrefix_concat.1 h with ⟨-, rfl⟩ | h
    · simp [Event.isRound, Event.isPinning] at he
    · exact h

/-- However a search ends, the observer can follow it with a stack: each round places the next node
in the search order, a step back takes the latest one off, and what the search returns can be read
off the stack. -/
theorem solve_replays (hP : P.pattern.Built) (hT : P.target.Built) (config : Config) :
    P.Replays (P.solve config).result (P.solve config).trace.events := by
  obtain ⟨events, steps, t, best, htold, hevents, hsteps, hsol, hreport⟩ :=
    exists_told_of_solve hP.wellFormed hT.wellFormed config
  have hinPlace : ∀ {before e}, before ++ [e] <+: events → P.InPlace before e :=
    htold.inPlace hP.wellFormed hT.wellFormed
  rw [hevents]
  constructor
  case frame =>
    obtain ⟨moves, hmoves, hall⟩ := htold.exists_moves
    refine ⟨moves ++ steps, by rw [hmoves]; rfl, List.forall_mem_append.2 ⟨hall, ?_⟩⟩
    rcases hsteps with rfl | ⟨rfl, -⟩
    · simp
    · simp [Event.isMove]
  case round =>
    intro before index h
    have hold := isPrefix_of_steps (hsteps.imp_right And.left) (.inl rfl) h
    obtain ⟨node, host, hpin⟩ := htold.pinning_of_round hold
    exact ⟨hinPlace hold, node, host,
      (hpin.trans (List.prefix_append _ _)).trans (List.prefix_append _ _)⟩
  case pinning =>
    intro before node host h
    exact hinPlace (isPrefix_of_steps (hsteps.imp_right And.left) (.inr rfl) h)
  case backtracked =>
    intro before n h hnil
    -- every step back on the way to the last trail takes something off the stack
    have hnot : ¬ before ++ [.backtracked n] <+: events := fun hold => hinPlace hold hnil
    rcases concat_isPrefix_concat.1 h with ⟨-, hlast⟩ | h
    · cases hresult : (P.solve config).result <;> rw [hresult] at hlast <;> cases hlast
    rcases hsteps with rfl | ⟨rfl, r, hr, hcause⟩
    · rw [List.append_nil] at h
      exact absurd h hnot
    · rcases concat_isPrefix_concat.1 h with ⟨rfl, hlast⟩ | h
      · refine ⟨r, hr, hcause, ?_⟩
        rw [hr, hlast, List.append_assoc]
        rfl
      · exact absurd h hnot
  case solution =>
    intro sol hok
    obtain rfl : steps = [] := by
      rcases hsteps with rfl | ⟨-, r, hr, -⟩
      · rfl
      · rw [hok] at hr
        cases hr
    rw [List.append_nil, Event.stackAfter_append_closing, htold.stackAfter_eq, hsol sol hok]
    exact (htold.legal hP.wellFormed hT.wellFormed).perm_pairs
  case report =>
    intro r hr
    obtain ⟨top, hpeak, htop⟩ := htold.exists_peak
    have hpeak' : Event.Peak (events ++ steps) top := by
      rcases hsteps with rfl | ⟨rfl, -⟩
      · rwa [List.append_nil]
      · exact hpeak.of_not_isPinning rfl
    refine ⟨_, top, hreport r hr, hpeak'.of_not_isPinning (Event.isPinning_closing _), ?_⟩
    rw [htop]
    simp only [← node?_assemble_eq_lookup P]
    rfl

/-- Without links among the three nodes, the first node of the pair is placed three times, and the
last step back finds the stack empty. -/
theorem solve_replays_pair : (pairAmong []).Replays (.error pairNowhere) toldNowhere := by
  have hreplays := solve_replays (P := pairAmong []) ⟨_, _, rfl⟩ ⟨_, _, rfl⟩ {}
  rwa [events_pairAmong_nil, solve_pairAmong_nil] at hreplays

end Problem

end PortMatch
