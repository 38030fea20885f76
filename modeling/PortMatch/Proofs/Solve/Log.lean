import Mathlib
import PortMatch.Proofs.Search.Log
import PortMatch.Proofs.Solve.Replay

/-!
# The log of an attempt

Whoever reads the log of `Problem.solve` at its finest level learns the same as its observer.  The
log has an entry for every pin and one for every step back that takes a node back, between an entry
for the beginning and one for the result; and it says so when everything has been tried.

* `Problem.entries_solve` — the log is the one that belongs to the events;
* `Problem.Logs` — what the log says about the search and its result;
* `Problem.solve_logs` — every attempt is logged like this.
-/

namespace PortMatch

/-! ## An example -/

/-- What is logged when the pair is nowhere. -/
def loggedNowhere : List Entry :=
  [.solveStart "pair" "three" 2 3 10000, .pin 1 "a" "x", .backtrack 1 "a", .pin 2 "a" "y",
    .backtrack 1 "a", .pin 3 "a" "z", .backtrack 1 "a", .exhausted 3, .solveFailed none]

theorem entriesAt_pairAmong_nil :
    (pairAmong []).solve.trace.entriesAt .trace = loggedNowhere := by
  decide +kernel

namespace Trace

/-- At the finest level a log shows everything. -/
theorem entriesAt_trace (t : Trace) : t.entriesAt .trace = t.entries := by
  refine List.filter_eq_self.2 fun e _ => ?_
  cases e <;> rfl

end Trace

namespace Problem

variable {P : Problem} {config : Config}

/-! ## All entries -/

/-- What is logged between the beginning and the end of an attempt. -/
theorem entries_solve_eq (P : Problem) (config : Config) :
    (P.solve config).trace.entries
      = .solveStart P.pattern.desc P.target.desc P.pattern.nodeCount P.target.nodeCount
          config.budget
        :: (Trace.entries (P.attempt config.budget).2 ++ [.closing (P.solve config).result]) := by
  have hclosing : ∀ result, Trace.entries (closing result) = [.closing result] := by
    intro result
    cases result <;> rfl
  have hentries : (P.solve config).trace.entries
      = Trace.entries (P.opening config.budget ++ (P.attempt config.budget).2
        ++ closing (P.solve config).result) := rfl
  rw [hentries, Trace.entries, List.filterMap_append, List.filterMap_append]
  exact congrArg (_ :: ·) (congrArg (_ ++ ·) (hclosing _))

/-- At its end a search has logged what should be logged with its events; if it has tried everything,
it has logged that as well. -/
theorem logged_run (hP : P.pattern.WellFormed) (hT : P.target.WellFormed) (limit budget : ℕ)
    {how : Ending} {s : Search} (hrun : (Search.start P).run P limit = (how, s)) :
    s.logged P budget = P.log budget (s.told P)
      ++ if how = .exhausted then [.exhausted ((s.told P).countP Event.isPinning)] else [] := by
  obtain ⟨last, ⟨⟨t, best, h⟩, hlog⟩, hended⟩ := Search.exists_last P limit
    (motive := fun s => (∃ t best, P.Informs s t best) ∧
      s.logged P budget = P.log budget (s.told P))
    ⟨⟨_, _, informs_start hP hT⟩, rfl⟩
    fun ⟨⟨_, _, h⟩, hlog⟩ hstep => ⟨h.moved hP hT hstep, h.logged_moved hstep hlog⟩
  replace hended : last.step P limit = .ended how s := by rw [hended, hrun]
  have htold : s.told P = last.told P := congrArg (_ :: ·) (Search.events_of_ended hended)
  have hcount : s.rounds = (s.told P).countP Event.isPinning := by
    have hcount := Search.countP_isPinning_events P limit
    rw [hrun] at hcount
    exact hcount.symm
  rcases Search.step_eq_ended hended with ⟨rfl, -, -, rfl⟩ | ⟨rfl, -, -, rfl⟩ |
    ⟨f, f', frames, p, rfl, -, -, -, -, rfl⟩
  · rw [hlog]
    exact (List.append_nil _).symm
  · have hentries : Search.logged P budget
          { last with news := .entry (.exhausted last.rounds) :: last.news }
        = last.logged P budget ++ [.exhausted last.rounds] := by
      simp [Search.logged, Search.entries, Trace.entries, News.entry?]
    rw [hentries, hlog, ← htold, ← hcount]
    rfl
  · rw [hlog]
    exact (List.append_nil _).symm

/-- The log of an attempt is the one that belongs to its events. -/
theorem entries_solve (hP : P.pattern.WellFormed) (hT : P.target.WellFormed) (config : Config) :
    (P.solve config).trace.entries = P.log config.budget (P.solve config).trace.events := by
  rw [entries_solve_eq]
  cases ho : P.obstacle? with
  | some o =>
    have hresult : (P.solve config).result = .error (P.report (.unassigned P.pattern) (some o)) :=
      congrArg Prod.fst (attempt_of_obstacle ho config.budget)
    rw [events_solve_of_obstacle ho, attempt_of_obstacle ho, hresult]
    rfl
  | none =>
    rcases hrun : (Search.start P).run P config.budget with ⟨how, s⟩
    have hattempt := attempt_of_free ho config.budget
    rw [hrun] at hattempt
    have hresult : (P.solve config).result = P.verdict config.budget s how :=
      congrArg Prod.fst hattempt
    have hlogged := logged_run hP hT config.budget config.budget hrun
    rw [Search.logged, Search.entries] at hlogged
    rw [events_solve_of_free ho, hrun, log_append_singleton, hattempt, hresult,
      ← List.cons_append, hlogged]
    cases how <;> simp [verdict, Event.closing, Entry.closing, entriesOf, report]

/-- Where in the log of an attempt its beginning and its end are found. -/
theorem exists_course (hP : P.pattern.WellFormed) (hT : P.target.WellFormed) (config : Config) :
    let result := (P.solve config).result
    let events := (P.solve config).trace.events
    ∃ course last, P.log config.budget events = .solveStart P.pattern.desc P.target.desc
        P.pattern.nodeCount P.target.nodeCount config.budget
          :: ((course ++ last) ++ [.closing result]) ∧
      (∀ x ∈ course, x.level ≠ .info ∧ x.isExhausted = false) ∧ last.length ≤ 1 ∧
      ∀ x, x ∈ last ↔ x = .exhausted (events.countP Event.isPinning) ∧
        ∃ r, result = .error r ∧ r.cause = none := by
  intro result events
  obtain ⟨told, steps, t, best, htold, hevents, hsteps, -, -⟩ := exists_told_of_solve hP hT config
  replace hevents : events = (told ++ steps) ++ [.closing result] := hevents
  obtain ⟨moves, hmoves, hall⟩ := htold.exists_moves
  have hall' : ∀ e ∈ moves ++ steps, e.isMove = true := by
    refine List.forall_mem_append.2 ⟨hall, ?_⟩
    rcases hsteps with rfl | ⟨rfl, -⟩
    · simp
    · simp [Event.isMove]
  obtain ⟨course, hcourse, hsorts⟩ :=
    exists_log_eq config.budget P.pattern.desc P.target.desc hall'
  obtain ⟨last, hlast, hlen, hmem⟩ :=
    P.exists_entriesOf_closing_eq config.budget (told ++ steps) result
  have hpins : events.countP Event.isPinning = (told ++ steps).countP Event.isPinning := by
    rw [hevents, List.countP_append, List.countP_singleton, Event.isPinning_closing]
    rfl
  refine ⟨course, last, ?_, hsorts, hlen, hpins ▸ hmem⟩
  rw [hevents, log_append_singleton, hlast, hmoves, List.cons_append, hcourse]
  simp

/-- Before every step back, those nodes are on the stack that were pinned and not taken back. -/
theorem placed_of_backtracked (hP : P.pattern.WellFormed) (hT : P.target.WellFormed)
    {before : List Event} {n : ℕ}
    (hback : before ++ [.backtracked n] <+: (P.solve config).trace.events) :
    (Event.stackAfter before).length + Event.stepsBack before
      = before.countP Event.isPinning := by
  obtain ⟨told, steps, t, best, htold, hevents, hsteps, -, -⟩ := exists_told_of_solve hP hT config
  rw [hevents] at hback
  rcases concat_isPrefix_concat.1 hback with ⟨-, hlast⟩ | hback
  · cases hresult : (P.solve config).result <;> rw [hresult] at hlast <;> cases hlast
  have hold : before ++ [.backtracked n] <+: told ∨ before = told := by
    rcases hsteps with rfl | ⟨rfl, -⟩
    · rw [List.append_nil] at hback
      exact .inl hback
    · exact (concat_isPrefix_concat.1 hback).symm.imp_right And.left
  rcases hold with hback | rfl
  · obtain ⟨t, best, hbefore⟩ := htold.exists_told_of_backtracked hback
    exact hbefore.length_stackAfter_add
  · exact htold.length_stackAfter_add

/-! ## Reading the log -/

/-- The entries of a log agree with the events of a search that led to the result. -/
structure Logs (P : Problem) (budget : ℕ) (result : Except (Report Obstacle) Solution)
    (events : List Event) (entries : List Entry) : Prop where
  /-- With every event, just that is logged which the events so far determine. -/
  log : entries = P.log budget events
  /-- The beginning is logged first and the result last, and neither is logged in between. -/
  frame : ∃ course, entries = .solveStart P.pattern.desc P.target.desc P.pattern.nodeCount
      P.target.nodeCount budget :: (course ++ [.closing result]) ∧ ∀ e ∈ course, e.level ≠ .info
  /-- Every pin is logged, in order, with the number of its round and with the descriptions of the
  node and its host. -/
  pin : entries.filter Entry.isPin = (events.filterMap Event.pinned?).mapIdx fun i pair =>
    .pin (i + 1) (P.pattern.nodeDesc pair.1) (P.target.nodeDesc pair.2)
  /-- Every step back that takes a node back is logged, in order, with the number of the nodes that
  were placed, and with the description of the latest one. -/
  backtrack : entries.filter Entry.isBacktrack = (Event.undos events).map fun u =>
    .backtrack u.1 (P.pattern.nodeDesc u.2)
  /-- Before a step back, those nodes are placed that were pinned and not taken back. -/
  placed : ∀ {before steps}, before ++ [.backtracked steps] <+: events →
    (Event.stackAfter before).length + Event.stepsBack before = before.countP Event.isPinning
  /-- A search that has tried everything logs the number of its pins, and no other search does. -/
  exhausted : ∀ n, .exhausted n ∈ entries ↔
    n = events.countP Event.isPinning ∧ ∃ r, result = .error r ∧ r.cause = none
  /-- It does so only once. -/
  exhausted_once : entries.countP Entry.isExhausted ≤ 1

/-- However a search ends, its log agrees with what the observer is told. -/
theorem solve_logs (hP : P.pattern.Built) (hT : P.target.Built) (config : Config) :
    P.Logs config.budget (P.solve config).result (P.solve config).trace.events
      ((P.solve config).trace.entriesAt .trace) := by
  obtain ⟨course, last, hentries, hcourse, hlen, hlast⟩ :=
    exists_course hP.wellFormed hT.wellFormed config
  rw [Trace.entriesAt_trace, entries_solve hP.wellFormed hT.wellFormed config]
  constructor
  case log => rfl
  case frame =>
    refine ⟨course ++ last, hentries, List.forall_mem_append.2 ⟨?_, ?_⟩⟩
    · exact fun x hx => (hcourse x hx).1
    · intro x hx
      rw [((hlast x).1 hx).1]
      exact Level.noConfusion
  case pin => exact P.filter_isPin_log _ _
  case backtrack => exact P.filter_isBacktrack_log _ _
  case placed => exact placed_of_backtracked hP.wellFormed hT.wellFormed
  case exhausted =>
    intro n
    have hnot : .exhausted n ∉ course := fun hx => Bool.noConfusion (hcourse _ hx).2
    have hclosing : ∀ result, .exhausted n ≠ Entry.closing result := by
      intro result
      cases result <;> exact Entry.noConfusion
    rw [hentries]
    simp [hnot, hclosing, hlast]
  case exhausted_once =>
    have hnone : course.countP Entry.isExhausted = 0 :=
      List.countP_eq_zero.2 fun x hx => by simp [(hcourse x hx).2]
    have hclosing : ∀ result, (Entry.closing result).isExhausted = false := by
      intro result
      cases result <;> rfl
    rw [hentries, List.countP_cons_of_neg Bool.noConfusion, List.countP_append, List.countP_append,
      hnone, List.countP_singleton, hclosing, Nat.zero_add]
    exact List.countP_le_length.trans hlen

/-- When the pair is nowhere, its first node is logged as placed three times and as taken back three
times, although there are four steps back. -/
theorem solve_logs_pair :
    (pairAmong []).Logs 10000 (.error pairNowhere) toldNowhere loggedNowhere := by
  have hlogs := solve_logs (P := pairAmong []) ⟨_, _, rfl⟩ ⟨_, _, rfl⟩ {}
  rwa [events_pairAmong_nil, solve_pairAmong_nil, entriesAt_pairAmong_nil] at hlogs

end Problem

end PortMatch
