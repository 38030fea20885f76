import Mathlib
import PortMatch.Proofs.Search.Course
import PortMatch.Proofs.Search.Tracks

/-!
# A search as a scan of all trails

Seen from outside, a search reads the list of the trails ahead of it, one trail with each pin, until
it meets a complete one, the list ends, or the budget is used up.  It never comes to anything that
is not on the list, and never leaves out anything on it.

* `Scans` — reading a list of trails in this way;
* `Scans.found`, `Scans.exhausted`, `Scans.incomplete` — what the endings say about the list;
* `Problem.Visits` — a search reads the given trails;
* `Problem.Tracks.visits` — so does every search that is at a trail.
-/

namespace PortMatch

/-! ## Scans -/

/-- Reading the trails ahead, at most `budget` many of them, until the latest one has `goals` pins:
`Scans goals budget latest ahead how seen` says that the reading ends as `how` tells, after the
trails `seen`. -/
inductive Scans (goals : ℕ) : ℕ → Trail → List Trail → Ending → List Trail → Prop where
  /-- The latest trail is complete. -/
  | complete {budget : ℕ} {latest : Trail} {ahead : List Trail} (h : latest.length = goals) :
    Scans goals budget latest ahead .found []
  /-- No trail is left. -/
  | ended {budget : ℕ} {latest : Trail} (h : latest.length ≠ goals) :
    Scans goals budget latest [] .exhausted []
  /-- The budget does not allow another trail. -/
  | spent {latest t : Trail} {ahead : List Trail} (h : latest.length ≠ goals) :
    Scans goals 0 latest (t :: ahead) .outOfRounds []
  /-- The next trail is read. -/
  | read {budget : ℕ} {latest t : Trail} {ahead seen : List Trail} {how : Ending}
    (h : latest.length ≠ goals) (hrest : Scans goals budget t ahead how seen) :
    Scans goals (budget + 1) latest (t :: ahead) how (t :: seen)

namespace Scans

variable {goals budget : ℕ} {latest latest' : Trail} {ahead seen : List Trail} {how : Ending}

/-- Of the latest trail it only matters whether it is complete. -/
theorem congr (h : Scans goals budget latest ahead how seen)
    (hiff : latest.length = goals ↔ latest'.length = goals) :
    Scans goals budget latest' ahead how seen := by
  cases h with
  | complete h => exact .complete (hiff.1 h)
  | ended h => exact .ended (mt hiff.2 h)
  | spent h => exact .spent (mt hiff.2 h)
  | read h hrest => exact .read (mt hiff.2 h) hrest

/-- The trails that are read are the first ones ahead. -/
theorem isPrefix (h : Scans goals budget latest ahead how seen) : seen <+: ahead := by
  induction h with
  | complete _ => exact List.nil_prefix
  | ended _ => exact List.nil_prefix
  | spent _ => exact List.nil_prefix
  | read _ _ ih => exact List.cons_prefix_cons.2 ⟨rfl, ih⟩

/-- A scan that finds something has read up to the first complete trail. -/
theorem found (h : Scans goals budget latest ahead .found seen) :
    ∃ before last, latest :: seen = before ++ [last] ∧ last.length = goals ∧
      ∀ t ∈ before, t.length ≠ goals := by
  generalize hhow : Ending.found = how at h
  induction h with
  | @complete _ latest _ hlast => exact ⟨[], latest, rfl, hlast, by simp⟩
  | ended _ => cases hhow
  | spent _ => cases hhow
  | @read _ latest t _ seen _ hne _ ih =>
    obtain ⟨before, last, hsplit, hlast, hbefore⟩ := ih hhow
    exact ⟨latest :: before, last, by rw [hsplit]; rfl, hlast, by simpa using ⟨hne, hbefore⟩⟩

/-- An exhausted scan has read everything, and nothing was complete. -/
theorem exhausted (h : Scans goals budget latest ahead .exhausted seen) :
    seen = ahead ∧ ∀ t ∈ latest :: ahead, t.length ≠ goals := by
  generalize hhow : Ending.exhausted = how at h
  induction h with
  | complete _ => cases hhow
  | ended hne => exact ⟨rfl, by simpa using hne⟩
  | spent _ => cases hhow
  | read hne _ ih =>
    obtain ⟨hseen, hall⟩ := ih hhow
    refine ⟨by rw [hseen], ?_⟩
    intro u hu
    rcases List.mem_cons.1 hu with rfl | hu
    · exact hne
    · exact hall u hu

/-- A scan that finds nothing has read nothing complete. -/
theorem incomplete (h : Scans goals budget latest ahead how seen) (hhow : how ≠ .found) :
    ∀ t ∈ latest :: seen, t.length ≠ goals := by
  induction h with
  | complete _ => exact absurd rfl hhow
  | ended hne => simpa using hne
  | spent hne => simpa using hne
  | read hne _ ih => exact List.forall_mem_cons.2 ⟨hne, ih hhow⟩

end Scans

/-! ## Searches are scans -/

namespace Problem

variable {P : Problem} {budget : ℕ} {s s' : Search} {t : Trail}

/-- The search `s` at the trail `t` reads the trails `seen`: its assignment right after each pin is
that of the trail read with the pin. -/
structure Visits (P : Problem) (budget : ℕ) (s : Search) (t : Trail) (seen : List Trail) :
    Prop where
  /-- The search is a scan of the trails ahead. -/
  scans : Scans P.agenda.length (budget - s.rounds) t (s.ahead P t) (s.run P budget).1 seen
  /-- Each pin leaves the assignment of the trail that is read. -/
  assignments : (s.pinned P budget).map Search.current = seen.map P.assemble
  /-- The pins are counted. -/
  rounds : (s.pinned P budget).map Search.rounds = List.range' (s.rounds + 1) seen.length
  /-- So is the total. -/
  total : (s.run P budget).2.rounds = s.rounds + seen.length
  /-- When a complete trail is met, the search ends with its assignment. -/
  final : ∀ u ∈ t :: seen, u.length = P.agenda.length → (s.run P budget).2.current = P.assemble u

namespace Visits

variable {t' : Trail} {seen : List Trail}

theorem of_resume (h : P.Visits budget s' t' seen) (hstep : s.step P budget = .moved s')
    (hphase : s'.phase = .resume) (hrounds : s'.rounds = s.rounds)
    (hahead : s'.ahead P t' = s.ahead P t)
    (hiff : t'.length = P.agenda.length ↔ t.length = P.agenda.length)
    (hsame : t.length = P.agenda.length → t' = t) : P.Visits budget s t seen := by
  have hrun := Search.run_of_moved hstep
  have hpinned := Search.pinned_of_resume hstep hphase
  constructor
  case scans => exact hrun ▸ hrounds ▸ hahead ▸ h.scans.congr hiff
  case assignments => exact hpinned ▸ h.assignments
  case rounds => exact hpinned ▸ hrounds ▸ h.rounds
  case total => exact hrun ▸ hrounds ▸ h.total
  case final =>
    intro u hu hlen
    rw [hrun]
    rcases List.mem_cons.1 hu with rfl | hu
    · exact h.final u (hsame hlen ▸ List.mem_cons_self) hlen
    · exact h.final u (List.mem_cons_of_mem _ hu) hlen

theorem of_pin (h : P.Visits budget s' t' seen) (hstep : s.step P budget = .moved s')
    (hphase : s'.phase = .descend) (hrounds : s'.rounds = s.rounds + 1)
    (hahead : s.ahead P t = t' :: s'.ahead P t') (hlt : s.rounds < budget)
    (hne : t.length ≠ P.agenda.length) (hcurrent : s'.current = P.assemble t') :
    P.Visits budget s t (t' :: seen) := by
  have hrun := Search.run_of_moved hstep
  have hpinned := Search.pinned_of_descend hstep hphase
  constructor
  case scans =>
    have hbudget : budget - s.rounds = budget - s'.rounds + 1 := by omega
    rw [hrun, hahead, hbudget]
    exact .read hne h.scans
  case assignments =>
    rw [hpinned, List.map_cons, hcurrent, h.assignments]
    rfl
  case rounds => rw [hpinned, List.map_cons, h.rounds, hrounds, List.length_cons, List.range'_succ]
  case total =>
    have htotal := h.total
    rw [hrun, List.length_cons]
    omega
  case final =>
    intro u hu hlen
    rw [hrun]
    rcases List.mem_cons.1 hu with rfl | hu
    · exact absurd hlen hne
    · exact h.final u hu hlen

theorem of_ended {how : Ending} (hstep : s.step P budget = .ended how s')
    (hscans : Scans P.agenda.length (budget - s.rounds) t (s.ahead P t) how [])
    (hrounds : s'.rounds = s.rounds) (hcurrent : s'.current = P.assemble t) :
    P.Visits budget s t [] := by
  have hrun := Search.run_of_ended hstep
  have hpinned := Search.pinned_of_ended hstep
  constructor
  case scans => rw [hrun]; exact hscans
  case assignments => rw [hpinned]; rfl
  case rounds => rw [hpinned]; rfl
  case total => rw [hrun]; exact hrounds
  case final =>
    intro u hu _
    rw [List.mem_singleton.1 hu, hrun, hcurrent]

end Visits

namespace Tracks

/-- A move that is not a pin changes nothing about the trails ahead; a pin reads the first one. -/
theorem moved (h : P.Tracks s t) (hP : P.pattern.WellFormed) (hstep : s.step P budget = .moved s') :
    ∃ t', P.Tracks s' t' ∧
      ((s'.phase = .resume ∧ s'.rounds = s.rounds ∧ s'.ahead P t' = s.ahead P t ∧
          (t'.length = P.agenda.length ↔ t.length = P.agenda.length) ∧
          (t.length = P.agenda.length → t' = t)) ∨
        (s'.phase = .descend ∧ s'.rounds = s.rounds + 1 ∧ s.ahead P t = t' :: s'.ahead P t' ∧
          s.rounds < budget ∧ t.length ≠ P.agenda.length)) := by
  rcases Search.step_eq_moved hstep with ⟨g, rest, hphase, hpending, rfl⟩ |
    ⟨f, f', frames, p, hphase, hstack, hnext, hrounds, rfl⟩ |
    ⟨f, f', frames, hphase, hstack, hnext, rfl⟩
  · obtain ⟨htracks, hahead⟩ := h.descend hphase hpending
    exact ⟨t, htracks, .inl ⟨rfl, rfl, hahead, Iff.rfl, fun _ => rfl⟩⟩
  · obtain ⟨htracks, hahead⟩ := h.pin hphase hstack hnext
    exact ⟨_, htracks, .inr ⟨rfl, rfl, hahead, hrounds, (h.incomplete hphase).ne⟩⟩
  · obtain ⟨htracks, hahead⟩ := h.giveUp hP hphase hstack hnext
    have hlt := h.incomplete hphase
    have hlt' : t.tail.length < P.agenda.length := Nat.lt_of_le_of_lt (by simp) hlt
    refine ⟨t.tail, htracks, .inl ⟨?_, ?_, hahead, ?_, fun heq => absurd heq hlt.ne⟩⟩
    · exact (s.phase_giveUp P _ _).trans hphase
    · exact s.rounds_giveUp P _ _
    · exact iff_of_false hlt'.ne hlt.ne

theorem ended (h : P.Tracks s t) {how : Ending} (hstep : s.step P budget = .ended how s') :
    Scans P.agenda.length (budget - s.rounds) t (s.ahead P t) how [] ∧
      s'.rounds = s.rounds ∧ s'.current = s.current := by
  rcases Search.step_eq_ended hstep with ⟨rfl, hphase, hpending, rfl⟩ |
    ⟨rfl, hphase, hstack, rfl⟩ | ⟨f, f', frames, p, rfl, hphase, hstack, hnext, hrounds, rfl⟩
  · refine ⟨.complete ?_, rfl, rfl⟩
    have hagenda := h.agenda
    rw [hpending, List.append_nil] at hagenda
    rw [h.length_eq, ← hagenda, Search.placed, hphase]
    simp
  · have hahead : s.ahead P t = [] := by
      simp only [Search.ahead, hphase, hstack, Search.resuming]
    rw [hahead]
    exact ⟨.ended (h.incomplete hphase).ne, rfl, rfl⟩
  · obtain ⟨-, hahead⟩ := h.pin hphase hstack hnext
    rw [hahead, Nat.sub_eq_zero_of_le hrounds]
    exact ⟨.spent (h.incomplete hphase).ne, rfl, rfl⟩

/-- A search that is at a trail reads the trails ahead. -/
theorem visits (h : P.Tracks s t) (hP : P.pattern.WellFormed) (budget : ℕ) :
    ∃ seen, P.Visits budget s t seen := by
  fun_induction Search.run P budget s generalizing t with
  | case1 s s' hstep ih =>
    obtain ⟨t', htracks, hmove⟩ := h.moved hP hstep
    obtain ⟨seen, hvisits⟩ := ih htracks
    rcases hmove with ⟨hphase, hrounds, hahead, hiff, hsame⟩ | ⟨hphase, hrounds, hahead, hlt, hne⟩
    · exact ⟨seen, hvisits.of_resume hstep hphase hrounds hahead hiff hsame⟩
    · exact ⟨t' :: seen, hvisits.of_pin hstep hphase hrounds hahead hlt hne htracks.current⟩
  | case2 s how s' hstep =>
    obtain ⟨hscans, hrounds, hcurrent⟩ := h.ended hstep
    exact ⟨[], .of_ended hstep hscans hrounds (hcurrent.trans h.current)⟩

end Tracks

end Problem

end PortMatch
