import PortMatch.Proofs.Text.Quoted
import PortMatch.Report.Cause

/-!
# Reading reports back

The text of a report tells everything that the report says, except in which order the bindings of
the largest assignment are stored.  It is read from the front.  The header is on the first line, and
so is the cause, since quoted texts have no line breaks; the largest assignment begins with the
first line break.  Each of its lines begins with the word for nodes or for ports, and ends where the
quoted texts in it say.  As the lines are sorted, they tell the bindings but not their order.

* `Obstacle.message_inj` — the words for different obstacles are different;
* `Binding.lines_append_inj`, `Outline.closing_eq_iff` — which assignments have the same lines;
* `Report.message_eq_message_iff` — which reports have the same text.
-/

namespace PortMatch

open Text

/-! ## Obstacles -/

namespace Obstacle

/-- The words for an obstacle are on one line. -/
theorem newline_not_mem_message (o : Obstacle) : '\n' ∉ o.message.toList := by
  have hnumber : ∀ n : Nat, '\n' ∉ (toString n).toList := fun n h => by
    cases isDigit_of_mem_toString h
  cases o <;> dsimp only [message] <;>
    simp only [String.toList_append, List.mem_append, hnumber, newline_not_mem_quote] <;> simp

/-- Obstacles with the same words are the same. -/
theorem message_inj {o o' : Obstacle} (h : o.message = o'.message) : o = o' := by
  have hlist := congrArg String.toList h
  cases o <;> cases o' <;> dsimp only [message] at h hlist
  case tooFewNodes.tooFewNodes m n m' n' =>
    simp only [String.append_assoc, String.append_right_inj] at h
    rw [toString_append_inj (by simp) (by simp), String.append_right_inj] at h
    rw [h.1, Nat.repr_injective h.2]
  case insufficientPorts.insufficientPorts s m n s' m' n' =>
    simp only [String.append_assoc, String.append_right_inj, quote_append_inj] at h
    obtain ⟨rfl, h⟩ := h
    rw [toString_append_inj (by simp) (by simp), String.append_right_inj] at h
    rw [h.1, Nat.repr_injective h.2]
  case incompatiblePortKind.incompatiblePortKind p k p' k' =>
    simp only [String.append_assoc, String.append_right_inj, quote_append_inj, quote_inj] at h
    rw [h.1, h.2]
  case noCompatibleNode.noCompatibleNode s s' =>
    rw [String.append_right_inj, quote_inj] at h
    rw [h]
  case searchLimit.searchLimit n n' =>
    simp only [String.append_assoc, String.append_right_inj] at h
    rw [toString_append_inj (by simp) (by simp)] at h
    rw [h.1]
  -- different obstacles already begin with different words
  all_goals simp at hlist

end Obstacle

/-! ## Assignments -/

namespace Binding

variable {item rest rest' : String} {bs cs : List Binding}

theorem exists_line_eq (item : String) (b : Binding) : ∃ more, b.line item = item ++ more :=
  ⟨_, by simp only [line, String.append_assoc]; rfl⟩

/-- A line tells its binding, and where it ends. -/
theorem line_append_inj {b c : Binding} (h : b.line item ++ rest = c.line item ++ rest') :
    b = c ∧ rest = rest' := by
  obtain ⟨label, image⟩ := b
  obtain ⟨label', image'⟩ := c
  simp only [line, String.append_assoc, String.append_right_inj] at h
  obtain ⟨rfl, h⟩ := quote_append_inj.1 h
  have hlist := congrArg String.toList h
  cases image <;> cases image'
  case none.none =>
    simp only [Option.elim, String.append_right_inj] at h
    exact ⟨rfl, h⟩
  case some.some s t =>
    simp only [Option.elim, String.append_assoc, String.append_right_inj, quote_append_inj] at h
    obtain ⟨rfl, h⟩ := h
    exact ⟨rfl, h⟩
  all_goals simp at hlist

/-- Lines tell their bindings, and where the last one ends, if no other line follows. -/
theorem join_append_inj (hrest : ∀ more, rest ≠ item ++ more)
    (hrest' : ∀ more, rest' ≠ item ++ more)
    (h : String.join (bs.map (line item)) ++ rest = String.join (cs.map (line item)) ++ rest') :
    bs = cs ∧ rest = rest' := by
  induction bs generalizing cs with
  | nil =>
    cases cs with
    | nil => simpa using h
    | cons c cs =>
      obtain ⟨more, hmore⟩ := exists_line_eq item c
      rw [List.map_nil, String.join_nil, String.empty_append, List.map_cons, String.join_cons,
        hmore, String.append_assoc, String.append_assoc] at h
      exact absurd h (hrest _)
  | cons b bs ih =>
    rw [List.map_cons, String.join_cons, String.append_assoc] at h
    cases cs with
    | nil =>
      obtain ⟨more, hmore⟩ := exists_line_eq item b
      rw [hmore, String.append_assoc, List.map_nil, String.join_nil, String.empty_append] at h
      exact absurd h.symm (hrest' _)
    | cons c cs =>
      rw [List.map_cons, String.join_cons, String.append_assoc] at h
      obtain ⟨rfl, hmore⟩ := line_append_inj h
      obtain ⟨rfl, rfl⟩ := ih hmore
      exact ⟨rfl, rfl⟩

/-- Bindings come in the same order when they are sorted exactly if they are the same in some
order. -/
theorem sorted_eq_sorted_iff : sorted bs = sorted cs ↔ bs.Perm cs := by
  constructor
  · intro h
    exact (sorted_perm bs).symm.trans (h ▸ sorted_perm cs)
  · intro h
    have hperm := (sorted_perm bs).trans (h.trans (sorted_perm cs).symm)
    refine hperm.eq_of_pairwise ?_ (pairwise_sorted bs) (pairwise_sorted cs)
    intro b c _ _ hbc hcb
    exact Std.LawfulEqCmp.eq_of_compare (Std.OrientedCmp.isLE_antisymm hbc hcb)

/-- The lines of a report tell the bindings up to their order. -/
theorem lines_append_inj (hrest : ∀ more, rest ≠ item ++ more)
    (hrest' : ∀ more, rest' ≠ item ++ more) :
    lines item bs ++ rest = lines item cs ++ rest' ↔ bs.Perm cs ∧ rest = rest' := by
  rw [← sorted_eq_sorted_iff, lines, lines]
  exact ⟨join_append_inj hrest hrest', fun ⟨hsorted, hrest⟩ => by rw [hsorted, hrest]⟩

theorem empty_ne_port (more : String) : "" ≠ "Port" ++ more := by
  intro h
  have hlist := congrArg String.toList h
  simp at hlist

/-- The lines for ports do not go on with the lines for nodes. -/
theorem lines_port_ne_node (bs : List Binding) (more : String) :
    lines "Port" bs ≠ "Node" ++ more := by
  intro h
  rw [lines] at h
  cases hsorted : sorted bs with
  | nil =>
    have hlist := congrArg String.toList h
    simp [hsorted] at hlist
  | cons b bs =>
    obtain ⟨rest, hrest⟩ := exists_line_eq "Port" b
    rw [hsorted, List.map_cons, String.join_cons, hrest] at h
    have hlist := congrArg String.toList h
    simp at hlist

end Binding

/-- Two snapshots that have the same bindings, in any order. -/
def Snapshot.SameBindings (s s' : Snapshot) : Prop := s.nodes.Perm s'.nodes ∧ s.ports.Perm s'.ports

/-- The lines for the nodes and the ports of a snapshot tell its bindings, up to their order. -/
theorem Snapshot.lines_eq_iff {s s' : Snapshot} :
    Binding.lines "Node" s.nodes ++ Binding.lines "Port" s.ports =
      Binding.lines "Node" s'.nodes ++ Binding.lines "Port" s'.ports ↔ s.SameBindings s' := by
  have hports : Binding.lines "Port" s.ports ++ "" = Binding.lines "Port" s'.ports ++ "" ↔ _ :=
    Binding.lines_append_inj Binding.empty_ne_port Binding.empty_ne_port
  rw [String.append_empty, String.append_empty, and_iff_left rfl] at hports
  rw [Binding.lines_append_inj (Binding.lines_port_ne_node _) (Binding.lines_port_ne_node _),
    hports, SameBindings]

namespace Outline

/-- The end of a report is empty, or it begins with a line break. -/
theorem eq_newline_of_mem_head?_closing (o : Outline) : ∀ c ∈ o.closing.toList.head?, c = '\n' := by
  rw [closing]
  cases o.reached <;> simp

/-- The end of a report tells the largest assignment, up to the order of the bindings. -/
theorem closing_eq_iff {o o' : Outline} :
    o.closing = o'.closing ↔ Option.Rel Snapshot.SameBindings o.reached o'.reached := by
  rw [closing, closing]
  cases o.reached <;> cases o'.reached
  case none.none => simp
  case some.some s s' =>
    rw [Option.elim, Option.elim, String.append_assoc, String.append_assoc,
      String.append_right_inj, Snapshot.lines_eq_iff]
    simp
  all_goals
    refine ⟨fun h => ?_, nofun⟩
    have hlist := congrArg String.toList h
    simp at hlist

end Outline

/-! ## Reports -/

namespace Report

/-- What a report shows between its header and its end. -/
def causeText (cause : Option Obstacle) : String := (cause.map Reason.message).elim "" (": " ++ ·)

theorem newline_not_mem_causeText (cause : Option Obstacle) : '\n' ∉ (causeText cause).toList := by
  cases cause with
  | none => simp [causeText]
  | some o =>
    have h := o.newline_not_mem_message
    simpa [causeText, Reason.message] using h

theorem causeText_inj {cause cause' : Option Obstacle} (h : causeText cause = causeText cause') :
    cause = cause' := by
  cases cause <;> cases cause'
  case none.none => rfl
  case some.some o o' =>
    simp only [causeText, Option.map_some, Option.elim_some, String.append_right_inj] at h
    exact congrArg some (Obstacle.message_inj h)
  all_goals
    have hlist := congrArg String.toList h
    simp [causeText] at hlist

/-- Two reports have the same text exactly if they say the same, except for the order of the
bindings in the largest assignment. -/
theorem message_eq_message_iff (r r' : Report Obstacle) :
    r.message = r'.message ↔
      r.pattern = r'.pattern ∧ r.target = r'.target ∧ r.cause = r'.cause ∧
        Option.Rel Snapshot.SameBindings r.reached r'.reached := by
  have hmessage : r.message = r'.message ↔ r.pattern = r'.pattern ∧ r.target = r'.target ∧
      causeText r.cause ++ r.closing = causeText r'.cause ++ r'.closing := by
    dsimp only [message, Outline.message, Outline.header, causeText]
    simp only [String.append_assoc, String.append_right_inj, quote_append_inj]
  rw [hmessage, ← Outline.closing_eq_iff]
  refine and_congr_right fun _ => and_congr_right fun _ =>
    ⟨fun h => ?_, fun ⟨hcause, hclosing⟩ => ?_⟩
  · -- the cause is what stands in front of the first line break
    have hline : ∀ cause, ∀ c ∈ (causeText cause).toList, decide (c ≠ '\n') = true :=
      fun cause c hc => decide_eq_true fun heq => newline_not_mem_causeText cause (heq ▸ hc)
    have hbreak : ∀ o : Outline, ∀ c ∈ o.closing.toList.head?, decide (c ≠ '\n') = false :=
      fun o c hc => decide_eq_false (not_not_intro (o.eq_newline_of_mem_head?_closing c hc))
    have hlist := congrArg String.toList h
    rw [String.toList_append, String.toList_append] at hlist
    obtain ⟨hcause, hclosing⟩ :=
      append_inj_of_all (hline r.cause) (hline r'.cause) (hbreak _) (hbreak _) hlist
    exact ⟨causeText_inj (String.toList_inj.1 hcause), String.toList_inj.1 hclosing⟩
  · rw [hcause, hclosing]

end Report

end PortMatch
