import PortMatch.Proofs.Report.Message
import PortMatch.Proofs.Text.Lines

/-!
# The layout of a report

A report with a largest assignment is written line by line: the header with the cause, a title, and
then one line for each binding.  This holds for all descriptions, since they are quoted wherever
they stand: a quoted text has no line break, begins with a mark and ends with one, so nothing that
it contains can be taken for a line or for the end of a line.

* `Binding.Precedes`, `Binding.isLE_compare_iff` — the order of the lines;
* `Snapshot.InOrder`, `Snapshot.inOrder_sorted` — the bindings of a snapshot in that order;
* `Binding.entry`, `Binding.endsWith_entry_iff` — the line of a binding, and what its end tells;
* `Binding.listing` — the lines that list a largest assignment;
* `Outline.closing_eq`, `Report.message_eq_unlines` — a report is made of its lines;
* `Report.message_lines` — what the lines of a report are.
-/

namespace PortMatch

open Text

/-! ## The order of the lines -/

namespace Binding

/-- The order of bindings: by the description of the mapped thing, and with the same description by
that of the image, where having none comes first. -/
def Precedes (b c : Binding) : Prop :=
  b.label < c.label ∨ b.label = c.label ∧ ∀ s ∈ b.image, ∃ t ∈ c.image, s ≤ t

theorem isLE_compare_option_iff {s t : Option String} :
    (compare s t).isLE = true ↔ ∀ x ∈ s, ∃ y ∈ t, x ≤ y := by
  cases s with
  | none =>
    have hfirst : (compare none t).isLE = true := by cases t <;> rfl
    simp [hfirst]
  | some x =>
    cases t with
    | none =>
      have hlast : (compare (some x) none).isLE = false := rfl
      simp [hlast]
    | some y =>
      have hle : (compare x y).isLE = true ↔ x ≤ y := Std.LawfulBCmp.isLE_iff_le
      exact hle.trans (by simp)

theorem isLE_compare_iff {b c : Binding} : (compare b c).isLE = true ↔ b.Precedes c := by
  have hlt : compare b.label c.label = .lt ↔ b.label < c.label := compare_lt_iff_lt
  have heq : compare b.label c.label = .eq ↔ b.label = c.label := compare_eq_iff_eq
  show ((compare b.label c.label).then (compare b.image c.image)).isLE = true ↔ _
  rw [Precedes, ← hlt, ← heq, ← isLE_compare_option_iff]
  cases compare b.label c.label <;> simp

end Binding

/-- The bindings of a snapshot in the order in which a report lists them. -/
structure Snapshot.InOrder (s : Snapshot) (nodes ports : List Binding) : Prop where
  /-- The bindings of the nodes. -/
  nodes_perm : nodes.Perm s.nodes
  /-- The bindings of the ports. -/
  ports_perm : ports.Perm s.ports
  /-- Those of the nodes are in order. -/
  nodes_ordered : nodes.Pairwise Binding.Precedes
  /-- So are those of the ports. -/
  ports_ordered : ports.Pairwise Binding.Precedes

theorem Snapshot.inOrder_sorted (s : Snapshot) : s.InOrder (sorted s.nodes) (sorted s.ports) where
  nodes_perm := sorted_perm s.nodes
  ports_perm := sorted_perm s.ports
  nodes_ordered := (pairwise_sorted s.nodes).imp Binding.isLE_compare_iff.1
  ports_ordered := (pairwise_sorted s.ports).imp Binding.isLE_compare_iff.1

/-! ## The line of a binding -/

namespace Binding

variable {item : String} {b : Binding}

/-- The line of a report for a binding, without the line break after it. -/
def entry (item : String) (b : Binding) : String :=
  item ++ " " ++ quote b.label ++ b.image.elim " was not assigned" (" is assigned to " ++ quote ·)

theorem line_eq_entry (item : String) (b : Binding) : b.line item = b.entry item ++ "\n" := rfl

theorem lines_eq_unlines (item : String) (bs : List Binding) :
    lines item bs = unlines ((sorted bs).map (entry item)) := by
  rw [lines, unlines, List.map_map]
  exact congrArg String.join (List.map_congr_left fun b _ => line_eq_entry item b)

theorem newline_not_mem_entry (hitem : '\n' ∉ item.toList) : '\n' ∉ (b.entry item).toList := by
  obtain ⟨label, image⟩ := b
  cases image <;> simp only [entry, Option.elim, String.toList_append, List.mem_append, hitem,
    newline_not_mem_quote] <;> simp

theorem startsWith_entry (item : String) (b : Binding) :
    (b.entry item).startsWith (item ++ " \"") = true := by
  rw [String.startsWith_string_iff]
  simp [entry]

/-- The line of a binding without an image ends with words, any other with the mark that closes a
quoted text. -/
theorem endsWith_entry_iff (item : String) (b : Binding) :
    (b.entry item).endsWith " was not assigned" = true ↔ b.image = none := by
  obtain ⟨label, image⟩ := b
  cases image with
  | none =>
    refine iff_of_true ?_ rfl
    rw [endsWith_iff, entry, String.toList_append]
    exact List.suffix_append _ _
  | some t =>
    have hwords : " was not assigned".toList.getLast? = some 'd' := rfl
    refine iff_of_false (Bool.eq_false_iff.1 (not_endsWith_of_getLast? hwords ?_)) nofun
    rw [entry, Option.elim, ← String.append_assoc, getLast?_append _ (getLast?_quote t)]
    decide

/-- How many lines end with the words for a missing image. -/
theorem countP_endsWith_entry (item : String) (bs : List Binding) :
    (bs.map (entry item)).countP (fun line => line.endsWith " was not assigned")
      = bs.countP fun b => b.image.isNone := by
  rw [List.countP_map]
  refine List.countP_congr fun b _ => ?_
  rw [Function.comp_apply, endsWith_entry_iff, Option.isNone_iff_eq_none]

/-- The lines that list a largest assignment: a title, and a line for each binding. -/
def listing (nodes ports : List Binding) : List String :=
  "Max assignment:" :: (nodes.map (entry "Node") ++ ports.map (entry "Port"))

theorem newline_not_mem_listing (nodes ports : List Binding) :
    ∀ line ∈ listing nodes ports, '\n' ∉ line.toList := by
  simp only [listing, List.forall_mem_cons, List.forall_mem_append, List.forall_mem_map]
  refine ⟨by decide, fun b _ => ?_, fun b _ => ?_⟩
  · exact newline_not_mem_entry (by decide)
  · exact newline_not_mem_entry (by decide)

end Binding

/-! ## Reports -/

namespace Obstacle

/-- The words for an obstacle do not end like the line for a binding without an image. -/
theorem getLast?_message_ne (o : Obstacle) : o.message.toList.getLast? ≠ some 'd' := by
  have hend : ∀ {s t : String} {c : Char}, t.toList.getLast? = some c → c ≠ 'd' →
      (s ++ t).toList.getLast? ≠ some 'd' := fun ht hc =>
    (getLast?_append _ ht).trans_ne (mt Option.some.inj hc)
  have hnumber : ∀ n : Nat, (toString n).toList.getLast? ≠ some 'd' := fun n h => by
    cases isDigit_of_mem_toString (List.mem_of_getLast? h)
  have hspace : ' ' ≠ 'd' := by decide
  have hs : 's' ≠ 'd' := by decide
  have hmark : '"' ≠ 'd' := by decide
  cases o with
  | tooFewNodes m n => exact getLast?_append_ne (hend rfl hspace) (hnumber n)
  | insufficientPorts node m n => exact getLast?_append_ne (hend rfl hspace) (hnumber n)
  | incompatiblePortKind port kind => exact hend (getLast?_quote port) hmark
  | noCompatibleNode node => exact hend (getLast?_quote node) hmark
  | searchLimit n => exact hend rfl hs

end Obstacle

namespace Outline

theorem newline_not_mem_header (o : Outline) : '\n' ∉ o.header.toList := by
  dsimp only [header]
  simp only [String.toList_append, List.mem_append, newline_not_mem_quote]
  simp

/-- The end of a report that has a largest assignment. -/
theorem closing_eq (o : Outline) {s : Snapshot} (h : o.reached = some s) :
    o.closing = "\n" ++ unlines (Binding.listing (sorted s.nodes) (sorted s.ports)) := by
  have htitle : "\nMax assignment:\n" = "\n" ++ "Max assignment:" ++ "\n" := rfl
  rw [closing, h, Option.elim_some, Binding.listing, unlines_cons, unlines_append,
    ← Binding.lines_eq_unlines, ← Binding.lines_eq_unlines, htitle]
  simp only [String.append_assoc]

end Outline

namespace Report

variable {r : Report Obstacle} {s : Snapshot}

/-- A report with a largest assignment is made of its lines. -/
theorem message_eq_unlines (h : r.reached = some s) :
    r.message = unlines
      ((r.header ++ causeText r.cause) :: Binding.listing (sorted s.nodes) (sorted s.ports)) := by
  rw [message, Outline.message, r.closing_eq h, unlines_cons, causeText, ← String.append_assoc]

/-- The header and the cause are on one line. -/
theorem newline_not_mem_firstLine (r : Report Obstacle) :
    '\n' ∉ (r.header ++ causeText r.cause).toList := by
  rw [String.toList_append, List.mem_append, not_or]
  exact ⟨r.newline_not_mem_header, newline_not_mem_causeText _⟩

/-- That line does not end like the line for a binding without an image. -/
theorem getLast?_firstLine_ne (r : Report Obstacle) :
    (r.header ++ causeText r.cause).toList.getLast? ≠ some 'd' := by
  have hheader : r.header.toList.getLast? = some '"' := getLast?_append _ (getLast?_quote r.target)
  refine getLast?_append_ne (hheader.trans_ne (by decide)) ?_
  cases r.cause with
  | none => decide
  | some o => exact getLast?_append_ne (by decide) o.getLast?_message_ne

/-- A report without a largest assignment is on one line.  Any other one has a first line, a title
and a line for each binding, and ends with a line break.  The lines for the bindings come in order,
those of the nodes first, whatever the descriptions contain; and wherever a line ends with the words
for a missing image, it is the line of a binding without an image. -/
theorem message_lines (r : Report Obstacle) :
    (r.reached = none → '\n' ∉ r.message.toList) ∧
    ∀ s, r.reached = some s →
      r.message.toList.count '\n' = 2 + s.nodes.length + s.ports.length ∧
      r.message.endsWith "\n" = true ∧
      ∃ nodes ports, s.InOrder nodes ports ∧
        linesOf r.message = [r.header ++ causeText r.cause, "Max assignment:"] ++
          nodes.map (Binding.entry "Node") ++ ports.map (Binding.entry "Port") ++ [""] ∧
        (∀ b ∈ nodes, (b.entry "Node").startsWith "Node \"" = true) ∧
        (∀ b ∈ ports, (b.entry "Port").startsWith "Port \"" = true) ∧
        (∀ item, ∀ b ∈ nodes ++ ports,
          (b.entry item).endsWith " was not assigned" = true ↔ b.image = none) ∧
        (linesOf r.message).countP (fun line => line.endsWith " was not assigned")
          = (s.nodes ++ s.ports).countP fun b => b.image.isNone := by
  refine ⟨fun h => ?_, fun s h => ?_⟩
  · rw [message, Outline.message, Outline.closing, h, Option.elim_none, String.append_empty]
    exact newline_not_mem_firstLine r
  · have horder := s.inOrder_sorted
    have hmessage := message_eq_unlines h
    have hlines : ∀ line ∈ (r.header ++ causeText r.cause) ::
        Binding.listing (sorted s.nodes) (sorted s.ports), '\n' ∉ line.toList :=
      List.forall_mem_cons.2 ⟨newline_not_mem_firstLine r, Binding.newline_not_mem_listing _ _⟩
    refine ⟨?_, ?_, sorted s.nodes, sorted s.ports, horder, ?_, fun b _ => b.startsWith_entry _,
      fun b _ => b.startsWith_entry _, fun item b _ => b.endsWith_entry_iff item, ?_⟩
    · rw [hmessage, count_newline_unlines hlines]
      simp [Binding.listing, horder.nodes_perm.length_eq, horder.ports_perm.length_eq]
      omega
    · rw [hmessage]
      exact endsWith_unlines (List.cons_ne_nil _ _)
    · rw [hmessage, linesOf_unlines hlines]
      simp [Binding.listing]
    · have hwords : " was not assigned".toList.getLast? = some 'd' := rfl
      have hfirst := not_endsWith_of_getLast? hwords (getLast?_firstLine_ne r)
      have htitle : "Max assignment:".endsWith " was not assigned" = false :=
        not_endsWith_of_getLast? hwords (by decide)
      have hempty : "".endsWith " was not assigned" = false :=
        not_endsWith_of_getLast? hwords (by decide)
      rw [hmessage, linesOf_unlines hlines, Binding.listing, List.countP_append, List.countP_cons,
        List.countP_cons, List.countP_append, Binding.countP_endsWith_entry,
        Binding.countP_endsWith_entry, List.countP_append, horder.nodes_perm.countP_eq,
        horder.ports_perm.countP_eq]
      simp [hfirst, htitle, hempty]

/-- The largest assignment of a report whose descriptions look like lines of a report. -/
def lookalikes : Snapshot where
  nodes := [⟨"b\nNode \"c\" was not assigned", some "d was not assigned"⟩, ⟨"a", none⟩]
  ports := [⟨"p\" was not assigned\n", none⟩]

/-- Two bindings have no image, and two lines say so. -/
theorem message_lines_lookalikes :
    let r : Report Obstacle :=
      { pattern := "x\nMax assignment:\n", target := "", reached := some lookalikes,
        cause := some (.noCompatibleNode "y was not assigned") }
    r.reached = some lookalikes ∧ r.message.toList.count '\n' = 5 ∧
      (linesOf r.message).countP (fun line => line.endsWith " was not assigned") = 2 := by
  intro r
  obtain ⟨hbreaks, -, -, -, -, -, -, -, -, hcount⟩ := (message_lines r).2 lookalikes rfl
  exact ⟨rfl, hbreaks, hcount⟩

end Report

end PortMatch
