import PortMatch.Proofs.Report.Layout

/-!
# Reports behind reports

The cause of a report can be another report, which has a cause of its own, and so on.  Two things
make such a chain visible: one can go from each report to what lies behind it, and the text of the
first report holds the texts of all others.  The headers come outermost first, as each is followed
by the text of what lies behind it; for the same reason the largest assignments come innermost
first.

* `Cause.source?`, `Cause.Visits` — what lies right behind a cause, and going there step by step;
* `Cause.Visits.texts_eq`, `Cause.Visits.infix_message` — the texts of what is visited;
* `Report.Chain` — reports each of which has the next one as its cause;
* `Report.Chain.visits`, `Report.Chain.message_eq` — what is visited from the first report of a
  chain, and its text;
* `Report.chain_unfolds` — both together.
-/

namespace PortMatch

open Text

/-! ## Going back -/

/-- The text of a report holds the text of its cause. -/
theorem Outline.infix_message (o : Outline) (cause : String) :
    cause.toList <:+: (o.message (some cause)).toList :=
  ⟨o.header.toList ++ ": ".toList, o.closing.toList, by simp [message]⟩

namespace Cause

/-- What lies right behind a cause: the cause of a report, and nothing behind anything else. -/
def source? : Cause → Option Cause
  | report _ cause => some cause
  | _ => none

/-- What lies right behind a report is its cause, also when the report is a cause itself. -/
theorem source?_ofReport (r : Report Cause) : (ofReport r).source? = r.cause := by
  obtain ⟨o, _ | c⟩ := r <;> rfl

/-- Going from a cause to what lies right behind it, and on from there until nothing lies behind,
visits the listed causes. -/
inductive Visits : Option Cause → List Cause → Prop where
  /-- Nothing lies behind. -/
  | done : Visits none []
  /-- One step, and what is visited from there. -/
  | next {c : Cause} {cs : List Cause} (h : Visits c.source? cs) : Visits (some c) (c :: cs)

namespace Visits

variable {start : Option Cause} {cs ds : List Cause}

theorem unique (h : Visits start cs) (h' : Visits start ds) : cs = ds := by
  induction h generalizing ds with
  | done =>
    cases h'
    rfl
  | next _ ih =>
    obtain _ | h' := h'
    rw [ih h']

/-- The texts of what lies behind a cause are those of what is visited. -/
theorem texts_eq (h : Visits start cs) :
    (start.elim [] fun c => c.message :: c.sources) = cs.map message := by
  induction h with
  | done => rfl
  | @next c cs _ ih =>
    have hsources : c.sources = c.source?.elim [] fun d => d.message :: d.sources := by
      cases c <;> rfl
    rw [Option.elim_some, hsources, ih, List.map_cons]

/-- The text of a cause holds the texts of all that lies behind it. -/
theorem infix_message (h : Visits start cs) {c d : Cause} (hc : c ∈ start) (hd : d ∈ cs) :
    d.message.toList <:+: c.message.toList := by
  induction h generalizing c with
  | done => cases hc
  | @next e cs hnext ih =>
    obtain rfl : e = c := Option.some.inj hc
    rcases List.mem_cons.1 hd with rfl | hbehind
    · exact List.infix_refl _
    · cases e with
      | report o f => exact (ih rfl hbehind).trans (o.infix_message f.message)
      | _ =>
        -- nothing lies behind
        cases hnext
        cases hbehind

end Visits

end Cause

/-! ## Largest assignments -/

/-- The part of a report that lists a largest assignment: a title on a new line, and a line for each
binding, in order. -/
def Snapshot.Section (s : Snapshot) (text : String) : Prop :=
  ∃ nodes ports, s.InOrder nodes ports ∧ text = "\n" ++ unlines (Binding.listing nodes ports)

/-- The ends of reports are the sections of those that have a largest assignment. -/
theorem Outline.exists_sections (outlines : List Outline) :
    ∃ sections, List.Forall₂ Snapshot.Section (outlines.filterMap Outline.reached) sections ∧
      String.join (outlines.map Outline.closing) = String.join sections := by
  induction outlines with
  | nil => exact ⟨[], .nil, rfl⟩
  | cons o outlines ih =>
    obtain ⟨sections, hsections, htext⟩ := ih
    cases hreached : o.reached with
    | none =>
      have hclosing : o.closing = "" := by rw [Outline.closing, hreached, Option.elim_none]
      refine ⟨sections, ?_, ?_⟩
      · rwa [List.filterMap_cons_none hreached]
      · rw [List.map_cons, String.join_cons, hclosing, String.empty_append, htext]
    | some s =>
      refine ⟨o.closing :: sections, ?_, ?_⟩
      · rw [List.filterMap_cons_some hreached]
        exact .cons ⟨_, _, s.inOrder_sorted, o.closing_eq hreached⟩ hsections
      · rw [List.map_cons, String.join_cons, String.join_cons, htext]

/-! ## Chains of reports -/

namespace Report

/-- Reports each of which has the next one as its cause.  The last one has the cause `last`, if that
is any. -/
inductive Chain (last : Option Cause) : List (Report Cause) → Prop where
  /-- A report whose cause is not looked into. -/
  | single {r : Report Cause} (h : r.cause = last) : Chain last [r]
  /-- A report in front of another one, which is its cause. -/
  | cons {r r' : Report Cause} {rs : List (Report Cause)} (h : r.cause = some (.ofReport r'))
    (hrest : Chain last (r' :: rs)) : Chain last (r :: r' :: rs)

namespace Chain

variable {last : Option Cause} {r : Report Cause} {rs : List (Report Cause)}

/-- From the first report of a chain one comes to the others in their turn, and then to the last
cause. -/
theorem visits (h : Chain last (r :: rs)) (hlast : ∀ c ∈ last, c.source? = none) :
    Cause.Visits r.cause (rs.map Cause.ofReport ++ last.toList) := by
  induction rs generalizing r with
  | nil =>
    obtain h | _ := h
    rw [h]
    cases last with
    | none => exact .done
    | some c => exact .next (hlast c rfl ▸ .done)
  | cons r' rs ih =>
    obtain _ | ⟨h, hrest⟩ := h
    rw [h]
    refine .next ?_
    rw [Cause.source?_ofReport]
    exact ih hrest

/-- The text of the first report of a chain: the headers, the words for the last cause, and the ends
of the reports, those of the inner ones first. -/
theorem message_eq (h : Chain last (r :: rs)) :
    r.message = String.intercalate ": "
        ((r :: rs).map (fun r => r.header) ++ (last.map Cause.message).toList) ++
      String.join ((r :: rs).reverse.map fun r => r.closing) := by
  induction rs generalizing r with
  | nil =>
    obtain h | _ := h
    rw [message, Outline.message, h]
    cases last with
    | none => simp [String.join_cons]
    | some c =>
      simp [Reason.message, String.intercalate_cons_cons, String.join_cons, String.append_assoc]
  | cons r' rs ih =>
    obtain _ | ⟨h, hrest⟩ := h
    have hinner : Reason.message (Cause.ofReport r') = r'.message := Cause.message_ofReport r'
    have hne : (r' :: rs).map (fun r => r.header) ++ (last.map Cause.message).toList ≠ [] := by
      simp
    have hheaders : String.intercalate ": "
          ((r :: r' :: rs).map (fun r => r.header) ++ (last.map Cause.message).toList)
        = r.header ++ ": " ++ String.intercalate ": "
          ((r' :: rs).map (fun r => r.header) ++ (last.map Cause.message).toList) :=
      String.intercalate_cons_of_ne_nil hne
    have hclosings : String.join ((r :: r' :: rs).reverse.map fun r => r.closing)
        = String.join ((r' :: rs).reverse.map fun r => r.closing) ++ r.closing := by
      rw [List.reverse_cons, List.map_append, String.join_append]
      simp [String.join_cons]
    rw [message, Outline.message, h, Option.map_some, hinner, ih hrest, Option.elim_some, hheaders,
      hclosings]
    simp only [String.append_assoc]

end Chain

/-- A chain of reports whose last cause, if there is one, has nothing behind it.  Going back from
the first report visits the others in their turn and then the last cause, and nothing else; the
texts of what is visited are the sources of the report, and each of them is a part of its text.  The
text has the headers from the outermost to the innermost, then the words for the last cause, then
the largest assignments from the innermost to the outermost, each with its bindings in order. -/
theorem chain_unfolds {last : Option Cause} {r : Report Cause} {rs : List (Report Cause)}
    (h : Chain last (r :: rs)) (hlast : ∀ c ∈ last, c.source? = none) :
    (∀ cs, Cause.Visits r.cause cs ↔ cs = rs.map Cause.ofReport ++ last.toList) ∧
    r.sources = rs.map message ++ (last.map Cause.message).toList ∧
    (∀ text ∈ r.sources, text.toList <:+: r.message.toList) ∧
    ∃ sections, List.Forall₂ Snapshot.Section
        ((r :: rs).reverse.filterMap fun r => r.reached) sections ∧
      r.message = String.intercalate ": "
          ((r :: rs).map (fun r => r.header) ++ (last.map Cause.message).toList) ++
        String.join sections := by
  have hvisits := h.visits hlast
  have htexts : r.sources = (rs.map Cause.ofReport ++ last.toList).map Cause.message :=
    hvisits.texts_eq
  refine ⟨fun cs => ⟨fun hcs => hcs.unique hvisits, fun hcs => hcs ▸ hvisits⟩, ?_, ?_, ?_⟩
  · have hmessages : (rs.map Cause.ofReport).map Cause.message = rs.map message := by
      rw [List.map_map]
      exact List.map_congr_left fun r _ => Cause.message_ofReport r
    rw [htexts, List.map_append, hmessages]
    cases last <;> rfl
  · intro text htext
    rw [htexts] at htext
    obtain ⟨c, hc, rfl⟩ := List.mem_map.1 htext
    rw [← Cause.message_ofReport r]
    rw [← Cause.source?_ofReport r] at hvisits
    exact hvisits.next.infix_message rfl (List.mem_cons_of_mem _ hc)
  · obtain ⟨sections, hsections, htext⟩ :=
      Outline.exists_sections ((r :: rs).reverse.map toOutline)
    refine ⟨sections, ?_, ?_⟩
    · rwa [List.filterMap_map] at hsections
    · rw [h.message_eq, ← htext, List.map_map]
      rfl

/-- A report that knows its cause and has a largest assignment. -/
def innerReport : Report Cause where
  pattern := "c"
  target := "z"
  reached := some { nodes := [⟨"n", none⟩, ⟨"m", some "k"⟩] }
  cause := some (.obstacle (.searchLimit 3))

/-- A report without a largest assignment. -/
def middleReport : Report Cause where
  pattern := "b"
  target := "z"
  reached := none
  cause := some (.ofReport innerReport)

/-- A report with a largest assignment that has no bindings. -/
def outerReport : Report Cause where
  pattern := "a"
  target := "z"
  reached := some {}
  cause := some (.ofReport middleReport)

/-- Three reports, of which the middle one has no largest assignment. -/
theorem chain_unfolds_three :
    Chain (some (.obstacle (.searchLimit 3))) [outerReport, middleReport, innerReport] ∧
      Cause.Visits outerReport.cause
        [.ofReport middleReport, .ofReport innerReport, .obstacle (.searchLimit 3)] ∧
      innerReport.message.toList <:+: outerReport.message.toList := by
  have hchain : Chain (some (.obstacle (.searchLimit 3)))
      [outerReport, middleReport, innerReport] := .cons rfl (.cons rfl (.single rfl))
  have hlast : ∀ c ∈ some (Cause.obstacle (.searchLimit 3)), c.source? = none := by
    rintro c ⟨⟩
    rfl
  obtain ⟨hvisits, hsources, hinfix, -⟩ := chain_unfolds hchain hlast
  refine ⟨hchain, (hvisits _).2 rfl, hinfix _ ?_⟩
  rw [hsources]
  decide +kernel

example : outerReport.message =
    "Could not satisfy \"a\" from \"z\": Could not satisfy \"b\" from \"z\": " ++
      "Could not satisfy \"c\" from \"z\": search gave up after 3 rounds\n" ++
      "Max assignment:\nNode \"m\" is assigned to \"k\"\nNode \"n\" was not assigned\n\n" ++
      "Max assignment:\n" := by
  decide +kernel

end Report

end PortMatch
