import Mathlib
import PortMatch.Proofs.Assignment.Reads
import PortMatch.Proofs.Cursor.Remaining

/-!
# The placements that a cursor yields

A cursor at its beginning has all ways left of placing the ports of a node on the ports of a host:
different ports in different slots, each on a port of its own kind, and linked ports on linked ones,
whether the other end is a port of the same node or one that the assignment maps already.  They come
in lexicographic order.

* `Problem.IsPortMap` — the placements, described without a cursor;
* `Problem.portMaps` — what a cursor at its beginning has left;
* `Problem.mem_portMaps` — these are the same;
* `Problem.pairwise_portMaps` — they ascend.
-/

namespace PortMatch

namespace Problem

variable {P : Problem} {live : Assignment} {n host : NodeId}

/-! ## Placements, described without a cursor -/

/-- `choices` places the ports of the node `n` on ports of `host`, in keeping with what `live` maps
already. -/
structure IsPortMap (P : Problem) (live : Assignment) (n host : NodeId) (choices : List Choice) :
    Prop where
  /-- The ports of the node are placed, in their order. -/
  ports : choices.map Choice.port = (P.pattern.portsOf n).toList
  /-- They are placed on ports of the host. -/
  image : ∀ ch ∈ choices, (P.target.portsOf host)[ch.slot]? = some ch.image
  /-- Different ports have different slots. -/
  slots : (choices.map Choice.slot).Nodup
  /-- A port is placed on a port of its own kind. -/
  kind : ∀ ch ∈ choices, P.target.kind? ch.image = P.pattern.kind? ch.port
  /-- Links between two ports of the node are kept. -/
  inner : ∀ ch ∈ choices, ∀ d ∈ choices, P.pattern.connected ch.port d.port = true →
    P.target.connected ch.image d.image = true
  /-- Links to ports that are mapped already are kept. -/
  outer : ∀ ch ∈ choices, ∀ q q', P.pattern.connected ch.port q = true → live.port? q = some q' →
    P.target.connected ch.image q' = true

/-- The placements that a cursor for the node `n` on `host` has left at its beginning. -/
def portMaps (P : Problem) (live : Assignment) (n host : NodeId) : List (List Choice) :=
  (Cursor.fresh P n host).remaining P live

/-- May `ch` come next, after the choices `placed` on the same host? -/
structure Fits (P : Problem) (live : Assignment) (host : NodeId) (placed : List Choice)
    (ch : Choice) : Prop where
  image : (P.target.portsOf host)[ch.slot]? = some ch.image
  free : ∀ d ∈ placed, d.slot ≠ ch.slot
  kind : P.target.kind? ch.image = P.pattern.kind? ch.port
  linked : ∀ a ∈ P.anchors live placed ch.port, P.target.connected ch.image a = true

/-- May the given choices come one after the other, after the choices `placed`? -/
def FitsAfter (P : Problem) (live : Assignment) (host : NodeId) : List Choice → List Choice → Prop
  | _, [] => True
  | placed, ch :: rest => P.Fits live host placed ch ∧ FitsAfter P live host (ch :: placed) rest

/-! ### Choices that fit, one by one and two by two -/

/-- What a choice has to satisfy whatever the other choices are. -/
structure Seats (P : Problem) (live : Assignment) (host : NodeId) (ch : Choice) : Prop where
  image : (P.target.portsOf host)[ch.slot]? = some ch.image
  kind : P.target.kind? ch.image = P.pattern.kind? ch.port
  outer : ∀ q q', P.pattern.connected ch.port q = true → live.port? q = some q' →
    P.target.connected ch.image q' = true

/-- What two choices have to satisfy, of which `d` comes first. -/
def Agree (P : Problem) (d ch : Choice) : Prop :=
  d.slot ≠ ch.slot ∧ (P.pattern.connected ch.port d.port = true →
    P.target.connected ch.image d.image = true)

/-- A port that is placed once is found where it is placed. -/
theorem find?_port_eq_some {placed : List Choice} (hnodup : (placed.map Choice.port).Nodup)
    {q : PortId} {ch : Choice} :
    placed.find? (fun d => d.port = q) = some ch ↔ ch ∈ placed ∧ ch.port = q := by
  refine ⟨fun h => ⟨List.mem_of_find?_eq_some h, by simpa using List.find?_some h⟩, ?_⟩
  rintro ⟨hmem, rfl⟩
  cases hfind : placed.find? fun d => d.port = ch.port with
  | none => simpa using List.find?_eq_none.1 hfind ch hmem
  | some d =>
    have hport : d.port = ch.port := by simpa using List.find?_some hfind
    rw [List.inj_on_of_nodup_map hnodup (List.mem_of_find?_eq_some hfind) hmem hport]

theorem mem_anchors (hP : P.pattern.WellFormed) {placed : List Choice} {port a : PortId}
    (hnodup : (placed.map Choice.port).Nodup) (hlive : ∀ d ∈ placed, live.port? d.port = none) :
    a ∈ P.anchors live placed port ↔
      (∃ d ∈ placed, P.pattern.connected port d.port = true ∧ d.image = a) ∨
      ∃ q, P.pattern.connected port q = true ∧ live.port? q = some a := by
  simp only [anchors, List.mem_filterMap, hP.mem_neighbors]
  refine ⟨?_, ?_⟩
  · rintro ⟨q, hq, ha⟩
    cases hfind : placed.find? fun ch => ch.port = q with
    | none => exact .inr ⟨q, hq, by simpa [hfind] using ha⟩
    | some d =>
      obtain ⟨hd, rfl⟩ := (find?_port_eq_some hnodup).1 hfind
      exact .inl ⟨d, hd, hq, by simpa [hfind] using ha⟩
  · rintro (⟨d, hd, hq, rfl⟩ | ⟨q, hq, ha⟩)
    · have hfind := (find?_port_eq_some hnodup).2 ⟨hd, rfl⟩
      exact ⟨d.port, hq, by simp [hfind]⟩
    · refine ⟨q, hq, ?_⟩
      -- a port that is mapped already is none of those placed here
      have hfind : placed.find? (fun ch => ch.port = q) = none := by
        rw [List.find?_eq_none]
        intro d hd hdq
        have hnone := hlive d hd
        rw [show d.port = q by simpa using hdq, ha] at hnone
        cases hnone
      simpa [hfind] using ha

theorem fits_iff (hP : P.pattern.WellFormed) {placed : List Choice} {ch : Choice}
    (hnodup : (placed.map Choice.port).Nodup) (hlive : ∀ d ∈ placed, live.port? d.port = none) :
    P.Fits live host placed ch ↔ P.Seats live host ch ∧ ∀ d ∈ placed, P.Agree d ch := by
  refine ⟨?_, ?_⟩
  · intro h
    have hlinked := h.linked
    simp only [mem_anchors hP hnodup hlive] at hlinked
    refine ⟨⟨h.image, h.kind, fun q q' hq hq' => hlinked q' (.inr ⟨q, hq, hq'⟩)⟩, ?_⟩
    intro d hd
    exact ⟨h.free d hd, fun hq => hlinked d.image (.inl ⟨d, hd, hq, rfl⟩)⟩
  · rintro ⟨hseat, hagree⟩
    refine ⟨hseat.image, fun d hd => (hagree d hd).1, hseat.kind, ?_⟩
    intro a ha
    rcases (mem_anchors hP hnodup hlive).1 ha with ⟨d, hd, hq, rfl⟩ | ⟨q, hq, hq'⟩
    · exact (hagree d hd).2 hq
    · exact hseat.outer q a hq hq'

/-- Choices fit one after the other when each has its seat and every two agree. -/
theorem fitsAfter_iff (hP : P.pattern.WellFormed) {placed choices : List Choice}
    (hnodup : ((placed ++ choices).map Choice.port).Nodup)
    (hlive : ∀ d ∈ placed ++ choices, live.port? d.port = none) :
    P.FitsAfter live host placed choices ↔
      (∀ ch ∈ choices, P.Seats live host ch) ∧ (∀ d ∈ placed, ∀ ch ∈ choices, P.Agree d ch) ∧
      choices.Pairwise P.Agree := by
  induction choices generalizing placed with
  | nil => simp [FitsAfter]
  | cons ch rest ih =>
    have hperm : ((ch :: placed) ++ rest).Perm (placed ++ ch :: rest) := List.perm_middle.symm
    have hplaced : (placed.map Choice.port).Nodup :=
      hnodup.sublist ((List.sublist_append_left _ _).map _)
    rw [FitsAfter, fits_iff hP hplaced (fun d hd => hlive d (List.mem_append_left _ hd)),
      ih ((hperm.map _).nodup_iff.2 hnodup) (fun d hd => hlive d (hperm.mem_iff.1 hd)),
      List.pairwise_cons]
    simp only [List.mem_cons, forall_eq_or_imp]
    refine ⟨?_, ?_⟩
    · rintro ⟨⟨hch, hbefore⟩, hrest, ⟨hafter, hother⟩, hpair⟩
      exact ⟨⟨hch, hrest⟩, fun d hd => ⟨hbefore d hd, hother d hd⟩, hafter, hpair⟩
    · rintro ⟨⟨hch, hrest⟩, hother, hafter, hpair⟩
      refine ⟨⟨hch, fun d hd => (hother d hd).1⟩, hrest, ⟨hafter, ?_⟩, hpair⟩
      exact fun d hd => (hother d hd).2

/-- The placements of the ports of a node are the choices for its ports that fit one after the
other. -/
theorem isPortMap_iff (hP : P.pattern.WellFormed)
    (hlive : ∀ p ∈ P.pattern.portsOf n, live.port? p = none) {choices : List Choice} :
    P.IsPortMap live n host choices ↔
      choices.map Choice.port = (P.pattern.portsOf n).toList ∧
      P.FitsAfter live host [] choices := by
  refine ⟨?_, ?_⟩
  · intro h
    refine ⟨h.ports, (fitsAfter_iff hP ?_ ?_).2 ⟨?_, by simp, ?_⟩⟩
    · rw [List.nil_append, h.ports]
      exact hP.nodup_portsOf n
    · intro d hd
      have hmem : d.port ∈ choices.map Choice.port := List.mem_map_of_mem hd
      rw [h.ports] at hmem
      exact hlive _ (Array.mem_toList_iff.1 hmem)
    · exact fun ch hch => ⟨h.image ch hch, h.kind ch hch, h.outer ch hch⟩
    · refine (List.pairwise_map.1 h.slots).imp_of_mem ?_
      intro d ch hd hch hne
      exact ⟨hne, h.inner ch hch d hd⟩
  · rintro ⟨hports, hfits⟩
    have hnodup : (choices.map Choice.port).Nodup := hports ▸ hP.nodup_portsOf n
    have hnone : ∀ d ∈ choices, live.port? d.port = none := by
      intro d hd
      have hmem : d.port ∈ choices.map Choice.port := List.mem_map_of_mem hd
      rw [hports] at hmem
      exact hlive _ (Array.mem_toList_iff.1 hmem)
    have hiff : P.FitsAfter live host [] choices ↔ _ := fitsAfter_iff hP hnodup hnone
    obtain ⟨hseats, -, hagree⟩ := hiff.1 hfits
    refine ⟨hports, fun ch hch => (hseats ch hch).image, ?_, fun ch hch => (hseats ch hch).kind, ?_,
      fun ch hch => (hseats ch hch).outer⟩
    · exact List.pairwise_map.2 (hagree.imp And.left)
    · -- links have no direction, and no port is linked to itself
      have hdiag : ∀ ch ∈ choices, P.pattern.connected ch.port ch.port = true →
          P.target.connected ch.image ch.image = true :=
        fun ch _ hloop => absurd rfl (hP.connected_lt hloop).2
      have hsymm : Std.Symm fun d ch : Choice => P.pattern.connected ch.port d.port = true →
          P.target.connected ch.image d.image = true := by
        refine ⟨fun d ch h hlink => ?_⟩
        rw [Graph.connected_comm] at hlink ⊢
        exact h hlink
      have hpair : choices.Pairwise fun d ch => P.pattern.connected ch.port d.port = true →
          P.target.connected ch.image d.image = true := hagree.imp And.right
      exact fun ch hch d hd => hpair.forall_of_forall hdiag hd hch

end Problem

/-! ## The placements of a cursor -/

namespace Cursor

variable {P : Problem} {live : Assignment}

/-- The slots that a cursor marks as taken are those of its choices. -/
structure Coherent (P : Problem) (c : Cursor) : Prop where
  size : c.taken.size = (P.target.portsOf c.host).size
  taken : ∀ i, c.taken[i]? = some true ↔ ∃ ch ∈ c.placed, ch.slot = i

theorem coherent_fresh (P : Problem) (n host : NodeId) : (fresh P n host).Coherent P where
  size := by simp [fresh]
  taken := by simp [fresh, Array.getElem?_replicate]

theorem Coherent.extend {c : Cursor} (hc : c.Coherent P) {ch : Choice}
    (hslot : ch.slot < c.taken.size) (rest : List PortId) : (c.extend ch rest).Coherent P where
  size := by simpa [Cursor.extend] using hc.size
  taken := by
    intro i
    simp only [Cursor.extend, List.mem_cons, exists_eq_or_imp, ← hc.taken]
    by_cases hi : ch.slot = i
    · subst hi
      simp [hslot]
    · simp [hi]

theorem Coherent.getElem?_eq_some_false {c : Cursor} (hc : c.Coherent P) {slot : Nat} :
    c.taken[slot]? = some false ↔ slot < c.taken.size ∧ ∀ ch ∈ c.placed, ch.slot ≠ slot := by
  have htaken := hc.taken slot
  rw [← not_iff_not] at htaken
  push Not at htaken
  rw [← htaken]
  by_cases hslot : slot < c.taken.size
  · simp [hslot]
  · simp [hslot]

theorem mem_choices {c : Cursor} (hc : c.Coherent P) {port : PortId} {ch : Choice} :
    ch ∈ c.choices P live port ↔
      c.start ≤ ch.slot ∧ ch.port = port ∧ P.Fits live c.host c.placed ch := by
  simp only [choices, List.mem_filterMap, place?_eq_some_iff, List.mem_range'_1,
    hc.getElem?_eq_some_false]
  refine ⟨?_, ?_⟩
  · rintro ⟨slot, ⟨hstart, -⟩, himage, ⟨-, hfree⟩, hkind, hlinked, rfl, rfl⟩
    exact ⟨hstart, rfl, himage, hfree, hkind, hlinked⟩
  · rintro ⟨hstart, rfl, himage, hfree, hkind, hlinked⟩
    have hslot : ch.slot < c.taken.size := hc.size ▸ (Array.getElem?_eq_some_iff.1 himage).1
    exact ⟨ch.slot, ⟨hstart, by omega⟩, himage, ⟨hslot, hfree⟩, hkind, hlinked, rfl, rfl⟩

theorem mem_completions {c : Cursor} {ahead : List PortId} (hc : c.Coherent P)
    (hstart : c.start = 0) {placement : List Choice} :
    placement ∈ completions P live ahead c ↔
      ∃ later, placement = c.placed.reverse ++ later ∧ later.map Choice.port = ahead ∧
        P.FitsAfter live c.host c.placed later := by
  induction ahead generalizing c with
  | nil =>
    simp only [completions, List.mem_singleton, List.map_eq_nil_iff]
    refine ⟨?_, ?_⟩
    · rintro rfl
      exact ⟨[], by simp, rfl, trivial⟩
    · rintro ⟨later, rfl, rfl, -⟩
      simp
  | cons port rest ih =>
    simp only [completions, List.mem_flatMap, mem_choices hc, hstart, Nat.zero_le, true_and]
    refine ⟨?_, ?_⟩
    · rintro ⟨ch, ⟨rfl, hfits⟩, hmem⟩
      have hslot : ch.slot < c.taken.size :=
        hc.size ▸ (Array.getElem?_eq_some_iff.1 hfits.image).1
      obtain ⟨later, rfl, rfl, hlater⟩ := (ih (hc.extend hslot rest) rfl).1 hmem
      exact ⟨ch :: later, by simp [Cursor.extend], rfl, hfits, hlater⟩
    · rintro ⟨later, rfl, hports, hfits⟩
      obtain ⟨ch, later, rfl, rfl, rfl⟩ := List.map_eq_cons_iff.1 hports
      obtain ⟨hch, hlater⟩ := hfits
      have hslot : ch.slot < c.taken.size :=
        hc.size ▸ (Array.getElem?_eq_some_iff.1 hch.image).1
      refine ⟨ch, ⟨rfl, hch⟩, (ih (hc.extend hslot _) rfl).2 ⟨later, ?_, rfl, hlater⟩⟩
      simp [Cursor.extend]

/-! ### The order of the placements -/

theorem exists_of_mem_completions {c : Cursor} {ahead : List PortId} {placement : List Choice}
    (h : placement ∈ completions P live ahead c) :
    ∃ later, placement = c.placed.reverse ++ later := by
  induction ahead generalizing c with
  | nil => exact ⟨[], by simpa [completions] using h⟩
  | cons port rest ih =>
    obtain ⟨ch, -, hmem⟩ := List.mem_flatMap.1 h
    obtain ⟨later, rfl⟩ := ih hmem
    exact ⟨ch :: later, by simp [Cursor.extend]⟩

/-- The placements that complete the choices of a cursor ascend, if the places of each port do. -/
theorem pairwise_completions {key : Choice → Nat}
    (hkey : ∀ (c : Cursor) port, (c.choices P live port).Pairwise fun ch d => key ch < key d)
    (ahead : List PortId) (c : Cursor) :
    (completions P live ahead c).Pairwise fun x y => x.map key < y.map key := by
  induction ahead generalizing c with
  | nil => simp [completions]
  | cons port rest ih =>
    refine List.pairwise_flatMap.2 ⟨fun ch _ => ih (c.extend ch rest), (hkey c port).imp ?_⟩
    intro ch d hlt x hx y hy
    obtain ⟨u, rfl⟩ := exists_of_mem_completions hx
    obtain ⟨v, rfl⟩ := exists_of_mem_completions hy
    simp only [Cursor.extend, List.reverse_cons, List.append_assoc, List.map_append]
    exact List.append_left_lt (List.cons_lt_cons_iff.2 (.inl hlt))

theorem pairwise_choices (hT : P.target.WellFormed) (c : Cursor) (port : PortId) :
    (c.choices P live port).Pairwise fun ch d => ch.image.index < d.image.index := by
  refine List.pairwise_filterMap.2 (List.Pairwise.imp ?_ List.pairwise_lt_range')
  intro i j hij ch hch d hd
  obtain ⟨himage, -, -, -, -, rfl⟩ := place?_eq_some_iff.1 hch
  obtain ⟨himage', -, -, -, -, rfl⟩ := place?_eq_some_iff.1 hd
  obtain ⟨hi, hi'⟩ := Array.getElem?_eq_some_iff.1 himage
  obtain ⟨hj, hj'⟩ := Array.getElem?_eq_some_iff.1 himage'
  rw [← hi', ← hj']
  have hlt := List.pairwise_iff_getElem.1 (hT.ascending c.host) ch.slot d.slot (by simpa)
    (by simpa) hij
  rwa [Array.getElem_toList, Array.getElem_toList] at hlt

end Cursor

namespace Problem

variable {P : Problem} {live : Assignment} {n host : NodeId}

theorem portMaps_eq (P : Problem) (live : Assignment) (n host : NodeId) :
    P.portMaps live n host
      = Cursor.completions P live (P.pattern.portsOf n).toList (Cursor.fresh P n host) := by
  have hdone : (Cursor.fresh P n host).retreat.done = true := rfl
  rw [portMaps, Cursor.remaining_of_not_done (by rfl), Cursor.remaining_of_done hdone,
    List.append_nil]
  rfl

/-- A cursor at its beginning has all placements of the ports of its node left. -/
theorem mem_portMaps (hP : P.pattern.WellFormed)
    (hlive : ∀ p ∈ P.pattern.portsOf n, live.port? p = none) {choices : List Choice} :
    choices ∈ P.portMaps live n host ↔ P.IsPortMap live n host choices := by
  rw [portMaps_eq, Cursor.mem_completions (Cursor.coherent_fresh P n host) (by rfl),
    isPortMap_iff hP hlive]
  refine ⟨?_, ?_⟩
  · rintro ⟨later, rfl, hports, hfits⟩
    exact ⟨hports, hfits⟩
  · rintro ⟨hports, hfits⟩
    exact ⟨choices, rfl, hports, hfits⟩

/-- They come in the lexicographic order of the images. -/
theorem pairwise_portMaps (hT : P.target.WellFormed) (live : Assignment) (n host : NodeId) :
    (P.portMaps live n host).Pairwise fun x y =>
      x.map (fun ch => ch.image.index) < y.map (fun ch => ch.image.index) := by
  rw [portMaps_eq]
  exact Cursor.pairwise_completions (Cursor.pairwise_choices hT) _ _

end Problem

end PortMatch
