import Mathlib
import PortMatch.Proofs.Trail.Basic

/-!
# Trails of placements

Every valid placement comes from a legal trail: pin one node after the other to where the placement
has it, with its ports.  Each of these pins is possible when its turn comes, because a part of a
valid placement cannot stand in the way of the rest.

* `Problem.IsPortMap.supports` — a host that takes all ports of a node has enough of every kind;
* `Problem.trailOf` — the pins that a placement gives to nodes;
* `Problem.Places.legal_trailOf`, `Problem.Places.placement_trailOf` — they make a legal trail,
  which describes the placement;
* `Problem.code_placement` — the code of a placement is the code of its trail.
-/

namespace PortMatch

namespace Problem

variable {P : Problem}

/-! ## Hosts -/

/-- A host that takes all ports of a node has at least as many ports of every kind. -/
theorem IsPortMap.supports {live : Assignment} {a c : NodeId} {choices : List Choice}
    (h : P.IsPortMap live a c choices) (hT : P.target.WellFormed) : P.supports a c = true := by
  refine supports_of_images (choices.map Choice.image) ?_ ?_ ?_
  · exact (List.Nodup.of_map _ h.slots).map_on fun ch hch d hd => h.image_inj hT hch hd
  · intro q hq
    obtain ⟨ch, hch, rfl⟩ := List.mem_map.1 hq
    exact Array.mem_toList_iff.2 (hT.mem_portsOf.2 (h.owner_image hT hch))
  · rw [← h.ports, List.map_map, List.map_map]
    exact List.map_congr_left fun ch hch => h.kind ch hch

/-! ## The pins of a placement -/

/-- The pin that a placement gives to a node. -/
def pinOf (P : Problem) (pl : Placement) (a : NodeId) : Pin :=
  let host := (pl.node a).getD ⟨0⟩
  { host
    choices := (P.pattern.portsOf a).toList.filterMap fun p =>
      (pl.port p).map fun q => ⟨p, (P.target.portsOf host).toList.idxOf q, q⟩ }

/-- The pins that a placement gives to the given nodes, one after the other. -/
def trailOf (P : Problem) (pl : Placement) (ns : List NodeId) : Trail :=
  ns.reverse.map fun a => ⟨a, P.pinOf pl a⟩

theorem trailOf_append_singleton (pl : Placement) (ns : List NodeId) (a : NodeId) :
    P.trailOf pl (ns ++ [a]) = ⟨a, P.pinOf pl a⟩ :: P.trailOf pl ns := by
  simp [trailOf]

theorem nodes_trailOf (pl : Placement) (ns : List NodeId) : (P.trailOf pl ns).nodes = ns := by
  simp [trailOf, Trail.nodes, ← List.map_reverse, List.map_map, Function.comp_def]

theorem mem_trailOf {pl : Placement} {ns : List NodeId} {e : Pinned} :
    e ∈ P.trailOf pl ns ↔ e.node ∈ ns ∧ e.pin = P.pinOf pl e.node := by
  obtain ⟨a, pin⟩ := e
  simp only [trailOf, List.mem_map, List.mem_reverse, Pinned.mk.injEq]
  refine ⟨?_, ?_⟩
  · rintro ⟨b, hb, rfl, rfl⟩
    exact ⟨hb, rfl⟩
  · rintro ⟨ha, rfl⟩
    exact ⟨a, ha, rfl, rfl⟩

theorem host_pinOf {pl : Placement} {a c : NodeId} (h : pl.node a = some c) :
    (P.pinOf pl a).host = c := by
  simp [pinOf, h]

theorem mem_choices_pinOf {pl : Placement} {a c : NodeId} (h : pl.node a = some c) {ch : Choice} :
    ch ∈ (P.pinOf pl a).choices ↔ ch.port ∈ P.pattern.portsOf a ∧ pl.port ch.port = some ch.image ∧
      ch.slot = (P.target.portsOf c).toList.idxOf ch.image := by
  obtain ⟨p, slot, q⟩ := ch
  simp only [pinOf, h, Option.getD_some, List.mem_filterMap, Array.mem_toList_iff,
    Option.map_eq_some_iff, Choice.mk.injEq]
  refine ⟨?_, ?_⟩
  · rintro ⟨p', hp', q', hq', rfl, rfl, rfl⟩
    exact ⟨hp', hq', rfl⟩
  · rintro ⟨hp, hq, rfl⟩
    exact ⟨p, hp, q, hq, rfl, rfl, rfl⟩

namespace Places

variable {ns : List NodeId} {pl : Placement}

theorem port_eq_some (h : P.Places ns pl) (hP : P.pattern.WellFormed) {a : NodeId} (ha : a ∈ ns)
    {p : PortId} (hp : p ∈ P.pattern.portsOf a) : ∃ q, pl.port p = some q :=
  Option.isSome_iff_exists.1 ((h.port_isSome p).2 ⟨a, ha, hP.mem_portsOf.1 hp⟩)

theorem map_port_pinOf (h : P.Places ns pl) (hP : P.pattern.WellFormed) {a : NodeId}
    (ha : a ∈ ns) : (P.pinOf pl a).choices.map Choice.port = (P.pattern.portsOf a).toList := by
  rw [pinOf, List.map_filterMap]
  conv_rhs => rw [← List.filterMap_some (l := (P.pattern.portsOf a).toList)]
  apply List.filterMap_congr
  intro p hp
  obtain ⟨q, hq⟩ := h.port_eq_some hP ha (Array.mem_toList_iff.1 hp)
  simp [hq]

theorem mem_portsOf_target (h : P.Places ns pl) (hP : P.pattern.WellFormed)
    (hT : P.target.WellFormed) {a c : NodeId} (hc : pl.node a = some c) {p q : PortId}
    (hp : p ∈ P.pattern.portsOf a) (hq : pl.port p = some q) : q ∈ P.target.portsOf c := by
  obtain ⟨c', hc', howner⟩ := h.owner hq (hP.mem_portsOf.1 hp)
  rw [hc, Option.some_inj] at hc'
  exact hT.mem_portsOf.2 (hc' ▸ howner)

/-- The pin that a valid placement gives to a node places its ports, in keeping with any part of the
placement. -/
theorem isPortMap_pinOf (h : P.Places ns pl) (hP : P.pattern.WellFormed) (hT : P.target.WellFormed)
    {a c : NodeId} (hc : pl.node a = some c) {live : Assignment}
    (hlive : ∀ p q, live.port? p = some q → pl.port p = some q) :
    P.IsPortMap live a c (P.pinOf pl a).choices := by
  have ha : a ∈ ns := (h.node_isSome a).1 (by rw [hc]; rfl)
  have hports := h.map_port_pinOf hP ha
  have hmem : ∀ ch, ch ∈ (P.pinOf pl a).choices ↔ _ := fun ch => mem_choices_pinOf hc
  have himage : ∀ ch ∈ (P.pinOf pl a).choices, ch.image ∈ (P.target.portsOf c).toList := by
    intro ch hch
    obtain ⟨hp, hq, -⟩ := (hmem ch).1 hch
    exact Array.mem_toList_iff.2 (h.mem_portsOf_target hP hT hc hp hq)
  constructor
  case ports => exact hports
  case image =>
    intro ch hch
    rw [((hmem ch).1 hch).2.2, ← Array.getElem?_toList]
    exact List.getElem?_idxOf (himage ch hch)
  case slots =>
    have hnodup : (P.pinOf pl a).choices.Nodup :=
      List.Nodup.of_map Choice.port (hports ▸ hP.nodup_portsOf a)
    refine hnodup.map_on fun ch hch d hd hslot => ?_
    obtain ⟨-, hq, hch'⟩ := (hmem ch).1 hch
    obtain ⟨-, hq', hd'⟩ := (hmem d).1 hd
    rw [hch', hd', List.idxOf_inj (himage ch hch)] at hslot
    have hport := h.port_inj hq (hslot ▸ hq')
    obtain ⟨p, slot, q⟩ := ch
    obtain ⟨p', slot', q'⟩ := d
    simp_all
  case kind => exact fun ch hch => h.kind ((hmem ch).1 hch).2.1
  case inner =>
    intro ch hch d hd hlink
    exact h.link hlink ((hmem ch).1 hch).2.1 ((hmem d).1 hd).2.1
  case outer =>
    intro ch hch q q' hlink hq
    exact h.link hlink ((hmem ch).1 hch).2.1 (hlive q q' hq)

theorem of_mem_trailOf (h : P.Places ns pl) {part : List NodeId} (hpart : part ⊆ ns) {e : Pinned}
    (he : e ∈ P.trailOf pl part) :
    e.node ∈ part ∧ pl.node e.node = some e.pin.host ∧
      ∀ ch ∈ e.pin.choices,
        ch.port ∈ P.pattern.portsOf e.node ∧ pl.port ch.port = some ch.image := by
  obtain ⟨ha, hpin⟩ := mem_trailOf.1 he
  obtain ⟨c, hc⟩ := Option.isSome_iff_exists.1 ((h.node_isSome e.node).2 (hpart ha))
  refine ⟨ha, by rw [hpin, host_pinOf hc, hc], fun ch hch => ?_⟩
  obtain ⟨hp, hq, -⟩ := (mem_choices_pinOf hc).1 (hpin ▸ hch)
  exact ⟨hp, hq⟩

/-- The pins that a valid placement gives to some of its nodes are possible one after the other. -/
theorem legal_trailOf (h : P.Places ns pl) (hP : P.pattern.WellFormed) (hT : P.target.WellFormed)
    (hns : ns ⊆ P.pattern.nodeIds) {part : List NodeId} (hpart : part ⊆ ns)
    (hnodup : part.Nodup) : P.Legal (P.trailOf pl part) := by
  induction part using List.reverseRecOn with
  | nil => trivial
  | append_singleton part a ih =>
    have ha : a ∈ ns := hpart (by simp)
    have hbefore : part ⊆ ns := fun b hb => hpart (List.mem_append_left _ hb)
    rw [List.nodup_append_comm, List.singleton_append, List.nodup_cons] at hnodup
    have hlegal := ih hbefore hnodup.2
    obtain ⟨c, hc⟩ := Option.isSome_iff_exists.1 ((h.node_isSome a).2 ha)
    have hhost := host_pinOf (P := P) hc
    have hlive : ∀ p q, (P.assemble (P.trailOf pl part)).port? p = some q → pl.port p = some q := by
      intro p q hq
      obtain ⟨e, he, ch, hch, rfl, rfl⟩ := (port?_assemble_eq_some_iff hlegal hP hT).1 hq
      exact ((h.of_mem_trailOf hbefore he).2.2 ch hch).2
    have hmap := h.isPortMap_pinOf hP hT hc hlive
    rw [trailOf_append_singleton]
    refine ⟨hlegal, ?_⟩
    constructor
    case node_mem => exact hns ha
    case node_new => rw [nodes_trailOf]; exact hnodup.1
    case host_mem => rw [hhost]; exact mem_hostsOf.2 ⟨h.node_mem hc, hmap.supports hT⟩
    case host_new =>
      rw [hhost, ← Bool.not_eq_true, Trail.uses_iff]
      rintro ⟨e, he, rfl⟩
      obtain ⟨hmem, hnode, -⟩ := h.of_mem_trailOf hbefore he
      exact hnodup.1 (h.node_inj hc hnode ▸ hmem)
    case ports => rw [hhost]; exact hmap

/-- The trail of a valid placement describes that placement. -/
theorem placement_trailOf (h : P.Places ns pl) (hP : P.pattern.WellFormed)
    (hT : P.target.WellFormed) (hns : ns ⊆ P.pattern.nodeIds) (hnodup : ns.Nodup) :
    (P.assemble (P.trailOf pl ns)).placement = pl := by
  have hlegal := h.legal_trailOf hP hT hns (List.Subset.refl ns) hnodup
  apply Placement.ext
  · funext a
    apply Option.ext
    intro c
    refine (node?_assemble_eq_some_iff hlegal).trans ⟨?_, fun hc => ?_⟩
    · rintro ⟨e, he, rfl, rfl⟩
      exact (h.of_mem_trailOf (List.Subset.refl ns) he).2.1
    · have ha : a ∈ ns := (h.node_isSome a).1 (by rw [hc]; rfl)
      exact ⟨⟨a, P.pinOf pl a⟩, mem_trailOf.2 ⟨ha, rfl⟩, rfl, host_pinOf hc⟩
  · funext p
    apply Option.ext
    intro q
    refine (port?_assemble_eq_some_iff hlegal hP hT).trans ⟨?_, fun hq => ?_⟩
    · rintro ⟨e, he, ch, hch, rfl, rfl⟩
      exact ((h.of_mem_trailOf (List.Subset.refl ns) he).2.2 ch hch).2
    · obtain ⟨a, ha, howner⟩ := (h.port_isSome p).1 (by rw [hq]; rfl)
      obtain ⟨c, hc⟩ := Option.isSome_iff_exists.1 ((h.node_isSome a).2 ha)
      let ch : Choice := ⟨p, (P.target.portsOf c).toList.idxOf q, q⟩
      have hch : ch ∈ (P.pinOf pl a).choices :=
        (mem_choices_pinOf hc).2 ⟨hP.mem_portsOf.2 howner, hq, rfl⟩
      exact ⟨⟨a, P.pinOf pl a⟩, mem_trailOf.2 ⟨ha, rfl⟩, ch, hch, rfl, rfl⟩

end Places

/-! ## Codes -/

theorem codeOf_nodes {t : Trail} (h : P.Legal t) (hP : P.pattern.WellFormed)
    (hT : P.target.WellFormed) : P.codeOf t.nodes (P.assemble t).placement = t.code := by
  rw [codeOf, Trail.nodes, List.flatMap_map, Trail.code]
  apply List.flatMap_congr
  intro e he
  rw [List.mem_reverse] at he
  obtain ⟨before, hext⟩ := h.extends he
  have hnode : (P.assemble t).placement.node e.node = some e.pin.host :=
    (node?_assemble_eq_some_iff h).2 ⟨e, he, rfl, rfl⟩
  have hports : (P.pattern.portsOf e.node).toList.filterMap (P.assemble t).placement.port
      = e.pin.choices.map Choice.image := by
    rw [← hext.ports.ports, List.filterMap_map, ← List.filterMap_eq_map]
    apply List.filterMap_congr
    intro ch hch
    exact (port?_assemble_eq_some_iff h hP hT).2 ⟨e, he, ch, hch, rfl, rfl⟩
  rw [hnode, hports, Pin.code]
  simp

/-- The nodes that a placement leaves out add nothing to its code. -/
theorem Places.codeOf_eq_nil {ns others : List NodeId} {pl : Placement} (h : P.Places ns pl)
    (hP : P.pattern.WellFormed) (hdisj : ∀ a ∈ others, a ∉ ns) : P.codeOf others pl = [] := by
  rw [codeOf, List.flatMap_eq_nil_iff]
  intro a ha
  have hnode : pl.node a = none := by
    rw [← Option.not_isSome_iff_eq_none, h.node_isSome]
    exact hdisj a ha
  have hports : (P.pattern.portsOf a).toList.filterMap pl.port = [] := by
    rw [List.filterMap_eq_nil_iff]
    intro p hp
    exact h.port_none hP (hdisj a ha) p (Array.mem_toList_iff.1 hp)
  simp [hnode, hports]

/-- The code of a placement of the first nodes in the search order is that of its trail. -/
theorem code_placement {t : Trail} (h : P.Legal t) (hP : P.pattern.WellFormed)
    (hT : P.target.WellFormed) (hnodes : t.nodes <+: P.searchOrder) :
    P.code (P.assemble t).placement = t.code := by
  obtain ⟨others, horder⟩ := hnodes
  have hdisj : ∀ a ∈ others, a ∉ t.nodes := by
    have hnodup := P.nodup_searchOrder
    rw [← horder, List.nodup_append] at hnodup
    exact fun a ha ha' => hnodup.2.2 a ha' a ha rfl
  have hsplit : P.codeOf (t.nodes ++ others) (P.assemble t).placement
      = P.codeOf t.nodes (P.assemble t).placement ++ P.codeOf others (P.assemble t).placement :=
    List.flatMap_append
  rw [code, ← horder, hsplit, codeOf_nodes h hP hT,
    (h.places hP hT).codeOf_eq_nil hP hdisj, List.append_nil]

end Problem

end PortMatch
