import Mathlib
import PortMatch.Proofs.Cursor.PortMaps
import PortMatch.Proofs.Placement.Hosts

/-!
# Trails

A trail is the list of pins that a search has made and not taken back.  It determines the assignment
that the search has reached, and it is *legal* when each pin was possible at the moment it was made.
The assignment of a legal trail is a valid placement of its nodes.

* `Trail`, `Problem.assemble` — the pins made so far, and the assignment that they amount to;
* `Problem.Extends`, `Problem.Legal` — one more pin that is possible; trails of such pins;
* `Problem.node?_assemble_eq_some_iff`, `Problem.port?_assemble_eq_some_iff` — what the assignment
  of a legal trail maps nodes and ports to;
* `Problem.Legal.places` — it is a valid placement of the nodes of the trail;
* `Problem.unassignNode_assemble` — taking the latest node back undoes its pin.

That every valid placement comes from a legal trail is shown in
`PortMatch.Proofs.Trail.OfPlacement`.
-/

namespace PortMatch

/-- A node of the pattern with the pin that it was given. -/
structure Pinned where
  /-- The node. -/
  node : NodeId
  /-- Its pin. -/
  pin : Pin
  deriving DecidableEq

/-- The pins that a search has made and not taken back, the latest first. -/
abbrev Trail : Type := List Pinned

/-- The place of a node followed by the places of its ports, as numbers. -/
def Pin.code (pin : Pin) : List ℕ :=
  pin.host.index :: pin.choices.map fun ch => ch.image.index

namespace Trail

/-- The nodes of a trail, the first one first. -/
def nodes (t : Trail) : List NodeId := t.reverse.map Pinned.node

/-- Is the node a host of the trail? -/
def uses (t : Trail) (c : NodeId) : Bool := t.any fun e => e.pin.host = c

/-- The places of a trail, the first one first. -/
def code (t : Trail) : List ℕ := t.reverse.flatMap fun e => e.pin.code

theorem mem_nodes {t : Trail} {a : NodeId} : a ∈ t.nodes ↔ ∃ e ∈ t, e.node = a := by
  simp [nodes]

theorem length_nodes (t : Trail) : t.nodes.length = t.length := by
  simp [nodes]

theorem nodes_cons (e : Pinned) (t : Trail) : nodes (e :: t) = t.nodes ++ [e.node] := by
  simp [nodes]

theorem code_cons (e : Pinned) (t : Trail) : code (e :: t) = t.code ++ e.pin.code := by
  simp [code]

theorem uses_iff {t : Trail} {c : NodeId} : t.uses c = true ↔ ∃ e ∈ t, e.pin.host = c := by
  simp [uses]

end Trail

namespace Problem

variable {P : Problem}

/-- The assignment that the pins of a trail amount to. -/
def assemble (P : Problem) : Trail → Assignment
  | [] => .unassigned P.pattern
  | e :: t => (P.assemble t).place e.node e.pin

/-- The pin `e` is possible after those of the trail `t`. -/
structure Extends (P : Problem) (t : Trail) (e : Pinned) : Prop where
  /-- The node is one of the pattern. -/
  node_mem : e.node ∈ P.pattern.nodeIds
  /-- It is not placed yet. -/
  node_new : e.node ∉ t.nodes
  /-- The host may host it. -/
  host_mem : e.pin.host ∈ P.hostsOf e.node
  /-- The host is not in use. -/
  host_new : t.uses e.pin.host = false
  /-- The ports find a place there. -/
  ports : P.IsPortMap (P.assemble t) e.node e.pin.host e.pin.choices

theorem Extends.host_ne {t : Trail} {e : Pinned} (h : P.Extends t e) :
    ∀ d ∈ t, d.pin.host ≠ e.pin.host := by
  simpa [Trail.uses] using h.host_new

/-- Every pin of the trail was possible when it was made. -/
def Legal (P : Problem) : Trail → Prop
  | [] => True
  | e :: t => P.Legal t ∧ P.Extends t e

/-! ## Placements of the ports of one node -/

theorem IsPortMap.nodup_ports {live : Assignment} {n host : NodeId} {choices : List Choice}
    (h : P.IsPortMap live n host choices) (hP : P.pattern.WellFormed) :
    (choices.map Choice.port).Nodup :=
  h.ports ▸ hP.nodup_portsOf n

theorem IsPortMap.mem_port {live : Assignment} {n host : NodeId} {choices : List Choice}
    (h : P.IsPortMap live n host choices) {p : PortId} :
    p ∈ P.pattern.portsOf n ↔ ∃ ch ∈ choices, ch.port = p := by
  rw [← Array.mem_toList_iff, ← h.ports, List.mem_map]

theorem IsPortMap.owner_image {live : Assignment} {n host : NodeId} {choices : List Choice}
    (h : P.IsPortMap live n host choices) (hT : P.target.WellFormed) {ch : Choice}
    (hch : ch ∈ choices) : P.target.owner? ch.image = some host :=
  hT.mem_portsOf.1 (Array.mem_of_getElem? (h.image ch hch))

theorem IsPortMap.image_inj {live : Assignment} {n host : NodeId} {choices : List Choice}
    (h : P.IsPortMap live n host choices) (hT : P.target.WellFormed) {ch d : Choice}
    (hch : ch ∈ choices) (hd : d ∈ choices) (himage : ch.image = d.image) : ch = d := by
  obtain ⟨hslot, -⟩ := Array.getElem?_eq_some_iff.1 (h.image ch hch)
  have hsame : ch.slot = d.slot := by
    refine (List.getElem?_inj (by simpa using hslot) (hT.nodup_portsOf host)).1 ?_
    rw [Array.getElem?_toList, Array.getElem?_toList, h.image ch hch, h.image d hd, himage]
  exact List.inj_on_of_nodup_map h.slots hch hd hsame

/-! ## Legal trails describe valid placements -/

theorem port?_place_eq_some_iff {s : Assignment} {n : NodeId} {pin : Pin}
    (hP : P.pattern.WellFormed) (hpin : P.IsPortMap s n pin.host pin.choices)
    (hnone : ∀ p ∈ P.pattern.portsOf n, s.port? p = none) {p q : PortId} :
    (s.place n pin).port? p = some q ↔
      (∃ ch ∈ pin.choices, ch.port = p ∧ ch.image = q) ∨ s.port? p = some q := by
  have hnodup := hpin.nodup_ports hP
  rw [Assignment.port?_place hnodup]
  cases hfind : pin.choices.find? fun ch => ch.port = p with
  | none =>
    rw [List.find?_eq_none] at hfind
    refine ⟨?_, ?_⟩
    · intro h
      exact .inr (by simpa using h)
    · rintro (⟨ch, hch, hport, -⟩ | h)
      · exact absurd hport (by simpa using hfind ch hch)
      · simpa using h
  | some d =>
    have hd := List.mem_of_find?_eq_some hfind
    have hport : d.port = p := by simpa using List.find?_some hfind
    have hs : s.port? p = none := hnone p (hpin.mem_port.2 ⟨d, hd, hport⟩)
    refine ⟨?_, ?_⟩
    · intro h
      exact .inl ⟨d, hd, hport, by simpa using h⟩
    · rintro (⟨ch, hch, hport', rfl⟩ | h)
      · have := List.inj_on_of_nodup_map hnodup hch hd (hport'.trans hport.symm)
        simp [this]
      · rw [hs] at h
        cases h

theorem Places.port_none {ns : List NodeId} {pl : Placement} (h : P.Places ns pl)
    (hP : P.pattern.WellFormed) {a : NodeId} (ha : a ∉ ns) :
    ∀ p ∈ P.pattern.portsOf a, pl.port p = none := by
  intro p hp
  rw [← Option.not_isSome_iff_eq_none, h.port_isSome]
  rintro ⟨b, hb, howner⟩
  rw [hP.mem_portsOf.1 hp] at howner
  exact ha (Option.some.inj howner ▸ hb)

/-- No port is placed on a port of a node that is not in use. -/
theorem Places.owner_ne {ns : List NodeId} {pl : Placement} (h : P.Places ns pl) {host : NodeId}
    (hfree : ∀ a, pl.node a ≠ some host) {p q : PortId} (hq : pl.port p = some q) :
    P.target.owner? q ≠ some host := by
  intro howner
  obtain ⟨a, -, ha⟩ := (h.port_isSome p).1 (by rw [hq]; rfl)
  obtain ⟨c, hc, hqc⟩ := h.owner hq ha
  rw [howner, Option.some_inj] at hqc
  exact hfree a (hqc ▸ hc)

/-- One more pin that is possible extends a valid placement to one more node. -/
theorem Places.place {ns : List NodeId} {s : Assignment} {e : Pinned}
    (h : P.Places ns s.placement) (hP : P.pattern.WellFormed) (hT : P.target.WellFormed)
    (hnode : e.node ∉ ns) (hhost : e.pin.host ∈ P.target.nodeIds)
    (hfree : ∀ a, s.node? a ≠ some e.pin.host)
    (hpin : P.IsPortMap s e.node e.pin.host e.pin.choices) :
    P.Places (ns ++ [e.node]) (s.place e.node e.pin).placement := by
  have hnone : ∀ p ∈ P.pattern.portsOf e.node, s.port? p = none := h.port_none hP hnode
  have hport : ∀ {p q}, (s.place e.node e.pin).placement.port p = some q ↔
      (∃ ch ∈ e.pin.choices, ch.port = p ∧ ch.image = q) ∨ s.port? p = some q :=
    port?_place_eq_some_iff hP hpin hnone
  have hplace : ∀ a, (s.place e.node e.pin).placement.node a
      = if e.node = a then some e.pin.host else s.node? a :=
    fun a => s.node?_place e.node a e.pin
  have hold : ∀ {p q}, s.port? p = some q → P.target.owner? q ≠ some e.pin.host :=
    h.owner_ne hfree
  constructor
  case node_isSome =>
    intro a
    rw [hplace, List.mem_append, List.mem_singleton, ← h.node_isSome]
    by_cases ha : e.node = a
    · simp [ha]
    · simp [ha, Ne.symm ha, Assignment.placement]
  case port_isSome =>
    intro p
    have hnew : (∃ q ch, ch ∈ e.pin.choices ∧ ch.port = p ∧ ch.image = q) ↔
        P.pattern.owner? p = some e.node := by
      rw [← hP.mem_portsOf, hpin.mem_port]
      simp
    have hbefore := h.port_isSome p
    rw [Option.isSome_iff_exists] at hbefore ⊢
    simp only [hport, exists_or, hnew, List.mem_append, List.mem_singleton, or_and_right,
      exists_eq_left, ← hbefore]
    exact or_comm
  case node_mem =>
    intro a c hc
    rw [hplace] at hc
    split at hc
    · exact Option.some.inj hc ▸ hhost
    · exact h.node_mem hc
  case node_inj =>
    intro a b c ha hb
    rw [hplace] at ha hb
    split at ha <;> split at hb
    · next hea heb => exact hea.symm.trans heb
    · exact absurd (ha ▸ hb) (hfree b)
    · exact absurd (hb ▸ ha) (hfree a)
    · exact h.node_inj ha hb
  case port_inj =>
    intro p q r hp hq
    rcases hport.1 hp with ⟨ch, hch, rfl, rfl⟩ | hp <;>
      rcases hport.1 hq with ⟨d, hd, rfl, himage⟩ | hq
    · rw [hpin.image_inj hT hch hd himage.symm]
    · exact absurd (hpin.owner_image hT hch) (hold hq)
    · exact absurd (hpin.owner_image hT hd) (himage ▸ hold hp)
    · exact h.port_inj hp hq
  case owner =>
    intro p q a hp ha
    rw [hplace]
    rcases hport.1 hp with ⟨ch, hch, rfl, rfl⟩ | hp
    · have hmem := hpin.mem_port.2 ⟨ch, hch, rfl⟩
      rw [hP.mem_portsOf.1 hmem, Option.some_inj] at ha
      exact ⟨e.pin.host, if_pos ha, hpin.owner_image hT hch⟩
    · obtain ⟨c, hc, hqc⟩ := h.owner hp ha
      refine ⟨c, ?_, hqc⟩
      have hne : e.node ≠ a := by
        rintro rfl
        exact hnode ((h.node_isSome _).1 (by rw [hc]; rfl))
      rw [if_neg hne]
      exact hc
  case kind =>
    intro p q hp
    rcases hport.1 hp with ⟨ch, hch, rfl, rfl⟩ | hp
    · exact hpin.kind ch hch
    · exact h.kind hp
  case link =>
    intro p q p' q' hlink hp hq
    rcases hport.1 hp with ⟨ch, hch, rfl, rfl⟩ | hp <;>
      rcases hport.1 hq with ⟨d, hd, rfl, rfl⟩ | hq
    · exact hpin.inner ch hch d hd hlink
    · exact hpin.outer ch hch q q' hlink hq
    · rw [Graph.connected_comm] at hlink ⊢
      exact hpin.outer d hd p p' hlink hp
    · exact h.link hlink hp hq

theorem places_nil (P : Problem) : P.Places [] (Assignment.unassigned P.pattern).placement := by
  constructor <;> simp [Assignment.placement]

/-- What an assignment of pins maps a node to. -/
theorem node?_assemble_eq_some_iff {t : Trail} (h : P.Legal t) {a c : NodeId} :
    (P.assemble t).node? a = some c ↔ ∃ e ∈ t, e.node = a ∧ e.pin.host = c := by
  induction t with
  | nil => simp [assemble]
  | cons e t ih =>
    obtain ⟨ht, he⟩ := h
    rw [assemble, Assignment.node?_place]
    by_cases ha : e.node = a
    · subst ha
      have hnew : ∀ d ∈ t, d.node ≠ e.node := by
        intro d hd h
        exact he.node_new (Trail.mem_nodes.2 ⟨d, hd, h⟩)
      simp only [if_true, Option.some_inj, List.mem_cons, exists_eq_or_imp, true_and]
      refine ⟨?_, ?_⟩
      · exact Or.inl
      · rintro (h | ⟨d, hd, h, -⟩)
        · exact h
        · exact absurd h (hnew d hd)
    · rw [if_neg ha, ih ht]
      simp [ha]

/-- A legal trail describes a valid placement of its nodes. -/
theorem Legal.places {t : Trail} (h : P.Legal t) (hP : P.pattern.WellFormed)
    (hT : P.target.WellFormed) : P.Places t.nodes (P.assemble t).placement := by
  induction t with
  | nil => exact P.places_nil
  | cons e t ih =>
    obtain ⟨ht, he⟩ := h
    rw [Trail.nodes_cons]
    refine (ih ht).place hP hT he.node_new (mem_hostsOf.1 he.host_mem).1 ?_ he.ports
    intro a ha
    obtain ⟨d, hd, -, hhost⟩ := (node?_assemble_eq_some_iff ht).1 ha
    exact he.host_ne d hd hhost

/-- What the assignment of a legal trail maps a port to. -/
theorem port?_assemble_eq_some_iff {t : Trail} (h : P.Legal t) (hP : P.pattern.WellFormed)
    (hT : P.target.WellFormed) {p q : PortId} :
    (P.assemble t).port? p = some q ↔
      ∃ e ∈ t, ∃ ch ∈ e.pin.choices, ch.port = p ∧ ch.image = q := by
  induction t with
  | nil => simp [assemble]
  | cons e t ih =>
    obtain ⟨ht, he⟩ := h
    have hnone := (ht.places hP hT).port_none hP he.node_new
    rw [assemble, port?_place_eq_some_iff hP he.ports hnone, ih ht]
    simp

/-! ## Taking the latest pin back -/

theorem Legal.extends {t : Trail} (h : P.Legal t) {e : Pinned} (he : e ∈ t) :
    ∃ before, P.Extends before e := by
  induction t with
  | nil => cases he
  | cons d t ih =>
    rcases List.mem_cons.1 he with rfl | he
    · exact ⟨t, h.2⟩
    · exact ih h.1 he

theorem getElem?_nodes_assemble {t : Trail} {a : NodeId} (ha : a ∉ t.nodes) :
    (P.assemble t).nodes[a]? = (Images.unassigned P.pattern.nodeIds)[a]? := by
  induction t with
  | nil => rfl
  | cons e t ih =>
    rw [Trail.nodes_cons, List.mem_append, List.mem_singleton, not_or] at ha
    rw [assemble, Assignment.nodes_place, Images.getElem?_assign, if_neg (Ne.symm ha.2), ih ha.1]

theorem getElem?_ports_assemble {t : Trail} {p : PortId}
    (hp : ∀ e ∈ t, p ∉ e.pin.choices.map Choice.port) :
    (P.assemble t).ports[p]? = (Images.unassigned P.pattern.portIds)[p]? := by
  induction t with
  | nil => rfl
  | cons e t ih =>
    rw [assemble, Assignment.ports_place, Assignment.getElem?_foldl_assign _ (hp e (by simp)),
      ih fun d hd => hp d (by simp [hd])]

/-- Taking the latest node of a legal trail back leaves the assignment of the trail before. -/
theorem unassignNode_assemble {t : Trail} {e : Pinned} (h : P.Legal (e :: t))
    (hP : P.pattern.WellFormed) :
    (P.assemble (e :: t)).unassignNode P.pattern e.node = P.assemble t := by
  obtain ⟨ht, he⟩ := h
  refine Assignment.unassignNode_place ?_ ?_ fun ch hch => he.ports.mem_port.2 ⟨ch, hch, rfl⟩
  · rw [getElem?_nodes_assemble he.node_new, Images.getElem?_unassigned, if_pos he.node_mem]
  · intro p hp
    have howner := hP.mem_portsOf.1 hp
    have hmem : p ∈ P.pattern.portIds := Graph.mem_portIds_of_owner howner
    rw [getElem?_ports_assemble, Images.getElem?_unassigned, if_pos hmem]
    -- the port would belong to two nodes
    intro d hd hpd
    obtain ⟨before, hext⟩ := ht.extends hd
    rw [hext.ports.ports, Array.mem_toList_iff, hP.mem_portsOf, howner, Option.some_inj] at hpd
    exact he.node_new (Trail.mem_nodes.2 ⟨d, hd, hpd.symm⟩)

end Problem

end PortMatch
