import Mathlib
import PortMatch.Proofs.Graph.Growth
import PortMatch.Proofs.Placement.Labels

/-!
# Embeddings

A graph embeds in another one if the whole of it has a valid placement there.  It embeds in itself
and in whatever it grows to, since everything may stay where it is; and placements can be made one
after the other, so what embeds in a graph embeds wherever that graph does.

* `Placement.stay`, `Graph.embeds_of_extends` — everything stays where it is;
* `Placement.comp`, `Graph.Embeds.trans` — one placement after the other.
-/

namespace PortMatch

namespace Placement

/-- Every node and every port of the graph is placed on itself. -/
def stay (g : Graph) : Placement where
  node a := if a ∈ g.nodeIds then some a else none
  port p := if p ∈ g.portIds then some p else none

/-- Things go where `pl` places them, and from there where `pl'` does. -/
def comp (pl pl' : Placement) : Placement where
  node a := (pl.node a).bind pl'.node
  port p := (pl.port p).bind pl'.port

theorem node_stay {g : Graph} {a c : NodeId} :
    (stay g).node a = some c ↔ a ∈ g.nodeIds ∧ a = c := by
  simp [stay]

theorem port_stay {g : Graph} {p q : PortId} :
    (stay g).port p = some q ↔ p ∈ g.portIds ∧ p = q := by
  simp [stay]

theorem node_comp {pl pl' : Placement} {a c : NodeId} :
    (pl.comp pl').node a = some c ↔ ∃ b, pl.node a = some b ∧ pl'.node b = some c :=
  Option.bind_eq_some_iff

theorem port_comp {pl pl' : Placement} {p r : PortId} :
    (pl.comp pl').port p = some r ↔ ∃ q, pl.port p = some q ∧ pl'.port q = some r :=
  Option.bind_eq_some_iff

end Placement

namespace Problem

/-! ## Staying -/

/-- Where a graph has grown, everything that it had may stay. -/
theorem solves_stay {g g' : Graph} (hg : g.WellFormed) (h : g'.Extends g) :
    Solves ⟨g, g'⟩ (.stay g) where
  node_isSome a := by simp [Placement.stay]
  port_isSome p := by
    rw [← hg.mem_portIds_iff]
    simp [Placement.stay]
  node_mem ha := by
    obtain ⟨hmem, rfl⟩ := Placement.node_stay.1 ha
    exact h.mem_nodeIds hmem
  node_inj ha hb :=
    (Placement.node_stay.1 ha).2.trans (Placement.node_stay.1 hb).2.symm
  port_inj hp hq :=
    (Placement.port_stay.1 hp).2.trans (Placement.port_stay.1 hq).2.symm
  owner {p q a} hp ha := by
    obtain ⟨-, rfl⟩ := Placement.port_stay.1 hp
    exact ⟨a, Placement.node_stay.2 ⟨Graph.mem_nodeIds.2 (hg.owner_lt ha), rfl⟩, h.owner? ha⟩
  kind hp := by
    obtain ⟨hmem, rfl⟩ := Placement.port_stay.1 hp
    exact h.kind? hmem
  link hpq hp hq := by
    obtain ⟨-, rfl⟩ := Placement.port_stay.1 hp
    obtain ⟨-, rfl⟩ := Placement.port_stay.1 hq
    exact h.connected hpq

/-! ## One placement after the other -/

variable {A B C : Graph} {pl pl' : Placement}

theorem Solves.node_comp_isSome (h : Solves ⟨A, B⟩ pl) (h' : Solves ⟨B, C⟩ pl') (a : NodeId) :
    ((pl.comp pl').node a).isSome ↔ a ∈ A.nodeIds := by
  rw [← h.node_isSome a, Placement.comp, Option.isSome_bind]
  cases hb : pl.node a with
  | none => rfl
  | some b => simpa using (h'.node_isSome b).2 (h.node_mem hb)

theorem Solves.port_comp_isSome (h : Solves ⟨A, B⟩ pl) (h' : Solves ⟨B, C⟩ pl') (p : PortId) :
    ((pl.comp pl').port p).isSome ↔ ∃ a ∈ A.nodeIds, A.owner? p = some a := by
  rw [← h.port_isSome p, Placement.comp, Option.isSome_bind]
  cases hq : pl.port p with
  | none => rfl
  | some q =>
    -- the place of the port belongs to a node, which has a place in turn
    obtain ⟨a, -, ha⟩ := (h.port_isSome p).1 (by rw [hq]; rfl)
    obtain ⟨b, hb, howner⟩ := h.owner hq ha
    simpa using (h'.port_isSome q).2 ⟨b, h.node_mem hb, howner⟩

/-- A placement in a graph and a placement of that graph make one placement. -/
theorem Solves.comp (h : Solves ⟨A, B⟩ pl) (h' : Solves ⟨B, C⟩ pl') :
    Solves ⟨A, C⟩ (pl.comp pl') where
  node_isSome := h.node_comp_isSome h'
  port_isSome := h.port_comp_isSome h'
  node_mem ha := by
    obtain ⟨b, -, hb⟩ := Placement.node_comp.1 ha
    exact h'.node_mem hb
  node_inj ha₁ ha₂ := by
    obtain ⟨b₁, hb₁, hc₁⟩ := Placement.node_comp.1 ha₁
    obtain ⟨b₂, hb₂, hc₂⟩ := Placement.node_comp.1 ha₂
    obtain rfl := h'.node_inj hc₁ hc₂
    exact h.node_inj hb₁ hb₂
  port_inj hp₁ hp₂ := by
    obtain ⟨q₁, hq₁, hr₁⟩ := Placement.port_comp.1 hp₁
    obtain ⟨q₂, hq₂, hr₂⟩ := Placement.port_comp.1 hp₂
    obtain rfl := h'.port_inj hr₁ hr₂
    exact h.port_inj hq₁ hq₂
  owner hp ha := by
    obtain ⟨q, hq, hr⟩ := Placement.port_comp.1 hp
    obtain ⟨b, hb, hqb⟩ := h.owner hq ha
    obtain ⟨c, hc, hrc⟩ := h'.owner hr hqb
    exact ⟨c, Placement.node_comp.2 ⟨b, hb, hc⟩, hrc⟩
  kind hp := by
    obtain ⟨q, hq, hr⟩ := Placement.port_comp.1 hp
    exact (h'.kind hr).trans (h.kind hq)
  link hpq hp hq := by
    obtain ⟨p', hp', hp''⟩ := Placement.port_comp.1 hp
    obtain ⟨q', hq', hq''⟩ := Placement.port_comp.1 hq
    exact h'.link (h.link hpq hp' hq') hp'' hq''

end Problem

namespace Graph

variable {A B C g g' : Graph}

/-- The whole of the graph `A` has a valid placement in the graph `C`. -/
def Embeds (A C : Graph) : Prop := ∃ pl, Problem.Solves ⟨A, C⟩ pl

/-- A graph embeds in what it grows to. -/
theorem embeds_of_extends (hg : g.WellFormed) (h : g'.Extends g) : g.Embeds g' :=
  ⟨_, Problem.solves_stay hg h⟩

theorem Embeds.trans (h : A.Embeds B) (h' : B.Embeds C) : A.Embeds C := by
  obtain ⟨pl, hpl⟩ := h
  obtain ⟨pl', hpl'⟩ := h'
  exact ⟨_, hpl.comp hpl'⟩

end Graph

end PortMatch
