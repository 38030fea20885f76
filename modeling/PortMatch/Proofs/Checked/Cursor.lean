import Mathlib
import PortMatch.Proofs.Checked.Basic
import PortMatch.Proofs.Search.FrameRemaining

/-!
# Checked cursors and frames

A cursor looks at marks and ports by their slots, at kinds by ports, and counts slots.  Its moves
are defined here once more with checked operations, and those of frames on top of them.  A loop that
does not end gives nothing either.

The checks never fail for a cursor that is *sound*: its ports are those of a node of the pattern,
and it has a mark for each port of its host.  A cursor is sound at its beginning and stays so.

* `Cursor.checkedStep`, `Cursor.checkedNext` — the moves of a cursor, checked;
* `Frame.checkedFresh`, `Frame.checkedNext` — the same for a frame;
* `Cursor.Sound`, `Frame.Sound` — the invariants;
* `Cursor.Sound.next`, `Frame.Sound.next` — they are kept;
* `Cursor.Sound.checkedNext_eq`, `Frame.Sound.checkedNext_eq` — under them the checks do not fail.
-/

namespace PortMatch

namespace Cursor

/-! ## Checked moves -/

/-- The place of `port`, which is of the given kind, in a slot that the cursor has and its host
too. -/
def checkedPlace (P : Problem) (c : Cursor) (anchors : List PortId) (port : PortId)
    (kind : PortKind) (slot : ℕ) : Option (Option Choice) := do
  let taken ← c.taken[slot]?
  if taken then
    return none
  else
    let image ← (P.target.portsOf c.host)[slot]?
    let imageKind ← P.target.kind? image
    return if imageKind = kind ∧ anchors.all (P.target.connected image) then
      some ⟨port, slot, image⟩
    else none

/-- The first place for `port`, of all slots of the host from the cursor's first slot on. -/
def checkedChoice (P : Problem) (live : Assignment) (c : Cursor) (port : PortId) :
    Option (Option Choice) := do
  let kind ← P.pattern.kind? port
  (List.range' c.start ((P.target.portsOf c.host).size - c.start)).findSomeM?
    (c.checkedPlace P (P.anchors live c.placed port) port kind)

/-- Places the next port, in a slot that can be marked. -/
def checkedExtend (c : Cursor) (ch : Choice) (rest : List PortId) : Option Cursor := do
  let taken ← setAt? c.taken ch.slot true
  return { c with placed := ch :: c.placed, ahead := rest, taken, start := 0 }

/-- Takes the latest placed port back, if the mark of its slot can be cleared and there is a number
for the slot after it. -/
def checkedRetreat (c : Cursor) : Option Cursor :=
  match c.placed with
  | [] => some { c with done := true }
  | ch :: rest => do
    let taken ← setAt? c.taken ch.slot false
    let start ← fits? UInt32.size (ch.slot + 1)
    return { c with placed := rest, ahead := ch.port :: c.ahead, taken, start }

/-- One move, checked. -/
def checkedStep (P : Problem) (live : Assignment) (c : Cursor) : Option Move :=
  match c.ahead with
  | [] => c.checkedRetreat.map (.yielded c.placed.reverse)
  | port :: rest => do
    match ← c.checkedChoice P live port with
    | some ch => (c.checkedExtend ch rest).map .moved
    | none => c.checkedRetreat.map .moved

/-- The next placement, checked. -/
def checkedNext (P : Problem) (live : Assignment) (c : Cursor) :
    Option (Option (List Choice) × Cursor) :=
  if c.done = true then some (none, c)
  else do
    match ← c.checkedStep P live with
    | .moved c' => c' |>.checkedNext P live
    | .yielded choices c' => return (some choices, c')
partial_fixpoint

/-- The next placement of the first cursor that has one, checked. -/
def checkedFirstNext (P : Problem) (live : Assignment) :
    List Cursor → Option (Option Pin × List Cursor)
  | [] => some (none, [])
  | c :: rest => do
    match ← c.checkedNext P live with
    | (some choices, c') => return (some ⟨c.host, choices⟩, c' :: rest)
    | (none, _) => checkedFirstNext P live rest

/-! ## Sound cursors -/

/-- A cursor over the placements of the ports of the node `n`. -/
structure Sound (P : Problem) (n : NodeId) (c : Cursor) : Prop where
  /-- The host is a node of the target. -/
  host : c.host ∈ P.target.nodeIds
  /-- The ports that are placed and those that are not are the ports of the node. -/
  ports : c.placed.reverse.map Choice.port ++ c.ahead = (P.pattern.portsOf n).toList
  /-- Every port of the host has a mark. -/
  size : c.taken.size = (P.target.portsOf c.host).size
  /-- Ports are placed in slots that have a mark. -/
  slots : ∀ ch ∈ c.placed, ch.slot < c.taken.size

variable {P : Problem} {live : Assignment} {n host : NodeId} {c : Cursor}

theorem sound_fresh (P : Problem) (n : NodeId) (hhost : host ∈ P.target.nodeIds) :
    (fresh P n host).Sound P n where
  host := hhost
  ports := rfl
  size := Array.size_replicate
  slots := List.forall_mem_nil _

namespace Sound

theorem mem_portsOf (hc : c.Sound P n) {port : PortId} (h : port ∈ c.ahead) :
    port ∈ P.pattern.portsOf n := by
  rw [← Array.mem_toList_iff, ← hc.ports]
  exact List.mem_append_right _ h

theorem size_le (hc : c.Sound P n) (hT : P.target.WellFormed) :
    c.taken.size ≤ P.target.portCount :=
  hc.size ▸ hT.size_portsOf_le c.host

theorem extend (hc : c.Sound P n) {ch : Choice} {rest : List PortId}
    (hahead : c.ahead = ch.port :: rest) (hslot : ch.slot < c.taken.size) :
    (c.extend ch rest).Sound P n where
  host := hc.host
  ports := by simpa [Cursor.extend, hahead] using hc.ports
  size := by simpa [Cursor.extend] using hc.size
  slots := by simpa [Cursor.extend] using ⟨hslot, hc.slots⟩

theorem retreat (hc : c.Sound P n) : c.retreat.Sound P n := by
  have hports := hc.ports
  have hslots := hc.slots
  unfold Cursor.retreat
  split
  · exact ⟨hc.host, hc.ports, hc.size, hc.slots⟩
  · next ch rest hplaced =>
    rw [hplaced] at hports hslots
    constructor
    case host => exact hc.host
    case ports => simpa using hports
    case size => simpa using hc.size
    case slots => simpa using (List.forall_mem_cons.1 hslots).2

/-- Every move keeps a cursor sound. -/
theorem step (hc : c.Sound P n) (live : Assignment) : (c.step P live).cursor.Sound P n := by
  unfold Cursor.step
  split
  · exact hc.retreat
  · next port rest hahead =>
    split
    · next ch hch =>
      obtain ⟨slot, -, hplace⟩ := List.exists_of_findSome?_eq_some hch
      obtain ⟨-, -, -, -, hport, -⟩ := place?_eq_some_iff.1 hplace
      exact hc.extend (by rw [hport, hahead]) (choice?_slot hch).2
    · exact hc.retreat

theorem next (hc : c.Sound P n) (live : Assignment) : (c.next P live).2.Sound P n := by
  fun_induction Cursor.next P live c with
  | case1 c hdone => exact hc
  | case2 c hdone c' hstep ih =>
    have hsound := hc.step live
    rw [hstep] at hsound
    exact ih hsound
  | case3 c hdone choices c' hstep =>
    have hsound := hc.step live
    rw [hstep] at hsound
    exact hsound

/-! ## The checks do not fail -/

variable (hP : P.pattern.WellFormed) (hT : P.target.WellFormed) (hsmall : P.target.Numbered)

include hT in
theorem checkedPlace_eq (hc : c.Sound P n) {anchors : List PortId} {port : PortId}
    {kind : PortKind} (hkind : P.pattern.kind? port = some kind) {slot : ℕ}
    (hslot : slot < c.taken.size) :
    c.checkedPlace P anchors port kind slot = some (c.place? P anchors port slot) := by
  have hmark : c.taken[slot]? = some c.taken[slot] := Array.getElem?_eq_getElem hslot
  have himage := Array.getElem?_eq_getElem (hc.size ▸ hslot : slot < (P.target.portsOf c.host).size)
  obtain ⟨imageKind, himageKind⟩ := hT.exists_kind (Array.getElem_mem
    (hc.size ▸ hslot : slot < (P.target.portsOf c.host).size))
  cases htaken : c.taken[slot] with
  | true => simp [checkedPlace, place?, hmark, himage, htaken]
  | false => simp [checkedPlace, place?, hmark, himage, htaken, himageKind, hkind]

include hP hT in
theorem checkedChoice_eq (hc : c.Sound P n) {port : PortId} (hport : port ∈ c.ahead) :
    c.checkedChoice P live port = some (c.choice? P live port) := by
  obtain ⟨kind, hkind⟩ := hP.exists_kind (hc.mem_portsOf hport)
  rw [checkedChoice, hkind, ← hc.size]
  refine findSomeM?_eq_some fun slot hslot => hc.checkedPlace_eq hT hkind ?_
  have hrange := List.mem_range'_1.1 hslot
  omega

include hT hsmall in
theorem checkedRetreat_eq (hc : c.Sound P n) : c.checkedRetreat = some c.retreat := by
  cases hplaced : c.placed with
  | nil => simp only [checkedRetreat, Cursor.retreat, hplaced]
  | cons ch rest =>
    have hslot : ch.slot < c.taken.size := hc.slots ch (hplaced ▸ List.mem_cons_self)
    have hnext : ch.slot + 1 < UInt32.size :=
      Nat.lt_of_le_of_lt (Nat.le_trans hslot (hc.size_le hT)) hsmall.ports
    simp only [checkedRetreat, Cursor.retreat, hplaced, setAt?_eq hslot, fits?_eq hnext]
    rfl

include hP hT hsmall in
theorem checkedStep_eq (hc : c.Sound P n) (live : Assignment) :
    c.checkedStep P live = some (c.step P live) := by
  cases hahead : c.ahead with
  | nil =>
    simp only [checkedStep, Cursor.step, hahead, hc.checkedRetreat_eq hT hsmall, Option.map_some]
  | cons port rest =>
    have hchoice : c.checkedChoice P live port = some (c.choice? P live port) :=
      hc.checkedChoice_eq hP hT (hahead ▸ List.mem_cons_self)
    simp only [checkedStep, Cursor.step, hahead, hchoice]
    cases hch : c.choice? P live port with
    | none => simp [hc.checkedRetreat_eq hT hsmall]
    | some ch => simp [checkedExtend, setAt?_eq (choice?_slot hch).2, Cursor.extend]

include hP hT hsmall in
/-- A sound cursor gets to its next placement without a check that fails. -/
theorem checkedNext_eq (hc : c.Sound P n) (live : Assignment) :
    c.checkedNext P live = some (c.next P live) := by
  fun_induction Cursor.next P live c with
  | case1 c hdone => rw [checkedNext, if_pos hdone]
  | case2 c hdone c' hstep ih =>
    have hsound := hc.step live
    rw [hstep] at hsound
    rw [checkedNext, if_neg hdone, hc.checkedStep_eq hP hT hsmall, hstep]
    exact ih hsound
  | case3 c hdone choices c' hstep =>
    rw [checkedNext, if_neg hdone, hc.checkedStep_eq hP hT hsmall, hstep]
    rfl

end Sound

theorem checkedFirstNext_eq (hP : P.pattern.WellFormed) (hT : P.target.WellFormed)
    (hsmall : P.target.Numbered) {cs : List Cursor} (hcs : ∀ c ∈ cs, c.Sound P n)
    (live : Assignment) : checkedFirstNext P live cs = some (firstNext P live cs) := by
  induction cs with
  | nil => rfl
  | cons c rest ih =>
    obtain ⟨hc, hrest⟩ := List.forall_mem_cons.1 hcs
    rw [checkedFirstNext, hc.checkedNext_eq hP hT hsmall, firstNext]
    rcases hnext : c.next P live with ⟨_ | choices, c'⟩
    · exact ih hrest
    · rfl

end Cursor

/-! ## Frames -/

namespace Frame

/-- The frame of a goal at its beginning, if its hosts can be counted. -/
def checkedFresh (P : Problem) (inUse : NodeId → Bool) (g : Goal) : Option Frame := do
  let hosts := g.hosts.filter fun c => !inUse c
  let _count ← fits? UInt32.size hosts.length
  return { goal := g, cursors := hosts.map (Cursor.fresh P g.node) }

/-- The next pin, checked. -/
def checkedNext (P : Problem) (live : Assignment) (f : Frame) : Option (Option Pin × Frame) := do
  let (pin, cursors) ← Cursor.checkedFirstNext P live f.cursors
  return (pin, { f with cursors })

/-- A frame of a goal of the problem. -/
structure Sound (P : Problem) (f : Frame) : Prop where
  /-- The goal is a node of the pattern. -/
  node : f.goal.node ∈ P.pattern.nodeIds
  /-- Its cursors are sound. -/
  cursors : ∀ c ∈ f.cursors, c.Sound P f.goal.node

variable {P : Problem} {f : Frame}

theorem sound_fresh {g : Goal} (hnode : g.node ∈ P.pattern.nodeIds)
    (hhosts : g.hosts ⊆ P.target.nodeIds) (inUse : NodeId → Bool) :
    (fresh P inUse g).Sound P where
  node := hnode
  cursors := by
    intro c hc
    obtain ⟨host, hhost, rfl⟩ := List.mem_map.1 hc
    exact Cursor.sound_fresh P g.node (hhosts (List.mem_of_mem_filter hhost))

theorem checkedFresh_eq (hsmall : P.target.Numbered) {g : Goal}
    (hhosts : g.hosts.Sublist P.target.nodeIds) (inUse : NodeId → Bool) :
    checkedFresh P inUse g = some (fresh P inUse g) := by
  have hlen : (g.hosts.filter fun c => !inUse c).length < UInt32.size := by
    calc (g.hosts.filter fun c => !inUse c).length
      _ ≤ P.target.nodeIds.length := (List.filter_sublist.trans hhosts).length_le
      _ = P.target.nodeCount := P.target.length_nodeIds
      _ < UInt32.size := hsmall.nodes
  simp [checkedFresh, fits?_eq hlen, fresh]

namespace Sound

/-- A frame stays sound, and a pin that it yields is on a node of the target. -/
theorem next (hf : f.Sound P) (live : Assignment) :
    (f.next P live).2.Sound P ∧
      ∀ pin ∈ (f.next P live).1, pin.host ∈ P.target.nodeIds := by
  obtain ⟨goal, cursors⟩ := f
  induction cursors with
  | nil => exact ⟨hf, by rintro pin ⟨⟩⟩
  | cons c rest ih =>
    obtain ⟨hc, hrest⟩ := List.forall_mem_cons.1 hf.cursors
    simp only [Frame.next, Cursor.firstNext]
    split
    · next choices c' hnext =>
      have hc' := hc.next live
      rw [hnext] at hc'
      refine ⟨⟨hf.node, List.forall_mem_cons.2 ⟨hc', hrest⟩⟩, ?_⟩
      rintro pin ⟨⟩
      exact hc.host
    · exact ih ⟨hf.node, hrest⟩

/-- A sound frame gets to its next pin without a check that fails. -/
theorem checkedNext_eq (hf : f.Sound P) (hP : P.pattern.WellFormed) (hT : P.target.WellFormed)
    (hsmall : P.target.Numbered) (live : Assignment) :
    f.checkedNext P live = some (f.next P live) := by
  rw [checkedNext, Cursor.checkedFirstNext_eq hP hT hsmall hf.cursors]
  rfl

end Sound

end Frame

end PortMatch
