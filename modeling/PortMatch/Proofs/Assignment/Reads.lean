import PortMatch.Search.Run
import PortMatch.Proofs.Graph.WellFormed

/-!
# Reading assignments

What an assignment maps a node or a port to, after each of the changes that an assignment can
undergo.  A table of images keeps apart ids that are listed without an image and ids that are not
listed; two tables are equal when they agree in this finer sense.

* `Images.getElem?_assign`, `Images.getElem?_clear` — a table after a change, entry by entry;
* `Assignment.node?_place`, `Assignment.port?_place` — what placing a node changes;
* `Assignment.unassignNode_place` — taking a placed node back restores the assignment.
-/

namespace PortMatch

namespace Images

variable {ι : Type} [Ord ι] [Std.TransOrd ι] [Std.LawfulEqOrd ι] [DecidableEq ι]

theorem getElem?_insert (m : Images ι) (a b : ι) (c : Option ι) :
    (m.insert a c)[b]? = if a = b then some c else m[b]? := by
  rw [Std.ExtTreeMap.getElem?_insert]
  simp only [Std.LawfulEqCmp.compare_eq_iff_eq]

theorem getElem?_assign (m : Images ι) (a b c : ι) :
    (m.assign a c)[b]? = if a = b then some (some c) else m[b]? :=
  getElem?_insert m a b (some c)

theorem getElem?_clear (m : Images ι) (ids : List ι) (b : ι) :
    (m.clear ids)[b]? = if b ∈ ids then some none else m[b]? := by
  induction ids generalizing m with
  | nil => simp [clear]
  | cons a rest ih =>
    show (clear (m.insert a none) rest)[b]? = _
    rw [ih, getElem?_insert]
    by_cases hrest : b ∈ rest
    · simp [hrest]
    · by_cases ha : a = b
      · simp [ha]
      · simp [hrest, ha, Ne.symm ha]

theorem getElem?_unassigned (ids : List ι) (b : ι) :
    (unassigned ids)[b]? = if b ∈ ids then some none else none := by
  rw [unassigned, getElem?_clear]
  rfl

theorem image?_assign (m : Images ι) (a b c : ι) :
    (m.assign a c).image? b = if a = b then some c else m.image? b := by
  rw [image?, getElem?_assign]
  split <;> rfl

theorem image?_unassigned (ids : List ι) (b : ι) : (unassigned ids).image? b = none := by
  rw [image?, getElem?_unassigned]
  split <;> rfl

end Images

namespace Assignment

/-! ## Placing a node -/

theorem foldl_assignPort (s : Assignment) (choices : List Choice) :
    choices.foldl (fun s ch => s.assignPort ch.port ch.image) s
      = { s with ports := choices.foldl (fun m ch => m.assign ch.port ch.image) s.ports } := by
  induction choices generalizing s with
  | nil => rfl
  | cons ch rest ih => exact ih (s.assignPort ch.port ch.image)

theorem nodes_place (s : Assignment) (n : NodeId) (pin : Pin) :
    (s.place n pin).nodes = s.nodes.assign n pin.host := by
  rw [place, foldl_assignPort]
  rfl

theorem ports_place (s : Assignment) (n : NodeId) (pin : Pin) :
    (s.place n pin).ports = pin.choices.foldl (fun m ch => m.assign ch.port ch.image) s.ports := by
  rw [place, foldl_assignPort]
  rfl

theorem getElem?_foldl_assign {choices : List Choice} {p : PortId} (m : Images PortId)
    (hp : p ∉ choices.map Choice.port) :
    (choices.foldl (fun m ch => m.assign ch.port ch.image) m)[p]? = m[p]? := by
  induction choices generalizing m with
  | nil => rfl
  | cons ch rest ih =>
    rw [List.map_cons, List.mem_cons, not_or] at hp
    rw [List.foldl_cons, ih _ hp.2, Images.getElem?_assign, if_neg (Ne.symm hp.1)]

@[simp] theorem node?_unassigned (pattern : Graph) (a : NodeId) :
    (unassigned pattern).node? a = none :=
  Images.image?_unassigned _ a

@[simp] theorem port?_unassigned (pattern : Graph) (a : PortId) :
    (unassigned pattern).port? a = none :=
  Images.image?_unassigned _ a

theorem node?_place (s : Assignment) (n a : NodeId) (pin : Pin) :
    (s.place n pin).node? a = if n = a then some pin.host else s.node? a := by
  rw [node?, nodes_place, Images.image?_assign]
  rfl

/-- A node that is placed takes its ports along, and no others. -/
theorem port?_place {pin : Pin} (hnodup : (pin.choices.map Choice.port).Nodup) (s : Assignment)
    (n : NodeId) (p : PortId) :
    (s.place n pin).port? p
      = ((pin.choices.find? fun ch => ch.port = p).map Choice.image).or (s.port? p) := by
  rw [port?, ports_place, port?]
  generalize s.ports = m
  generalize pin.choices = choices at hnodup ⊢
  induction choices generalizing m with
  | nil => rfl
  | cons ch rest ih =>
    rw [List.map_cons, List.nodup_cons] at hnodup
    rw [List.foldl_cons]
    by_cases hp : ch.port = p
    · -- the later choices are for other ports
      have hrest : p ∉ rest.map Choice.port := hp ▸ hnodup.1
      rw [Images.image?, getElem?_foldl_assign _ hrest, Images.getElem?_assign, if_pos hp,
        List.find?_cons_of_pos (by simpa using hp)]
      rfl
    · rw [ih _ hnodup.2, Images.image?_assign, if_neg hp,
        List.find?_cons_of_neg (by simpa using hp)]

/-! ## Taking a node back -/

/-- Taking a placed node back restores the assignment, if the node and its ports were listed as not
mapped before. -/
theorem unassignNode_place {s : Assignment} {pattern : Graph} {n : NodeId} {pin : Pin}
    (hnode : s.nodes[n]? = some none) (hports : ∀ p ∈ pattern.portsOf n, s.ports[p]? = some none)
    (hpin : ∀ ch ∈ pin.choices, ch.port ∈ pattern.portsOf n) :
    (s.place n pin).unassignNode pattern n = s := by
  have hnodes : (s.nodes.assign n pin.host).clear [n] = s.nodes := by
    apply Std.ExtTreeMap.ext_getElem?
    intro a
    rw [Images.getElem?_clear, Images.getElem?_assign]
    by_cases ha : n = a
    · rw [if_pos (by simp [ha]), ← ha, hnode]
    · rw [if_neg (by simpa using Ne.symm ha), if_neg ha]
  have hall : (s.place n pin).ports.clear (pattern.portsOf n).toList = s.ports := by
    apply Std.ExtTreeMap.ext_getElem?
    intro p
    rw [Images.getElem?_clear]
    by_cases hp : p ∈ pattern.portsOf n
    · rw [if_pos (Array.mem_toList_iff.2 hp), hports p hp]
    · rw [if_neg (fun h => hp (Array.mem_toList_iff.1 h)), ports_place, getElem?_foldl_assign]
      intro h
      obtain ⟨ch, hch, rfl⟩ := List.mem_map.1 h
      exact hp (hpin ch hch)
  rw [unassignNode, nodes_place, hnodes, hall]

end Assignment

end PortMatch
