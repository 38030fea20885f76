import PortMatch.Search.Cursor

/-!
# What a cursor has left to yield

A cursor walks from one placement of the ports to the next, and goes back over its choices on the
way.  Seen from outside it is a list: the placements that are still to come.  This file defines that
list by plain recursion on the ports that are ahead, without any going back, and shows that
`Cursor.next` takes the first placement off it.

* `Cursor.choices` — all places for the next port, ascending by slot;
* `Cursor.completions` — the placements that complete the choices made so far;
* `Cursor.remaining` — all placements still to come;
* `Cursor.remaining_step` — a move takes off what it yields, and nothing else;
* `Cursor.remaining_of_next_some`, `Cursor.remaining_of_next_none` — so does a run of moves.
-/

namespace PortMatch

namespace Cursor

variable {P : Problem} {live : Assignment}

/-! ## The list of placements -/

/-- The places for `port` from the cursor's first slot on, in ascending order of their slots. -/
def choices (P : Problem) (live : Assignment) (c : Cursor) (port : PortId) : List Choice :=
  (List.range' c.start (c.taken.size - c.start)).filterMap
    (c.place? P (P.anchors live c.placed port) port)

/-- The cursor, to go on from the given slot. -/
def seek (c : Cursor) (slot : Nat) : Cursor := { c with start := slot }

/-- The placements that complete the choices of a cursor, whose next ports are the given ones. -/
def completions (P : Problem) (live : Assignment) : List PortId → Cursor → List (List Choice)
  | [], c => [c.placed.reverse]
  | port :: rest, c =>
    (c.choices P live port).flatMap fun ch => completions P live rest (c.extend ch rest)

/-- The placements that a cursor has still to yield: those that complete its choices, and then those
that come after its latest choice is taken back. -/
def remaining (P : Problem) (live : Assignment) (c : Cursor) : List (List Choice) :=
  if _hdone : c.done = true then []
  else completions P live c.ahead c ++ remaining P live c.retreat
termination_by c.movesLeft
decreasing_by exact movesLeft_retreat_lt (Bool.eq_false_iff.2 _hdone)

theorem remaining_of_done {c : Cursor} (h : c.done = true) : c.remaining P live = [] := by
  rw [remaining, dif_pos h]

theorem remaining_of_not_done {c : Cursor} (h : c.done = false) :
    c.remaining P live = completions P live c.ahead c ++ c.retreat.remaining P live := by
  rw [remaining, dif_neg (by simp [h])]

/-! ## The first choice -/

theorem place?_eq_some_iff {c : Cursor} {anchors : List PortId} {port : PortId} {slot : Nat}
    {ch : Choice} :
    c.place? P anchors port slot = some ch ↔
      (P.target.portsOf c.host)[slot]? = some ch.image ∧ c.taken[slot]? = some false ∧
      P.target.kind? ch.image = P.pattern.kind? port ∧
      (∀ a ∈ anchors, P.target.connected ch.image a = true) ∧ ch.port = port ∧ ch.slot = slot := by
  unfold place?
  obtain ⟨chPort, chSlot, chImage⟩ := ch
  split
  · next image himage hfree =>
    rw [himage, hfree]
    split
    · next h => grind
    · next h => grind
  · next hno =>
    refine ⟨?_, ?_⟩
    · intro h
      cases h
    · rintro ⟨himage, hfree, -⟩
      exact absurd hfree (hno _ himage)

/-- The first value that a function has on a range of numbers, and those that it has after it. -/
theorem filterMap_range'_of_findSome? {α : Type} {f : Nat → Option α} {start count : Nat} {a : α}
    (h : (List.range' start count).findSome? f = some a) :
    ∃ i, f i = some a ∧ (List.range' start count).filterMap f
      = a :: (List.range' (i + 1) (start + count - (i + 1))).filterMap f := by
  induction count generalizing start with
  | zero => cases h
  | succ count ih =>
    rw [List.range'_succ] at h ⊢
    rw [List.findSome?_cons] at h
    split at h
    · next b hb =>
      cases h
      refine ⟨start, hb, ?_⟩
      rw [List.filterMap_cons_some hb]
      congr 3
      omega
    · next hb =>
      obtain ⟨i, hi, hrest⟩ := ih h
      refine ⟨i, hi, ?_⟩
      rw [List.filterMap_cons_none hb, hrest]
      congr 4
      omega

/-- The first choice, and the choices from the slot after it on. -/
theorem choices_of_choice?_some {c : Cursor} {port : PortId} {ch : Choice}
    (h : c.choice? P live port = some ch) :
    c.choices P live port = ch :: (c.seek (ch.slot + 1)).choices P live port := by
  obtain ⟨slot, hplace, hlist⟩ := filterMap_range'_of_findSome? h
  obtain ⟨-, hfree, -, -, -, hslot⟩ := place?_eq_some_iff.1 hplace
  obtain ⟨hsize, -⟩ := Array.getElem?_eq_some_iff.1 hfree
  obtain ⟨hstart, -⟩ := choice?_slot h
  have hcount : c.start + (c.taken.size - c.start) - (slot + 1) = c.taken.size - (slot + 1) := by
    omega
  rw [choices, hlist, hcount, hslot]
  rfl

theorem choices_of_choice?_none {c : Cursor} {port : PortId} (h : c.choice? P live port = none) :
    c.choices P live port = [] := by
  rw [choices, List.filterMap_eq_nil_iff]
  exact List.findSome?_eq_none_iff.1 h

/-- Going back after a choice leaves the cursor as it was, but for the slot to go on from. -/
theorem retreat_extend {c : Cursor} {port : PortId} {rest : List PortId} {ch : Choice}
    (hahead : c.ahead = port :: rest) (hport : ch.port = port)
    (hfree : c.taken[ch.slot]? = some false) :
    (c.extend ch rest).retreat = c.seek (ch.slot + 1) := by
  have htaken : (c.taken.setIfInBounds ch.slot true).setIfInBounds ch.slot false = c.taken := by
    apply Array.ext_getElem?
    intro i
    by_cases hi : ch.slot = i
    · subst hi
      rw [Array.getElem?_setIfInBounds_self, Array.size_setIfInBounds, hfree,
        if_pos (Array.getElem?_eq_some_iff.1 hfree).1]
    · rw [Array.getElem?_setIfInBounds_ne hi, Array.getElem?_setIfInBounds_ne hi]
  simp only [extend, retreat, seek, htaken, hport, hahead]

theorem remaining_retreat_seek (c : Cursor) (slot : Nat) :
    (c.seek slot).retreat.remaining P live = c.retreat.remaining P live := by
  cases hplaced : c.placed with
  | nil =>
    have hseek : (c.seek slot).retreat.done = true := by simp [seek, retreat, hplaced]
    have hdone : c.retreat.done = true := by simp [retreat, hplaced]
    rw [remaining_of_done hseek, remaining_of_done hdone]
  | cons ch rest => simp [seek, retreat, hplaced]

/-! ## Moves -/

/-- Placing the next port loses no placement: those with a later slot for the port come when the
cursor goes back over this choice. -/
theorem remaining_extend {c : Cursor} {port : PortId} {rest : List PortId} {ch : Choice}
    (h : c.done = false) (hahead : c.ahead = port :: rest) (hch : c.choice? P live port = some ch) :
    (c.extend ch rest).remaining P live = c.remaining P live := by
  obtain ⟨slot, -, hplace⟩ := List.exists_of_findSome?_eq_some hch
  obtain ⟨-, hfree, -, -, hport, rfl⟩ := place?_eq_some_iff.1 hplace
  have hcons : completions P live (port :: rest) c = completions P live rest (c.extend ch rest)
      ++ completions P live (port :: rest) (c.seek (ch.slot + 1)) := by
    simp only [completions]
    rw [choices_of_choice?_some hch, List.flatMap_cons]
    rfl
  calc (c.extend ch rest).remaining P live
    _ = completions P live rest (c.extend ch rest) ++ (c.extend ch rest).retreat.remaining P live :=
      remaining_of_not_done (c := c.extend ch rest) h
    _ = completions P live rest (c.extend ch rest)
        ++ (completions P live (port :: rest) (c.seek (ch.slot + 1))
          ++ c.retreat.remaining P live) := by
      rw [retreat_extend hahead hport hfree, remaining_of_not_done (c := c.seek (ch.slot + 1)) h,
        remaining_retreat_seek, ← hahead]
      rfl
    _ = c.remaining P live := by
      rw [remaining_of_not_done h, hahead, hcons, List.append_assoc]

/-- What is left before a move: what the move yields, and what is left after it. -/
theorem remaining_step {c : Cursor} (h : c.done = false) :
    c.remaining P live = match c.step P live with
      | .moved c' => c'.remaining P live
      | .yielded placement c' => placement :: c'.remaining P live := by
  unfold step
  cases hahead : c.ahead with
  | nil =>
    rw [remaining_of_not_done h, hahead]
    rfl
  | cons port rest =>
    cases hch : c.choice? P live port with
    | none =>
      rw [remaining_of_not_done h, hahead]
      simp [completions, choices_of_choice?_none hch, hch]
    | some ch => simpa [hch] using (remaining_extend h hahead hch).symm

/-- A placement that a cursor yields is the first of those that were left. -/
theorem remaining_of_next_some {c c' : Cursor} {placement : List Choice}
    (h : c.next P live = (some placement, c')) :
    c.remaining P live = placement :: c'.remaining P live := by
  fun_induction next P live c with
  | case1 c hdone => cases h
  | case2 c hdone c'' hstep ih =>
    rw [remaining_step (Bool.eq_false_iff.2 hdone), hstep]
    exact ih h
  | case3 c hdone cs c'' hstep =>
    cases h
    rw [remaining_step (Bool.eq_false_iff.2 hdone), hstep]

/-- A cursor that yields nothing had nothing left. -/
theorem remaining_of_next_none {c c' : Cursor} (h : c.next P live = (none, c')) :
    c.remaining P live = [] := by
  fun_induction next P live c with
  | case1 c hdone => exact remaining_of_done hdone
  | case2 c hdone c'' hstep ih =>
    rw [remaining_step (Bool.eq_false_iff.2 hdone), hstep]
    exact ih h
  | case3 c hdone cs c'' hstep => cases h

end Cursor

end PortMatch
