import PortMatch.Search.Frame
import PortMatch.Proofs.Cursor.Remaining

/-!
# What a frame has left to yield

A frame yields the placements of its cursors, one cursor after the other.

* `Frame.remaining` — the pins still to come;
* `Frame.remaining_of_next_some`, `Frame.remaining_of_next_none` — `Frame.next` takes the first pin
  off them.
-/

namespace PortMatch

variable {P : Problem} {live : Assignment}

namespace Cursor

/-- The pins that the given cursors have still to yield. -/
def pins (P : Problem) (live : Assignment) (cs : List Cursor) : List Pin :=
  cs.flatMap fun c => (c.remaining P live).map (Pin.mk c.host)

theorem host_retreat (c : Cursor) : c.retreat.host = c.host := by
  unfold retreat
  split <;> rfl

theorem host_step (c : Cursor) : (c.step P live).cursor.host = c.host := by
  unfold step
  split
  · exact c.host_retreat
  · split
    · rfl
    · exact c.host_retreat

theorem host_next (c : Cursor) : (c.next P live).2.host = c.host := by
  fun_induction next P live c with
  | case1 c _ => rfl
  | case2 c _ c' hstep ih =>
    have hhost : (c.step P live).cursor.host = c.host := c.host_step
    rw [hstep] at hhost
    exact ih.trans hhost
  | case3 c _ choices c' hstep =>
    have hhost : (c.step P live).cursor.host = c.host := c.host_step
    rw [hstep] at hhost
    exact hhost

theorem pins_of_firstNext_some {cs cs' : List Cursor} {pin : Pin}
    (h : firstNext P live cs = (some pin, cs')) : pins P live cs = pin :: pins P live cs' := by
  induction cs with
  | nil => cases h
  | cons c rest ih =>
    unfold firstNext at h
    split at h
    · next choices c' hnext =>
      cases h
      have hhost : (c.next P live).2.host = c.host := c.host_next
      rw [hnext] at hhost
      rw [pins, List.flatMap_cons, remaining_of_next_some hnext, pins, List.flatMap_cons, hhost]
      rfl
    · next c' hnext =>
      rw [pins, List.flatMap_cons, remaining_of_next_none hnext]
      exact ih h

theorem pins_of_firstNext_none {cs cs' : List Cursor} (h : firstNext P live cs = (none, cs')) :
    pins P live cs = [] := by
  induction cs with
  | nil => rfl
  | cons c rest ih =>
    unfold firstNext at h
    split at h
    · cases h
    · next c' hnext =>
      rw [pins, List.flatMap_cons, remaining_of_next_none hnext]
      exact ih h

end Cursor

namespace Frame

/-- The pins that a frame has still to yield. -/
def remaining (P : Problem) (live : Assignment) (f : Frame) : List Pin :=
  Cursor.pins P live f.cursors

/-- A pin that a frame yields is the first of those that were left. -/
theorem remaining_of_next_some {f f' : Frame} {pin : Pin}
    (h : f.next P live = (some pin, f')) :
    f'.goal = f.goal ∧ f.remaining P live = pin :: f'.remaining P live := by
  obtain ⟨hpin, rfl⟩ := Prod.mk.inj h
  exact ⟨rfl, Cursor.pins_of_firstNext_some (Prod.ext hpin rfl)⟩

/-- A frame that yields nothing had nothing left. -/
theorem remaining_of_next_none {f f' : Frame} (h : f.next P live = (none, f')) :
    f'.goal = f.goal ∧ f.remaining P live = [] := by
  obtain ⟨hpin, rfl⟩ := Prod.mk.inj h
  exact ⟨rfl, Cursor.pins_of_firstNext_none (Prod.ext hpin rfl)⟩

end Frame

end PortMatch
