import Mathlib
import PortMatch.Proofs.Checked.Cursor
import PortMatch.Proofs.Cursor.Columns
import PortMatch.Proofs.Cursor.Enumeration

/-!
# Cursors turn by turn

A cursor is called again and again, and each call may find another assignment.  In each call a loop
looks for the next placement, and gives the cursor a turn as long as it is not done; the last turn
of a call takes a port back before the placement is handed out, so that the next call begins where
this one has ended.  Set out in columns, the cursor changes from turn to turn as the columns do.

* `Cursor.columns` — a cursor, set out in columns;
* `Cursor.turn`, `Cursor.Sound.columns_turn` — one turn, of the cursor and of its columns;
* `Cursor.loop`, `Cursor.history` — the cursor at each turn of a call, and of call after call;
* `Cursor.history_in_step` — its columns are in step throughout, and its position goes up.
-/

namespace PortMatch

namespace Cursor

variable {P : Problem} {live : Assignment} {n host : NodeId} {c : Cursor}

/-! ## The columns of a cursor -/

/-- A cursor, set out in columns. -/
def columns (c : Cursor) : Columns where
  host := c.host
  pairs := c.placed.reverse.map fun ch => (ch.port, ch.image)
  slots := c.placed.reverse.map Choice.slot
  taken := c.taken
  start := c.start
  done := c.done

theorem columns_extend (c : Cursor) (ch : Choice) (rest : List PortId) :
    (c.extend ch rest).columns = c.columns.push ch.port ch.slot ch.image := by
  simp [columns, extend, Columns.push]

theorem columns_retreat (c : Cursor) : c.retreat.columns = c.columns.pop := by
  cases hplaced : c.placed with
  | nil => simp [columns, retreat, Columns.pop, hplaced]
  | cons ch rest => simp [columns, retreat, Columns.pop, hplaced]

/-- A port is placed once, so it does not matter from which end it is looked for. -/
theorem image?_columns (hnodup : (c.placed.map Choice.port).Nodup) (live : Assignment)
    (q : PortId) :
    c.columns.image? live q
      = ((c.placed.find? fun ch => ch.port = q).map Choice.image).or (live.port? q) := by
  have hreverse : (c.placed.reverse.map Choice.port).Nodup := by
    rwa [List.map_reverse, List.nodup_reverse]
  have hfind : (c.placed.reverse.find? fun ch => ch.port = q)
      = c.placed.find? fun ch => ch.port = q := by
    ext ch
    rw [Problem.find?_port_eq_some hreverse, Problem.find?_port_eq_some hnodup,
      List.mem_reverse]
  rw [Columns.image?, columns, List.find?_map, Option.map_map]
  exact congrArg (fun found => (Option.map Choice.image found).or (live.port? q)) hfind

theorem seat?_columns (hnodup : (c.placed.map Choice.port).Nodup) (P : Problem)
    (live : Assignment) (port : PortId) (slot : ℕ) :
    c.columns.seat? P live port slot
      = (c.place? P (P.anchors live c.placed port) port slot).map fun ch => (ch.slot, ch.image) := by
  have hanchors : ∀ image, ((P.pattern.neighbors port).all fun q =>
      (c.columns.image? live q).all (P.target.connected image))
        = (P.anchors live c.placed port).all (P.target.connected image) := by
    intro image
    simp only [Problem.anchors, List.all_filterMap, image?_columns hnodup]
    rfl
  have hhost : c.columns.host = c.host := rfl
  have htaken : c.columns.taken = c.taken := rfl
  simp only [Columns.seat?, place?, hanchors, hhost, htaken]
  cases (P.target.portsOf c.host)[slot]? with
  | none => rfl
  | some image =>
    cases c.taken[slot]? with
    | none => rfl
    | some mark =>
      cases mark with
      | true => rfl
      | false =>
        dsimp only
        split <;> rfl

namespace Sound

theorem nodup_ports (hc : c.Sound P n) (hP : P.pattern.WellFormed) :
    (c.placed.map Choice.port).Nodup := by
  have hnodup := hP.nodup_portsOf n
  rw [← hc.ports] at hnodup
  rw [← List.nodup_reverse, ← List.map_reverse]
  exact hnodup.sublist (List.sublist_append_left _ _)

/-- The next port is the one that as many ports come before as are placed. -/
theorem getElem?_portsOf (hc : c.Sound P n) :
    (P.pattern.portsOf n)[c.columns.pairs.length]? = c.ahead.head? := by
  have hlen : c.columns.pairs.length = (c.placed.reverse.map Choice.port).length := by
    simp [columns]
  rw [← Array.getElem?_toList, ← hc.ports, hlen, List.getElem?_append_right (le_refl _),
    Nat.sub_self, List.head?_eq_getElem?]

theorem firstSeat?_columns (hc : c.Sound P n) (hP : P.pattern.WellFormed) (live : Assignment)
    (port : PortId) :
    c.columns.firstSeat? P live port
      = (c.choice? P live port).map fun ch => (ch.slot, ch.image) := by
  have hseat : c.columns.seat? P live port = fun slot =>
      (c.place? P (P.anchors live c.placed port) port slot).map fun ch => (ch.slot, ch.image) :=
    funext (seat?_columns (hc.nodup_ports hP) P live port)
  rw [Columns.firstSeat?, hseat, choice?, hc.size, List.map_findSome?]
  rfl

end Sound

/-! ## Turns -/

/-- One turn of the loop that looks for the next placement. -/
def turn (P : Problem) (live : Assignment) (c : Cursor) : Cursor :=
  if c.done then c else (c.step P live).cursor

theorem Sound.turn (hc : c.Sound P n) (live : Assignment) : (c.turn P live).Sound P n := by
  unfold Cursor.turn
  split
  · exact hc
  · exact hc.step live

/-- A turn of a cursor is a turn of its columns. -/
theorem Sound.columns_turn (hc : c.Sound P n) (hP : P.pattern.WellFormed) (live : Assignment) :
    (c.turn P live).columns = c.columns.turn P live n := by
  have hdone : c.columns.done = c.done := rfl
  unfold Cursor.turn Columns.turn
  rw [hdone, hc.getElem?_portsOf]
  split
  · rfl
  · unfold Cursor.step
    cases hahead : c.ahead with
    | nil => exact c.columns_retreat
    | cons port rest =>
      simp only [List.head?_cons, hc.firstSeat?_columns hP]
      cases hch : c.choice? P live port with
      | none => exact c.columns_retreat
      | some ch =>
        -- the choice is one for the port ahead
        obtain ⟨slot, -, hplace⟩ := List.exists_of_findSome?_eq_some hch
        obtain ⟨-, -, -, -, rfl, -⟩ := place?_eq_some_iff.1 hplace
        exact c.columns_extend ch rest

/-! ## Call after call -/

/-- The cursor whenever the loop of one call asks whether it is done. -/
def loop (P : Problem) (live : Assignment) (c : Cursor) : List Cursor :=
  if _hdone : c.done = true then [c]
  else
    match _hstep : c.step P live with
    | .moved c' => c :: c'.loop P live
    | .yielded _ _ => [c]
termination_by c.movesLeft
decreasing_by
  have := movesLeft_step_lt P live (Bool.eq_false_iff.2 _hdone)
  rwa [_hstep] at this

/-- The cursor at each turn of the loop, over call after call, together with the assignment that
the call has found. -/
def history (P : Problem) (c : Cursor) : List Assignment → List (Assignment × Cursor)
  | [] => []
  | live :: later =>
    (c.loop P live).map (Prod.mk live) ++ (c.next P live).2.history P later

/-- After one turn the history goes on, with the same call or with the next one. -/
theorem history_cons (P : Problem) (c : Cursor) (live : Assignment) (later : List Assignment) :
    ∃ lives, c.history P (live :: later) = (live, c) :: (c.turn P live).history P lives := by
  rw [history, loop, next]
  by_cases hdone : c.done = true
  · exact ⟨later, by simp [hdone, turn]⟩
  · cases hstep : c.step P live with
    | moved c' => exact ⟨live :: later, by simp [hdone, turn, hstep, Move.cursor, history]⟩
    | yielded choices c' => exact ⟨later, by simp [hdone, turn, hstep, Move.cursor]⟩

/-- What a turn hands on from the rest of a history to the whole of it holds of every history. -/
theorem history_induction {motive : Cursor → List (Assignment × Cursor) → Prop}
    (nil : ∀ c, motive c [])
    (cons : ∀ c live rest, motive (c.turn P live) rest → motive c ((live, c) :: rest))
    (c : Cursor) (lives : List Assignment) : motive c (c.history P lives) := by
  -- the calls need not become fewer with a turn, but the history becomes shorter
  induction hhistory : c.history P lives generalizing c lives with
  | nil => exact nil c
  | cons e rest ih =>
    cases lives with
    | nil => cases hhistory
    | cons live later =>
      obtain ⟨lives, hcons⟩ := c.history_cons P live later
      obtain ⟨rfl, rfl⟩ := List.cons.inj (hcons.symm.trans hhistory)
      exact cons c live _ (ih _ lives rfl)

/-- A history begins with the cursor itself, and from each turn to the next the cursor changes by
one turn. -/
theorem isChain_history (P : Problem) (c : Cursor) (lives : List Assignment) :
    (∀ e ∈ (c.history P lives).head?, e.2 = c) ∧
      (c.history P lives).IsChain fun e e' => e'.2 = e.2.turn P e.1 := by
  refine history_induction (P := P) (motive := fun c rest => (∀ e ∈ rest.head?, e.2 = c) ∧
    rest.IsChain fun e e' => e'.2 = e.2.turn P e.1) (fun c => ?_) (fun c live rest ih => ?_) c lives
  · exact ⟨by simp, .nil⟩
  · obtain ⟨hhead, hchain⟩ := ih
    exact ⟨by simp, List.isChain_cons.2 ⟨hhead, hchain⟩⟩

/-- What every turn keeps holds throughout a history. -/
theorem forall_mem_history {motive : Cursor → Prop} (h : motive c)
    (hturn : ∀ c live, motive c → motive (c.turn P live)) (lives : List Assignment) :
    ∀ e ∈ c.history P lives, motive e.2 := by
  refine history_induction (P := P) (motive := fun c rest => motive c → ∀ e ∈ rest, motive e.2)
    (fun c _ => ?_) (fun c live rest ih hc => ?_) c lives h
  · exact List.forall_mem_nil _
  · exact List.forall_mem_cons.2 ⟨hc, ih (hturn c live hc)⟩

/-- Call after call, whatever assignments the calls find, the columns of a cursor change by one turn
after the other, they are in step at each of them, and every turn but the last takes the run
forward. -/
theorem history_in_step (hP : P.pattern.Built) (hhost : host ∈ P.target.nodeIds)
    (lives : List Assignment) :
    let history := (fresh P n host).history P lives
    (∀ e ∈ history.head?, e.2.columns = Columns.fresh P host) ∧
    history.IsChain (fun e e' => e'.2.columns = e.2.columns.turn P e.1 n) ∧
    (∀ e ∈ history, e.2.columns.InStep P n host) ∧
    history.Pairwise (fun e e' => e.2.columns.Before e'.2.columns) := by
  intro history
  obtain ⟨hhead, hturns⟩ := isChain_history P (fresh P n host) lives
  have hkept : ∀ e ∈ history, e.2.Sound P n ∧ e.2.columns.InStep P n host := by
    refine forall_mem_history (motive := fun c => c.Sound P n ∧ c.columns.InStep P n host)
      ⟨sound_fresh P n hhost, .fresh P n host⟩ ?_ lives
    rintro c live ⟨hc, hcolumns⟩
    refine ⟨hc.turn live, ?_⟩
    rw [hc.columns_turn hP.wellFormed]
    exact hcolumns.turn live
  have hchain : history.IsChain fun e e' => e'.2.columns = e.2.columns.turn P e.1 n := by
    refine hturns.imp_of_mem_imp fun e e' he _ hturn => ?_
    rw [hturn, (hkept e he).1.columns_turn hP.wellFormed]
  have hbefore : (history.map fun e => e.2.columns).IsChain Columns.Before := by
    refine (List.isChain_map _).2 (hchain.imp fun e e' hturn => ?_)
    rw [hturn]
    exact Columns.before_turn e.1
  refine ⟨fun e he => ?_, hchain, fun e he => (hkept e he).2, List.pairwise_map.1 hbefore.pairwise⟩
  rw [hhead e he]
  rfl

/-- The first call finds the third port placed, and stops at the slots zero and one.  The second
call goes on from there, with the third port not placed any more. -/
theorem history_in_step_row :
    let live := Assignment.unassigned twoInARow.pattern
    let history := (fresh twoInARow ⟨0⟩ ⟨0⟩).history twoInARow [live.assignPort ⟨2⟩ ⟨3⟩, live]
    twoInARow.pattern.Built ∧ ⟨0⟩ ∈ twoInARow.target.nodeIds ∧
    history.map (fun e => e.2.columns.position)
      = [[0], [0, 0], [0, 1, 0], [0, 2], [1], [1, 0], [1, 0, 0]] ∧
    history.Pairwise fun e e' => e.2.columns.Before e'.2.columns := by
  intro live history
  have hP : twoInARow.pattern.Built := ⟨_, _, rfl⟩
  have hhost : ⟨0⟩ ∈ twoInARow.target.nodeIds := by decide +kernel
  exact ⟨hP, hhost, by decide +kernel, (history_in_step hP hhost _).2.2.2⟩

end Cursor

end PortMatch
