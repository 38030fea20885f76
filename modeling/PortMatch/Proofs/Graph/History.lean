import PortMatch.Proofs.Graph.WellFormed

/-!
# Histories of calls

A graph answers some of the calls that are made to it and refuses the others.  A refused call leaves
no trace: without it the graph would be the same, and so would be all further answers.

That a call which fails changes nothing is not a matter of course, since an operation goes to work
step by step: it looks up a node, adds a port to the list of the node, and goes on with the ports of
the graph.  An `Edit` is an operation that works on the graph in place, so that everything it has
done by the time it fails stays done.

* `Graph.answers`, `Graph.answered` — what becomes of each call, and the calls that are answered;
* `Graph.Refuses` — when a call is refused, and why;
* `Edit.perform`, `Edit.performAll` — calls that are carried out in place, step by step;
* `Edit.runOn_perform`, `Edit.run_performAll` — they do what `Graph.perform` and `Graph.replay` do;
* `Graph.refusals_leave_no_trace` — the answered calls by themselves lead to the same graph.
-/

namespace PortMatch

namespace Graph

variable {g : Graph} {call : Call}

/-! ## Answers -/

/-- What becomes of calls that are made one after the other: an answer or a refusal for each. -/
def answers (g : Graph) : List Call → List (Except Rejection Answer)
  | [] => []
  | call :: rest => (g.perform call).map Prod.fst :: (g.after call).answers rest

/-- The calls that are answered, among calls that are made one after the other. -/
def answered (g : Graph) (calls : List Call) : List Call :=
  ((calls.zip (g.answers calls)).filter fun made => made.2.isOk).map Prod.fst

theorem after_of_ok {answer : Answer} {g' : Graph} (h : g.perform call = .ok (answer, g')) :
    g.after call = g' := by
  rw [after, h]

theorem after_of_error {e : Rejection} (h : g.perform call = .error e) : g.after call = g := by
  rw [after, h]

theorem answered_cons_of_ok {answer : Answer} {g' : Graph} (h : g.perform call = .ok (answer, g'))
    (rest : List Call) : g.answered (call :: rest) = call :: g'.answered rest := by
  rw [answered, answers, after_of_ok h, h]
  rfl

theorem answered_cons_of_error {e : Rejection} (h : g.perform call = .error e)
    (rest : List Call) : g.answered (call :: rest) = g.answered rest := by
  rw [answered, answers, after_of_error h, h]
  rfl

/-- The answered calls by themselves lead to the same graph. -/
theorem replay_answered (g : Graph) (calls : List Call) :
    g.replay (g.answered calls) = g.replay calls := by
  induction calls generalizing g with
  | nil => rfl
  | cons call rest ih =>
    cases h : g.perform call with
    | ok out =>
      rw [answered_cons_of_ok h]
      show (g.after call).replay (out.2.answered rest) = (g.after call).replay rest
      rw [after_of_ok h, ih]
    | error e =>
      rw [answered_cons_of_error h, ih]
      show g.replay rest = (g.after call).replay rest
      rw [after_of_error h]

/-- The answered calls by themselves get the same answers. -/
theorem answers_answered (g : Graph) (calls : List Call) :
    g.answers (g.answered calls) = (g.answers calls).filter Except.isOk := by
  induction calls generalizing g with
  | nil => rfl
  | cons call rest ih =>
    cases h : g.perform call with
    | ok out =>
      rw [answered_cons_of_ok h, answers, answers, h, after_of_ok h, ih]
      rfl
    | error e =>
      rw [answered_cons_of_error h, answers, h, after_of_error h, ih]
      rfl

/-! ## Refusals -/

/-- The graph refuses the call for the given reason, which is the first one that applies. -/
inductive Refuses (g : Graph) : Call → Rejection → Prop where
  /-- A node needs a description. -/
  | nodeDescription : Refuses g (.addNode "") (.emptyDescription .node)
  /-- A port needs a description. -/
  | portDescription {node : NodeId} {kind : PortKind} :
    Refuses g (.addPort node "" kind) (.emptyDescription .port)
  /-- A port needs a node. -/
  | owner {node : NodeId} {desc : String} {kind : PortKind} (hdesc : desc ≠ "")
    (hnode : g.node? node = none) : Refuses g (.addPort node desc kind) (.unknownNode node)
  /-- The first port to be connected is unknown. -/
  | firstPort {a b : PortId} (ha : g.port? a = none) : Refuses g (.connect a b) (.unknownPort a)
  /-- Only the second one is. -/
  | secondPort {a b : PortId} (ha : g.port? a ≠ none) (hb : g.port? b = none) :
    Refuses g (.connect a b) (.unknownPort b)
  /-- A port is not connected to itself. -/
  | loop {a : PortId} (ha : g.port? a ≠ none) : Refuses g (.connect a a) (.selfLoop a)
  /-- Two ports are not connected twice, in whichever direction they were connected. -/
  | again {a b : PortId} (ha : g.port? a ≠ none) (hb : g.port? b ≠ none) (hab : a ≠ b)
    (hold : g.connected a b = true ∨ g.connected b a = true) :
    Refuses g (.connect a b) (.alreadyConnected a b)

theorem node?_eq_none_iff {n : NodeId} : g.node? n = none ↔ g.nodeCount ≤ n.index := by
  rw [← Option.not_isSome_iff_eq_none, node?_isSome, Nat.not_lt]

theorem port?_eq_none_iff {p : PortId} : g.port? p = none ↔ g.portCount ≤ p.index := by
  rw [← Option.not_isSome_iff_eq_none, port?_isSome, Nat.not_lt]

theorem map_eq_error_iff {ε α β : Type} {x : Except ε α} {f : α → β} {e : ε} :
    x.map f = .error e ↔ x = .error e := by
  cases x <;> simp [Except.map]

theorem addNode_eq_error_iff {desc : String} {e : Rejection} :
    g.addNode desc = .error e ↔ g.Refuses (.addNode desc) e := by
  unfold addNode
  constructor
  case mp =>
    intro h
    split at h
    · next hdesc =>
      cases h
      rw [hdesc]
      exact .nodeDescription
    · cases h
  case mpr =>
    rintro ⟨⟩
    exact if_pos rfl

theorem addPort_eq_error_iff {node : NodeId} {desc : String} {kind : PortKind} {e : Rejection} :
    g.addPort node desc kind = .error e ↔ g.Refuses (.addPort node desc kind) e := by
  unfold addPort
  constructor
  case mp =>
    intro h
    split at h
    · next hdesc =>
      cases h
      rw [hdesc]
      exact .portDescription
    · next hdesc =>
      split at h
      · next hnode =>
        cases h
        exact .owner hdesc (node?_eq_none_iff.2 hnode)
      · cases h
  case mpr =>
    rintro (_ | _ | ⟨hdesc, hnode⟩)
    · exact if_pos rfl
    · rw [if_neg hdesc, if_pos (node?_eq_none_iff.1 hnode)]

theorem connect_eq_error_iff {a b : PortId} {e : Rejection} :
    g.connect a b = .error e ↔ g.Refuses (.connect a b) e := by
  unfold connect
  simp only [← port?_eq_none_iff]
  constructor
  case mp =>
    intro h
    split at h
    · next ha =>
      cases h
      exact .firstPort ha
    split at h
    · next ha hb =>
      cases h
      exact .secondPort ha hb
    split at h
    · next ha hb hab =>
      cases h
      rw [← hab]
      exact .loop ha
    split at h
    · next ha hb hab hold =>
      cases h
      exact .again ha hb hab (.inl hold)
    · cases h
  case mpr =>
    rintro (_ | _ | _ | ha | ⟨ha, hb⟩ | ha | ⟨ha, hb, hab, hold⟩)
    · exact if_pos ha
    · rw [if_neg ha, if_pos hb]
    · rw [if_neg ha, if_neg ha, if_pos rfl]
    · have hconnected : g.connected a b = true := hold.elim id fun h => by rwa [connected_comm]
      rw [if_neg ha, if_neg hb, if_neg hab, if_pos hconnected]

/-- A call is refused for the first reason that applies to it, and only then. -/
theorem perform_eq_error_iff {e : Rejection} :
    g.perform call = .error e ↔ g.Refuses call e := by
  cases call with
  | addNode desc => rw [perform, map_eq_error_iff, addNode_eq_error_iff]
  | addPort node desc kind => rw [perform, map_eq_error_iff, addPort_eq_error_iff]
  | connect a b => rw [perform, map_eq_error_iff, connect_eq_error_iff]

end Graph

/-! ## Working in place -/

/-- An operation that works on a graph step by step.  When it fails, what it has done by then stays
done. -/
abbrev Edit (α : Type) : Type := ExceptT Rejection (StateM Graph) α

namespace Edit

/-- Adds a node. -/
def addNode (desc : String) : Edit NodeId := do
  if desc = "" then throw (.emptyDescription .node)
  let id : NodeId := ⟨(← get).nodeCount⟩
  modify fun g => { g with nodes := g.nodes.push { desc } }
  return id

/-- Adds a port to the list of a node. -/
def listPort (node : NodeId) (id : PortId) : Edit Unit := do
  if (← get).nodeCount ≤ node.index then throw (.unknownNode node)
  modify fun g =>
    { g with nodes := g.nodes.modify node.index fun n => { n with ports := n.ports.push id } }

/-- Adds a port to a node.  The port is on the list of its node before it is one of the graph.  There
is no third step for the links, since a port that is not linked to any other needs no entry among
them. -/
def addPort (node : NodeId) (desc : String) (kind : PortKind) : Edit PortId := do
  if desc = "" then throw (.emptyDescription .port)
  let id : PortId := ⟨(← get).portCount⟩
  listPort node id
  modify fun g => { g with ports := g.ports.push { desc, node, kind } }
  return id

/-- Makes sure that the graph has a port. -/
def require (p : PortId) : Edit Unit := do
  if ((← get).port? p).isNone then throw (.unknownPort p)

/-- Connects two ports. -/
def connect (a b : PortId) : Edit Unit := do
  for p in [a, b] do require p
  if a = b then throw (.selfLoop a)
  if (← get).connected a b then throw (.alreadyConnected a b)
  modify fun g => { g with links := g.links.insert a b }

/-- Carries out a call. -/
def perform : Call → Edit Answer
  | .addNode desc => .node <$> addNode desc
  | .addPort node desc kind => .port <$> addPort node desc kind
  | .connect a b => (fun _ => .connected) <$> connect a b

/-- Carries out calls one after the other, and goes on after one that fails. -/
def performAll (calls : List Call) : StateM Graph (List (Except Rejection Answer)) :=
  calls.mapM fun call => (perform call).run

/-! ### Step by step -/

variable {α β : Type}

/-- What an operation comes to on a graph, and the graph after it. -/
def runOn (x : Edit α) (g : Graph) : Except Rejection α × Graph := x.run.run g

section Steps

variable (g : Graph)

@[simp] theorem runOn_pure (a : α) : (pure a : Edit α).runOn g = (.ok a, g) := rfl

@[simp] theorem runOn_throw (e : Rejection) : (throw e : Edit α).runOn g = (.error e, g) := rfl

@[simp] theorem runOn_get : (get : Edit Graph).runOn g = (.ok g, g) := rfl

@[simp] theorem runOn_modify (f : Graph → Graph) : (modify f : Edit Unit).runOn g = (.ok (), f g) :=
  rfl

@[simp] theorem runOn_ite (c : Prop) [Decidable c] (x y : Edit α) :
    (if c then x else y).runOn g = if c then x.runOn g else y.runOn g :=
  apply_ite (runOn · g) c x y

@[simp] theorem runOn_bind (x : Edit α) (f : α → Edit β) :
    (x >>= f).runOn g = match x.runOn g with
      | (.ok a, g') => (f a).runOn g'
      | (.error e, g') => (.error e, g') := by
  simp only [runOn, ExceptT.run_bind, StateT.run_bind]
  rcases x.run.run g with ⟨_ | _, g'⟩ <;> rfl

@[simp] theorem runOn_map (f : α → β) (x : Edit α) :
    (f <$> x).runOn g = match x.runOn g with
      | (.ok a, g') => (.ok (f a), g')
      | (.error e, g') => (.error e, g') := by
  simp only [runOn, ExceptT.run_map, StateT.run_map]
  rcases x.run.run g with ⟨_ | _, g'⟩ <;> rfl

end Steps

/-- What an operation comes to that leaves the graph `g` as it is when it fails. -/
def outcome (g : Graph) : Except Rejection (α × Graph) → Except Rejection α × Graph
  | .ok (a, g') => (.ok a, g')
  | .error e => (.error e, g)

theorem runOn_addNode (desc : String) (g : Graph) :
    (addNode desc).runOn g = outcome g (g.addNode desc) := by
  unfold addNode Graph.addNode
  by_cases hdesc : desc = ""
  · simp [hdesc, outcome]
  · simp [hdesc, outcome]

theorem runOn_addPort (node : NodeId) (desc : String) (kind : PortKind) (g : Graph) :
    (addPort node desc kind).runOn g = outcome g (g.addPort node desc kind) := by
  unfold addPort listPort Graph.addPort
  by_cases hdesc : desc = ""
  · simp [hdesc, outcome]
  by_cases hnode : g.nodeCount ≤ node.index
  · simp [hdesc, hnode, outcome]
  · simp [hdesc, hnode, outcome]

theorem runOn_require (p : PortId) (g : Graph) :
    (require p).runOn g
      = if g.port? p = none then (.error (.unknownPort p), g) else (.ok (), g) := by
  simp [require]

theorem runOn_connect (a b : PortId) (g : Graph) :
    (connect a b).runOn g = outcome g ((g.connect a b).map ((), ·)) := by
  unfold connect Graph.connect
  simp only [← Graph.port?_eq_none_iff]
  by_cases ha : g.port? a = none
  · simp [ha, runOn_require, outcome, Except.map]
  by_cases hb : g.port? b = none
  · simp [ha, hb, runOn_require, outcome, Except.map]
  by_cases hab : a = b
  · simp [hb, hab, runOn_require, outcome, Except.map]
  by_cases hold : g.connected a b = true
  · simp [ha, hb, hab, hold, runOn_require, outcome, Except.map]
  · simp [ha, hb, hab, hold, runOn_require, outcome, Except.map]

/-- Carried out in place, a call that fails has changed nothing. -/
theorem runOn_perform (call : Call) (g : Graph) :
    (perform call).runOn g = outcome g (g.perform call) := by
  cases call with
  | addNode desc =>
    rw [perform, runOn_map, runOn_addNode, Graph.perform]
    cases g.addNode desc <;> rfl
  | addPort node desc kind =>
    rw [perform, runOn_map, runOn_addPort, Graph.perform]
    cases g.addPort node desc kind <;> rfl
  | connect a b =>
    rw [perform, runOn_map, runOn_connect, Graph.perform]
    cases g.connect a b <;> rfl

theorem run_perform (call : Call) (g : Graph) :
    (perform call).run.run g = ((g.perform call).map Prod.fst, g.after call) := by
  have hrun := runOn_perform call g
  cases h : g.perform call with
  | ok out => rw [Graph.after_of_ok h, Except.map]; rwa [h] at hrun
  | error e => rw [Graph.after_of_error h, Except.map]; rwa [h] at hrun

/-- Carried out in place, calls get the same answers and lead to the same graph. -/
theorem run_performAll (calls : List Call) (g : Graph) :
    (performAll calls).run g = (g.answers calls, g.replay calls) := by
  induction calls generalizing g with
  | nil => rfl
  | cons call rest ih =>
    have hrest := congrArg (fun out => ((g.perform call).map Prod.fst :: out.1, out.2))
      (ih (g.after call))
    unfold performAll at hrest ⊢
    rw [List.mapM_cons, StateT.run_bind, run_perform]
    exact hrest

end Edit

namespace Graph

/-! ## No trace -/

/-- A call fails exactly when there is a reason to refuse it, and fails with the first such reason.
Calls that are made one after the other can be made without those that fail: the others get the same
answers, and the graph at the end is the same.  All this holds of calls that are carried out in
place, step by step, as well, and one that fails in the middle has changed nothing. -/
theorem refusals_leave_no_trace (g : Graph) (calls : List Call) :
    (∀ call e, g.perform call = .error e ↔ g.Refuses call e) ∧
    g.answers (g.answered calls) = (g.answers calls).filter Except.isOk ∧
    g.replay (g.answered calls) = g.replay calls ∧
    (Edit.performAll calls).run g = (g.answers calls, g.replay calls) ∧
    ∀ call e g', (Edit.perform call).runOn g = (.error e, g') → g' = g ∧ g.Refuses call e := by
  refine ⟨fun call e => perform_eq_error_iff, g.answers_answered calls, g.replay_answered calls,
    Edit.run_performAll calls g, fun call e g' h => ?_⟩
  rw [Edit.runOn_perform] at h
  cases hcall : g.perform call with
  | ok out =>
    rw [hcall] at h
    cases h
  | error e' =>
    rw [hcall] at h
    cases h
    exact ⟨rfl, perform_eq_error_iff.1 hcall⟩

/-- The second call is refused, so the port of the third one is the first port of the graph. -/
example : (empty "g").answers [.addNode "n", .addPort ⟨1⟩ "p" ⟨"wire"⟩, .addPort ⟨0⟩ "q" ⟨"wire"⟩]
    = [.ok (.node ⟨0⟩), .error (.unknownNode ⟨1⟩), .ok (.port ⟨0⟩)] := by
  rfl

end Graph

end PortMatch
