import TensorLowering.Graph.History

set_option autoImplicit false

/-! # The store in place

A graph is filled in place. The identifier of a new entry is made of the number of entries, which is
cast to a word for it; an insertion that faults leaves behind the graph as the steps before the
fault have made it. As long as a graph is within its limits the cast does not truncate, and as
insertions keep it there, filling it in place comes to the same as running a history
(`Edit.outcome_build`). -/

namespace TensorLowering

/-- A step that changes a graph in place, or faults on the way. -/
abbrev Edit (α : Type) := EStateM Fault Graph α

namespace Edit

/-- The identifier of the entry that comes after `count` others. -/
def nextId {sort : IdSort} (count : Nat) : Edit (Id sort) :=
  match Id.ofUInt32 (UInt32.ofNat count) with
  | .ok id => pure id
  | .error t => throw t

/-- Add a value. -/
def addValue (value : Value) : Edit ValueId := do
  let id ← nextId (← get).values.size
  modify fun graph => { graph with values := graph.values.push value }
  return id

/-- Add a node. -/
def addNode (node : Node) : Edit NodeId := do
  let id ← nextId (← get).nodes.size
  modify fun graph => { graph with nodes := graph.nodes.push node }
  return id

/-- Carry out an insertion. -/
def insert : Insertion → Edit Issued
  | .value value => do
      let id ← addValue value
      return { value? := some id, node? := none }
  | .node node => do
      let id ← addNode node
      return { value? := none, node? := some id }
  | .input name shape elementType => do
      let output ← addValue { name, shape, elementType }
      let id ← addNode { name, operator := .input { output } }
      return { value? := some output, node? := some id }
  | .constant name data => do
      let output ← addValue { name, shape := data.shape, elementType := .float32 }
      let id ← addNode { name, operator := .constant { output, data } }
      return { value? := some output, node? := some id }
  | .output name input => do
      let id ← addNode { name, operator := .output { input } }
      return { value? := none, node? := some id }

/-- Carry out insertions one after another. -/
def build (history : List Insertion) : Edit (List Issued) := history.mapM insert

/-- How an edit ends, but for the graph that a fault leaves behind. -/
def outcome {α : Type} (edit : Edit α) (graph : Graph) : Checked (Graph × α) :=
  match edit graph with
  | .ok a later => .ok (later, a)
  | .error t _ => .error t

theorem outcome_pure {α : Type} (a : α) (graph : Graph) :
    (pure a : Edit α).outcome graph = .ok (graph, a) := rfl

theorem outcome_bind {α β : Type} (x : Edit α) (f : α → Edit β) (graph : Graph) :
    (x >>= f).outcome graph =
      (x.outcome graph >>= fun result => (f result.2).outcome result.1) := by
  unfold outcome
  simp only [bind, EStateM.bind]
  cases x graph with
  | ok a later => rfl
  | error t left => rfl

end Edit

/-! ## Full stores -/

/-- Identifiers suffice for the values and for the nodes of the graph. -/
structure Graph.WithinLimits (graph : Graph) : Prop where
  values_le : graph.values.size ≤ idLimit
  nodes_le : graph.nodes.size ≤ idLimit

/-- The entry that comes next keeps a store within its limit, as there is an identifier for it. -/
theorem size_append_le {sort : IdSort} {α : Type} {entries : Array α} {added? : Option α}
    {id? : Option (Id sort)} (hid : id?.map Id.index = added?.map fun _ => entries.size)
    (hle : entries.size ≤ idLimit) : (entries ++ added?.toArray).size ≤ idLimit := by
  cases added? with
  | none => exact hle
  | some added =>
      obtain ⟨id, -, hindex⟩ := Option.map_eq_some_iff.1 hid
      have hlt : id.index < idLimit := id.index_lt
      rw [hindex] at hlt
      rw [Array.size_append]
      exact hlt

/-- Insertions keep a graph within its limits. -/
theorem Graph.Inserted.withinLimits {graph later : Graph} {insertion : Insertion} {issued : Issued}
    (h : graph.Inserted insertion later issued) (hlimits : graph.WithinLimits) :
    later.WithinLimits where
  values_le := h.values_eq ▸ size_append_le h.value_index hlimits.values_le
  nodes_le := h.nodes_eq ▸ size_append_le h.node_index hlimits.nodes_le

namespace Edit

variable {graph : Graph}

/-- There is a next identifier exactly as long as the limit is not reached. -/
theorem nextId_eq {sort : IdSort} {count : Nat} (h : count ≤ idLimit) :
    (nextId count : Edit (Id sort)) =
      if hlt : count < idLimit then pure ⟨count, hlt⟩ else throw .idOverflow := by
  rw [nextId, Id.ofUInt32_ofNat h]
  by_cases hlt : count < idLimit
  · rw [dif_pos hlt, Id.ofIndex_of_lt hlt]
  · rw [dif_neg hlt, Id.ofIndex_of_le (Nat.not_lt.1 hlt)]

/-- A value that is added gets the number of values before it as its identifier. A store that is
    full of values refuses another one, and stays as it is. -/
theorem addValue_eq (value : Value) (h : graph.values.size ≤ idLimit) :
    addValue value graph =
      if hlt : graph.values.size < idLimit then
        .ok ⟨graph.values.size, hlt⟩ { graph with values := graph.values.push value }
      else .error .idOverflow graph := by
  show (nextId graph.values.size >>= fun id => modify _ >>= fun _ => pure id : Edit _) graph = _
  rw [nextId_eq h]
  by_cases hlt : graph.values.size < idLimit
  · rw [dif_pos hlt, dif_pos hlt]
    rfl
  · rw [dif_neg hlt, dif_neg hlt]
    rfl

/-- The same for nodes. -/
theorem addNode_eq (node : Node) (h : graph.nodes.size ≤ idLimit) :
    addNode node graph =
      if hlt : graph.nodes.size < idLimit then
        .ok ⟨graph.nodes.size, hlt⟩ { graph with nodes := graph.nodes.push node }
      else .error .idOverflow graph := by
  show (nextId graph.nodes.size >>= fun id => modify _ >>= fun _ => pure id : Edit _) graph = _
  rw [nextId_eq h]
  by_cases hlt : graph.nodes.size < idLimit
  · rw [dif_pos hlt, dif_pos hlt]
    rfl
  · rw [dif_neg hlt, dif_neg hlt]
    rfl

/-! ## In place and one after another -/

theorem outcome_addValue (value : Value) (h : graph.values.size ≤ idLimit) :
    (addValue value).outcome graph = graph.insertValue value := by
  unfold outcome
  rw [addValue_eq value h]
  by_cases hlt : graph.values.size < idLimit
  · rw [dif_pos hlt, Graph.insertValue_of_lt value hlt]
  · rw [dif_neg hlt, Graph.insertValue_of_le value (Nat.not_lt.1 hlt)]

theorem outcome_addNode (node : Node) (h : graph.nodes.size ≤ idLimit) :
    (addNode node).outcome graph = graph.insertNode node := by
  unfold outcome
  rw [addNode_eq node h]
  by_cases hlt : graph.nodes.size < idLimit
  · rw [dif_pos hlt, Graph.insertNode_of_lt node hlt]
  · rw [dif_neg hlt, Graph.insertNode_of_le node (Nat.not_lt.1 hlt)]

/-- A value and then a node that refers to it. Whether there is an identifier for the node may be
    asked before the value is added as well as after. -/
theorem outcome_addPair (value : Value) (node : ValueId → Node) (h : graph.WithinLimits) :
    ((addValue value >>= fun output => addNode (node output) >>= fun id =>
      pure { value? := some output, node? := some id }) : Edit Issued).outcome graph =
    (Id.ofIndex graph.nodes.size >>= fun id => graph.insertValue value >>= fun first =>
      first.1.insertNode (node first.2) >>= fun second =>
        pure (second.1, { value? := some first.2, node? := some id })) := by
  simp only [outcome_bind, outcome_pure, outcome_addValue value h.values_le]
  -- Where one of the stores is full both sides fault alike, though perhaps not at the same step.
  by_cases hvalue : graph.values.size < idLimit
  · have hlater (id : ValueId) :
        (addNode (node id)).outcome { graph with values := graph.values.push value } =
          Graph.insertNode { graph with values := graph.values.push value } (node id) :=
      outcome_addNode _ h.nodes_le
    rw [Graph.insertValue_of_lt value hvalue]
    simp only [bind, Except.bind, hlater]
    by_cases hnode : graph.nodes.size < idLimit
    · rw [Id.ofIndex_of_lt hnode, Graph.insertNode_of_lt (node _) (by exact hnode)]
      rfl
    · rw [Id.ofIndex_of_le (Nat.not_lt.1 hnode),
        Graph.insertNode_of_le (node _) (by exact Nat.not_lt.1 hnode)]
  · rw [Graph.insertValue_of_le value (Nat.not_lt.1 hvalue)]
    by_cases hnode : graph.nodes.size < idLimit
    · rw [Id.ofIndex_of_lt hnode]
      rfl
    · rw [Id.ofIndex_of_le (Nat.not_lt.1 hnode)]
      rfl

/-- Within the limits of the graph, an insertion in place comes to the same. -/
theorem outcome_insert (insertion : Insertion) (h : graph.WithinLimits) :
    (insert insertion).outcome graph = graph.insert insertion := by
  cases insertion with
  | value added =>
      rw [insert, outcome_bind, outcome_addValue added h.values_le]
      rfl
  | node added =>
      rw [insert, outcome_bind, outcome_addNode added h.nodes_le]
      rfl
  | input name shape elementType =>
      rw [insert, outcome_addPair _ _ h]
      simp only [Graph.insert, Graph.insertInput, bind_assoc, pure_bind]
  | constant name data =>
      rw [insert, outcome_addPair _ _ h]
      simp only [Graph.insert, Graph.insertConstant, bind_assoc, pure_bind]
  | output name source =>
      rw [insert, outcome_bind, outcome_addNode _ h.nodes_le]
      rfl

/-- Within the limits of the graph, insertions in place come to the same as those of a history. -/
theorem outcome_build (history : List Insertion) (h : graph.WithinLimits) :
    (build history).outcome graph = graph.run history := by
  unfold build
  induction history generalizing graph with
  | nil => rfl
  | cons insertion rest ih =>
      rw [List.mapM_cons, outcome_bind, outcome_insert insertion h, Graph.run]
      cases hinsert : graph.insert insertion with
      | error t => rfl
      | ok first =>
          have hlimits := (Graph.inserted_of_insert hinsert).withinLimits h
          simp only [bind, Except.bind]
          show (rest.mapM insert >>= fun later => pure (first.2 :: later)).outcome first.1 = _
          rw [outcome_bind, ih hlimits]
          rfl

end Edit

end TensorLowering
