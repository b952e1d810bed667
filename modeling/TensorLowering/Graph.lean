import TensorLowering.Operator.Basic
import TensorLowering.Value

set_option autoImplicit false

/-! # Graphs

A graph is an append-only store of values and nodes. Identifiers are issued densely in the order of
insertion, and what an identifier names never changes afterwards. Inserting into a full store faults
before it changes anything. Nodes refer to values by identifier; whether the value exists is not the
store's concern. -/

namespace TensorLowering

/-- An operator in a graph, perhaps with a name. -/
structure Node where
  name : Option String
  operator : Operator
deriving BEq

namespace Node

/-- Which computation the node stands for. -/
def kind (node : Node) : Operator.Kind := node.operator.kind

/-- A name between quotation marks, after a blank; nothing if there is none. -/
def nameSuffix : Option String → String
  | some name => " \"" ++ name ++ "\""
  | none => ""

/-- The node as messages show it. -/
def text (node : Node) : String := node.kind.name ++ nameSuffix node.name

end Node

/-- Values and nodes in the order of their insertion. -/
structure Graph where
  values : Array Value
  nodes : Array Node

namespace Graph

/-- The graph without values and nodes. -/
def empty : Graph := { values := #[], nodes := #[] }

/-- The node that an identifier names. -/
def node? (graph : Graph) (id : NodeId) : Option Node := graph.nodes[id.index]?

/-- The value that an identifier names. -/
def value? (graph : Graph) (id : ValueId) : Option Value := graph.values[id.index]?

/-- Each dimension of each value fits a word of 32 bits. -/
def DimensionsFit (graph : Graph) : Prop :=
  ∀ value ∈ graph.values, ∀ dimension ∈ value.shape, dimension < UInt32.size

instance (graph : Graph) : Decidable graph.DimensionsFit :=
  inferInstanceAs (Decidable (∀ value ∈ graph.values, ∀ dimension ∈ value.shape, _))

/-- Insert a value. -/
def insertValue (graph : Graph) (value : Value) : Checked (Graph × ValueId) := do
  let id ← Id.ofIndex graph.values.size
  return ({ graph with values := graph.values.push value }, id)

/-- Insert a node. -/
def insertNode (graph : Graph) (node : Node) : Checked (Graph × NodeId) := do
  let id ← Id.ofIndex graph.nodes.size
  return ({ graph with nodes := graph.nodes.push node }, id)

/-- Insert a value that the caller supplies, and the node that says so under the same name. -/
def insertInput (graph : Graph) (name : String) (shape : Shape) (elementType : ElementType) :
    Checked (Graph × ValueId) := do
  let (graph, output) ← graph.insertValue { name, shape, elementType }
  let (graph, _) ← graph.insertNode { name, operator := .input { output } }
  return (graph, output)

/-- Insert a constant, and the node that says so under the same name. -/
def insertConstant (graph : Graph) (name : String) (data : ConstantTensor) :
    Checked (Graph × ValueId) := do
  let (graph, output) ← graph.insertValue { name, shape := data.shape, elementType := .float32 }
  let (graph, _) ← graph.insertNode { name, operator := .constant { output, data } }
  return (graph, output)

/-- Insert the node that says that the caller receives a value. -/
def insertOutput (graph : Graph) (name : String) (input : ValueId) : Checked (Graph × NodeId) :=
  graph.insertNode { name, operator := .output { input } }

/-- The identifiers of the entries of a store that holds `count` of them. -/
def idsBelow {sort : IdSort} (count : Nat) : List (Id sort) :=
  (List.range count).filterMap fun index => (Id.ofIndex index).toOption

/-- Every identifier of a node, in the order of insertion. -/
def nodeIds (graph : Graph) : List NodeId := idsBelow graph.nodes.size

/-- Every identifier of a value, in the order of insertion. -/
def valueIds (graph : Graph) : List ValueId := idsBelow graph.values.size

/-- Every node with its identifier, in the order of insertion. -/
def entries (graph : Graph) : List (NodeId × Node) := graph.nodeIds.zip graph.nodes.toList

/-! ## Identifiers that are issued -/

theorem mem_idsBelow {sort : IdSort} {count : Nat} {id : Id sort} :
    id ∈ idsBelow count ↔ id.index < count := by
  unfold idsBelow
  rw [List.mem_filterMap]
  constructor
  · rintro ⟨index, hindex, hid⟩
    cases hof : (Id.ofIndex index : Checked (Id sort)) with
    | error t => rw [hof] at hid; cases hid
    | ok other =>
        rw [hof] at hid
        cases hid
        rw [Id.ofIndex_eq_ok.1 hof]
        exact List.mem_range.1 hindex
  · intro hlt
    refine ⟨id.index, List.mem_range.2 hlt, ?_⟩
    rw [Id.ofIndex_eq_ok.2 rfl]
    rfl

/-- The identifiers that are enumerated are those that name a node. -/
theorem mem_nodeIds {graph : Graph} {id : NodeId} :
    id ∈ graph.nodeIds ↔ (graph.node? id).isSome := by
  rw [nodeIds, mem_idsBelow, node?, isSome_getElem?]

/-! ## Look-up after insertion -/

theorem insertValue_eq_ok {graph graph' : Graph} {value : Value} {id : ValueId} :
    graph.insertValue value = .ok (graph', id) ↔
      id.index = graph.values.size ∧ graph' = { graph with values := graph.values.push value } := by
  unfold insertValue
  constructor
  · intro h
    cases hid : (Id.ofIndex graph.values.size : Checked ValueId) with
    | error t => rw [hid] at h; cases h
    | ok i =>
        rw [hid] at h
        cases h
        exact ⟨Id.ofIndex_eq_ok.1 hid, rfl⟩
  · rintro ⟨hid, rfl⟩
    rw [Id.ofIndex_eq_ok.2 hid]
    rfl

theorem insertNode_eq_ok {graph graph' : Graph} {node : Node} {id : NodeId} :
    graph.insertNode node = .ok (graph', id) ↔
      id.index = graph.nodes.size ∧ graph' = { graph with nodes := graph.nodes.push node } := by
  unfold insertNode
  constructor
  · intro h
    cases hid : (Id.ofIndex graph.nodes.size : Checked NodeId) with
    | error t => rw [hid] at h; cases h
    | ok i =>
        rw [hid] at h
        cases h
        exact ⟨Id.ofIndex_eq_ok.1 hid, rfl⟩
  · rintro ⟨hid, rfl⟩
    rw [Id.ofIndex_eq_ok.2 hid]
    rfl

theorem insertValue_of_lt {graph : Graph} (value : Value) (h : graph.values.size < idLimit) :
    graph.insertValue value =
      .ok ({ graph with values := graph.values.push value }, ⟨graph.values.size, h⟩) := by
  rw [insertValue_eq_ok]
  exact ⟨rfl, rfl⟩

theorem insertValue_of_le {graph : Graph} (value : Value) (h : idLimit ≤ graph.values.size) :
    graph.insertValue value = .error .idOverflow := by
  unfold insertValue
  rw [Id.ofIndex_of_le h]
  rfl

theorem insertNode_of_lt {graph : Graph} (node : Node) (h : graph.nodes.size < idLimit) :
    graph.insertNode node =
      .ok ({ graph with nodes := graph.nodes.push node }, ⟨graph.nodes.size, h⟩) := by
  rw [insertNode_eq_ok]
  exact ⟨rfl, rfl⟩

theorem insertNode_of_le {graph : Graph} (node : Node) (h : idLimit ≤ graph.nodes.size) :
    graph.insertNode node = .error .idOverflow := by
  unfold insertNode
  rw [Id.ofIndex_of_le h]
  rfl

/-- An inserted value is found under its identifier, and no other look-up changes. -/
theorem value?_insertValue {graph graph' : Graph} {value : Value} {id other : ValueId}
    (h : graph.insertValue value = .ok (graph', id)) :
    graph'.value? other = if other = id then some value else graph.value? other := by
  obtain ⟨hid, rfl⟩ := insertValue_eq_ok.1 h
  unfold value?
  simp only [Array.getElem?_push]
  by_cases heq : other = id
  · simp [heq, hid]
  · have : other.index ≠ graph.values.size := fun hi => heq (Id.ext_index (hi.trans hid.symm))
    simp [heq, this]

/-- An inserted node is found under its identifier, and no other look-up changes. -/
theorem node?_insertNode {graph graph' : Graph} {node : Node} {id other : NodeId}
    (h : graph.insertNode node = .ok (graph', id)) :
    graph'.node? other = if other = id then some node else graph.node? other := by
  obtain ⟨hid, rfl⟩ := insertNode_eq_ok.1 h
  unfold node?
  simp only [Array.getElem?_push]
  by_cases heq : other = id
  · simp [heq, hid]
  · have : other.index ≠ graph.nodes.size := fun hi => heq (Id.ext_index (hi.trans hid.symm))
    simp [heq, this]

end Graph

end TensorLowering
