import TensorLowering.Graph
import TensorLowering.Outcome

set_option autoImplicit false

/-! # Histories of a graph

A graph is made by a sequence of insertions. A history runs them one after another and records the
identifiers that each was given, so that one can say of any later moment what an earlier insertion
has left behind: what an identifier names is named by it in every later graph (`extends_run`). -/

namespace TensorLowering

/-- One insertion into a graph. -/
inductive Insertion where
  | value (value : Value)
  | node (node : Node)
  | input (name : String) (shape : Shape) (elementType : ElementType)
  | constant (name : String) (data : ConstantTensor)
  | output (name : String) (input : ValueId)

/-- The identifiers that an insertion was given. -/
structure Issued where
  value? : Option ValueId
  node? : Option NodeId
deriving DecidableEq

namespace Insertion

/-- The value that the insertion adds, if it adds one. -/
def value? : Insertion → Option Value
  | .value added => some added
  | .node _ => none
  | .input name shape elementType => some { name, shape, elementType }
  | .constant name data => some { name, shape := data.shape, elementType := .float32 }
  | .output .. => none

/-- The node that the insertion adds, if it adds one, given the identifier of the value it adds. -/
def node? (output? : Option ValueId) : Insertion → Option Node
  | .value _ => none
  | .node added => some added
  | .input name _ _ => output?.map fun output => { name, operator := .input { output } }
  | .constant name data =>
      output?.map fun output => { name, operator := .constant { output, data } }
  | .output name source => some { name, operator := .output { input := source } }

end Insertion

namespace Graph

/-- The graph after an insertion, and the identifiers that the insertion was given. -/
def insert (graph : Graph) : Insertion → Checked (Graph × Issued)
  | .value value => do
      let (graph, id) ← graph.insertValue value
      return (graph, { value? := some id, node? := none })
  | .node node => do
      let (graph, id) ← graph.insertNode node
      return (graph, { value? := none, node? := some id })
  | .input name shape elementType => do
      let node ← Id.ofIndex graph.nodes.size
      let (graph, id) ← graph.insertInput name shape elementType
      return (graph, { value? := some id, node? := some node })
  | .constant name data => do
      let node ← Id.ofIndex graph.nodes.size
      let (graph, id) ← graph.insertConstant name data
      return (graph, { value? := some id, node? := some node })
  | .output name input => do
      let (graph, id) ← graph.insertOutput name input
      return (graph, { value? := none, node? := some id })

/-- The graph after a sequence of insertions, and what each of them was given. -/
def run (graph : Graph) : List Insertion → Checked (Graph × List Issued)
  | [] => .ok (graph, [])
  | insertion :: rest => do
      let (graph, issued) ← graph.insert insertion
      let (graph, later) ← graph.run rest
      return (graph, issued :: later)

/-! ## What an insertion does -/

/-- What an insertion does to a graph: what it adds comes after what there is, under the next
    identifiers. -/
structure Inserted (graph : Graph) (insertion : Insertion) (later : Graph) (issued : Issued) :
    Prop where
  values_eq : later.values = graph.values ++ insertion.value?.toArray
  nodes_eq : later.nodes = graph.nodes ++ (insertion.node? issued.value?).toArray
  value_index : issued.value?.map Id.index = insertion.value?.map fun _ => graph.values.size
  node_index : issued.node?.map Id.index =
    (insertion.node? issued.value?).map fun _ => graph.nodes.size

theorem inserted_of_insert {graph later : Graph} {insertion : Insertion} {issued : Issued}
    (h : graph.insert insertion = .ok (later, issued)) :
    graph.Inserted insertion later issued := by
  cases insertion with
  | value added =>
      simp only [insert, Outcome.except_bind_eq_ok] at h
      obtain ⟨⟨later, id⟩, hvalue, hpure⟩ := h
      cases hpure
      obtain ⟨hid, rfl⟩ := insertValue_eq_ok.1 hvalue
      exact ⟨rfl, rfl, congrArg some hid, rfl⟩
  | node added =>
      simp only [insert, Outcome.except_bind_eq_ok] at h
      obtain ⟨⟨later, id⟩, hnode, hpure⟩ := h
      cases hpure
      obtain ⟨hid, rfl⟩ := insertNode_eq_ok.1 hnode
      exact ⟨rfl, rfl, rfl, congrArg some hid⟩
  | input name shape elementType =>
      simp only [insert, insertInput, Outcome.except_bind_eq_ok] at h
      obtain ⟨node, hindex, _, ⟨⟨middle, output⟩, hvalue, ⟨later, _⟩, hnode, hpair⟩, hpure⟩ := h
      cases hpair
      cases hpure
      obtain ⟨hid, rfl⟩ := insertValue_eq_ok.1 hvalue
      obtain ⟨-, rfl⟩ := insertNode_eq_ok.1 hnode
      exact ⟨rfl, rfl, congrArg some hid, congrArg some (Id.ofIndex_eq_ok.1 hindex)⟩
  | constant name data =>
      simp only [insert, insertConstant, Outcome.except_bind_eq_ok] at h
      obtain ⟨node, hindex, _, ⟨⟨middle, output⟩, hvalue, ⟨later, _⟩, hnode, hpair⟩, hpure⟩ := h
      cases hpair
      cases hpure
      obtain ⟨hid, rfl⟩ := insertValue_eq_ok.1 hvalue
      obtain ⟨-, rfl⟩ := insertNode_eq_ok.1 hnode
      exact ⟨rfl, rfl, congrArg some hid, congrArg some (Id.ofIndex_eq_ok.1 hindex)⟩
  | output name source =>
      simp only [insert, insertOutput, Outcome.except_bind_eq_ok] at h
      obtain ⟨⟨later, id⟩, hnode, hpure⟩ := h
      cases hpure
      obtain ⟨hid, rfl⟩ := insertNode_eq_ok.1 hnode
      exact ⟨rfl, rfl, rfl, congrArg some hid⟩

/-! ## What stays -/

/-- What an identifier names in the graph is named by it in the later one. -/
structure Extends (graph later : Graph) : Prop where
  value?_eq : ∀ id value, graph.value? id = some value → later.value? id = some value
  node?_eq : ∀ id node, graph.node? id = some node → later.node? id = some node

theorem Extends.refl (graph : Graph) : graph.Extends graph :=
  ⟨fun _ _ h => h, fun _ _ h => h⟩

theorem Extends.trans {first second third : Graph} (h : first.Extends second)
    (h' : second.Extends third) : first.Extends third :=
  ⟨fun id value hvalue => h'.value?_eq id value (h.value?_eq id value hvalue),
    fun id node hnode => h'.node?_eq id node (h.node?_eq id node hnode)⟩

/-- What an insertion adds comes after everything that has an identifier. -/
theorem Inserted.extends {graph later : Graph} {insertion : Insertion} {issued : Issued}
    (h : graph.Inserted insertion later issued) : graph.Extends later := by
  refine ⟨fun id value hvalue => ?_, fun id node hnode => ?_⟩
  · obtain ⟨hlt, -⟩ := Array.getElem?_eq_some_iff.1 hvalue
    rw [value?, h.values_eq, Array.getElem?_append_left hlt]
    exact hvalue
  · obtain ⟨hlt, -⟩ := Array.getElem?_eq_some_iff.1 hnode
    rw [node?, h.nodes_eq, Array.getElem?_append_left hlt]
    exact hnode

theorem extends_insert {graph graph' : Graph} {insertion : Insertion} {issued : Issued}
    (h : graph.insert insertion = .ok (graph', issued)) : graph.Extends graph' :=
  (inserted_of_insert h).extends

/-- Every graph of a history extends those before it. -/
theorem extends_run {graph graph' : Graph} {history : List Insertion} {issued : List Issued}
    (h : graph.run history = .ok (graph', issued)) : graph.Extends graph' := by
  induction history generalizing graph issued with
  | nil =>
      cases h
      exact .refl _
  | cons insertion rest ih =>
      simp only [run, Outcome.except_bind_eq_ok] at h
      obtain ⟨⟨middle, first⟩, hinsert, ⟨last, later⟩, hrest, hpure⟩ := h
      cases hpure
      exact (extends_insert hinsert).trans (ih hrest)

end Graph

end TensorLowering
