import TensorLowering.Graph
import TensorLowering.Record

set_option autoImplicit false

/-! # Programs

A program is a list of records, each with the node that it was made for, in the order of execution.
Filling a list of nodes and a list of records side by side gives the same (`Program.fill_eq`). -/

namespace TensorLowering

/-- A record and the node that it was made for. -/
structure ProgramStep where
  node : NodeId
  record : Record
deriving BEq

/-- Records in the order of execution. -/
structure Program where
  steps : List ProgramStep
deriving BEq

namespace Program

/-- The program of a schedule whose nodes were lowered to records or to nothing. -/
def ofLowered (schedule : List NodeId) (lowered : List (Option Record)) : Program where
  steps := (schedule.zip lowered).filterMap fun (node, record?) =>
    record?.map fun record => { node, record }

/-- The nodes that have a record. -/
def nodes (program : Program) : List NodeId := program.steps.map ProgramStep.node

/-- The records. -/
def records (program : Program) : List Record := program.steps.map ProgramStep.record

/-- One turn of the loop that fills a program: if there is a record, its node is put at the end of
    one list and the record at the end of another. -/
def push (filled : List NodeId × List Record) :
    NodeId × Option Record → List NodeId × List Record
  | (node, some record) => (filled.1 ++ [node], filled.2 ++ [record])
  | (_, none) => filled

/-- The two lists that the loop fills from a schedule whose nodes were lowered to records or to
    nothing. -/
def fill (schedule : List NodeId) (lowered : List (Option Record)) : List NodeId × List Record :=
  (schedule.zip lowered).foldl push ([], [])

/-- The number of records. -/
def size (program : Program) : Nat := program.steps.length

/-- The same program on operands that were moved. -/
def relocate (move : MemoryRange → MemoryRange) (program : Program) : Program where
  steps := program.steps.map fun step => { step with record := step.record.relocate move }

@[simp] theorem length_nodes (program : Program) : program.nodes.length = program.size := by
  simp [nodes, size]

@[simp] theorem length_records (program : Program) : program.records.length = program.size := by
  simp [records, size]

theorem getElem?_nodes (program : Program) (index : Nat) :
    program.nodes[index]? = program.steps[index]?.map ProgramStep.node := by
  simp [nodes]

theorem getElem?_records (program : Program) (index : Nat) :
    program.records[index]? = program.steps[index]?.map ProgramStep.record := by
  simp [records]

/-- Reading the nodes beside the records gives the steps. -/
theorem zip_nodes_records (program : Program) :
    program.nodes.zip program.records = program.steps.map fun step => (step.node, step.record) := by
  rw [nodes, records, List.zip_map']

@[simp] theorem nodes_relocate (move : MemoryRange → MemoryRange) (program : Program) :
    (program.relocate move).nodes = program.nodes := by
  simp [nodes, relocate, Function.comp_def]

@[simp] theorem records_relocate (move : MemoryRange → MemoryRange) (program : Program) :
    (program.relocate move).records = program.records.map (Record.relocate move) := by
  simp [records, relocate, Function.comp_def]

@[simp] theorem steps_ofLowered_nil : (ofLowered [] []).steps = [] := rfl

@[simp] theorem steps_ofLowered_cons_none (node : NodeId) (schedule : List NodeId)
    (lowered : List (Option Record)) :
    (ofLowered (node :: schedule) (none :: lowered)).steps =
      (ofLowered schedule lowered).steps := by
  simp [ofLowered]

@[simp] theorem steps_ofLowered_cons_some (node : NodeId) (record : Record)
    (schedule : List NodeId) (lowered : List (Option Record)) :
    (ofLowered (node :: schedule) (some record :: lowered)).steps =
      { node, record } :: (ofLowered schedule lowered).steps := by
  simp [ofLowered]

/-- Turn by turn the lists grow by what a program has for the turn. -/
theorem foldl_push (entries : List (NodeId × Option Record))
    (filled : List NodeId × List Record) :
    let steps := entries.filterMap fun (node, record?) =>
      record?.map fun record => ({ node, record } : ProgramStep)
    entries.foldl push filled =
      (filled.1 ++ steps.map ProgramStep.node, filled.2 ++ steps.map ProgramStep.record) := by
  induction entries generalizing filled with
  | nil => simp
  | cons entry entries ih =>
      obtain ⟨node, record?⟩ := entry
      rw [List.foldl_cons, ih]
      cases record? with
      | none => simp [push]
      | some record => simp [push]

/-- The two lists are the nodes and the records of the program, so each record has its node beside
    it. -/
theorem fill_eq (schedule : List NodeId) (lowered : List (Option Record)) :
    fill schedule lowered =
      ((ofLowered schedule lowered).nodes, (ofLowered schedule lowered).records) := by
  unfold fill
  rw [foldl_push]
  simp [ofLowered, nodes, records]

end Program

end TensorLowering
