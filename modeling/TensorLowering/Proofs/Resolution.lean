import Mathlib.Data.List.Basic
import TensorLowering.Proofs.Operands

set_option autoImplicit false

/-! # What an accepted schedule has been checked for

Over the standard registry a node is accepted once its operands were looked up. Whatever the kind of
the node, each of them has a range, and the record of a computed node has these ranges in the order
in which the operator mentions them (`Pass.run_resolves_operands`). That the values exist in the
graph is only found out by rules, which read their shapes or types; nodes that are elided may name
values that the graph does not have (`Pass.run_checks_values_of_computed`). -/

namespace TensorLowering

/-- Whether an identifier names a node that computes something. -/
def Graph.computes (graph : Graph) (id : NodeId) : Bool :=
  (graph.node? id).any fun node => node.kind.isComputed

namespace Pass

/-! ## One node -/

section

variable {pass : Pass} (hstandard : pass.registry = .standard) {graph : Graph} {id : NodeId}

include hstandard

/-- A node that is lowered to a record is computed, and the record is of its operator. -/
theorem isOf_of_runNode {record : Record} (h : pass.runNode graph id = .ok (some record)) :
    ∃ node, graph.node? id = some node ∧ node.kind.isComputed = true ∧
      record.IsOf node.operator (graph.context pass.oracle) := by
  obtain ⟨node, hnode, ⟨-, -, hnone⟩ | ⟨rule, own, hhandler, hrule, hsome⟩⟩ := runNode_eq_ok.1 h
  · cases hnone
  · cases hsome
    obtain ⟨kind, hbuiltin⟩ := (hstandard ▸ Registry.isBuiltin_standard) _ _ hhandler
    rw [Rule.eq_ofKind_of_builtin? hbuiltin, Rule.ofKind_eq_ok] at hrule
    obtain ⟨-, lower, hop, hlower⟩ := hrule
    exact ⟨node, hnode, Operator.isComputed_of_lower? hop, Operator.isOf_of_lower hop hlower⟩

/-- A node that is lowered to nothing is not computed, and each of its operands has a range. -/
theorem elided_of_runNode (h : pass.runNode graph id = .ok none) :
    ∃ node, graph.node? id = some node ∧ node.kind.isComputed = false ∧
      ∀ value ∈ node.operator.operands, (pass.oracle value).isSome := by
  obtain ⟨node, hnode, ⟨hhandler, hranges, -⟩ | ⟨rule, own, -, -, hsome⟩⟩ := runNode_eq_ok.1 h
  · refine ⟨node, hnode, ?_, hranges⟩
    rw [hstandard, Registry.handler?_standard] at hhandler
    cases hcomputed : node.kind.isComputed with
    | false => rfl
    | true =>
        rw [hcomputed] at hhandler
        cases hhandler
  · cases hsome

/-- Each operand of a node that is lowered has a range, and exists if the node is computed. -/
theorem operands_of_runNode {record? : Option Record}
    (h : pass.runNode graph id = .ok record?) :
    ∃ node, graph.node? id = some node ∧
      (∀ value ∈ node.operator.operands, (pass.oracle value).isSome) ∧
      (node.kind.isComputed = true →
        ∀ value ∈ node.operator.operands, (graph.value? value).isSome) := by
  cases record? with
  | none =>
      obtain ⟨node, hnode, helided, hranges⟩ := elided_of_runNode hstandard h
      refine ⟨node, hnode, hranges, fun hcomputed => ?_⟩
      rw [helided] at hcomputed
      cases hcomputed
  | some record =>
      obtain ⟨node, hnode, -, hof⟩ := isOf_of_runNode hstandard h
      exact ⟨node, hnode, fun value hvalue => hof.isSome_range? hvalue, fun _ => hof.known⟩

/-- A node that is lowered is lowered to a step exactly if it is computed. -/
theorem map_node_step? {record? : Option Record} (h : pass.runNode graph id = .ok record?) :
    (pass.step? graph id).map ProgramStep.node = if graph.computes id then some id else none := by
  unfold Graph.computes step?
  rw [h]
  cases record? with
  | none =>
      obtain ⟨node, hnode, helided, -⟩ := elided_of_runNode hstandard h
      simp [hnode, helided, Outcome.toOption]
  | some record =>
      obtain ⟨node, hnode, hcomputed, -⟩ := isOf_of_runNode hstandard h
      simp [hnode, hcomputed, Outcome.toOption]

end

/-! ## A schedule -/

/-- The nodes of a program are the computed nodes of the schedule, in its order. -/
theorem nodes_of_run {pass : Pass} (hstandard : pass.registry = .standard) {graph : Graph}
    {schedule : List NodeId} {program : Program}
    (h : pass.run graph schedule = .ok program) :
    program.nodes = schedule.filter graph.computes := by
  have hnode : ∀ id ∈ schedule, (pass.step? graph id).map ProgramStep.node =
      Option.guard graph.computes id := by
    intro id hid
    obtain ⟨record?, hrecord⟩ := exists_runNode_of_run h hid
    exact map_node_step? hstandard hrecord
  rw [Program.nodes, steps_of_run h, List.map_filterMap, List.filterMap_congr hnode,
    List.filterMap_eq_filter]

/-- **Operands are complete and in order.** If the pass over the standard registry accepts a
    schedule, each value that one of its nodes reads or produces has a range, also where the node is
    elided. The program has a record for each occurrence of a computed node. The record is of the
    node's kind, reads the ranges of the operator's inputs, one for each mention and in their order,
    and writes the range of the operator's only output. -/
theorem run_resolves_operands (pass : Pass) (hstandard : pass.registry = .standard) (graph : Graph)
    (schedule : List NodeId) (program : Program) (h : pass.run graph schedule = .ok program) :
    (∀ id ∈ schedule, ∃ node, graph.node? id = some node ∧
      ∀ value ∈ node.operator.inputs ++ node.operator.outputs, (pass.oracle value).isSome) ∧
    program.nodes = schedule.filter graph.computes ∧
    program.records.length = program.nodes.length ∧
    ∀ (index : Nat) (id : NodeId) (record : Record),
      program.nodes[index]? = some id → program.records[index]? = some record →
      ∃ node output, graph.node? id = some node ∧ record.kind = node.kind ∧
        node.operator.inputs.map pass.oracle = record.inputs.map some ∧
        node.operator.outputs = [output] ∧ pass.oracle output = some record.output := by
  refine ⟨fun id hid => ?_, nodes_of_run hstandard h, by simp, ?_⟩
  · obtain ⟨record?, hrecord⟩ := exists_runNode_of_run h hid
    obtain ⟨node, hnode, hranges, -⟩ := operands_of_runNode hstandard hrecord
    exact ⟨node, hnode, hranges⟩
  · intro index id record hid hrecord
    rw [Program.getElem?_nodes, Option.map_eq_some_iff] at hid
    obtain ⟨step, hstep, rfl⟩ := hid
    rw [Program.getElem?_records, hstep] at hrecord
    cases hrecord
    -- The step was made for a node of the schedule, whose operands the rule has looked up.
    have hmem : step ∈ schedule.filterMap (pass.step? graph) := by
      rw [← steps_of_run h]
      exact List.mem_of_getElem? hstep
    obtain ⟨id, -, hid⟩ := List.mem_filterMap.1 hmem
    obtain ⟨rfl, hrun⟩ := step?_eq_some.1 hid
    obtain ⟨node, hnode, hcomputed, hof⟩ := isOf_of_runNode hstandard hrun
    obtain ⟨output, houtput⟩ := Operator.outputs_of_isComputed hcomputed
    have hwritten := hof.outputs_eq
    rw [houtput, List.map_singleton, List.singleton_inj] at hwritten
    exact ⟨node, output, hnode, hof.kind_eq, hof.inputs_eq, houtput, hwritten⟩

/-- A graph with a product of two inputs, of which the second is read first, a concatenation that
    reads one value twice, and a difference. -/
def squareGraph : Graph where
  values := #[{ name := "x", shape := [2, 2], elementType := .float32 },
    { name := "y", shape := [2, 2], elementType := .float32 },
    { name := none, shape := [2, 2], elementType := .float32 },
    { name := none, shape := [6, 2], elementType := .float32 },
    { name := none, shape := [2, 2], elementType := .float32 }]
  nodes := #[{ name := "x", operator := .input { output := 0 } },
    { name := "y", operator := .input { output := 1 } },
    { name := none, operator := .matMul
        { a := 1, b := 0, output := 2, bias := .ofArray #[.zero, .zero], activation := .linear } },
    { name := none, operator := .concat { inputs := [2, 0, 2], output := 3, axis := 0 } },
    { name := none, operator := .binary
        { a := 2, b := 1, output := 4, function := .sub, activation := .linear } }]

/-- A pass on workers, with a range of its own for every value. -/
def standardPass : Pass where
  registry := .standard
  oracle value := some { region := .data, start := .ofNat (48 * value.index), size := 48 }
  settings := { parallel := true }

/-- The value that the concatenation mentions twice has its range in the record twice, and the two
    operands of the difference have theirs in the order in which it mentions them. -/
theorem run_resolves_operands_square :
    let schedule : List NodeId := [3, 0, 4, 2, 1]
    ∃ program record difference, standardPass.run squareGraph schedule = .ok program ∧
      program.nodes = [3, 4, 2] ∧ program.records[0]? = some record ∧
      [2, 0, 2].map standardPass.oracle = record.inputs.map some ∧
      standardPass.oracle 3 = some record.output ∧
      program.records[1]? = some difference ∧ difference.kind = .binary ∧
      [2, 1].map standardPass.oracle = difference.inputs.map some ∧
      standardPass.oracle 2 ≠ standardPass.oracle 1 ∧
      standardPass.oracle 4 = some difference.output := by
  intro schedule
  obtain ⟨-, hnodes, -, hrecords⟩ :=
    run_resolves_operands standardPass rfl squareGraph schedule _ rfl
  obtain ⟨node, output, hnode, -, hinputs, houtput, hwritten⟩ := hrecords 0 3 _ rfl rfl
  cases hnode
  cases houtput
  obtain ⟨node, output, hnode, hkind, hoperands, houtput, hresult⟩ := hrecords 1 4 _ rfl rfl
  cases hnode
  cases houtput
  exact ⟨_, _, _, rfl, hnodes, rfl, hinputs, hwritten, rfl, hkind, hoperands, by decide, hresult⟩

/-! ## Values that are not in the graph -/

/-- What becomes of a node depends on the values of the graph only if the node is computed. -/
theorem runNode_congr_of_computed {pass : Pass} (hstandard : pass.registry = .standard)
    {graph graph' : Graph} {id : NodeId} (hnode : graph'.node? id = graph.node? id)
    (hvalues : ∀ node, graph.node? id = some node → node.kind.isComputed = true →
      ∀ value ∈ node.operator.operands, graph'.value? value = graph.value? value) :
    pass.runNode graph' id = pass.runNode graph id := by
  cases hfound : graph.node? id with
  | none =>
      rw [hfound] at hnode
      simp only [runNode, hnode, hfound]
  | some node =>
      rw [hfound] at hnode
      rw [runNode_standard hstandard hnode, runNode_standard hstandard hfound]
      cases hlower : node.operator.lower? with
      -- Without a rule only the oracle is asked, and the two graphs have the same one.
      | none => rfl
      | some lower =>
          have hcomputed : node.kind.isComputed = true := Operator.isComputed_of_lower? hlower
          have hagree : Context.AgreeOn node.operator.operands (graph'.context pass.oracle)
              (graph.context pass.oracle) := by
            intro value hvalue
            refine ⟨?_, rfl⟩
            have heq := hvalues node hfound hcomputed value hvalue
            simp only [Context.signature?, Graph.context, heq]
          simp only [Operator.lower_congr hlower hagree]

/-- **Values are checked where they are read.** If the pass over the standard registry accepts a
    schedule, every value that a computed node of it mentions is in the graph. Of the values that
    only elided nodes mention it makes no difference whether they are: a graph with the same nodes
    and the same values of computed nodes ends alike. -/
theorem run_checks_values_of_computed (pass : Pass) (hstandard : pass.registry = .standard)
    (graph : Graph) (schedule : List NodeId) :
    (∀ program, pass.run graph schedule = .ok program →
      ∀ id ∈ schedule, ∃ node, graph.node? id = some node ∧
        (node.kind.isComputed = true →
          ∀ value ∈ node.operator.inputs ++ node.operator.outputs,
            (graph.value? value).isSome)) ∧
    ∀ graph' : Graph, (∀ id ∈ schedule, graph'.node? id = graph.node? id) →
      (∀ id ∈ schedule, ∀ node, graph.node? id = some node → node.kind.isComputed = true →
        ∀ value ∈ node.operator.inputs ++ node.operator.outputs,
          graph'.value? value = graph.value? value) →
      pass.run graph' schedule = pass.run graph schedule := by
  refine ⟨fun program h id hid => ?_, fun graph' hnodes hvalues => ?_⟩
  · obtain ⟨record?, hrecord⟩ := exists_runNode_of_run h hid
    obtain ⟨node, hnode, -, hknown⟩ := operands_of_runNode hstandard hrecord
    exact ⟨node, hnode, hknown⟩
  · refine run_congr rfl fun id hid => ?_
    exact runNode_congr_of_computed hstandard (hnodes id hid) (hvalues id hid)

/-- A graph of a softmax and of the receipt of a third value, with only so many values. -/
def receiptGraph (count : Nat) : Graph where
  values := Array.replicate count { name := none, shape := [2, 3], elementType := .float32 }
  nodes := #[{ name := none, operator := .softmax { input := 0, output := 1 } },
    { name := "y", operator := .output { input := 2 } }]

/-- With the third value or without it, the graph is lowered to the same. -/
theorem run_checks_values_of_computed_receipt :
    let schedule : List NodeId := [1, 0]
    ∃ program, standardPass.run (receiptGraph 3) schedule = .ok program ∧
      (∀ value ∈ [0, 1], ((receiptGraph 3).value? value).isSome) ∧
      standardPass.run (receiptGraph 2) schedule =
        standardPass.run (receiptGraph 3) schedule := by
  intro schedule
  obtain ⟨hknown, hcongr⟩ :=
    run_checks_values_of_computed standardPass rfl (receiptGraph 3) schedule
  obtain ⟨node, hnode, hvalues⟩ := hknown _ rfl 0 (by decide)
  cases hnode
  refine ⟨_, rfl, hvalues rfl, hcongr (receiptGraph 2) (fun _ _ => rfl) ?_⟩
  intro id hid node hnode hcomputed value hvalue
  simp only [schedule, List.mem_cons, List.not_mem_nil, or_false] at hid
  rcases hid with rfl | rfl <;> cases hnode
  · cases hcomputed
  · rcases List.mem_cons.1 hvalue with rfl | hvalue
    · rfl
    · rw [List.mem_singleton.1 hvalue]
      rfl

/-- A value that is not in the graph is accepted where an elided node mentions it, and refused where
    a computed node does. -/
theorem run_accepts_missing_value :
    (receiptGraph 2).value? 2 = none ∧
      (∃ program, standardPass.runGraph (receiptGraph 2) = .ok program ∧ program.nodes = [0]) ∧
      standardPass.runGraph (receiptGraph 1) =
        .error (.refused 0 none .softmax (.unknownValue 1)) :=
  ⟨rfl, ⟨_, rfl, rfl⟩, rfl⟩

end Pass

end TensorLowering
