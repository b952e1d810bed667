import TensorLowering.Pass

set_option autoImplicit false

/-! # What diagnostics say is so

An error of a rule arises where a value is looked up, and then it names the value, or where
attributes and shapes are checked, and then it names none. Every look-up of a rule is of a value
that its operator mentions, so what the error says of the value can be held against the graph and
the oracle (`Operator.errorsAre_lower`). A diagnostic passes the error on with the node that it is
about; over the standard registry nothing else goes wrong but that the node does not exist
(`Pass.run_diagnoses_truthfully`). -/

namespace TensorLowering

/-! ## Errors of rules -/

/-- What the error says of a value is so, and the value is one of the given ones: it has no range,
    it is not in the graph, or its elements have the type. Errors about attributes and shapes say
    nothing of values, and an error about the kind of the operator is out of place. -/
def RuleError.HoldsOf (context : Context) (values : List ValueId) : RuleError → Prop
  | .invalidAttribute .. | .incompatibleShapes _ => True
  | .unresolvedAllocation value => value ∈ values ∧ context.range? value = none
  | .unknownValue value => value ∈ values ∧ context.value? value = none
  | .unsupportedType value found =>
      value ∈ values ∧ (context.value? value).map Value.elementType = some found
  | .kindMismatch .. => False

section

variable {context : Context} {values : List ValueId}

@[simp] theorem RuleError.holdsOf_invalidAttribute (name : AttributeName) (cause : AttributeCause) :
    (invalidAttribute name cause).HoldsOf context values := trivial

@[simp] theorem RuleError.holdsOf_incompatibleShapes (cause : ShapeMismatch) :
    (incompatibleShapes cause).HoldsOf context values := trivial

/-! ### Look-ups -/

namespace Context

variable {id : ValueId} (hid : id ∈ values)

include hid

@[simp] theorem errorsAre_range :
    (context.range id).ErrorsAre (RuleError.HoldsOf context values) := by
  intro e he
  obtain ⟨hnone, rfl⟩ := range_eq_error.1 he
  exact ⟨hid, hnone⟩

@[simp] theorem errorsAre_value :
    (context.value id).ErrorsAre (RuleError.HoldsOf context values) := by
  intro e he
  obtain ⟨hnone, rfl⟩ := value_eq_error.1 he
  exact ⟨hid, hnone⟩

@[simp] theorem errorsAre_shape :
    (context.shape id).ErrorsAre (RuleError.HoldsOf context values) :=
  Outcome.errorsAre_map.2 (errorsAre_value hid)

/-- The type that the error gives is the one that the value has. -/
@[simp] theorem errorsAre_typedValue (expected : ElementType) :
    (context.typedValue id expected).ErrorsAre (RuleError.HoldsOf context values) := by
  unfold typedValue
  refine Outcome.errorsAre_bind.2 ⟨errorsAre_value hid, fun value hvalue => ?_⟩
  rw [Outcome.errorsAre_bind, Outcome.errorsAre_require]
  refine ⟨fun _ => ⟨hid, ?_⟩, fun _ _ => Outcome.errorsAre_ok value⟩
  rw [value_eq_ok.1 hvalue, Option.map_some]

@[simp] theorem errorsAre_matrix :
    (context.matrix id).ErrorsAre (RuleError.HoldsOf context values) := by
  unfold matrix
  refine Outcome.errorsAre_bind.2 ⟨errorsAre_shape hid, fun shape _ => ?_⟩
  split
  · exact Outcome.errorsAre_ok _
  · exact Outcome.errorsAre_error.2 trivial

@[simp] theorem errorsAre_concatSize (whole : Shape) (axis : Nat) :
    (concatSize context whole axis id).ErrorsAre (RuleError.HoldsOf context values) := by
  simp [concatSize, hid]

end Context

/-! ### Checks that concern no value -/

@[simp] theorem errorsAre_sizeField (name : AttributeName) (size : Nat) :
    (sizeField name size).ErrorsAre (RuleError.HoldsOf context values) := by
  simp [sizeField]

@[simp] theorem errorsAre_positiveField (name : AttributeName) (size : Nat) :
    (positiveField name size).ErrorsAre (RuleError.HoldsOf context values) := by
  simp [positiveField]

@[simp] theorem errorsAre_shapeField (shape : Shape) :
    (shapeField shape).ErrorsAre (RuleError.HoldsOf context values) := by
  simp [shapeField, RuleError.ofShape]

@[simp] theorem errorsAre_activationField (activation : Activation) :
    (activationField activation).ErrorsAre (RuleError.HoldsOf context values) := by
  simp [activationField]

@[simp] theorem errorsAre_imageShape (shape : Shape) :
    (imageShape shape).ErrorsAre (RuleError.HoldsOf context values) := by
  simp [imageShape]

@[simp] theorem errorsAre_requireImages (found : Shape) (expected : ImageShape) :
    (requireImages found expected).ErrorsAre (RuleError.HoldsOf context values) := by
  simp [requireImages]

@[simp] theorem errorsAre_ofAttributes (filterName : SpatialAxis → AttributeName)
    (filter : Spatial Nat) (padding : Spatial Padding) (stride dilation : Spatial Nat) :
    (Window.ofAttributes filterName filter padding stride dilation).ErrorsAre
      (RuleError.HoldsOf context values) := by
  intro e he
  obtain ⟨spatial, cause, rfl | rfl | rfl⟩ := Window.ofAttributes_eq_error he <;> trivial

@[simp] theorem errorsAre_count (window : Window) (size : Spatial Nat) :
    (window.count size).ErrorsAre (RuleError.HoldsOf context values) := by
  intro e he
  obtain ⟨spatial, hspatial⟩ := Spatial.exists_of_ofM_eq_error he
  obtain ⟨rfl, -⟩ := countWindows_eq_error hspatial
  trivial

theorem holdsOf_permError (e : ShapeError) : (permError e).HoldsOf context values := by
  cases e <;> trivial

/-! ### Rules

A rule is a sequence of look-ups of its operator's values and of checks that concern no value. There
is a lemma above for each sort of step, and `Outcome.errorsAre_bind` takes a rule apart into them. -/

theorem Operator.Binary.errorsAre_lower (op : Operator.Binary) :
    (op.lower context).ErrorsAre (RuleError.HoldsOf context [op.a, op.b, op.output]) := by
  simp [lower]

theorem Operator.Concat.errorsAre_lower (op : Operator.Concat) :
    (op.lower context).ErrorsAre (RuleError.HoldsOf context (op.inputs ++ [op.output])) := by
  have hsizes (whole : Shape) (axis : Nat) :
      (op.inputs.mapM (concatSize context whole axis)).ErrorsAre
        (RuleError.HoldsOf context (op.inputs ++ [op.output])) :=
    Outcome.errorsAre_mapM fun id hid =>
      Context.errorsAre_concatSize (List.mem_append_left _ hid) whole axis
  have hranges : (op.inputs.mapM context.range).ErrorsAre
      (RuleError.HoldsOf context (op.inputs ++ [op.output])) :=
    Outcome.errorsAre_mapM fun id hid => Context.errorsAre_range (List.mem_append_left _ hid)
  have hfields (sizes : List Nat) : (sizes.mapM (sizeField .inputs)).ErrorsAre
      (RuleError.HoldsOf context (op.inputs ++ [op.output])) :=
    Outcome.errorsAre_mapM fun size _ => errorsAre_sizeField .inputs size
  simp [lower, hsizes, hranges, hfields, RuleError.ofShape, RuleError.ofAttribute]

theorem Operator.Conv2d.errorsAre_lower (op : Operator.Conv2d) :
    (op.lower context).ErrorsAre (RuleError.HoldsOf context [op.input, op.output]) := by
  simp [lower]

theorem Operator.Conversion.errorsAre_lower (op : Operator.Conversion)
    (source target : ElementType) :
    (op.lower source target context).ErrorsAre
      (RuleError.HoldsOf context [op.input, op.output]) := by
  simp [lower]

theorem Operator.MatMul.errorsAre_lower (op : Operator.MatMul) :
    (op.lower context).ErrorsAre (RuleError.HoldsOf context [op.a, op.b, op.output]) := by
  simp [lower]

theorem Operator.Reduce.errorsAre_lower (op : Operator.Reduce) :
    (op.lower context).ErrorsAre (RuleError.HoldsOf context [op.input, op.output]) := by
  simp [lower, RuleError.ofShape, RuleError.ofAttribute]

theorem Operator.ReduceWindow2d.errorsAre_lower (op : Operator.ReduceWindow2d) :
    (op.lower context).ErrorsAre (RuleError.HoldsOf context [op.input, op.output]) := by
  simp [lower]

theorem Operator.Softmax.errorsAre_lower (op : Operator.Softmax) :
    (op.lower context).ErrorsAre (RuleError.HoldsOf context [op.input, op.output]) := by
  simp [lower, RuleError.ofShape]

theorem Operator.Transpose.errorsAre_lower (op : Operator.Transpose) :
    (op.lower context).ErrorsAre (RuleError.HoldsOf context [op.input, op.output]) := by
  have hentries (shape : Shape) :
      (op.perm.mapM fun axis => (Word.entry shape axis : Outcome RuleError Nat)).ErrorsAre
        (RuleError.HoldsOf context [op.input, op.output]) :=
    Outcome.errorsAre_mapM fun axis _ => Outcome.errorsAre_ofChecked (Word.entry shape axis)
  simp only [Outcome.liftM_eq] at hentries
  simp [lower, holdsOf_permError, hentries]

/-- What the errors of an operator's rule say of values is so, and of values that the operator
    mentions. -/
theorem Operator.errorsAre_lower {op : Operator} {lower : Context → Outcome RuleError Record}
    (hlower : op.lower? = some lower) :
    (lower context).ErrorsAre (RuleError.HoldsOf context op.operands) := by
  cases op with
  | binary op => cases hlower; exact op.errorsAre_lower
  | concat op => cases hlower; exact op.errorsAre_lower
  | constant op => cases hlower
  | conv2d op => cases hlower; exact op.errorsAre_lower
  | dequantize op => cases hlower; exact Outcome.errorsAre_map.2 (op.errorsAre_lower _ _)
  | input op => cases hlower
  | matMul op => cases hlower; exact op.errorsAre_lower
  | output op => cases hlower
  | quantize op => cases hlower; exact Outcome.errorsAre_map.2 (op.errorsAre_lower _ _)
  | reduce op => cases hlower; exact op.errorsAre_lower
  | reduceWindow2d op => cases hlower; exact op.errorsAre_lower
  | softmax op => cases hlower; exact op.errorsAre_lower
  | transpose op => cases hlower; exact op.errorsAre_lower

/-- An elided operator is refused for a value of its own that has no range. -/
theorem Pass.errorsAre_checkOperands (op : Operator) :
    (checkOperands context op).ErrorsAre (RuleError.HoldsOf context op.operands) := by
  intro e he
  obtain ⟨before, value, after, hvalues, -, hnone, rfl⟩ := checkOperands_eq_error.1 he
  refine ⟨?_, hnone⟩
  rw [hvalues]
  simp

end

/-! ## Diagnostics -/

/-- What a diagnostic says of the node that it is about, and of the values that the node mentions,
    is so. -/
structure Diagnostic.IsTruthful (diagnostic : Diagnostic) (graph : Graph) (oracle : Oracle) :
    Prop where
  unresolved : diagnostic.category = .unresolvedAllocation →
    ∃ node value, graph.node? diagnostic.node = some node ∧
      diagnostic.cause? = some (.unresolvedAllocation value) ∧
      value ∈ node.operator.inputs ++ node.operator.outputs ∧ oracle value = none
  invalid : diagnostic.category = .invalidGraph →
    graph.node? diagnostic.node = none ∨
    ∃ node value, graph.node? diagnostic.node = some node ∧
      diagnostic.cause? = some (.unknownValue value) ∧
      value ∈ node.operator.inputs ++ node.operator.outputs ∧ graph.value? value = none
  untyped : ∀ value found, diagnostic.cause? = some (.unsupportedType value found) →
    ∃ node known, graph.node? diagnostic.node = some node ∧
      value ∈ node.operator.inputs ++ node.operator.outputs ∧
      graph.value? value = some known ∧ known.elementType = found
  matched : ∀ expected actual, diagnostic.cause? ≠ some (.kindMismatch expected actual)
  supported : diagnostic.category ≠ .unsupportedOperator

/-- Each value that a node of the graph mentions is in the graph and has a range. -/
def Graph.IsResolved (graph : Graph) (oracle : Oracle) : Prop :=
  ∀ id node, graph.node? id = some node →
    ∀ value ∈ node.operator.inputs ++ node.operator.outputs,
      (graph.value? value).isSome ∧ (oracle value).isSome

namespace Diagnostic

variable {graph : Graph} {oracle : Oracle} {id : NodeId} {node : Node}

theorem isTruthful_invalidNode (hnode : graph.node? id = none) :
    (invalidNode id).IsTruthful graph oracle where
  unresolved := nofun
  invalid _ := .inl hnode
  untyped := nofun
  matched := nofun
  supported := nofun

theorem isTruthful_ofRefused (hnode : graph.node? id = some node) {cause : RuleError}
    (hcause : cause.HoldsOf (graph.context oracle) node.operator.operands) :
    (ofRefused id node cause).IsTruthful graph oracle := by
  cases cause with
  | invalidAttribute name cause => exact ⟨nofun, nofun, nofun, nofun, nofun⟩
  | incompatibleShapes cause => exact ⟨nofun, nofun, nofun, nofun, nofun⟩
  | unresolvedAllocation value =>
      refine ⟨fun _ => ?_, nofun, nofun, nofun, nofun⟩
      exact ⟨node, value, hnode, rfl, hcause.1, hcause.2⟩
  | unknownValue value =>
      refine ⟨nofun, fun _ => .inr ?_, nofun, nofun, nofun⟩
      exact ⟨node, value, hnode, rfl, hcause.1, hcause.2⟩
  | unsupportedType value found =>
      refine ⟨nofun, nofun, ?_, nofun, nofun⟩
      rintro _ _ ⟨⟩
      obtain ⟨known, hknown, htype⟩ := Option.map_eq_some_iff.1 hcause.2
      exact ⟨node, known, hnode, hcause.1, hknown, htype⟩
  | kindMismatch expected actual => exact hcause.elim

/-- Where nothing is missing, a truthful diagnostic can only be about attributes and shapes. -/
theorem IsTruthful.category_eq {diagnostic : Diagnostic} (h : diagnostic.IsTruthful graph oracle)
    (hresolved : graph.IsResolved oracle) (hnode : (graph.node? diagnostic.node).isSome) :
    diagnostic.category = .malformedAttributes := by
  cases hcategory : diagnostic.category with
  | malformedAttributes => rfl
  | unsupportedOperator => exact absurd hcategory h.supported
  | unresolvedAllocation =>
      obtain ⟨node, value, hnode, -, hvalue, hnone⟩ := h.unresolved hcategory
      have hsome := (hresolved _ node hnode value hvalue).2
      rw [hnone] at hsome
      cases hsome
  | invalidGraph =>
      rcases h.invalid hcategory with hnone | ⟨node, value, hnode, -, hvalue, hnone⟩
      · rw [hnone] at hnode
        cases hnode
      · have hsome := (hresolved _ node hnode value hvalue).1
        rw [hnone] at hsome
        cases hsome

end Diagnostic

namespace Pass

/-- A node that is not lowered is what its diagnostic is about, and the diagnostic is truthful. -/
theorem isTruthful_of_runNode {pass : Pass} (hstandard : pass.registry = .standard) {graph : Graph}
    {id : NodeId} {diagnostic : Diagnostic} (h : pass.runNode graph id = .error diagnostic) :
    diagnostic.node = id ∧ diagnostic.IsTruthful graph pass.oracle := by
  cases hnode : graph.node? id with
  | none =>
      simp only [runNode, hnode] at h
      cases h
      exact ⟨rfl, Diagnostic.isTruthful_invalidNode hnode⟩
  | some node =>
      rw [runNode_standard hstandard hnode, Outcome.mapError_eq_error] at h
      obtain ⟨cause, hcause, rfl⟩ := h
      refine ⟨rfl, Diagnostic.isTruthful_ofRefused hnode ?_⟩
      cases hlower : node.operator.lower? with
      | none =>
          simp only [hlower] at hcause
          rw [Outcome.bind_eq_error] at hcause
          rcases hcause with hcheck | ⟨_, -, hpure⟩
          · exact errorsAre_checkOperands node.operator cause hcheck
          · cases hpure
      | some lower =>
          simp only [hlower] at hcause
          rw [Outcome.map_eq_error] at hcause
          exact Operator.errorsAre_lower hlower cause hcause

/-- **Diagnostics are truthful.** Over the standard registry a run that fails reports a node of its
    schedule. If an allocation is said to be missing, the node mentions a value that the oracle does
    not answer; if the graph is said to be inconsistent, it does not have the node or a value that
    the node mentions; a type that is not supported is the type of a value that the node mentions;
    and no kind is unsupported. So a run of the whole graph reports no invalid node, and where every
    value is in the graph and has a range, attributes and shapes are all that can be wrong with the
    nodes. -/
theorem run_diagnoses_truthfully (pass : Pass) (hstandard : pass.registry = .standard)
    (graph : Graph) :
    (∀ schedule diagnostic, pass.run graph schedule = .error diagnostic →
      diagnostic.node ∈ schedule ∧ diagnostic.IsTruthful graph pass.oracle) ∧
    (∀ diagnostic, pass.runGraph graph = .error diagnostic →
      ∀ id, diagnostic ≠ .invalidNode id) ∧
    (graph.IsResolved pass.oracle →
      (∀ diagnostic, pass.runGraph graph = .error diagnostic →
        diagnostic.category = .malformedAttributes) ∧
      ∀ schedule diagnostic, (∀ id ∈ schedule, (graph.node? id).isSome) →
        pass.run graph schedule = .error diagnostic →
        diagnostic.category = .malformedAttributes) := by
  have htruthful : ∀ schedule diagnostic, pass.run graph schedule = .error diagnostic →
      diagnostic.node ∈ schedule ∧ diagnostic.IsTruthful graph pass.oracle := by
    intro schedule diagnostic h
    obtain ⟨id, hid, hrun⟩ := exists_runNode_of_run_eq_error h
    obtain ⟨rfl, hdiagnostic⟩ := isTruthful_of_runNode hstandard hrun
    exact ⟨hid, hdiagnostic⟩
  have hmalformed (hresolved : graph.IsResolved pass.oracle) (schedule : List NodeId)
      (diagnostic : Diagnostic) (hnodes : ∀ id ∈ schedule, (graph.node? id).isSome)
      (h : pass.run graph schedule = .error diagnostic) :
      diagnostic.category = .malformedAttributes := by
    obtain ⟨hmem, hdiagnostic⟩ := htruthful schedule diagnostic h
    exact hdiagnostic.category_eq hresolved (hnodes _ hmem)
  -- The nodes of a run of the whole graph are the ones that the graph has.
  have hissued : ∀ id ∈ graph.nodeIds, (graph.node? id).isSome := fun _ => Graph.mem_nodeIds.1
  refine ⟨htruthful, ?_, fun hresolved => ⟨fun diagnostic => ?_, hmalformed hresolved⟩⟩
  · rintro _ h id rfl
    obtain ⟨hmem, hdiagnostic⟩ := htruthful _ _ h
    have hsome := hissued _ hmem
    rcases hdiagnostic.invalid rfl with hnone | ⟨_, _, -, hcause, -⟩
    · rw [hnone] at hsome
      cases hsome
    · cases hcause
  · exact hmalformed hresolved graph.nodeIds diagnostic hissued

/-- A graph whose nodes cannot be lowered, each for a reason of its own. -/
def flawedGraph : Graph where
  values := #[{ name := "x", shape := [2, 3], elementType := .uint8 },
    { name := none, shape := [3, 2], elementType := .uint8 }]
  nodes := #[{ name := "y", operator := .output { input := 5 } },
    { name := none, operator := .softmax { input := 0, output := 7 } },
    { name := "q", operator := .quantize
        { input := 0, output := 1, quantization := { zeroPoint := 0, scale := .zero } } },
    { name := none, operator := .softmax { input := 0, output := 1 } }]

/-- A graph in which nothing is missing, but where a node has shapes that do not agree. -/
def mismatchedGraph : Graph where
  values := flawedGraph.values
  nodes := #[{ name := none, operator := .softmax { input := 0, output := 1 } }]

/-- A pass with a range for each value of the two graphs. -/
def firstValuesPass : Pass where
  registry := .standard
  oracle value :=
    if value.index < 2 then some { region := .data, start := 0, size := 6 } else none

/-- The diagnostic that names the first node of the schedule is the one that is reported, and each
    says what is wrong. -/
theorem run_diagnoses_truthfully_flawed :
    (∃ diagnostic, firstValuesPass.run flawedGraph [2, 0, 1] = .error diagnostic ∧
      diagnostic.cause? = some (.unsupportedType 0 .uint8) ∧
      diagnostic.IsTruthful flawedGraph firstValuesPass.oracle) ∧
    (∃ diagnostic, firstValuesPass.run flawedGraph [1, 0] = .error diagnostic ∧
      diagnostic.category = .invalidGraph ∧
      diagnostic.IsTruthful flawedGraph firstValuesPass.oracle) ∧
    (∃ diagnostic, firstValuesPass.runGraph flawedGraph = .error diagnostic ∧
      diagnostic.category = .unresolvedAllocation ∧ ∀ id, diagnostic ≠ .invalidNode id) ∧
    mismatchedGraph.IsResolved firstValuesPass.oracle ∧
    ∃ diagnostic, firstValuesPass.runGraph mismatchedGraph = .error diagnostic ∧
      diagnostic.category = .malformedAttributes := by
  obtain ⟨htruthful, hnodes, -⟩ := run_diagnoses_truthfully firstValuesPass rfl flawedGraph
  obtain ⟨-, -, hresolved⟩ := run_diagnoses_truthfully firstValuesPass rfl mismatchedGraph
  have hmismatched : mismatchedGraph.IsResolved firstValuesPass.oracle := by
    rintro ⟨index, hindex⟩ node hnode value hvalue
    cases index with
    | zero =>
        cases hnode
        rcases List.mem_cons.1 hvalue with rfl | hvalue
        · exact ⟨rfl, rfl⟩
        · rw [List.mem_singleton.1 hvalue]
          exact ⟨rfl, rfl⟩
    | succ index => simp [Graph.node?, mismatchedGraph] at hnode
  exact ⟨⟨_, rfl, rfl, (htruthful [2, 0, 1] _ rfl).2⟩, ⟨_, rfl, rfl, (htruthful [1, 0] _ rfl).2⟩,
    ⟨_, rfl, rfl, hnodes _ rfl⟩, hmismatched, _, rfl, (hresolved hmismatched).1 _ rfl⟩

end Pass

end TensorLowering
