import TensorLowering.Pass

set_option autoImplicit false

/-! # Moving memory

Rules pass ranges on into records and do nothing else with them: no rule compares two ranges, or
derives a size from one. So if every range that the oracle answers is moved, by any function on
ranges, the records are those of the unmoved ranges, moved alike (`Operator.lower_relocate`), and a
schedule ends in the moved program, the same diagnostic or the same fault (`Pass.run_relocate`). -/

namespace TensorLowering

/-- The same look-ups, with every range moved. -/
def Context.relocate (move : MemoryRange → MemoryRange) (context : Context) : Context where
  value? := context.value?
  range? value := (context.range? value).map move

/-- The same pass, with every range moved that its oracle answers. -/
def Pass.relocate (move : MemoryRange → MemoryRange) (pass : Pass) : Pass :=
  { pass with oracle := fun value => (pass.oracle value).map move }

variable (move : MemoryRange → MemoryRange)

/-! ## What rules look up -/

namespace Context

variable (context : Context) (id : ValueId)

@[simp] theorem range_relocate :
    (context.relocate move).range id = move <$> context.range id := by
  have hrange : (context.relocate move).range? id = (context.range? id).map move := rfl
  unfold Context.range
  rw [hrange]
  cases context.range? id <;> rfl

@[simp] theorem value_relocate : (context.relocate move).value id = context.value id := rfl

@[simp] theorem shape_relocate : (context.relocate move).shape id = context.shape id := rfl

@[simp] theorem typedValue_relocate (expected : ElementType) :
    (context.relocate move).typedValue id expected = context.typedValue id expected := rfl

@[simp] theorem matrix_relocate : (context.relocate move).matrix id = context.matrix id := rfl

@[simp] theorem mapM_range_relocate (ids : List ValueId) :
    ids.mapM (context.relocate move).range = List.map move <$> ids.mapM context.range := by
  rw [← Outcome.mapM_map_comm]
  exact Outcome.mapM_congr fun id _ => context.range_relocate move id

end Context

/-! ## Rules

Restating a record and restating a range both move along a sequence of steps until they meet, at
the last step of the rule, where the record is made. -/

section

variable (context : Context)

theorem Operator.Binary.lower_relocate (op : Operator.Binary) :
    op.lower (context.relocate move) = Record.relocate move <$> op.lower context := by
  simp only [lower, Context.shape_relocate, Context.range_relocate, map_bind, bind_map_left,
    map_pure, Record.relocate]

theorem Operator.Concat.lower_relocate (op : Operator.Concat) :
    op.lower (context.relocate move) = Record.relocate move <$> op.lower context := by
  have hsize (whole : Shape) (axis : Nat) :
      concatSize (context.relocate move) whole axis = concatSize context whole axis := rfl
  simp only [lower, hsize, Context.value_relocate, Context.range_relocate,
    Context.mapM_range_relocate, map_bind, bind_map_left, map_pure, Record.relocate]

theorem Operator.Conv2d.lower_relocate (op : Operator.Conv2d) :
    op.lower (context.relocate move) = Record.relocate move <$> op.lower context := by
  simp only [lower, Context.shape_relocate, Context.range_relocate, map_bind, bind_map_left,
    map_pure, Record.relocate]

theorem Operator.Conversion.lower_relocate (op : Operator.Conversion)
    (source target : ElementType) :
    op.lower source target (context.relocate move) =
      (fun record => { record with input := move record.input, output := move record.output }) <$>
        op.lower source target context := by
  simp only [lower, Context.typedValue_relocate, Context.range_relocate, map_bind, bind_map_left,
    map_pure]

theorem Operator.Conversion.lowerQuantize_relocate (op : Operator.Conversion) :
    op.lowerQuantize (context.relocate move) =
      Record.relocate move <$> op.lowerQuantize context := by
  simp only [lowerQuantize, lower_relocate, Functor.map_map, Record.relocate]

theorem Operator.Conversion.lowerDequantize_relocate (op : Operator.Conversion) :
    op.lowerDequantize (context.relocate move) =
      Record.relocate move <$> op.lowerDequantize context := by
  simp only [lowerDequantize, lower_relocate, Functor.map_map, Record.relocate]

theorem Operator.MatMul.lower_relocate (op : Operator.MatMul) :
    op.lower (context.relocate move) = Record.relocate move <$> op.lower context := by
  simp only [lower, Context.matrix_relocate, Context.shape_relocate, Context.range_relocate,
    map_bind, bind_map_left, map_pure, Record.relocate]

theorem Operator.Reduce.lower_relocate (op : Operator.Reduce) :
    op.lower (context.relocate move) = Record.relocate move <$> op.lower context := by
  simp only [lower, Context.shape_relocate, Context.range_relocate, map_bind, bind_map_left,
    map_pure, Record.relocate]

theorem Operator.ReduceWindow2d.lower_relocate (op : Operator.ReduceWindow2d) :
    op.lower (context.relocate move) = Record.relocate move <$> op.lower context := by
  simp only [lower, Context.shape_relocate, Context.range_relocate, map_bind, bind_map_left,
    map_pure, Record.relocate]

theorem Operator.Softmax.lower_relocate (op : Operator.Softmax) :
    op.lower (context.relocate move) = Record.relocate move <$> op.lower context := by
  simp only [lower, Context.shape_relocate, Context.range_relocate, map_bind, bind_map_left,
    map_pure, Record.relocate]

theorem Operator.Transpose.lower_relocate (op : Operator.Transpose) :
    op.lower (context.relocate move) = Record.relocate move <$> op.lower context := by
  simp only [lower, Context.shape_relocate, Context.range_relocate, map_bind, bind_map_left,
    map_pure, Record.relocate]

/-- The rule of an operator makes the record of the moved ranges exactly where it makes one. -/
theorem Operator.lower_relocate {op : Operator} {lower : Context → Outcome RuleError Record}
    (hlower : op.lower? = some lower) :
    lower (context.relocate move) = Record.relocate move <$> lower context := by
  cases op with
  | binary op => cases hlower; exact op.lower_relocate move context
  | concat op => cases hlower; exact op.lower_relocate move context
  | constant op => cases hlower
  | conv2d op => cases hlower; exact op.lower_relocate move context
  | dequantize op => cases hlower; exact op.lowerDequantize_relocate move context
  | input op => cases hlower
  | matMul op => cases hlower; exact op.lower_relocate move context
  | output op => cases hlower
  | quantize op => cases hlower; exact op.lowerQuantize_relocate move context
  | reduce op => cases hlower; exact op.lower_relocate move context
  | reduceWindow2d op => cases hlower; exact op.lower_relocate move context
  | softmax op => cases hlower; exact op.lower_relocate move context
  | transpose op => cases hlower; exact op.lower_relocate move context

/-- So does each rule of the library, under whichever kind it is registered. -/
theorem Rule.builtin?_relocate {kind : Operator.Kind} {rule : Rule}
    (hrule : Rule.builtin? kind = some rule) (op : Operator) :
    rule op (context.relocate move) = Record.relocate move <$> rule op context := by
  rw [Rule.eq_ofKind_of_builtin? hrule]
  unfold Rule.ofKind
  cases hlower : op.lower? with
  | none => rfl
  | some lower =>
      by_cases hkind : op.kind = kind
      · simp only [hkind, if_true, Operator.lower_relocate move context hlower]
      · simp only [hkind, if_false, Outcome.map_error]

/-- A range that is moved is still a range, and one that is missing is still missing. -/
theorem Pass.checkOperands_relocate (op : Operator) :
    checkOperands (context.relocate move) op = checkOperands context op := by
  refine Outcome.forM_congr fun value _ => ?_
  rw [Context.range_relocate, bind_map_left]

end

/-! ## Schedules -/

namespace Program

/-- Moving the records of the nodes moves their program. -/
theorem ofLowered_relocate (schedule : List NodeId) (lowered : List (Option Record)) :
    ofLowered schedule (lowered.map (Option.map (Record.relocate move))) =
      (ofLowered schedule lowered).relocate move := by
  unfold ofLowered relocate
  rw [List.zip_map_right, List.filterMap_map, List.map_filterMap]
  congr 1
  refine congrArg (List.filterMap · _) (funext fun (id, record?) => ?_)
  cases record? <;> rfl

end Program

namespace Pass

theorem runNode_relocate {pass : Pass} (hbuiltin : pass.registry.IsBuiltin) (graph : Graph)
    (id : NodeId) :
    (pass.relocate move).runNode graph id =
      Option.map (Record.relocate move) <$> pass.runNode graph id := by
  have hcontext : graph.context (pass.relocate move).oracle =
      (graph.context pass.oracle).relocate move := rfl
  have hregistry : (pass.relocate move).registry = pass.registry := rfl
  unfold runNode
  rw [hcontext, hregistry]
  cases graph.node? id with
  | none => rfl
  | some node =>
      cases hhandler : pass.registry.handler? node.kind with
      | none => simp only [hhandler, Outcome.map_error]
      | some handler => cases handler with
        | elided =>
            simp only [hhandler, checkOperands_relocate, ← Outcome.mapError_map, map_bind, map_pure,
              Option.map_none]
        | rule rule =>
            obtain ⟨kind, hrule⟩ := hbuiltin _ _ hhandler
            simp only [hhandler, Rule.builtin?_relocate move _ hrule, ← Outcome.mapError_map,
              Functor.map_map, Option.map_some]

/-- In either mode the records of a schedule are moved with the ranges. -/
theorem runNodes_relocate {pass : Pass} (hbuiltin : pass.registry.IsBuiltin) (graph : Graph)
    (schedule : List NodeId) :
    (pass.relocate move).runNodes graph schedule =
      List.map (Option.map (Record.relocate move)) <$> pass.runNodes graph schedule := by
  have hnode := runNode_relocate move hbuiltin graph
  cases hmode : pass.settings.parallel with
  | false =>
      have hmode' : (pass.relocate move).settings.parallel = false := hmode
      rw [runNodes_serial hmode, runNodes_serial hmode', ← Outcome.mapM_map_comm]
      exact Outcome.mapM_congr fun id _ => hnode id
  | true =>
      have hmode' : (pass.relocate move).settings.parallel = true := hmode
      rw [runNodes_parallel hmode, runNodes_parallel hmode', ← Workers.settle_map_comm,
        List.map_map]
      exact congrArg Workers.settle (List.map_congr_left fun id _ => hnode id)

/-- **Lowering moves with memory.** Move every range that the oracle answers by any function on
    ranges, and leave alone which values it answers. Over a registry of rules of the library, and
    whatever the order of the workers, a schedule then ends as before: in the same diagnostic, in
    the same fault, or in the same program but for the ranges of its records, which are moved. -/
theorem run_relocate (pass : Pass) (hbuiltin : pass.registry.IsBuiltin) (graph : Graph)
    (schedule : List NodeId) (workers' : Workers) :
    { pass.relocate move with workers := workers' : Pass }.run graph schedule =
      Program.relocate move <$> pass.run graph schedule := by
  have hworkers : { pass.relocate move with workers := workers' : Pass }.run graph schedule =
      (pass.relocate move).run graph schedule := by
    refine run_congr ?_ fun _ _ => rfl
    rfl
  rw [hworkers]
  unfold run
  rw [runNodes_relocate move hbuiltin]
  simp only [Functor.map_map, Program.ofLowered_relocate]

/-- A graph that joins two values. -/
def joinGraph : Graph where
  values := #[{ name := "x", shape := [1, 2], elementType := .float32 },
    { name := "y", shape := [3, 2], elementType := .float32 },
    { name := none, shape := [4, 2], elementType := .float32 }]
  nodes := #[{ name := "join", operator := .concat { inputs := [0, 1], output := 2, axis := 0 } }]

/-- A pass with a range of its own for every value. -/
def joinPass : Pass where
  registry := .standard
  oracle value := some { region := .data, start := .ofNat (32 * value.index), size := 32 }

/-- Ranges that are moved onto one another make the same record but for the ranges. -/
theorem run_relocate_join :
    let overlay : MemoryRange := { region := .readOnly, start := 7, size := 0 }
    let moved := joinPass.relocate fun _ => overlay
    ∃ program, joinPass.run joinGraph [0] = .ok program ∧
      moved.run joinGraph [0] = .ok (program.relocate fun _ => overlay) ∧
      (program.relocate fun _ => overlay).records.map Record.inputs = [[overlay, overlay]] := by
  intro overlay moved
  have hmoved := run_relocate (fun _ => overlay) joinPass Registry.isBuiltin_standard joinGraph [0]
    .inOrder
  exact ⟨_, rfl, hmoved, rfl⟩

end Pass

end TensorLowering
