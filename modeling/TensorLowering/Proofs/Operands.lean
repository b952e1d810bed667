import TensorLowering.Pass

set_option autoImplicit false

/-! # What rules read

The rules of the library read the values that an operator mentions, and nothing else; so contexts
that agree on those values are interchangeable (`Operator.lower_congr`). Where a rule makes a record
it has read each of them, and the record has their ranges in the operator's order
(`Operator.isOf_of_lower`); so it makes the same record when more is known
(`Rule.builtin?_eq_ok_of_extends`). -/

namespace TensorLowering

/-! ## Rules read what the operator mentions -/

section

variable {a b : Context}

theorem Operator.Binary.lower_congr (op : Operator.Binary)
    (h : Context.AgreeOn [op.a, op.b, op.output] a b) : op.lower a = op.lower b := by
  simp only [lower, h.shape_eq, h.range_eq, List.mem_cons, true_or, or_true]

theorem concatSize_congr {ids : List ValueId} (h : Context.AgreeOn ids a b) {id : ValueId}
    (hid : id ∈ ids) (whole : Shape) (axis : Nat) :
    concatSize a whole axis id = concatSize b whole axis id := by
  rw [concatSize, concatSize, h.shape_eq hid]

theorem Operator.Concat.lower_congr (op : Operator.Concat)
    (h : Context.AgreeOn (op.inputs ++ [op.output]) a b) : op.lower a = op.lower b := by
  have hinput : ∀ id ∈ op.inputs, id ∈ op.inputs ++ [op.output] :=
    fun _ hid => List.mem_append_left _ hid
  have houtput : op.output ∈ op.inputs ++ [op.output] := by simp
  have hsizes (whole : Shape) (axis : Nat) :
      op.inputs.mapM (concatSize a whole axis) = op.inputs.mapM (concatSize b whole axis) :=
    Outcome.mapM_congr fun id hid => concatSize_congr h (hinput id hid) whole axis
  have hranges : op.inputs.mapM a.range = op.inputs.mapM b.range :=
    Outcome.mapM_congr fun id hid => h.range_eq (hinput id hid)
  simp only [lower, hsizes, hranges, h.range_eq houtput]
  -- Of the output the rule uses the shape and the element type.
  congr 1
  funext _
  refine h.value_bind houtput fun v w hshape htype => ?_
  rw [hshape, htype]

theorem Operator.Conv2d.lower_congr (op : Operator.Conv2d)
    (h : Context.AgreeOn [op.input, op.output] a b) : op.lower a = op.lower b := by
  simp only [lower, h.shape_eq, h.range_eq, List.mem_cons, true_or, or_true]

theorem Operator.Conversion.lower_congr (op : Operator.Conversion) (source target : ElementType)
    (h : Context.AgreeOn [op.input, op.output] a b) :
    op.lower source target a = op.lower source target b := by
  have hinput : op.input ∈ [op.input, op.output] := by simp
  have houtput : op.output ∈ [op.input, op.output] := by simp
  simp only [lower, h.range_eq hinput, h.range_eq houtput]
  refine h.typedValue_bind hinput fun _ _ _ _ => ?_
  exact h.typedValue_bind houtput fun _ _ _ _ => rfl

theorem Operator.MatMul.lower_congr (op : Operator.MatMul)
    (h : Context.AgreeOn [op.a, op.b, op.output] a b) : op.lower a = op.lower b := by
  simp only [lower, Context.matrix, h.shape_eq, h.range_eq, List.mem_cons, true_or, or_true]

theorem Operator.Reduce.lower_congr (op : Operator.Reduce)
    (h : Context.AgreeOn [op.input, op.output] a b) : op.lower a = op.lower b := by
  simp only [lower, h.shape_eq, h.range_eq, List.mem_cons, true_or, or_true]

theorem Operator.ReduceWindow2d.lower_congr (op : Operator.ReduceWindow2d)
    (h : Context.AgreeOn [op.input, op.output] a b) : op.lower a = op.lower b := by
  simp only [lower, h.shape_eq, h.range_eq, List.mem_cons, true_or, or_true]

theorem Operator.Softmax.lower_congr (op : Operator.Softmax)
    (h : Context.AgreeOn [op.input, op.output] a b) : op.lower a = op.lower b := by
  simp only [lower, h.shape_eq, h.range_eq, List.mem_cons, true_or, or_true]

theorem Operator.Transpose.lower_congr (op : Operator.Transpose)
    (h : Context.AgreeOn [op.input, op.output] a b) : op.lower a = op.lower b := by
  simp only [lower, h.shape_eq, h.range_eq, List.mem_cons, true_or, or_true]

/-- The rule of an operator ends alike in contexts that agree on the values it mentions. -/
theorem Operator.lower_congr {op : Operator} {lower : Context → Outcome RuleError Record}
    (hlower : op.lower? = some lower) (h : Context.AgreeOn op.operands a b) :
    lower a = lower b := by
  cases op with
  | binary op => cases hlower; exact op.lower_congr h
  | concat op => cases hlower; exact op.lower_congr h
  | constant op => cases hlower
  | conv2d op => cases hlower; exact op.lower_congr h
  | dequantize op => cases hlower; exact congrArg (Record.dequantize <$> ·) (op.lower_congr _ _ h)
  | input op => cases hlower
  | matMul op => cases hlower; exact op.lower_congr h
  | output op => cases hlower
  | quantize op => cases hlower; exact congrArg (Record.quantize <$> ·) (op.lower_congr _ _ h)
  | reduce op => cases hlower; exact op.lower_congr h
  | reduceWindow2d op => cases hlower; exact op.lower_congr h
  | softmax op => cases hlower; exact op.lower_congr h
  | transpose op => cases hlower; exact op.lower_congr h

/-- No rule of the library can tell such contexts apart, under whichever kind it is registered. -/
theorem Rule.builtin?_congr {kind : Operator.Kind} {rule : Rule}
    (hrule : Rule.builtin? kind = some rule) {op : Operator}
    (h : Context.AgreeOn op.operands a b) : rule op a = rule op b := by
  rw [Rule.eq_ofKind_of_builtin? hrule]
  unfold Rule.ofKind
  cases hlower : op.lower? with
  | none => rfl
  | some lower => simp only [Operator.lower_congr hlower h]

theorem Pass.checkOperands_congr {op : Operator} (h : Context.AgreeOn op.operands a b) :
    checkOperands a op = checkOperands b op := by
  refine Outcome.forM_congr fun value hvalue => ?_
  rw [h.range_eq hvalue]

end

/-! ## Rules that make a record have read it all -/

/-- What every record has of the operator that it was made for: the kind, and the ranges of the
    values that the operator mentions, each of which is known. -/
structure Record.IsOf (record : Record) (op : Operator) (context : Context) : Prop where
  kind_eq : record.kind = op.kind
  known : ∀ value ∈ op.operands, (context.value? value).isSome
  inputs_eq : op.inputs.map context.range? = record.inputs.map some
  outputs_eq : op.outputs.map context.range? = [some record.output]

namespace Operator

variable {context : Context}

/-- Of an operator with one output, the record and its parts. -/
theorem isOf_of_known {record : Record} {op : Operator} {output : ValueId}
    (hkind : record.kind = op.kind) (houtputs : op.outputs = [output])
    (hknown : ∀ input ∈ op.inputs, (context.value? input).isSome)
    (hfound : (context.value? output).isSome)
    (hread : op.inputs.map context.range? = record.inputs.map some)
    (hwritten : context.range? output = some record.output) : record.IsOf op context := by
  refine { kind_eq := hkind, known := ?_, inputs_eq := hread, outputs_eq := ?_ }
  · intro value hvalue
    rw [operands, houtputs] at hvalue
    rcases List.mem_append.1 hvalue with hinput | hvalue
    · exact hknown value hinput
    · rw [List.mem_singleton.1 hvalue]
      exact hfound
  · rw [houtputs, List.map_singleton, hwritten]

/-- The same for an operator that has one input as well. -/
theorem isOf_of_known_input {record : Record} {op : Operator} {input output : ValueId}
    {range : MemoryRange} (hkind : record.kind = op.kind) (hinputs : op.inputs = [input])
    (houtputs : op.outputs = [output]) (hranges : record.inputs = [range])
    (hknown : (context.value? input).isSome) (hfound : (context.value? output).isSome)
    (hread : context.range? input = some range)
    (hwritten : context.range? output = some record.output) : record.IsOf op context := by
  refine isOf_of_known hkind houtputs ?_ hfound ?_ hwritten
  · rw [hinputs]
    exact List.forall_mem_singleton.2 hknown
  · rw [hinputs, hranges, List.map_singleton, List.map_singleton, hread]

/-- The same for an operator that has two inputs. -/
theorem isOf_of_known_pair {record : Record} {op : Operator} {a b output : ValueId}
    {rangeA rangeB : MemoryRange} (hkind : record.kind = op.kind) (hinputs : op.inputs = [a, b])
    (houtputs : op.outputs = [output]) (hranges : record.inputs = [rangeA, rangeB])
    (ha : (context.value? a).isSome) (hb : (context.value? b).isSome)
    (hfound : (context.value? output).isSome) (hreadA : context.range? a = some rangeA)
    (hreadB : context.range? b = some rangeB)
    (hwritten : context.range? output = some record.output) : record.IsOf op context := by
  refine isOf_of_known hkind houtputs ?_ hfound ?_ hwritten
  · rw [hinputs]
    exact List.forall_mem_cons.2 ⟨ha, List.forall_mem_singleton.2 hb⟩
  · rw [hinputs, hranges]
    simp only [List.map_cons, List.map_nil, hreadA, hreadB]

theorem Binary.isOf_of_lower {op : Operator.Binary} {r : Record}
    (hlower : op.lower context = .ok r) : r.IsOf (.binary op) context := by
  obtain ⟨a, b, output, record, rfl, h⟩ := op.exists_accepted_of_lower hlower
  exact isOf_of_known_pair rfl rfl rfl rfl (Context.isSome_value?_of_shape h.a_eq)
    (Context.isSome_value?_of_shape h.b_eq) (Context.isSome_value?_of_shape h.found_eq)
    h.inputA_eq h.inputB_eq h.output_eq

theorem Concat.isOf_of_lower {op : Operator.Concat} {r : Record}
    (hlower : op.lower context = .ok r) : r.IsOf (.concat op) context := by
  obtain ⟨whole, axis, parts, record, rfl, h⟩ := op.exists_accepted_of_lower hlower
  refine isOf_of_known rfl rfl ?_ (Option.isSome_of_eq_some h.whole_eq) h.inputs_eq h.output_eq
  intro input hinput
  have hmem : context.value? input ∈ op.inputs.map context.value? := List.mem_map_of_mem hinput
  rw [h.parts_eq] at hmem
  obtain ⟨part, -, hpart⟩ := List.mem_map.1 hmem
  exact Option.isSome_of_eq_some hpart.symm

theorem Conv2d.isOf_of_lower {op : Operator.Conv2d} {r : Record}
    (hlower : op.lower context = .ok r) : r.IsOf (.conv2d op) context := by
  obtain ⟨image, kernel, size, record, rfl, h⟩ := op.exists_accepted_of_lower hlower
  exact isOf_of_known_input rfl rfl rfl rfl (Context.isSome_value?_of_shape h.shape_eq)
    (Context.isSome_value?_of_shape h.found_eq) h.input_eq h.output_eq

theorem Conversion.isOf_of_lowerDequantize {op : Operator.Conversion} {r : Record}
    (hlower : op.lowerDequantize context = .ok r) : r.IsOf (.dequantize op) context := by
  obtain ⟨record, hrecord, rfl⟩ := Outcome.map_eq_ok.1 hlower
  have h := accepted_of_lower hrecord
  exact isOf_of_known_input rfl rfl rfl rfl (Context.isSome_value?_of_elementType h.source_eq)
    (Context.isSome_value?_of_elementType h.target_eq) h.input_eq h.output_eq

theorem Conversion.isOf_of_lowerQuantize {op : Operator.Conversion} {r : Record}
    (hlower : op.lowerQuantize context = .ok r) : r.IsOf (.quantize op) context := by
  obtain ⟨record, hrecord, rfl⟩ := Outcome.map_eq_ok.1 hlower
  have h := accepted_of_lower hrecord
  exact isOf_of_known_input rfl rfl rfl rfl (Context.isSome_value?_of_elementType h.source_eq)
    (Context.isSome_value?_of_elementType h.target_eq) h.input_eq h.output_eq

theorem MatMul.isOf_of_lower {op : Operator.MatMul} {r : Record}
    (hlower : op.lower context = .ok r) : r.IsOf (.matMul op) context := by
  obtain ⟨a, b, record, rfl, h⟩ := op.exists_accepted_of_lower hlower
  exact isOf_of_known_pair rfl rfl rfl rfl (Context.isSome_value?_of_shape h.a_eq)
    (Context.isSome_value?_of_shape h.b_eq) (Context.isSome_value?_of_shape h.found_eq)
    h.inputA_eq h.inputB_eq h.output_eq

theorem Reduce.isOf_of_lower {op : Operator.Reduce} {r : Record}
    (hlower : op.lower context = .ok r) : r.IsOf (.reduce op) context := by
  obtain ⟨shape, found, axes, kept, expected, record, rfl, h⟩ := op.exists_accepted_of_lower hlower
  exact isOf_of_known_input rfl rfl rfl rfl (Context.isSome_value?_of_shape h.shape_eq)
    (Context.isSome_value?_of_shape h.found_eq) h.input_eq h.output_eq

theorem ReduceWindow2d.isOf_of_lower {op : Operator.ReduceWindow2d} {r : Record}
    (hlower : op.lower context = .ok r) : r.IsOf (.reduceWindow2d op) context := by
  obtain ⟨image, size, record, rfl, h⟩ := op.exists_accepted_of_lower hlower
  exact isOf_of_known_input rfl rfl rfl rfl (Context.isSome_value?_of_shape h.shape_eq)
    (Context.isSome_value?_of_shape h.found_eq) h.input_eq h.output_eq

theorem Softmax.isOf_of_lower {op : Operator.Softmax} {r : Record}
    (hlower : op.lower context = .ok r) : r.IsOf (.softmax op) context := by
  obtain ⟨shape, bounds, record, rfl, h⟩ := op.exists_accepted_of_lower hlower
  exact isOf_of_known_input rfl rfl rfl rfl (Context.isSome_value?_of_shape h.shape_eq)
    (Context.isSome_value?_of_shape h.found_eq) h.input_eq h.output_eq

theorem Transpose.isOf_of_lower {op : Operator.Transpose} {r : Record}
    (hlower : op.lower context = .ok r) : r.IsOf (.transpose op) context := by
  obtain ⟨shape, extended, record, rfl, h⟩ := op.exists_accepted_of_lower hlower
  exact isOf_of_known_input rfl rfl rfl rfl (Context.isSome_value?_of_shape h.shape_eq)
    (Context.isSome_value?_of_shape h.found_eq) h.input_eq h.output_eq

/-- A record that the rule of an operator makes is of that operator. -/
theorem isOf_of_lower {op : Operator} {lower : Context → Outcome RuleError Record}
    (hop : op.lower? = some lower) {record : Record} (hlower : lower context = .ok record) :
    record.IsOf op context := by
  cases op with
  | binary op => cases hop; exact Binary.isOf_of_lower hlower
  | concat op => cases hop; exact Concat.isOf_of_lower hlower
  | constant op => cases hop
  | conv2d op => cases hop; exact Conv2d.isOf_of_lower hlower
  | dequantize op => cases hop; exact Conversion.isOf_of_lowerDequantize hlower
  | input op => cases hop
  | matMul op => cases hop; exact MatMul.isOf_of_lower hlower
  | output op => cases hop
  | quantize op => cases hop; exact Conversion.isOf_of_lowerQuantize hlower
  | reduce op => cases hop; exact Reduce.isOf_of_lower hlower
  | reduceWindow2d op => cases hop; exact ReduceWindow2d.isOf_of_lower hlower
  | softmax op => cases hop; exact Softmax.isOf_of_lower hlower
  | transpose op => cases hop; exact Transpose.isOf_of_lower hlower

end Operator

/-- The ranges of the values that the operator mentions are known as well. -/
theorem Record.IsOf.isSome_range? {record : Record} {op : Operator} {context : Context}
    (h : record.IsOf op context) {value : ValueId} (hvalue : value ∈ op.operands) :
    (context.range? value).isSome := by
  rcases List.mem_append.1 hvalue with hinput | houtput
  · have hmem : context.range? value ∈ op.inputs.map context.range? := List.mem_map_of_mem hinput
    rw [h.inputs_eq] at hmem
    obtain ⟨range, -, hrange⟩ := List.mem_map.1 hmem
    exact Option.isSome_of_eq_some hrange.symm
  · have hmem : context.range? value ∈ op.outputs.map context.range? := List.mem_map_of_mem houtput
    rw [h.outputs_eq] at hmem
    exact Option.isSome_of_eq_some (List.mem_singleton.1 hmem)

/-- Where a rule of the library makes a record, it makes the same one when more is known. -/
theorem Rule.builtin?_eq_ok_of_extends {kind : Operator.Kind} {rule : Rule}
    (hrule : Rule.builtin? kind = some rule) {context later : Context}
    (hextends : context.Extends later) {op : Operator} {record : Record}
    (h : rule op context = .ok record) : rule op later = .ok record := by
  have hof := h
  rw [Rule.eq_ofKind_of_builtin? hrule, Rule.ofKind_eq_ok] at hof
  obtain ⟨-, lower, hop, hlower⟩ := hof
  have hisOf := Operator.isOf_of_lower hop hlower
  have hagree := hextends.agreeOn hisOf.known fun _ hvalue => hisOf.isSome_range? hvalue
  rw [← Rule.builtin?_congr hrule hagree, h]

end TensorLowering
