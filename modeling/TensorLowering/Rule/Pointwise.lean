import TensorLowering.Rule.Field
import TensorLowering.Shape.Broadcast

set_option autoImplicit false

/-! # Rules for elementwise operators

An elementwise function of two tensors broadcasts its operands; a conversion to or from quantized
elements asks for the element types that it converts between. -/

namespace TensorLowering

/-- The rule for elementwise functions: the output has the shape that the operands broadcast to. -/
def Operator.Binary.lower (op : Operator.Binary) (context : Context) :
    Outcome RuleError Record := do
  let a ← context.shape op.a
  let b ← context.shape op.b
  let output ← context.shape op.output
  let expected ← Outcome.ofOption (.incompatibleShapes (.notBroadcastable a b)) (a.broadcast b)
  Outcome.require (expected = output)
    (.incompatibleShapes (.output output .broadcast expected))
  let inputA ← context.range op.a
  let inputB ← context.range op.b
  let outputRange ← context.range op.output
  let shapeA ← shapeField a
  let shapeB ← shapeField b
  let outputShape ← shapeField output
  let activation ← activationField op.activation
  return .binary
    { inputA, inputB, output := outputRange, function := op.function, shapeA, shapeB, outputShape,
      activation }

/-- What the rule finds, and what it makes of it, where it makes a record. -/
structure Operator.Binary.Accepted (op : Operator.Binary) (context : Context) (a b output : Shape)
    (record : Record.Binary) : Prop where
  a_eq : context.shape op.a = .ok a
  b_eq : context.shape op.b = .ok b
  found_eq : context.shape op.output = .ok output
  broadcast_eq : a.broadcast b = some output
  inputA_eq : context.range? op.a = some record.inputA
  inputB_eq : context.range? op.b = some record.inputB
  output_eq : context.range? op.output = some record.output
  shapeA_eq : a.toAxisArray = .ok record.shapeA
  shapeB_eq : b.toAxisArray = .ok record.shapeB
  outputShape_eq : output.toAxisArray = .ok record.outputShape
  function_eq : record.function = op.function
  activation_eq : record.activation = op.activation

/-- Each record of an elementwise function is of operands that broadcast to the output. -/
theorem Operator.Binary.exists_accepted_of_lower {op : Operator.Binary} {context : Context}
    {r : Record} (h : op.lower context = .ok r) :
    ∃ a b output record, r = .binary record ∧ op.Accepted context a b output record := by
  simp only [lower, Outcome.bind_eq_ok, Outcome.ofOption_eq_ok, Outcome.require_eq_ok,
    Context.range_eq_ok, shapeField_eq_ok, Outcome.pure_eq_ok, Outcome.ok.injEq] at h
  obtain ⟨a, ha, b, hb, output, hfound, _, hbroadcast, _, rfl, inputA, hinputA, inputB, hinputB,
    range, hrange, shapeA, hshapeA, shapeB, hshapeB, outputShape, houtputShape, activation,
    hactivation, rfl⟩ := h
  exact ⟨a, b, _, _, rfl,
    { a_eq := ha
      b_eq := hb
      found_eq := hfound
      broadcast_eq := hbroadcast
      inputA_eq := hinputA
      inputB_eq := hinputB
      output_eq := hrange
      shapeA_eq := hshapeA
      shapeB_eq := hshapeB
      outputShape_eq := houtputShape
      function_eq := rfl
      activation_eq := activationField_eq_ok hactivation }⟩

/-- The record of a conversion between values with the given element types. -/
def Operator.Conversion.lower (op : Operator.Conversion) (source target : ElementType)
    (context : Context) : Outcome RuleError Record.Conversion := do
  let _ ← context.typedValue op.input source
  let _ ← context.typedValue op.output target
  let input ← context.range op.input
  let output ← context.range op.output
  return { input, output, quantization := op.quantization }

/-- What the two rules find, and what they make of it, where they make a record. -/
structure Operator.Conversion.Accepted (op : Operator.Conversion) (source target : ElementType)
    (context : Context) (record : Record.Conversion) : Prop where
  source_eq : (context.value? op.input).map Value.elementType = some source
  target_eq : (context.value? op.output).map Value.elementType = some target
  input_eq : context.range? op.input = some record.input
  output_eq : context.range? op.output = some record.output
  quantization_eq : record.quantization = op.quantization

/-- Each record of a conversion is between values of the element types. -/
theorem Operator.Conversion.accepted_of_lower {op : Operator.Conversion}
    {source target : ElementType} {context : Context} {record : Record.Conversion}
    (h : op.lower source target context = .ok record) :
    op.Accepted source target context record := by
  simp only [lower, Outcome.bind_eq_ok, Context.typedValue_eq_ok, Context.range_eq_ok,
    Outcome.pure_eq_ok, Outcome.ok.injEq] at h
  obtain ⟨_, ⟨hvalue, hsource⟩, _, ⟨hfound, htarget⟩, input, hinput, output, houtput, rfl⟩ := h
  exact
    { source_eq := by rw [hvalue, Option.map_some, hsource]
      target_eq := by rw [hfound, Option.map_some, htarget]
      input_eq := hinput
      output_eq := houtput
      quantization_eq := rfl }

/-- The rule for quantization: floating-point elements become bytes. -/
def Operator.Conversion.lowerQuantize (op : Operator.Conversion) (context : Context) :
    Outcome RuleError Record :=
  Record.quantize <$> op.lower .float32 .uint8 context

/-- The rule for its inverse: bytes become floating-point elements. -/
def Operator.Conversion.lowerDequantize (op : Operator.Conversion) (context : Context) :
    Outcome RuleError Record :=
  Record.dequantize <$> op.lower .uint8 .float32 context

end TensorLowering
