import TensorLowering.Rule.Field
import TensorLowering.Shape.Axis
import TensorLowering.Shape.Loop
import TensorLowering.Shape.Reduced

set_option autoImplicit false

/-! # Rules for reductions

A reduction combines the elements along a set of axes; a softmax normalizes each row of a tensor. -/

namespace TensorLowering

/-- The rule for reductions. The record always keeps the reduced dimensions; whether the output does
    is left to the operator, and as it makes no difference to the elements only their number is
    compared. -/
def Operator.Reduce.lower (op : Operator.Reduce) (context : Context) :
    Outcome RuleError Record := do
  let shape ← context.shape op.input
  let found ← context.shape op.output
  let axes ← (axisDimensions shape.rank op.axes).mapError (.ofAttribute .axes)
  let kept ← (Outcome.ofExcept (shape.reduced axes true)).mapError .ofShape
  let expected ← (Outcome.ofExcept (shape.reduced axes op.keepDims)).mapError .ofShape
  -- A product of dimensions may leave the word here, on either side of the comparison.
  let foundCount ← found.checkedElements
  let expectedCount ← expected.checkedElements
  Outcome.require (foundCount = expectedCount)
    (.incompatibleShapes (.output found .reduced expected))
  let input ← context.range op.input
  let output ← context.range op.output
  let inputShape ← shapeField shape
  let outputShape ← shapeField kept
  return .reduce
    { input, output, reduction := op.reduction, inputShape, outputShape, initial := op.initial }

/-- What the rule finds, and what it makes of it, where it makes a record. -/
structure Operator.Reduce.Accepted (op : Operator.Reduce) (context : Context)
    (shape found : Shape) (axes : List Nat) (kept expected : Shape) (record : Record.Reduce) :
    Prop where
  shape_eq : context.shape op.input = .ok shape
  found_eq : context.shape op.output = .ok found
  axes_eq : axisDimensions shape.rank op.axes = .ok axes
  kept_eq : shape.reduced axes true = .ok kept
  expected_eq : shape.reduced axes op.keepDims = .ok expected
  count_eq : found.elements = expected.elements
  input_eq : context.range? op.input = some record.input
  output_eq : context.range? op.output = some record.output
  inputShape_eq : shape.toAxisArray = .ok record.inputShape
  outputShape_eq : kept.toAxisArray = .ok record.outputShape
  reduction_eq : record.reduction = op.reduction
  initial_eq : record.initial = op.initial

/-- Each record of a reduction is of an operator that the rule accepts. -/
theorem Operator.Reduce.exists_accepted_of_lower {op : Operator.Reduce} {context : Context}
    {r : Record} (h : op.lower context = .ok r) :
    ∃ shape found axes kept expected record, r = .reduce record ∧
      op.Accepted context shape found axes kept expected record := by
  simp only [lower, Outcome.bind_eq_ok, Outcome.mapError_eq_ok, Outcome.ofExcept_eq_ok,
    Outcome.liftM_eq, Outcome.ofChecked_eq_ok, Outcome.require_eq_ok, Context.range_eq_ok,
    shapeField_eq_ok, Outcome.pure_eq_ok, Outcome.ok.injEq] at h
  obtain ⟨shape, hshape, found, hfound, axes, haxes, kept, hkept, expected, hexpected, foundCount,
    hfoundCount, expectedCount, hexpectedCount, _, hcount, input, hinput, output, houtput,
    inputShape, hinputShape, outputShape, houtputShape, rfl⟩ := h
  have hfoundCount := Shape.checkedElements_eq_ok hfoundCount
  have hexpectedCount := Shape.checkedElements_eq_ok hexpectedCount
  exact ⟨shape, found, axes, kept, expected, _, rfl,
    { shape_eq := hshape
      found_eq := hfound
      axes_eq := haxes
      kept_eq := hkept
      expected_eq := hexpected
      count_eq := by rw [← hfoundCount, hcount, hexpectedCount]
      input_eq := hinput
      output_eq := houtput
      inputShape_eq := hinputShape
      outputShape_eq := houtputShape
      reduction_eq := rfl
      initial_eq := rfl }⟩

/-- The rule for reductions is abandoned when it resolves the axes, or when it counts the elements
    of the output and those that it expects. -/
theorem Operator.Reduce.lower_eq_fault {op : Operator.Reduce} {context : Context} {t : Fault} :
    op.lower context = .fault t ↔
      ∃ shape found, context.shape op.input = .ok shape ∧ context.shape op.output = .ok found ∧
        (axisDimensions shape.rank op.axes = .fault t ∨
          ∃ axes expected, axisDimensions shape.rank op.axes = .ok axes ∧
            shape.reduced axes op.keepDims = .ok expected ∧
            (found.CountOverflows ∨ expected.CountOverflows) ∧ Fault.overflow .mul = t) := by
  simp only [lower, Outcome.bind_eq_fault, Context.shape_ne_fault, Outcome.require_ne_fault,
    Outcome.require_eq_ok, Outcome.mapError_eq_fault, Outcome.mapError_eq_ok,
    Outcome.ofExcept_ne_fault, Outcome.ofExcept_eq_ok, Outcome.liftM_eq,
    Outcome.ofChecked_eq_fault, Outcome.ofChecked_eq_ok, Context.range_ne_fault,
    shapeField_ne_fault, Outcome.pure_eq_ok, reduceCtorEq, and_false, exists_false, false_or,
    or_false]
  constructor
  · rintro ⟨shape, hshape, found, hfound, haxes | ⟨axes, haxes, kept, -, expected, hexpected,
      hcount⟩⟩
    · exact ⟨shape, found, hshape, hfound, .inl haxes⟩
    · refine ⟨shape, found, hshape, hfound, .inr ⟨axes, expected, haxes, hexpected, ?_⟩⟩
      rcases hcount with hcount | ⟨_, -, hcount⟩
      · obtain ⟨hcount, ht⟩ := Shape.checkedElements_eq_error.1 hcount
        exact ⟨.inl hcount, ht⟩
      · obtain ⟨hcount, ht⟩ := Shape.checkedElements_eq_error.1 hcount
        exact ⟨.inr hcount, ht⟩
  · rintro ⟨shape, found, hshape, hfound, haxes | ⟨axes, expected, haxes, hexpected, hcount, rfl⟩⟩
    · exact ⟨shape, hshape, found, hfound, .inl haxes⟩
    -- The shape with the dimensions kept is there whenever the other one is.
    obtain ⟨kept, hkept⟩ : ∃ kept, shape.reduced axes true = .ok kept := by
      rcases shape.reduced_error_or_ok axes with ⟨e, herror⟩ | hok
      · cases (herror op.keepDims).symm.trans hexpected
      · exact ⟨_, hok true⟩
    refine ⟨shape, hshape, found, hfound, .inr ⟨axes, haxes, kept, hkept, expected, hexpected, ?_⟩⟩
    rcases found.countOverflows_or_ok with hfoundCount | ⟨n, hn⟩
    · exact .inl (Shape.checkedElements_eq_error.2 ⟨hfoundCount, rfl⟩)
    · refine .inr ⟨n, hn, Shape.checkedElements_eq_error.2 ⟨hcount.resolve_left fun h => ?_, rfl⟩⟩
      cases (Shape.checkedElements_eq_error.2 ⟨h, rfl⟩).symm.trans hn

/-- The rule for softmax: the output has the shape of the input, which is split into rows. -/
def Operator.Softmax.lower (op : Operator.Softmax) (context : Context) :
    Outcome RuleError Record := do
  let shape ← context.shape op.input
  let found ← context.shape op.output
  Outcome.require (found = shape) (.incompatibleShapes (.output found .input shape))
  let bounds ← shape.rowLoop.mapError .ofShape
  let input ← context.range op.input
  let output ← context.range op.output
  let inner ← sizeField .input bounds.inner
  let outer ← sizeField .input bounds.outer
  return .softmax { input, output, inner, outer }

/-- What the rule finds, and what it makes of it, where it makes a record. -/
structure Operator.Softmax.Accepted (op : Operator.Softmax) (context : Context) (shape : Shape)
    (bounds : RowLoop) (record : Record.Softmax) : Prop where
  shape_eq : context.shape op.input = .ok shape
  found_eq : context.shape op.output = .ok shape
  bounds_eq : shape.rowLoop = .ok bounds
  input_eq : context.range? op.input = some record.input
  output_eq : context.range? op.output = some record.output
  inner_eq : record.inner.toNat = bounds.inner
  outer_eq : record.outer.toNat = bounds.outer

/-- Each record of a softmax is of an operator that the rule accepts. -/
theorem Operator.Softmax.exists_accepted_of_lower {op : Operator.Softmax} {context : Context}
    {r : Record} (h : op.lower context = .ok r) :
    ∃ shape bounds record, r = .softmax record ∧ op.Accepted context shape bounds record := by
  simp only [lower, Outcome.bind_eq_ok, Outcome.require_eq_ok, Outcome.mapError_eq_ok,
    Context.range_eq_ok, sizeField_eq_ok, Outcome.pure_eq_ok, Outcome.ok.injEq] at h
  obtain ⟨shape, hshape, found, hfound, _, rfl, bounds, hbounds, input, hinput, output, houtput,
    inner, hinner, outer, houter, rfl⟩ := h
  exact ⟨_, bounds, _, rfl,
    { shape_eq := hshape
      found_eq := hfound
      bounds_eq := hbounds
      input_eq := hinput
      output_eq := houtput
      inner_eq := hinner
      outer_eq := houter }⟩

/-- The rule for softmax is abandoned only when it counts the elements. -/
theorem Operator.Softmax.lower_eq_fault {op : Operator.Softmax} {context : Context} {t : Fault} :
    op.lower context = .fault t ↔
      ∃ shape, context.shape op.input = .ok shape ∧ context.shape op.output = .ok shape ∧
        shape.rowLoop = .fault t := by
  simp only [lower, Outcome.bind_eq_fault, Context.shape_ne_fault, Outcome.require_ne_fault,
    Outcome.require_eq_ok, Outcome.mapError_eq_fault, Context.range_ne_fault, sizeField_ne_fault,
    Outcome.pure_eq_ok, reduceCtorEq, and_false, exists_false, false_or, or_false]
  constructor
  · rintro ⟨shape, hshape, _, hfound, _, rfl, hrows⟩
    exact ⟨_, hshape, hfound, hrows⟩
  · rintro ⟨shape, hshape, hfound, hrows⟩
    exact ⟨shape, hshape, shape, hfound, (), rfl, hrows⟩

end TensorLowering
