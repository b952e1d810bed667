import TensorLowering.Rule.Field

set_option autoImplicit false

/-! # The rule for matrix products -/

namespace TensorLowering

/-- The dimensions of a matrix. -/
structure MatrixShape where
  rows : Nat
  columns : Nat
deriving DecidableEq, Repr

/-- The dimensions of a value that has to be a matrix. -/
def Context.matrix (context : Context) (id : ValueId) : Outcome RuleError MatrixShape := do
  match ← context.shape id with
  | [rows, columns] => return { rows, columns }
  | shape => throw (.incompatibleShapes (.notMatrix id shape))

theorem Context.matrix_eq_ok {context : Context} {id : ValueId} {matrix : MatrixShape} :
    context.matrix id = .ok matrix ↔ context.shape id = .ok [matrix.rows, matrix.columns] := by
  unfold Context.matrix
  simp only [Outcome.bind_eq_ok]
  constructor
  · rintro ⟨shape, hshape, h⟩
    split at h
    · cases h; exact hshape
    · cases h
  · intro h
    exact ⟨_, h, rfl⟩

/-- The rule for matrix products: the columns of the first matrix are the rows of the second, and
    the bias has a value per column of the result. -/
def Operator.MatMul.lower (op : Operator.MatMul) (context : Context) :
    Outcome RuleError Record := do
  let a ← context.matrix op.a
  let b ← context.matrix op.b
  Outcome.require (a.columns = b.rows) (.incompatibleShapes (.innerSizes a.columns b.rows))
  Outcome.require (op.bias.size = b.columns)
    (.invalidAttribute .bias (.valueCount b.columns op.bias.size))
  let found ← context.shape op.output
  Outcome.require (found = [a.rows, b.columns])
    (.incompatibleShapes (.output found .computed [a.rows, b.columns]))
  let inputA ← context.range op.a
  let inputB ← context.range op.b
  let output ← context.range op.output
  let rowsA ← sizeField .a a.rows
  let columnsA ← sizeField .a a.columns
  let columnsB ← sizeField .b b.columns
  let activation ← activationField op.activation
  return .matMul { inputA, inputB, output, rowsA, columnsA, columnsB, activation, bias := op.bias }

/-- What the rule finds, and what it makes of it, where it makes a record. -/
structure Operator.MatMul.Accepted (op : Operator.MatMul) (context : Context) (a b : MatrixShape)
    (record : Record.MatMul) : Prop where
  a_eq : context.shape op.a = .ok [a.rows, a.columns]
  b_eq : context.shape op.b = .ok [b.rows, b.columns]
  inner_eq : a.columns = b.rows
  bias_size : op.bias.size = b.columns
  found_eq : context.shape op.output = .ok [a.rows, b.columns]
  inputA_eq : context.range? op.a = some record.inputA
  inputB_eq : context.range? op.b = some record.inputB
  output_eq : context.range? op.output = some record.output
  rowsA_eq : record.rowsA.toNat = a.rows
  columnsA_eq : record.columnsA.toNat = a.columns
  columnsB_eq : record.columnsB.toNat = b.columns
  activation_eq : record.activation = op.activation
  bias_eq : record.bias = op.bias

/-- Each record of a matrix product is of an operator that the rule accepts. -/
theorem Operator.MatMul.exists_accepted_of_lower {op : Operator.MatMul} {context : Context}
    {r : Record} (h : op.lower context = .ok r) :
    ∃ a b record, r = .matMul record ∧ op.Accepted context a b record := by
  simp only [lower, Outcome.bind_eq_ok, Context.matrix_eq_ok, Outcome.require_eq_ok,
    Context.range_eq_ok, sizeField_eq_ok, Outcome.pure_eq_ok, Outcome.ok.injEq] at h
  obtain ⟨a, ha, b, hb, _, hinner, _, hbias, found, hfound, _, rfl, inputA, hinputA, inputB,
    hinputB, output, houtput, rowsA, hrowsA, columnsA, hcolumnsA, columnsB, hcolumnsB, activation,
    hactivation, rfl⟩ := h
  exact ⟨a, b, _, rfl,
    { a_eq := ha
      b_eq := hb
      inner_eq := hinner
      bias_size := hbias
      found_eq := hfound
      inputA_eq := hinputA
      inputB_eq := hinputB
      output_eq := houtput
      rowsA_eq := hrowsA
      columnsA_eq := hcolumnsA
      columnsB_eq := hcolumnsB
      activation_eq := activationField_eq_ok hactivation
      bias_eq := rfl }⟩

end TensorLowering
