import Mathlib.Data.List.Sort
import TensorLowering.Rule.Reduction

set_option autoImplicit false

/-! # Reductions over the same set of axes

The axes of a reduction are a list, but all that counts is which dimensions it names: their order,
repetitions and the spelling from the end make no difference, and neither does whether the output
keeps the reduced dimensions. Two reductions that differ in nothing else are lowered to the same
record, are refused for the same reason, or fault alike
(`Operator.Reduce.lower_depends_on_axis_set`). -/

namespace TensorLowering

/-! ## Lists of axes -/

/-- The axes of both lists are in range, and the two resolve to the same set of dimensions. -/
def ResolveAlike (rank : Nat) (axes axes' : List Int) : Prop :=
  ∃ dimensions dimensions', axisDimensions rank axes = .ok dimensions ∧
    axisDimensions rank axes' = .ok dimensions' ∧
    ∀ dimension, dimension ∈ dimensions ↔ dimension ∈ dimensions'

/-- Sets of dimensions have one list each, so that lists which resolve to the same set resolve to
    the same list. -/
theorem ResolveAlike.exists_dimensions {rank : Nat} {axes axes' : List Int}
    (h : ResolveAlike rank axes axes') :
    ∃ dimensions, axisDimensions rank axes = .ok dimensions ∧
      axisDimensions rank axes' = .ok dimensions := by
  obtain ⟨dimensions, dimensions', haxes, haxes', hmem⟩ := h
  have heq : dimensions = dimensions' :=
    (axisDimensions_pairwise haxes).eq_of_mem_iff (axisDimensions_pairwise haxes') hmem
  exact ⟨dimensions, haxes, heq ▸ haxes'⟩

/-- Lists of axes in `[-rank, rank)` resolve alike if each dimension that one of them names, from
    either end, is named by the other. -/
theorem resolveAlike_iff {rank : Nat} (hrank : rank < 0x8000000000000000) {axes axes' : List Int} :
    ResolveAlike rank axes axes' ↔
      (∀ axis ∈ axes ++ axes', -(rank : Int) ≤ axis ∧ axis < rank) ∧
      ∀ dimension < rank,
        (∃ axis ∈ axes, axis = dimension ∨ axis = (dimension : Int) - rank) ↔
          ∃ axis ∈ axes', axis = dimension ∨ axis = (dimension : Int) - rank := by
  simp only [List.forall_mem_append, ← exists_axisDimensions_eq_ok hrank]
  constructor
  · rintro ⟨dimensions, dimensions', haxes, haxes', hmem⟩
    refine ⟨⟨⟨_, haxes⟩, _, haxes'⟩, fun dimension hlt => ?_⟩
    have hsame := hmem dimension
    rw [mem_axisDimensions hrank haxes, mem_axisDimensions hrank haxes'] at hsame
    simpa [hlt] using hsame
  · rintro ⟨⟨⟨dimensions, haxes⟩, dimensions', haxes'⟩, hnames⟩
    refine ⟨dimensions, dimensions', haxes, haxes', fun dimension => ?_⟩
    rw [mem_axisDimensions hrank haxes, mem_axisDimensions hrank haxes']
    exact and_congr_right fun hlt => hnames dimension hlt

/-! ## Reductions -/

/-- Whether a reduction keeps the reduced dimensions makes no difference to the number of elements
    of its result, nor to whether they can be counted in words. -/
theorem Shape.reduced_keepDims (shape : Shape) (axes : List Nat) :
    (∃ e, ∀ keepDims, shape.reduced axes keepDims = .error e) ∨
      ∃ result : Bool → Shape, (∀ keepDims, shape.reduced axes keepDims = .ok (result keepDims)) ∧
        (∀ keepDims, (result keepDims).elements = (result true).elements) ∧
        ∀ keepDims, (result keepDims).checkedElements = (result true).checkedElements := by
  rcases shape.reduced_error_or_ok axes with herror | hok
  · exact .inl herror
  · refine .inr ⟨_, hok, fun keepDims => ?_, fun keepDims => ?_⟩
    · cases keepDims with
      | true => rfl
      | false => rw [elements_orUnit, elements_orUnit, elements_reduceFrom]
    · cases keepDims with
      | true => rfl
      | false => rw [checkedElements_orUnit, checkedElements_orUnit, checkedElements_reduceFrom]

namespace Operator.Reduce

variable {context : Context} {op : Operator.Reduce} {shape found : Shape} {dimensions : List Nat}

/-- What the rule does once both shapes are known and the axes are resolved: it compares two numbers
    of elements and makes a record, which always keeps the dimensions. -/
theorem lower_of_dimensions {result : Bool → Shape} (hinput : context.shape op.input = .ok shape)
    (hfound : context.shape op.output = .ok found)
    (haxes : axisDimensions shape.rank op.axes = .ok dimensions)
    (hreduced : ∀ keepDims, shape.reduced dimensions keepDims = .ok (result keepDims)) :
    op.lower context = (do
      let foundCount ← Outcome.ofChecked found.checkedElements
      let expectedCount ← Outcome.ofChecked (result op.keepDims).checkedElements
      Outcome.require (foundCount = expectedCount)
        (.incompatibleShapes (.output found .reduced (result op.keepDims)))
      let input ← context.range op.input
      let output ← context.range op.output
      let inputShape ← shapeField shape
      let outputShape ← shapeField (result true)
      return .reduce
        { input, output, reduction := op.reduction, inputShape, outputShape,
          initial := op.initial }) := by
  simp only [lower, hinput, hfound, haxes, hreduced, Outcome.ok_bind, Outcome.mapError_ok,
    Outcome.ofExcept_ok, Outcome.liftM_eq]

/-- Reductions that resolve to the same dimensions end alike, except that where the output has the
    wrong number of elements each is told the shape that it expects. -/
theorem lower_congr_axes {axes : List Int} (keepDims : Bool)
    (hsame : ∀ shape, context.shape op.input = .ok shape → ResolveAlike shape.rank op.axes axes) :
    op.lower context = { op with axes, keepDims }.lower context ∨
      ∃ found expected expected',
        op.lower context = .error (.incompatibleShapes (.output found .reduced expected)) ∧
        { op with axes, keepDims }.lower context =
          .error (.incompatibleShapes (.output found .reduced expected')) := by
  cases hinput : context.shape op.input with
  | error e => exact .inl (by simp [lower, hinput])
  | fault t => exact .inl (by simp [lower, hinput])
  | ok shape =>
      obtain ⟨dimensions, haxes, haxes'⟩ := (hsame shape hinput).exists_dimensions
      cases hfound : context.shape op.output with
      | error e => exact .inl (by simp [lower, hinput, hfound])
      | fault t => exact .inl (by simp [lower, hinput, hfound])
      | ok found =>
          rcases shape.reduced_keepDims dimensions with ⟨e, herror⟩ | ⟨result, hok, -, hcount⟩
          · exact .inl (by simp [lower, hinput, hfound, haxes, haxes', herror])
          · have heq := lower_of_dimensions hinput hfound haxes hok
            have heq' : { op with axes, keepDims }.lower context = _ :=
              lower_of_dimensions hinput hfound haxes' hok
            -- Both count the same; only the shape in the message is each one's own.
            rw [hcount] at heq heq'
            rw [heq, heq']
            cases found.checkedElements with
            | error t => exact .inl rfl
            | ok foundCount =>
                cases (result true).checkedElements with
                | error t => exact .inl rfl
                | ok expectedCount =>
                    by_cases hequal : foundCount = expectedCount
                    · exact .inl (by simp [Outcome.require, hequal])
                    · exact .inr ⟨found, result op.keepDims, result keepDims,
                        by simp [Outcome.require, hequal], by simp [Outcome.require, hequal]⟩

/-- **A reduction depends on the set of its axes only.** Two reductions of the same values that
    resolve to the same set of dimensions are lowered to the same record, end in the same error, or
    fault alike, whether either of them keeps the reduced dimensions or not. In one error their
    details differ: where the output has another number of elements than the reduced shape, each is
    told its own reduced shape. Resolving to the same set means to name the same dimensions, with
    any order, repetitions and spellings. With the dimensions kept or dropped, reduced shapes have
    the same number of elements, and counting them in words gives the same number or faults in
    both. -/
theorem lower_depends_on_axis_set (graph : Graph) (oracle : Oracle) (op : Operator.Reduce)
    (axes : List Int) (keepDims : Bool)
    (hsame : ∀ input, graph.value? op.input = some input →
      ResolveAlike input.shape.rank op.axes axes) :
    let other : Operator.Reduce := { op with axes, keepDims }
    (op.lower (graph.context oracle) = other.lower (graph.context oracle) ∨
      ∃ found expected expected',
        op.lower (graph.context oracle) =
          .error (.incompatibleShapes (.output found .reduced expected)) ∧
        other.lower (graph.context oracle) =
          .error (.incompatibleShapes (.output found .reduced expected'))) ∧
    (∀ rank < 0x8000000000000000, ∀ first second : List Int, ResolveAlike rank first second ↔
      (∀ axis ∈ first ++ second, -(rank : Int) ≤ axis ∧ axis < rank) ∧
      ∀ dimension < rank,
        (∃ axis ∈ first, axis = dimension ∨ axis = (dimension : Int) - rank) ↔
          ∃ axis ∈ second, axis = dimension ∨ axis = (dimension : Int) - rank) ∧
    ∀ (shape : Shape) (dimensions : List Nat),
      (∃ e, ∀ keepDims, shape.reduced dimensions keepDims = .error e) ∨
        ∃ kept dropped, shape.reduced dimensions true = .ok kept ∧
          shape.reduced dimensions false = .ok dropped ∧
          kept.elements = dropped.elements ∧ kept.checkedElements = dropped.checkedElements := by
  intro other
  refine ⟨lower_congr_axes keepDims fun shape hshape => ?_,
    fun rank hrank first second => resolveAlike_iff hrank, fun shape dimensions => ?_⟩
  · obtain ⟨input, hinput, rfl⟩ := Context.shape_eq_ok.1 hshape
    exact hsame input hinput
  · rcases shape.reduced_keepDims dimensions with herror | ⟨result, hok, helements, hcount⟩
    · exact .inl herror
    · exact .inr ⟨result true, result false, hok true, hok false, (helements false).symm,
        (hcount false).symm⟩

/-- A graph with two rows of three entries, and a value for each row. -/
def rowTotalsGraph : Graph where
  values := #[{ name := none, shape := [2, 3], elementType := .float32 },
    { name := none, shape := [2], elementType := .float32 }]
  nodes := #[]

/-- The sum of each row, which names its axis from the end, from the start and once more. -/
def rowTotals : Operator.Reduce where
  input := 0
  output := 1
  reduction := .sum
  axes := [-1, 1, -1]
  keepDims := false
  initial := .zero

/-- Naming the axis once and keeping it makes the same record. -/
theorem lower_depends_on_axis_set_rows :
    let oracle : Oracle := fun value =>
      some { region := .data, start := .ofNat (24 * value.index), size := 24 }
    let other : Operator.Reduce := { rowTotals with axes := [1], keepDims := true }
    ResolveAlike 2 [-1, 1, -1] [1] ∧
      ∃ record, rowTotals.lower (rowTotalsGraph.context oracle) = .ok (.reduce record) ∧
        record.outputShape.dims = [1, 1, 2, 1] ∧
        other.lower (rowTotalsGraph.context oracle) = .ok (.reduce record) := by
  intro oracle other
  have hsame : ResolveAlike 2 [-1, 1, -1] [1] := ⟨[1], [1], rfl, rfl, fun _ => Iff.rfl⟩
  have hlower : rowTotals.lower (rowTotalsGraph.context oracle) = .ok (.reduce
      { input := ⟨.data, 0, 24⟩, output := ⟨.data, 24, 24⟩, reduction := .sum
        inputShape := .ofList [1, 1, 2, 3], outputShape := .ofList [1, 1, 2, 1]
        initial := .zero }) := by
    have hinput : (rowTotalsGraph.context oracle).shape rowTotals.input = .ok [2, 3] := rfl
    have hfound : (rowTotalsGraph.context oracle).shape rowTotals.output = .ok [2] := rfl
    have haxes : axisDimensions 2 rowTotals.axes = .ok [1] := rfl
    exact (lower_of_dimensions hinput hfound haxes fun _ => rfl).trans rfl
  obtain ⟨halike, -, -⟩ := lower_depends_on_axis_set rowTotalsGraph oracle rowTotals [1] true
    fun input hinput => by cases hinput; exact hsame
  refine ⟨hsame, _, hlower, by decide, ?_⟩
  rcases halike with heq | ⟨_, _, _, herror, -⟩
  · exact heq.symm.trans hlower
  · cases hlower.symm.trans herror

end Operator.Reduce

end TensorLowering
