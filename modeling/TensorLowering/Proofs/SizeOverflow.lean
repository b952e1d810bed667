import Mathlib.Algebra.Group.Action.Defs
import Mathlib.Algebra.Order.BigOperators.Group.List
import Mathlib.Algebra.Order.Ring.Nat
import TensorLowering.Rule.Rearrange
import TensorLowering.Rule.Reduction

set_option autoImplicit false

/-! # Sizes that overflow

The loop bounds of a concatenation are checked products: one without a word is an error. Softmax and
reductions multiply the dimensions of a shape in words, and a concatenation adds up the sizes of its
inputs, without looking whether the result has a word; the check of the record field comes later.
These sums and products are what can abandon the three rules (`lower_faults_iff_size_overflows`).
Since a product is taken from the left, the leading dimensions alone can be too many even where a
later one is zero. -/

namespace TensorLowering

/-! ## Sizes without a word -/

/-- Softmax counts the elements of a shape that it shares with its output, and there are too
    many. -/
structure Operator.Softmax.Overflows (op : Operator.Softmax) (graph : Graph) (shape : Shape) :
    Prop where
  input_shape : (graph.value? op.input).map Value.shape = some shape
  output_shape : (graph.value? op.output).map Value.shape = some shape
  ne_nil : shape ≠ []
  ne_zero : ∀ dimension ∈ shape, dimension ≠ 0
  elements : Word.size ≤ shape.elements

/-- A reduction resolves its axes at a rank that is no signed word, or counts the elements of its
    output and of the shape that it expects there, and either has too many. -/
structure Operator.Reduce.Overflows (op : Operator.Reduce) (graph : Graph) (shape found : Shape) :
    Prop where
  input_shape : (graph.value? op.input).map Value.shape = some shape
  output_shape : (graph.value? op.output).map Value.shape = some found
  overflows : (axisDimensions shape.rank op.axes).Faults ∨
    ∃ axes expected, axisDimensions shape.rank op.axes = .ok axes ∧
      shape.reduced axes op.keepDims = .ok expected ∧
      (found.CountOverflows ∨ expected.CountOverflows)

/-- A concatenation resolves its axis at a rank that is no signed word, or adds up the sizes of
    inputs that agree with the output, and the sum is too large. -/
structure Operator.Concat.Overflows (op : Operator.Concat) (graph : Graph) (whole : Shape) :
    Prop where
  inputs_ne_nil : op.inputs ≠ []
  output_shape : (graph.value? op.output).map Value.shape = some whole
  overflows : (axisDimension whole.rank op.axis).Faults ∨
    ∃ (axis : Nat) (parts : List Value), axisDimension whole.rank op.axis = .ok axis ∧
      op.inputs.map graph.value? = parts.map some ∧
      (∀ part ∈ parts, part.shape.agreesOutside axis whole = true) ∧
      Word.size ≤ (parts.map fun part => part.shape.getD axis 0).foldr (· + ·) 0

/-! ## The three rules -/

section

variable {graph : Graph} {oracle : Oracle}

theorem Operator.Softmax.faults_lower_iff (op : Operator.Softmax) :
    (op.lower (graph.context oracle)).Faults ↔ ∃ shape, op.Overflows graph shape := by
  constructor
  · rintro ⟨t, h⟩
    obtain ⟨shape, hshape, hfound, hrows⟩ := lower_eq_fault.1 h
    obtain ⟨hnil, hzero, helements, -⟩ := Shape.rowLoop_eq_fault.1 hrows
    exact ⟨shape, Context.shape_eq_ok_iff_map.1 hshape, Context.shape_eq_ok_iff_map.1 hfound, hnil,
      hzero, helements⟩
  · rintro ⟨shape, hshape, hfound, hnil, hzero, helements⟩
    exact ⟨_, lower_eq_fault.2 ⟨shape, Context.shape_eq_ok_iff_map.2 hshape,
      Context.shape_eq_ok_iff_map.2 hfound,
      Shape.rowLoop_eq_fault.2 ⟨hnil, hzero, helements, rfl⟩⟩⟩

theorem Operator.Reduce.faults_lower_iff (op : Operator.Reduce) :
    (op.lower (graph.context oracle)).Faults ↔ ∃ shape found, op.Overflows graph shape found := by
  constructor
  · rintro ⟨t, h⟩
    obtain ⟨shape, found, hshape, hfound, hrest⟩ := lower_eq_fault.1 h
    refine ⟨shape, found, Context.shape_eq_ok_iff_map.1 hshape,
      Context.shape_eq_ok_iff_map.1 hfound, ?_⟩
    rcases hrest with haxes | ⟨axes, expected, haxes, hexpected, hcount, -⟩
    · exact .inl ⟨t, haxes⟩
    · exact .inr ⟨axes, expected, haxes, hexpected, hcount⟩
  · rintro ⟨shape, found, hshape, hfound, hrest⟩
    have hshape : (graph.context oracle).shape op.input = .ok shape :=
      Context.shape_eq_ok_iff_map.2 hshape
    have hfound : (graph.context oracle).shape op.output = .ok found :=
      Context.shape_eq_ok_iff_map.2 hfound
    rcases hrest with ⟨t, haxes⟩ | ⟨axes, expected, haxes, hexpected, hcount⟩
    · exact ⟨t, lower_eq_fault.2 ⟨shape, found, hshape, hfound, .inl haxes⟩⟩
    · exact ⟨_, lower_eq_fault.2
        ⟨shape, found, hshape, hfound, .inr ⟨axes, expected, haxes, hexpected, hcount, rfl⟩⟩⟩

/-- The sizes of inputs that are known and agree with the output are found. -/
theorem mapM_concatSize_of_agrees {context : Context} {whole : Shape} {axis : Nat}
    {ids : List ValueId} {parts : List Value} (haxis : axis < whole.rank)
    (hparts : ids.map context.value? = parts.map some)
    (hagrees : ∀ part ∈ parts, part.shape.agreesOutside axis whole = true) :
    ids.mapM (concatSize context whole axis) =
      .ok (parts.map fun part => part.shape.getD axis 0) := by
  induction ids generalizing parts with
  | nil =>
      cases parts with
      | nil => rfl
      | cons part parts => cases hparts
  | cons id ids ih =>
      cases parts with
      | nil => cases hparts
      | cons part parts =>
          rw [List.map_cons, List.map_cons, List.cons.injEq] at hparts
          obtain ⟨hagree, hrest⟩ := List.forall_mem_cons.1 hagrees
          have hlt : axis < part.shape.length := by
            rwa [(Shape.agreesOutside_eq_true.1 hagree).1]
          have hentry : Word.entry part.shape axis = .ok (part.shape.getD axis 0) := by
            rw [Word.entry_eq_ok, List.getD_eq_getElem?_getD, List.getElem?_eq_getElem hlt]
            rfl
          have hsize : concatSize context whole axis id = .ok (part.shape.getD axis 0) := by
            simp only [concatSize, Outcome.bind_eq_ok, Context.shape_eq_ok, Outcome.require_eq_ok,
              Outcome.liftM_eq, Outcome.ofChecked_eq_ok]
            exact ⟨_, ⟨part, hparts.1, rfl⟩, (), hagree, hentry⟩
          rw [List.mapM_cons, hsize, Outcome.ok_bind, ih hparts.2 hrest]
          rfl

theorem Operator.Concat.faults_lower_iff (op : Operator.Concat) :
    (op.lower (graph.context oracle)).Faults ↔ ∃ whole, op.Overflows graph whole := by
  constructor
  · rintro ⟨t, h⟩
    obtain ⟨hinputs, whole, hwhole, hrest⟩ := lower_eq_fault.1 h
    have houtput : (graph.value? op.output).map Value.shape = some whole.shape :=
      Option.map_eq_some_iff.2 ⟨whole, hwhole, rfl⟩
    refine ⟨whole.shape, hinputs, houtput, ?_⟩
    rcases hrest with haxis | ⟨axis, sizes, haxis, hsizes, htotal, -⟩
    · exact .inl ⟨t, haxis⟩
    · obtain ⟨parts, hparts, hagrees, -⟩ := exists_parts_of_mapM_concatSize hsizes
      have hsame := mapM_concatSize_of_agrees (lt_of_axisDimension_eq_ok haxis) hparts hagrees
      cases hsizes.symm.trans hsame
      exact .inr ⟨axis, parts, haxis, hparts, hagrees, htotal⟩
  · rintro ⟨_, hinputs, houtput, hrest⟩
    obtain ⟨whole, hwhole, rfl⟩ := Option.map_eq_some_iff.1 houtput
    rcases hrest with ⟨t, haxis⟩ | ⟨axis, parts, haxis, hparts, hagrees, htotal⟩
    · exact ⟨t, lower_eq_fault.2 ⟨hinputs, whole, hwhole, .inl haxis⟩⟩
    · exact ⟨_, lower_eq_fault.2 ⟨hinputs, whole, hwhole, .inr ⟨axis, _, haxis,
        mapM_concatSize_of_agrees (lt_of_axisDimension_eq_ok haxis) hparts hagrees, htotal, rfl⟩⟩⟩

end

/-! ## Faults are overflows -/

theorem Operator.Softmax.faultsAre_lower (op : Operator.Softmax) (context : Context) :
    (op.lower context).FaultsAre Fault.IsOverflow := by
  intro t h
  obtain ⟨shape, -, -, hrows⟩ := lower_eq_fault.1 h
  obtain ⟨-, -, -, rfl⟩ := Shape.rowLoop_eq_fault.1 hrows
  exact ⟨_, rfl⟩

theorem Operator.Reduce.faultsAre_lower (op : Operator.Reduce) (context : Context) :
    (op.lower context).FaultsAre Fault.IsOverflow := by
  intro t h
  obtain ⟨shape, found, -, -, haxes | ⟨_, _, -, -, -, rfl⟩⟩ := lower_eq_fault.1 h
  · obtain ⟨-, rfl⟩ := axisDimensions_eq_fault haxes
    exact ⟨_, rfl⟩
  · exact ⟨_, rfl⟩

theorem Operator.Concat.faultsAre_lower (op : Operator.Concat) (context : Context) :
    (op.lower context).FaultsAre Fault.IsOverflow := by
  intro t h
  obtain ⟨-, whole, -, haxis | ⟨_, _, -, -, -, rfl⟩⟩ := lower_eq_fault.1 h
  · obtain ⟨-, rfl⟩ := axisDimension_eq_fault.1 haxis
    exact ⟨_, rfl⟩
  · exact ⟨_, rfl⟩

/-! ## What is accepted has sizes that fit -/

section

variable {graph : Graph} {oracle : Oracle} {shape : Shape} {r : Record}

theorem Operator.Softmax.elements_lt_of_lower {op : Operator.Softmax}
    (hshape : (graph.value? op.input).map Value.shape = some shape)
    (h : op.lower (graph.context oracle) = .ok r) : shape.elements < Word.size := by
  obtain ⟨input, bounds, record, -, haccepted⟩ := op.exists_accepted_of_lower h
  cases (Context.shape_eq_ok_iff_map.1 haccepted.shape_eq).symm.trans hshape
  obtain ⟨-, -, -, hlt, -⟩ := Shape.rowLoop_eq_ok_iff.1 haccepted.bounds_eq
  exact hlt

theorem Operator.Reduce.elements_lt_of_lower {op : Operator.Reduce}
    (hshape : (graph.value? op.output).map Value.shape = some shape)
    (h : op.lower (graph.context oracle) = .ok r) : shape.elements < Word.size := by
  obtain ⟨input, found, axes, kept, expected, record, -, haccepted⟩ :=
    op.exists_accepted_of_lower h
  cases (Context.shape_eq_ok_iff_map.1 haccepted.found_eq).symm.trans hshape
  refine Nat.not_le.1 fun hle => ?_
  have hcount : shape.CountOverflows := ⟨shape.length, by rwa [List.take_length]⟩
  cases h.symm.trans (lower_eq_fault.2 ⟨input, shape, haccepted.shape_eq, haccepted.found_eq,
    .inr ⟨axes, expected, haccepted.axes_eq, haccepted.expected_eq, .inl hcount, rfl⟩⟩)

theorem Operator.Concat.bounds_lt_of_lower {op : Operator.Concat} {whole : Value} {axis : Nat}
    (hwhole : graph.value? op.output = some whole)
    (haxis : axisDimension whole.shape.rank op.axis = .ok axis)
    (h : op.lower (graph.context oracle) = .ok r) :
    whole.elementType.size * Shape.elements (whole.shape.drop (axis + 1)) < Word.size ∧
      Shape.elements (whole.shape.take axis) < Word.size := by
  obtain ⟨value, dimension, parts, record, -, haccepted⟩ := op.exists_accepted_of_lower h
  cases haccepted.whole_eq.symm.trans hwhole
  cases haccepted.axis_eq.symm.trans haxis
  obtain ⟨-, hinner, houter⟩ := Shape.chunkLoop_eq_ok haccepted.bounds_eq
  rw [← hinner, ← houter]
  exact ⟨record.inner.toNat_lt, record.outer.toNat_lt⟩

end

/-- As many inputs as there are words of 32 bits do not add up to more than a word of 64 bits. -/
theorem Operator.Concat.sum_lt {graph : Graph} {ids : List ValueId} {parts : List Value}
    {axis : Nat} (hfit : graph.DimensionsFit)
    (hlength : ids.length ≤ UInt32.size) (hparts : ids.map graph.value? = parts.map some) :
    (parts.map fun part => part.shape.getD axis 0).foldr (· + ·) 0 < Word.size := by
  have hsize : ∀ size ∈ parts.map fun part => part.shape.getD axis 0, size ≤ UInt32.size - 1 := by
    rintro _ hsize
    obtain ⟨part, hpart, rfl⟩ := List.mem_map.1 hsize
    have hknown : some part ∈ ids.map graph.value? := by
      rw [hparts]
      exact List.mem_map_of_mem hpart
    obtain ⟨id, -, hvalue⟩ := List.mem_map.1 hknown
    rw [List.getD_eq_getElem?_getD]
    cases hentry : part.shape[axis]? with
    | none => exact Nat.zero_le _
    | some size =>
        exact Nat.le_sub_one_of_lt
          (hfit part (Array.mem_of_getElem? hvalue) size (List.mem_of_getElem? hentry))
  have hsum := List.sum_le_card_nsmul _ _ hsize
  have hcount : ids.length = parts.length := by
    simpa using congrArg List.length hparts
  rw [List.sum_eq_foldr, List.length_map, smul_eq_mul, ← hcount] at hsum
  calc _ ≤ ids.length * (UInt32.size - 1) := hsum
    _ ≤ UInt32.size * (UInt32.size - 1) := Nat.mul_le_mul_right _ hlength
    _ < Word.size := by decide

/-- **Softmax, reductions and concatenations are abandoned only where a size has no word.** Lowering
    one of them ends in a record or an error unless one of the counts or sums above has no word, and
    then it faults; no fault is a division by zero. For a sum of sizes that fit fields to have no
    word, a concatenation needs more inputs than there are words of 32 bits. Resolving axes is not
    abandoned at any rank that a list in memory has. What is accepted has sizes that fit: the
    elements of the input of a softmax and of the output of a reduction, and the loops of a
    concatenation. -/
theorem lower_faults_iff_size_overflows (graph : Graph) (oracle : Oracle) :
    (∀ op : Operator.Softmax,
      ((op.lower (graph.context oracle)).Faults ↔ ∃ shape, op.Overflows graph shape) ∧
      (op.lower (graph.context oracle)).FaultsAre Fault.IsOverflow ∧
      ∀ shape r, (graph.value? op.input).map Value.shape = some shape →
        op.lower (graph.context oracle) = .ok r → shape.elements < Word.size) ∧
    (∀ op : Operator.Reduce,
      ((op.lower (graph.context oracle)).Faults ↔ ∃ shape found, op.Overflows graph shape found) ∧
      (op.lower (graph.context oracle)).FaultsAre Fault.IsOverflow ∧
      ∀ found r, (graph.value? op.output).map Value.shape = some found →
        op.lower (graph.context oracle) = .ok r → found.elements < Word.size) ∧
    (∀ op : Operator.Concat,
      ((op.lower (graph.context oracle)).Faults ↔ ∃ whole, op.Overflows graph whole) ∧
      (op.lower (graph.context oracle)).FaultsAre Fault.IsOverflow ∧
      (graph.DimensionsFit → op.inputs.length ≤ UInt32.size → ∀ whole,
        whole.rank < 0x8000000000000000 → ¬op.Overflows graph whole) ∧
      ∀ whole axis r, graph.value? op.output = some whole →
        axisDimension whole.shape.rank op.axis = .ok axis →
        op.lower (graph.context oracle) = .ok r →
        whole.elementType.size * Shape.elements (whole.shape.drop (axis + 1)) < Word.size ∧
          Shape.elements (whole.shape.take axis) < Word.size) ∧
    ∀ rank < 0x8000000000000000, (∀ axis, ¬(axisDimension rank axis).Faults) ∧
      ∀ axes, ¬(axisDimensions rank axes).Faults := by
  refine ⟨fun op => ?_, fun op => ?_, fun op => ?_,
    fun rank hrank => ⟨fun axis => ?_, fun axes => ?_⟩⟩
  · exact ⟨op.faults_lower_iff, op.faultsAre_lower _, fun _ _ => op.elements_lt_of_lower⟩
  · exact ⟨op.faults_lower_iff, op.faultsAre_lower _, fun _ _ => op.elements_lt_of_lower⟩
  · refine ⟨op.faults_lower_iff, op.faultsAre_lower _, fun hfit hlength whole hrank h => ?_,
      fun _ _ _ => op.bounds_lt_of_lower⟩
    rcases h.overflows with haxis | ⟨axis, parts, -, hparts, -, htotal⟩
    · exact not_faults_axisDimension hrank op.axis haxis
    · exact absurd htotal (Nat.not_le.2 (Operator.Concat.sum_lt hfit hlength hparts))
  · exact not_faults_axisDimension hrank axis
  · exact not_faults_axisDimensions hrank axes

/-- A graph with values of the largest dimensions that fit: a square, a cube, and a row of cubes
    that is empty. -/
def cubesGraph : Graph where
  values := #[{ name := none, shape := [0xFFFFFFFF, 0xFFFFFFFF], elementType := .float32 },
    { name := none, shape := [0xFFFFFFFF, 0xFFFFFFFF, 0xFFFFFFFF], elementType := .float32 },
    { name := none, shape := [0xFFFFFFFF, 0xFFFFFFFF, 0xFFFFFFFF, 0], elementType := .float32 }]
  nodes := #[]

/-- The sum of the elements of a value over no axis. -/
def emptySum (value : ValueId) : Operator.Reduce where
  input := value
  output := value
  reduction := .sum
  axes := []
  keepDims := true
  initial := .zero

/-- The elements of a square can be counted and those of a cube cannot, and a reduction does not see
    that the row of cubes is empty. A concatenation of one value is accepted. -/
theorem lower_faults_iff_size_overflows_cubes :
    let oracle : Oracle := fun _ => some { region := .data, start := 0, size := 0xFFFFFFFF }
    let context := cubesGraph.context oracle
    cubesGraph.DimensionsFit ∧
      Shape.elements [0xFFFFFFFF, 0xFFFFFFFF] < Word.size ∧
      (Operator.Softmax.lower { input := 1, output := 1 } context).Faults ∧
      ((emptySum 2).lower context).Faults ∧
      ¬(Operator.Concat.lower { inputs := [0], output := 0, axis := -1 } context).Faults := by
  intro oracle context
  have hfit : cubesGraph.DimensionsFit := by decide
  obtain ⟨hsoftmax, hreduce, hconcat, -⟩ := lower_faults_iff_size_overflows cubesGraph oracle
  obtain ⟨-, -, hsquare⟩ := hsoftmax { input := 0, output := 0 }
  obtain ⟨hcube, -, -⟩ := hsoftmax { input := 1, output := 1 }
  obtain ⟨hrow, -, -⟩ := hreduce (emptySum 2)
  obtain ⟨hsingle, -, hsum, -⟩ := hconcat { inputs := [0], output := 0, axis := -1 }
  refine ⟨hfit, hsquare _ _ rfl rfl, hcube.2 ⟨[0xFFFFFFFF, 0xFFFFFFFF, 0xFFFFFFFF], ?_⟩,
    hrow.2 ⟨[0xFFFFFFFF, 0xFFFFFFFF, 0xFFFFFFFF, 0], [0xFFFFFFFF, 0xFFFFFFFF, 0xFFFFFFFF, 0], ?_⟩,
    fun hfault => ?_⟩
  · exact
      { input_shape := rfl
        output_shape := rfl
        ne_nil := by decide
        ne_zero := by decide
        elements := by decide }
  · exact
      { input_shape := rfl
        output_shape := rfl
        overflows := .inr ⟨[], _, rfl, rfl, .inl ⟨3, by decide⟩⟩ }
  · obtain ⟨whole, hoverflows⟩ := hsingle.1 hfault
    cases hoverflows.output_shape
    exact hsum hfit (by decide) _ (by decide) hoverflows

/-- A shape with too many elements is no error of a softmax or of a reduction; counting them
    abandons the lowering. -/
theorem lower_abandoned_at_count :
    let oracle : Oracle := fun _ => some { region := .data, start := 0, size := 0xFFFFFFFF }
    cubesGraph.DimensionsFit ∧
      Operator.Softmax.lower { input := 1, output := 1 } (cubesGraph.context oracle) =
        .fault (.overflow .mul) ∧
      (emptySum 2).lower (cubesGraph.context oracle) = .fault (.overflow .mul) := by
  intro oracle
  exact ⟨by decide, rfl, rfl⟩

end TensorLowering
