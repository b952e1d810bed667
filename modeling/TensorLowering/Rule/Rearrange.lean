import TensorLowering.Rule.Field
import TensorLowering.Shape.Axis
import TensorLowering.Shape.Loop

set_option autoImplicit false

/-! # Rules for operators that move elements

Concatenation and reordering of axes compute nothing; their records say which bytes go where. -/

namespace TensorLowering

/-! ## Concatenation -/

/-- Whether two shapes have the same dimensions on all axes but one. -/
def Shape.agreesOutside (axis : Nat) (a b : Shape) : Bool :=
  a.length == b.length && (a.zip b).zipIdx.all fun (sizes, i) => i == axis || sizes.1 == sizes.2

/-- Shapes that agree outside an axis have the same dimensions on every other axis. -/
theorem Shape.agreesOutside_eq_true {axis : Nat} {a b : Shape} :
    a.agreesOutside axis b = true ↔
      a.length = b.length ∧ ∀ i, i ≠ axis → a[i]? = b[i]? := by
  unfold Shape.agreesOutside
  rw [Bool.and_eq_true, beq_iff_eq, List.all_eq_true]
  refine and_congr_right fun hlength => ?_
  constructor
  · intro h i hi
    by_cases hlt : i < a.length
    · have hltb : i < b.length := by rwa [← hlength]
      have hmem : ((a[i], b[i]), i) ∈ (a.zip b).zipIdx := by
        rw [List.mem_zipIdx_iff_getElem?, List.getElem?_zip_eq_some]
        exact ⟨List.getElem?_eq_getElem hlt, List.getElem?_eq_getElem hltb⟩
      have := h _ hmem
      rw [List.getElem?_eq_getElem hlt, List.getElem?_eq_getElem hltb]
      simpa [hi] using this
    · rw [List.getElem?_eq_none (by omega), List.getElem?_eq_none (by omega)]
  · rintro h ⟨⟨d, e⟩, i⟩ hmem
    rw [List.mem_zipIdx_iff_getElem?, List.getElem?_zip_eq_some] at hmem
    by_cases hi : i = axis
    · simp [hi]
    · have := h i hi
      rw [hmem.1, hmem.2] at this
      simpa [hi] using this

/-- A shape that agrees with another outside an axis has its own dimension there, between the same
    ones. -/
theorem Shape.eq_middle_of_agreesOutside {part outer inner : Shape} {axis total size : Nat}
    (haxis : outer.length = axis) (h : part.agreesOutside axis (outer ++ total :: inner) = true)
    (hsize : part[axis]? = some size) : part = outer ++ size :: inner := by
  subst haxis
  obtain ⟨hlength, hother⟩ := Shape.agreesOutside_eq_true.1 h
  refine List.ext_getElem? fun i => ?_
  by_cases hi : i = outer.length
  · rw [hi, hsize]
    simp
  · rw [hother i hi]
    rcases Nat.lt_or_gt_of_ne hi with hlt | hgt
    · rw [List.getElem?_append_left hlt, List.getElem?_append_left hlt]
    · rw [List.getElem?_append_right (Nat.le_of_lt hgt),
        List.getElem?_append_right (Nat.le_of_lt hgt)]
      obtain ⟨k, hk⟩ : ∃ k, i - outer.length = k + 1 := ⟨i - outer.length - 1, by omega⟩
      rw [hk, List.getElem?_cons_succ, List.getElem?_cons_succ]

/-- The size along the axis of one input of a concatenation, whose other dimensions have to be those
    of the output. -/
def concatSize (context : Context) (whole : Shape) (axis : Nat) (input : ValueId) :
    Outcome RuleError Nat := do
  let part ← context.shape input
  Outcome.require (part.agreesOutside axis whole)
    (.incompatibleShapes (.concatInput part whole axis))
  Word.entry part axis

/-- The rule for concatenation: along the axis the inputs add up to the output, and on the other
    axes they agree with it. -/
def Operator.Concat.lower (op : Operator.Concat) (context : Context) :
    Outcome RuleError Record := do
  Outcome.require (op.inputs ≠ []) (.invalidAttribute .inputs .noInputs)
  let value ← context.value op.output
  let whole := value.shape
  let axis ← (axisDimension whole.rank op.axis).mapError (.ofAttribute .axis)
  let sizes ← op.inputs.mapM (concatSize context whole axis)
  let total ← Word.sum sizes
  let expected ← Word.entry whole axis
  Outcome.require (total = expected)
    (.incompatibleShapes (.concatTotal sizes axis expected))
  -- Bytes are counted by the element type of the output; the inputs are taken to have the same.
  let bounds ←
    (Outcome.ofExcept (whole.chunkLoop value.elementType.size axis)).mapError .ofShape
  let output ← context.range op.output
  let inputs ← op.inputs.mapM context.range
  let sizes ← sizes.mapM (sizeField .inputs)
  return .concat { output, inner := bounds.inner, outer := bounds.outer, inputs, sizes }

/-- What the rule finds, and what it makes of it, where it makes a record. -/
structure Operator.Concat.Accepted (op : Operator.Concat) (context : Context) (whole : Value)
    (axis : Nat) (parts : List Value) (record : Record.Concat) : Prop where
  inputs_ne_nil : op.inputs ≠ []
  whole_eq : context.value? op.output = some whole
  axis_eq : axisDimension whole.shape.rank op.axis = .ok axis
  parts_eq : op.inputs.map context.value? = parts.map some
  agrees : ∀ part ∈ parts, part.shape.agreesOutside axis whole.shape = true
  sizes_eq : parts.map (fun part => part.shape[axis]?) =
    (record.sizes.map UInt32.toNat).map some
  total_eq : whole.shape[axis]? = some ((record.sizes.map UInt32.toNat).foldr (· + ·) 0)
  bounds_eq : whole.shape.chunkLoop whole.elementType.size axis =
    .ok { inner := record.inner, outer := record.outer }
  output_eq : context.range? op.output = some record.output
  inputs_eq : op.inputs.map context.range? = record.inputs.map some

section

variable {context : Context} {op : Operator.Concat} {whole : Shape} {axis : Nat}
  {ids : List ValueId} {sizes : List Nat}

/-- The inputs whose sizes the rule takes are known, and agree with the output outside the axis. -/
theorem exists_parts_of_mapM_concatSize
    (h : ids.mapM (concatSize context whole axis) = .ok sizes) :
    ∃ parts : List Value, ids.map context.value? = parts.map some ∧
      (∀ part ∈ parts, part.shape.agreesOutside axis whole = true) ∧
      parts.map (fun part => part.shape[axis]?) = sizes.map some := by
  rw [Outcome.mapM_eq_ok] at h
  induction ids generalizing sizes with
  | nil => cases sizes with
    | nil => exact ⟨[], rfl, by simp, rfl⟩
    | cons size sizes => cases h
  | cons id ids ih => cases sizes with
    | nil => cases h
    | cons size sizes =>
        rw [List.map_cons, List.map_cons, List.cons.injEq] at h
        obtain ⟨parts, hparts, hagrees, hsizes⟩ := ih h.2
        have hsize := h.1
        simp only [concatSize, Outcome.bind_eq_ok, Context.shape_eq_ok, Outcome.require_eq_ok,
          Outcome.liftM_eq, Outcome.ofChecked_eq_ok, Word.entry_eq_ok] at hsize
        obtain ⟨_, ⟨part, hpart, rfl⟩, _, hagree, hentry⟩ := hsize
        refine ⟨part :: parts, ?_, List.forall_mem_cons.2 ⟨hagree, hagrees⟩, ?_⟩
        · rw [List.map_cons, List.map_cons, hpart, hparts]
        · rw [List.map_cons, List.map_cons, hentry, hsizes]

/-- Each record of a concatenation is of inputs that the rule accepts. -/
theorem Operator.Concat.exists_accepted_of_lower {r : Record} (h : op.lower context = .ok r) :
    ∃ whole axis parts record, r = .concat record ∧
      op.Accepted context whole axis parts record := by
  simp only [lower, Outcome.bind_eq_ok, Outcome.require_eq_ok, Context.value_eq_ok,
    Outcome.mapError_eq_ok, Outcome.ofExcept_eq_ok, Outcome.liftM_eq, Outcome.ofChecked_eq_ok,
    Word.entry_eq_ok, Context.range_eq_ok, Context.mapM_range_eq_ok, Outcome.pure_eq_ok,
    Outcome.ok.injEq] at h
  obtain ⟨_, hinputs, whole, hwhole, axis, haxis, sizes, hsizes, total, htotal, expected, hexpected,
    _, hequal, bounds, hbounds, output, houtput, inputs, hranges, fields, hfields, rfl⟩ := h
  obtain ⟨parts, hparts, hagrees, hentries⟩ := exists_parts_of_mapM_concatSize hsizes
  have hfields := mapM_sizeField_eq_ok hfields
  have htotal := Word.sum_eq_ok htotal
  exact ⟨whole, axis, parts, _, rfl,
    { inputs_ne_nil := hinputs
      whole_eq := hwhole
      axis_eq := haxis
      parts_eq := hparts
      agrees := hagrees
      sizes_eq := by rw [hfields, hentries]
      total_eq := by rw [hexpected, hfields, ← hequal, htotal]
      bounds_eq := hbounds
      output_eq := houtput
      inputs_eq := hranges }⟩

/-- The size of an input along an axis is looked up only once the input is known to have that
    axis. -/
theorem concatSize_ne_fault {input : ValueId} {t : Fault} (haxis : axis < whole.rank) :
    concatSize context whole axis input ≠ .fault t := by
  simp only [concatSize, ne_eq, Outcome.bind_eq_fault, Context.shape_ne_fault,
    Outcome.require_ne_fault, Outcome.require_eq_ok, Outcome.liftM_eq, Outcome.ofChecked_eq_fault,
    false_or, not_exists, not_and]
  rintro part - _ hagrees
  have hlt : axis < part.length := by
    rwa [(Shape.agreesOutside_eq_true.1 hagrees).1]
  exact Word.entry_ne_error hlt

/-- The rule for concatenation is abandoned when it resolves the axis, or when it adds up the sizes
    of the inputs. -/
theorem Operator.Concat.lower_eq_fault {t : Fault} :
    op.lower context = .fault t ↔
      op.inputs ≠ [] ∧ ∃ whole, context.value? op.output = some whole ∧
        (axisDimension whole.shape.rank op.axis = .fault t ∨
          ∃ axis sizes, axisDimension whole.shape.rank op.axis = .ok axis ∧
            op.inputs.mapM (concatSize context whole.shape axis) = .ok sizes ∧
            Word.size ≤ sizes.foldr (· + ·) 0 ∧ Fault.overflow .add = t) := by
  have hranges : op.inputs.mapM context.range ≠ .fault t :=
    Outcome.mapM_ne_fault fun _ _ _ => Context.range_ne_fault
  have hfields (sizes : List Nat) : sizes.mapM (sizeField .inputs) ≠ .fault t :=
    Outcome.mapM_ne_fault fun _ _ _ => sizeField_ne_fault
  simp only [lower, Outcome.bind_eq_fault, Context.value_ne_fault, Context.value_eq_ok,
    Outcome.require_ne_fault, Outcome.require_eq_ok, Outcome.mapError_eq_fault,
    Outcome.mapError_eq_ok, Outcome.ofExcept_ne_fault, Outcome.liftM_eq,
    Outcome.ofChecked_eq_fault, Outcome.ofChecked_eq_ok, Word.sum_eq_error,
    Context.range_ne_fault, hranges, hfields, Outcome.pure_eq_ok, reduceCtorEq, and_false,
    exists_false, false_or, or_false]
  constructor
  · rintro ⟨_, hinputs, whole, hwhole, haxis | ⟨axis, haxis, hrest⟩⟩
    · exact ⟨hinputs, whole, hwhole, .inl haxis⟩
    have hlt := lt_of_axisDimension_eq_ok haxis
    obtain hsizes | ⟨sizes, hsizes, htotal | ⟨_, -, hentry⟩⟩ := hrest
    · exact absurd hsizes (Outcome.mapM_ne_fault fun _ _ _ => concatSize_ne_fault hlt)
    · exact ⟨hinputs, whole, hwhole, .inr ⟨axis, sizes, haxis, hsizes, htotal⟩⟩
    · exact absurd hentry (Word.entry_ne_error hlt)
  · rintro ⟨hinputs, whole, hwhole, haxis | ⟨axis, sizes, haxis, hsizes, htotal⟩⟩
    · exact ⟨(), hinputs, whole, hwhole, .inl haxis⟩
    · exact ⟨(), hinputs, whole, hwhole, .inr ⟨axis, haxis, .inr ⟨sizes, hsizes, .inl htotal⟩⟩⟩

end

/-! ## Reordering of axes -/

/-- A shape error of a reordering; one about the order itself is about the attribute. -/
def permError : ShapeError → RuleError
  | .invalidPermutation => .ofAttribute .perm .invalidPermutation
  | error => .ofShape error

/-- The rule for reordering of axes: the output has the dimensions of the input in the new order. -/
def Operator.Transpose.lower (op : Operator.Transpose) (context : Context) :
    Outcome RuleError Record := do
  let shape ← context.shape op.input
  let reordering : PermutedShape := { shape, perm := op.perm }
  let extended ← (Outcome.ofExcept (reordering.atRank recordRank)).mapError permError
  let expected ← op.perm.mapM fun axis => (Word.entry shape axis : Outcome RuleError Nat)
  let found ← context.shape op.output
  Outcome.require (found = expected)
    (.incompatibleShapes (.output found .permutedInput expected))
  let input ← context.range op.input
  let output ← context.range op.output
  let inputShape ← shapeField extended.shape
  return .transpose { input, output, inputShape, perm := .ofList extended.perm }

/-- What the rule finds, and what it makes of it, where it makes a record. -/
structure Operator.Transpose.Accepted (op : Operator.Transpose) (context : Context) (shape : Shape)
    (extended : PermutedShape) (record : Record.Transpose) : Prop where
  shape_eq : context.shape op.input = .ok shape
  extended_eq : PermutedShape.atRank { shape, perm := op.perm } recordRank = .ok extended
  found_eq : context.shape op.output = .ok (PermutedShape.result { shape, perm := op.perm })
  input_eq : context.range? op.input = some record.input
  output_eq : context.range? op.output = some record.output
  inputShape_eq : extended.shape.toAxisArray = .ok record.inputShape
  perm_eq : record.perm = .ofList extended.perm

/-- Reading the dimensions of a shape in some order gives the shape of the reordered tensor. -/
theorem PermutedShape.result_of_mapM_entry {shape dims : Shape} {perm : List Nat}
    (h : perm.mapM (fun axis => (Word.entry shape axis : Outcome RuleError Nat)) = .ok dims) :
    dims = result { shape, perm } := by
  rw [Outcome.mapM_eq_ok] at h
  induction perm generalizing dims with
  | nil => cases dims with
    | nil => rfl
    | cons dim dims => cases h
  | cons axis perm ih => cases dims with
    | nil => cases h
    | cons dim dims =>
        rw [List.map_cons, List.map_cons, List.cons.injEq, Outcome.liftM_eq,
          Outcome.ofChecked_eq_ok, Word.entry_eq_ok] at h
        rw [ih h.2, result, result, List.map_cons, List.getD_eq_getElem?_getD, h.1,
          Option.getD_some]

/-- Each record of a reordering is of an operator that the rule accepts. -/
theorem Operator.Transpose.exists_accepted_of_lower {op : Operator.Transpose} {context : Context}
    {r : Record} (h : op.lower context = .ok r) :
    ∃ shape extended record, r = .transpose record ∧ op.Accepted context shape extended record := by
  simp only [lower, Outcome.bind_eq_ok, Outcome.mapError_eq_ok, Outcome.ofExcept_eq_ok,
    Outcome.require_eq_ok, Context.range_eq_ok, shapeField_eq_ok, Outcome.pure_eq_ok,
    Outcome.ok.injEq] at h
  obtain ⟨shape, hshape, extended, hextended, expected, hexpected, found, hfound, _, rfl, input,
    hinput, output, houtput, axes, haxes, rfl⟩ := h
  have hresult := PermutedShape.result_of_mapM_entry hexpected
  exact ⟨shape, extended, _, rfl,
    { shape_eq := hshape
      extended_eq := hextended
      found_eq := by rw [hfound, hresult]
      input_eq := hinput
      output_eq := houtput
      inputShape_eq := haxes
      perm_eq := rfl }⟩

end TensorLowering
