import Mathlib
import TensorLowering.Proofs.AxisOrder
import TensorLowering.Proofs.Concatenation
import TensorLowering.Proofs.Reduction
import TensorLowering.Proofs.WindowGeometry
import TensorLowering.Registry

set_option autoImplicit false

/-! # The sizes of results

An operator computes a number of elements that its attributes and the shapes of what it reads
determine (`Operator.resultElements?`); the interpreter writes so many into the range of the output.
Each rule checks the output in its own way: against a shape, against a number of elements or against
a number of windows. Whichever way it is, the output has as many elements as the operator computes
(`Operator.elements_of_lower`), except for the two conversions: their rule looks at the types of
elements only, and is the same for all shapes. -/

namespace TensorLowering

/-! ## How many elements an operator computes -/

/-- The number of windows that fit an axis of `size` places, in exact integers. -/
def windowPlaces (size : Nat) (padding : Padding) (filter stride dilation : Nat) : Nat :=
  ((size + padding.total - (dilation * (filter - 1 : Int) + 1)) / stride + 1).toNat

/-- The number of windows on an image. -/
def Spatial.windows (size : Spatial Nat) (padding : Spatial Padding)
    (filter stride dilation : Spatial Nat) : Nat :=
  windowPlaces size.height padding.height filter.height stride.height dilation.height *
    windowPlaces size.width padding.width filter.width stride.width dilation.width

namespace Shape

/-- The number of elements of parts side by side along an axis: their sizes along the axis add up,
    and on the other axes they all have the dimensions of the first. -/
def concatElements (axis : Nat) (parts : List Shape) : Nat :=
  elements ((parts.headD []).eraseIdx axis) * (parts.map fun part => part.getD axis 0).sum

/-- The product of the dimensions that are not on one of the axes. -/
def elementsOutside (axes : List Nat) (shape : Shape) : Nat :=
  elements ((shape.zipIdx.filter fun dimension => dimension.2 ∉ axes).map Prod.fst)

end Shape

/-- The number of elements that an operator computes, from its attributes and the shapes of the
    values that it reads. Operators that compute nothing have none. -/
def Operator.resultElements? (shape? : ValueId → Option Shape) : Operator → Option Nat
  | .binary op => do
      let result ← (← shape? op.a).broadcast (← shape? op.b)
      return result.elements
  | .concat op => do
      let parts ← op.inputs.mapM shape?
      let axis ← (axisDimension (parts.headD []).rank op.axis).toOption
      return Shape.concatElements axis parts
  | .conv2d op => do
      let image ← ImageShape.ofShape? (← shape? op.input)
      let kernel ← KernelShape.ofShape? op.weights.shape
      let windows := image.size.windows op.padding kernel.filter op.stride op.dilation
      return image.batch * kernel.outChannels * windows
  | .reduceWindow2d op => do
      let image ← ImageShape.ofShape? (← shape? op.input)
      let windows := image.size.windows op.padding op.filter op.stride op.dilation
      return image.batch * image.channels * windows
  | .matMul op => do
      match ← shape? op.a, ← shape? op.b with
      | [rows, _], [_, columns] => return rows * columns
      | _, _ => none
  | .reduce op => do
      let shape ← shape? op.input
      let axes ← (axisDimensions shape.rank op.axes).toOption
      return shape.elementsOutside axes
  | .dequantize op | .quantize op => Shape.elements <$> shape? op.input
  | .softmax op => Shape.elements <$> shape? op.input
  | .transpose op => Shape.elements <$> shape? op.input
  | .constant _ | .input _ | .output _ => none

/-- The shape of a value, if the graph has the value. -/
def Graph.shape? (graph : Graph) (id : ValueId) : Option Shape :=
  (graph.value? id).map Value.shape

theorem Graph.shape?_eq_some {graph : Graph} {oracle : Oracle} {id : ValueId} {shape : Shape} :
    graph.shape? id = some shape ↔ (graph.context oracle).shape id = .ok shape := by
  rw [Context.shape_eq_ok, Graph.shape?, Option.map_eq_some_iff]
  rfl

/-! ## Elements of shapes -/

/-- A reordered tensor has the elements of the given one. -/
theorem PermutedShape.IsReordering.elements_result {reordering : PermutedShape}
    (h : reordering.IsReordering) : reordering.result.elements = reordering.shape.elements := by
  have hall : (List.range reordering.shape.rank).map (fun axis => reordering.shape.getD axis 1) =
      reordering.shape := by
    refine List.ext_getElem (by simp) fun axis haxis haxis' => ?_
    simp [List.getD_eq_getElem?_getD, haxis']
  rw [result, Shape.elements_eq_of_perm (h.map _), hall]

/-- Dropping dimensions keeps those outside the axes. -/
theorem Shape.reduceFrom_eq_filter (axes : List Nat) (first : Nat) (shape : Shape) :
    reduceFrom axes false first shape =
      ((shape.zipIdx first).filter fun dimension => dimension.2 ∉ axes).map Prod.fst := by
  induction shape generalizing first with
  | nil => rfl
  | cons d ds ih =>
      rw [List.zipIdx_cons, reduceFrom]
      by_cases hmem : first ∈ axes
      · simp [hmem, ih]
      · simp [hmem, ih]

theorem Shape.elements_reduceFrom_keep (axes : List Nat) (shape : Shape) :
    (reduceFrom axes true 0 shape).elements = shape.elementsOutside axes := by
  rw [← elements_reduceFrom, reduceFrom_eq_filter, elementsOutside]

/-- Shapes that differ in the dimension on one axis only concatenate as that dimension adds up. -/
theorem Shape.concatElements_middle {outer inner : Shape} {sizes : List Nat} (h : sizes ≠ []) :
    concatElements outer.length (sizes.map fun size => outer ++ size :: inner) =
      (outer ++ sizes.sum :: inner).elements := by
  obtain ⟨first, rest, rfl⟩ := List.exists_cons_of_ne_nil h
  have hothers : (outer ++ first :: inner).eraseIdx outer.length = outer ++ inner := by
    rw [List.eraseIdx_append_of_length_le (Nat.le_refl _), Nat.sub_self, List.eraseIdx_cons_zero]
  have hsizes : ((first :: rest).map fun size => outer ++ size :: inner).map
      (fun part => part.getD outer.length 0) = first :: rest := by
    rw [List.map_map]
    simp [Function.comp_def]
  rw [concatElements, hsizes, List.map_cons, List.headD_cons, hothers, elements_append,
    elements_append, elements_cons]
  ring

/-- The windows that are counted on an image are as many as the attributes say. -/
theorem Window.count_eq_windows {filterName : SpatialAxis → AttributeName} {filter : Spatial Nat}
    {padding : Spatial Padding} {stride dilation : Spatial Nat} {window : Window}
    {image : ImageShape} {axes : AxisArray} {count : Spatial Nat}
    (hwindow : ofAttributes filterName filter padding stride dilation = .ok window)
    (haxes : image.toShape.toAxisArray = .ok axes)
    (hcount : window.count image.size = .ok count) :
    count.height * count.width = image.size.windows padding filter stride dilation := by
  obtain ⟨hpadding, hfilter, hstride, hdilation⟩ := ofAttributes_eq_ok hwindow
  obtain ⟨-, -, hsize⟩ := ImageShape.fields_of_toAxisArray haxes
  obtain ⟨himage, -⟩ := fills_fields haxes hcount
  have hplaces (spatial : SpatialAxis) : window.places spatial (image.size.get spatial) =
      windowPlaces (image.size.get spatial) (padding.get spatial) (filter.get spatial)
        (stride.get spatial) (dilation.get spatial) := by
    rw [places, padded, extent, hpadding, (hfilter spatial).2, (hstride spatial).2,
      (hdilation spatial).2]
    rfl
  rw [himage, hsize]
  exact congrArg₂ (· * ·) (hplaces .height) (hplaces .width)

/-! ## What each rule finds of the output -/

/-- The operator produces a value of the graph that has as many elements as the operator
    computes. -/
def Operator.FitsOutput (graph : Graph) (op : Operator) : Prop :=
  ∃ (id : ValueId) (output : Value), op.outputs = [id] ∧ graph.value? id = some output ∧
    op.resultElements? graph.shape? = some output.shape.elements

theorem Operator.fitsOutput_of_shape {graph : Graph} {oracle : Oracle} {op : Operator}
    {id : ValueId} {shape : Shape} (houtputs : op.outputs = [id])
    (hshape : (graph.context oracle).shape id = .ok shape)
    (hcount : op.resultElements? graph.shape? = some shape.elements) : op.FitsOutput graph := by
  obtain ⟨output, houtput, rfl⟩ := Context.shape_eq_ok.1 hshape
  exact ⟨id, output, houtputs, houtput, hcount⟩

section

variable {graph : Graph} {oracle : Oracle}

theorem Operator.Binary.fitsOutput {op : Operator.Binary} {r : Record}
    (hlower : op.lower (graph.context oracle) = .ok r) : (Operator.binary op).FitsOutput graph := by
  obtain ⟨a, b, output, record, rfl, h⟩ := op.exists_accepted_of_lower hlower
  refine fitsOutput_of_shape rfl h.found_eq ?_
  simp [resultElements?, Graph.shape?_eq_some.2 h.a_eq, Graph.shape?_eq_some.2 h.b_eq,
    h.broadcast_eq]

theorem mapM_shape?_of_map_value? {ids : List ValueId} {values : List Value}
    (h : ids.map graph.value? = values.map some) :
    ids.mapM graph.shape? = some (values.map Value.shape) := by
  induction ids generalizing values with
  | nil =>
      rw [List.map_nil, eq_comm, List.map_eq_nil_iff] at h
      rw [h]
      rfl
  | cons id ids ih =>
      cases values with
      | nil => cases h
      | cons value values =>
          rw [List.map_cons, List.map_cons, List.cons.injEq] at h
          have hshape : graph.shape? id = some value.shape := by
            rw [Graph.shape?, h.1, Option.map_some]
          simp [List.mapM_cons, hshape, ih h.2]

theorem Operator.Concat.fitsOutput {op : Operator.Concat} {r : Record}
    (hlower : op.lower (graph.context oracle) = .ok r) : (Operator.concat op).FitsOutput graph := by
  obtain ⟨whole, axis, parts, record, rfl, h⟩ := op.exists_accepted_of_lower hlower
  obtain ⟨outer, inner, haxis, hwhole, hshapes, -, -⟩ := h.exists_around
  have hsizes : record.sizes.map UInt32.toNat ≠ [] := by
    intro hnil
    have hparts := h.parts_eq
    rw [hnil, List.map_nil, List.map_eq_nil_iff] at hshapes
    rw [hshapes, List.map_nil, List.map_eq_nil_iff] at hparts
    exact h.inputs_ne_nil hparts
  -- The axis is resolved for the rank of the output, which the first input shares.
  have hrank : ((parts.map Value.shape).headD []).rank = whole.shape.rank := by
    obtain ⟨first, rest, heq⟩ := List.exists_cons_of_ne_nil hsizes
    rw [hshapes, heq, hwhole, List.map_cons, List.headD_cons, Shape.rank, Shape.rank,
      List.length_append, List.length_append, List.length_cons, List.length_cons]
  refine ⟨op.output, whole, rfl, h.whole_eq, ?_⟩
  have hcount : Shape.concatElements axis (parts.map Value.shape) = whole.shape.elements := by
    rw [hshapes, hwhole, ← haxis]
    exact Shape.concatElements_middle hsizes
  have hresolved : (axisDimension ((parts.map Value.shape).headD []).rank op.axis).toOption =
      some axis := by
    rw [hrank]
    exact Outcome.toOption_eq_some.2 h.axis_eq
  simp only [resultElements?]
  rw [mapM_shape?_of_map_value? h.parts_eq, Option.bind_eq_bind, Option.bind_some, hresolved,
    Option.bind_eq_bind, Option.bind_some, hcount, Option.pure_def]

theorem Operator.Conv2d.fitsOutput {op : Operator.Conv2d} {r : Record}
    (hlower : op.lower (graph.context oracle) = .ok r) :
    (Operator.conv2d op).FitsOutput graph := by
  obtain ⟨image, kernel, count, record, rfl, h⟩ := op.exists_accepted_of_lower hlower
  refine fitsOutput_of_shape rfl h.found_eq ?_
  have hwindows := Window.count_eq_windows h.window_eq h.inputShape_eq h.count_eq
  simp only [resultElements?, Graph.shape?_eq_some.2 h.shape_eq, Option.bind_eq_bind,
    Option.bind_some, ImageShape.ofShape?_eq_some.2 rfl,
    KernelShape.ofShape?_eq_some.2 h.kernel_eq, ← hwindows]
  simp [ImageShape.toShape, Nat.mul_assoc]

theorem Operator.ReduceWindow2d.fitsOutput {op : Operator.ReduceWindow2d} {r : Record}
    (hlower : op.lower (graph.context oracle) = .ok r) :
    (Operator.reduceWindow2d op).FitsOutput graph := by
  obtain ⟨image, count, record, rfl, h⟩ := op.exists_accepted_of_lower hlower
  refine fitsOutput_of_shape rfl h.found_eq ?_
  have hwindows := Window.count_eq_windows h.window_eq h.inputShape_eq h.count_eq
  simp only [resultElements?, Graph.shape?_eq_some.2 h.shape_eq, Option.bind_eq_bind,
    Option.bind_some, ImageShape.ofShape?_eq_some.2 rfl, ← hwindows]
  simp [ImageShape.toShape, Nat.mul_assoc]

theorem Operator.MatMul.fitsOutput {op : Operator.MatMul} {r : Record}
    (hlower : op.lower (graph.context oracle) = .ok r) : (Operator.matMul op).FitsOutput graph := by
  obtain ⟨a, b, record, rfl, h⟩ := op.exists_accepted_of_lower hlower
  refine fitsOutput_of_shape rfl h.found_eq ?_
  simp [resultElements?, Graph.shape?_eq_some.2 h.a_eq, Graph.shape?_eq_some.2 h.b_eq]

theorem Operator.Reduce.fitsOutput {op : Operator.Reduce} {r : Record}
    (hlower : op.lower (graph.context oracle) = .ok r) : (Operator.reduce op).FitsOutput graph := by
  obtain ⟨shape, found, axes, kept, expected, record, rfl, h⟩ :=
    op.exists_accepted_of_lower hlower
  refine fitsOutput_of_shape rfl h.found_eq ?_
  have hcount : found.elements = shape.elementsOutside axes := by
    rw [h.count_eq, Shape.elements_of_reduced h.expected_eq, Shape.elements_reduceFrom_keep]
  simp [resultElements?, Graph.shape?_eq_some.2 h.shape_eq, h.axes_eq, Outcome.toOption, hcount]

theorem Operator.Softmax.fitsOutput {op : Operator.Softmax} {r : Record}
    (hlower : op.lower (graph.context oracle) = .ok r) :
    (Operator.softmax op).FitsOutput graph := by
  obtain ⟨shape, bounds, record, rfl, h⟩ := op.exists_accepted_of_lower hlower
  refine fitsOutput_of_shape rfl h.found_eq ?_
  simp [resultElements?, Graph.shape?_eq_some.2 h.shape_eq]

theorem Operator.Transpose.fitsOutput {op : Operator.Transpose} {r : Record}
    (hlower : op.lower (graph.context oracle) = .ok r) :
    (Operator.transpose op).FitsOutput graph := by
  obtain ⟨shape, extended, record, rfl, h⟩ := op.exists_accepted_of_lower hlower
  refine fitsOutput_of_shape rfl h.found_eq ?_
  have hreordering := PermutedShape.isReordering_of_atRank h.extended_eq
  rw [hreordering.elements_result]
  simp [resultElements?, Graph.shape?_eq_some.2 h.shape_eq]

end

/-! ## Conversions -/

/-- The rule of the conversions cannot tell two contexts apart in which input and output have the
    same element types and ranges. -/
theorem Operator.Conversion.lower_congr_elementType {op : Operator.Conversion}
    {source target : ElementType} {a b : Context}
    (htypes : ∀ id ∈ [op.input, op.output],
      (a.value? id).map Value.elementType = (b.value? id).map Value.elementType)
    (hranges : a.range? = b.range?) :
    op.lower source target a = op.lower source target b := by
  have hbind (id : ValueId) (expected : ElementType)
      (h : (a.value? id).map Value.elementType = (b.value? id).map Value.elementType)
      (rest : Outcome RuleError Record.Conversion) :
      (a.typedValue id expected >>= fun _ => rest) =
        (b.typedValue id expected >>= fun _ => rest) := by
    unfold Context.typedValue Context.value
    cases ha : a.value? id with
    | none =>
        rw [ha, Option.map_none, eq_comm, Option.map_eq_none_iff] at h
        rw [h]
    | some v =>
        rw [ha, Option.map_some, eq_comm, Option.map_eq_some_iff] at h
        obtain ⟨w, hw, htype⟩ := h
        simp [hw, Outcome.ofOption, htype]
  have hinput := htypes op.input (by simp)
  have houtput := htypes op.output (by simp)
  simp only [lower, Context.range, hranges, hbind op.input _ hinput, hbind op.output _ houtput]

/-! ## All rules -/

/-- **The output is as large as the result.** Where the rule of an operator makes a record, the
    output has as many elements in the graph as the operator computes, unless the operator is one of
    the conversions. For these the sizes are not compared: the rule makes the same record in every
    graph in which the values have the same element types, whatever their shapes are. -/
theorem Operator.elements_of_lower (graph : Graph) (oracle : Oracle) (op : Operator)
    (lower : Context → Outcome RuleError Record) (record : Record)
    (hrule : op.lower? = some lower) (hlower : lower (graph.context oracle) = .ok record) :
    (op.kind ≠ .dequantize → op.kind ≠ .quantize → op.FitsOutput graph) ∧
    (op.kind = .dequantize ∨ op.kind = .quantize → ∀ other : Graph,
      (∀ id ∈ op.operands, (other.value? id).map Value.elementType =
        (graph.value? id).map Value.elementType) →
      lower (other.context oracle) = .ok record) := by
  have hconversion (op : Operator.Conversion) (source target : ElementType) (other : Graph)
      (htypes : ∀ id ∈ [op.input, op.output], (other.value? id).map Value.elementType =
        (graph.value? id).map Value.elementType) :
      op.lower source target (other.context oracle) =
        op.lower source target (graph.context oracle) :=
    Operator.Conversion.lower_congr_elementType htypes rfl
  cases op with
  | binary op =>
      cases hrule
      exact ⟨fun _ _ => Binary.fitsOutput hlower, by simp [kind]⟩
  | concat op =>
      cases hrule
      exact ⟨fun _ _ => Concat.fitsOutput hlower, by simp [kind]⟩
  | conv2d op =>
      cases hrule
      exact ⟨fun _ _ => Conv2d.fitsOutput hlower, by simp [kind]⟩
  | matMul op =>
      cases hrule
      exact ⟨fun _ _ => MatMul.fitsOutput hlower, by simp [kind]⟩
  | reduce op =>
      cases hrule
      exact ⟨fun _ _ => Reduce.fitsOutput hlower, by simp [kind]⟩
  | reduceWindow2d op =>
      cases hrule
      exact ⟨fun _ _ => ReduceWindow2d.fitsOutput hlower, by simp [kind]⟩
  | softmax op =>
      cases hrule
      exact ⟨fun _ _ => Softmax.fitsOutput hlower, by simp [kind]⟩
  | transpose op =>
      cases hrule
      exact ⟨fun _ _ => Transpose.fitsOutput hlower, by simp [kind]⟩
  | dequantize op =>
      cases hrule
      refine ⟨fun hne => absurd rfl hne, fun _ other htypes => ?_⟩
      rw [Conversion.lowerDequantize, hconversion op _ _ other htypes]
      exact hlower
  | quantize op =>
      cases hrule
      refine ⟨fun _ hne => absurd rfl hne, fun _ other htypes => ?_⟩
      rw [Conversion.lowerQuantize, hconversion op _ _ other htypes]
      exact hlower
  | constant op => cases hrule
  | input op => cases hrule
  | output op => cases hrule

/-- A graph with six floating-point numbers and a value for bytes. -/
def quantizationGraph (shape : Shape) : Graph where
  values := #[{ name := none, shape := [2, 3], elementType := .float32 },
    { name := none, shape, elementType := .uint8 }]
  nodes := #[]

/-- Ranges for the six numbers and for four bytes after them. -/
def quantizationRanges : Oracle := fun value =>
  ([⟨.data, 0, 24⟩, ⟨.data, 24, 4⟩] : List MemoryRange)[value.index]?

/-- The conversion of the numbers to bytes. -/
def byteQuantization : Operator.Conversion where
  input := 0
  output := 1
  quantization := { zeroPoint := 0, scale := ⟨0x3f800000⟩ }

/-- A pooling computes as many elements as its output holds; a quantization has the same record
    whether its output holds six bytes or four. -/
theorem Operator.elements_of_lower_windows :
    let oracle : Oracle := fun value =>
      some { region := .data, start := .ofNat (160 * value.index), size := 160 }
    (∃ record, (cropPooling (-1)).lower (poolingGraph.context oracle) = .ok record) ∧
    (Operator.reduceWindow2d (cropPooling (-1))).resultElements? poolingGraph.shape? = some 8 ∧
    ∃ record,
      byteQuantization.lowerQuantize ((quantizationGraph [2, 3]).context quantizationRanges) =
        .ok record ∧
      byteQuantization.lowerQuantize ((quantizationGraph [2, 2]).context quantizationRanges) =
        .ok record := by
  intro oracle
  obtain ⟨hpooling, -⟩ := Operator.elements_of_lower poolingGraph oracle
    (.reduceWindow2d (cropPooling (-1))) _ _ rfl rfl
  obtain ⟨-, hquantize⟩ := Operator.elements_of_lower (quantizationGraph [2, 3])
    quantizationRanges (.quantize byteQuantization) _ _ rfl rfl
  obtain ⟨id, output, hid, houtput, hcount⟩ := hpooling (by decide) (by decide)
  cases hid
  cases houtput
  refine ⟨⟨_, rfl⟩, hcount, _, rfl, hquantize (.inr rfl) (quantizationGraph [2, 2]) ?_⟩
  intro id hid
  rcases List.mem_pair.1 hid with rfl | rfl
  · rfl
  · rfl

/-- Six numbers are quantized, into a value that holds four bytes. -/
theorem Operator.Conversion.lowerQuantize_overfills :
    ∃ record output,
      byteQuantization.lowerQuantize ((quantizationGraph [2, 2]).context quantizationRanges) =
        .ok record ∧
      (Operator.quantize byteQuantization).resultElements? (quantizationGraph [2, 2]).shape? =
        some 6 ∧
      (quantizationGraph [2, 2]).value? byteQuantization.output = some output ∧
      output.shape.elements = 4 :=
  ⟨_, _, rfl, rfl, rfl, rfl⟩

end TensorLowering
