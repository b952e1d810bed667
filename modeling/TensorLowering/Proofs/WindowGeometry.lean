import TensorLowering.Replay.Geometry
import TensorLowering.Rule.Spatial

set_option autoImplicit false

/-! # The windows of convolution and pooling

A record of convolution or pooling says how windows slide over an image but not how many there are.
The rules accept an operator only if its output has exactly as many places as windows fill each axis
of the padded image, so the shape of the output can be told from the record. A size that has a field
in a record is the same read as a signed word; where the rules refuse an operator for its padding,
and the sizes have fields, no window fits (`windows_fill_image`). -/

namespace TensorLowering

/-! ## The fields of an image -/

/-- The axis array of a batch of images holds its dimensions. -/
theorem ImageShape.dims_of_toAxisArray {image : ImageShape} {axes : AxisArray}
    (h : image.toShape.toAxisArray = .ok axes) : axes.dims = image.toShape := by
  obtain ⟨-, hdims⟩ := Shape.dims_of_toAxisArray h
  -- A shape of the rank of records is not padded.
  exact hdims

theorem ImageShape.fields_of_toAxisArray {image : ImageShape} {axes : AxisArray}
    (h : image.toShape.toAxisArray = .ok axes) :
    axes[0].toNat = image.batch ∧ axes[1].toNat = image.channels ∧ axes.image = image.size := by
  have hfield (i : Nat) (hi : i < recordRank) : some axes[i].toNat = image.toShape[i]? := by
    rw [← dims_of_toAxisArray h]
    simp [AxisArray.dims, hi]
  have hheight := Option.some.inj (hfield 2 (by decide))
  have hwidth := Option.some.inj (hfield 3 (by decide))
  refine ⟨Option.some.inj (hfield 0 (by decide)), Option.some.inj (hfield 1 (by decide)), ?_⟩
  rw [AxisArray.image, hheight, hwidth]

theorem ImageShape.lt_of_toAxisArray {image : ImageShape} {axes : AxisArray}
    (h : image.toShape.toAxisArray = .ok axes) {dimension : Nat}
    (hmem : dimension ∈ image.toShape) : dimension < UInt32.size := by
  rw [← dims_of_toAxisArray h] at hmem
  obtain ⟨field, -, rfl⟩ := List.mem_map.1 hmem
  exact field.toNat_lt

/-- The sizes of an image whose dimensions have fields keep their values when they are read as
    signed words. -/
theorem ImageShape.ofWord_size {image : ImageShape}
    (h : ∀ dimension ∈ image.toShape, dimension < UInt32.size) (spatial : SpatialAxis) :
    Signed.ofWord (image.size.get spatial) = image.size.get spatial :=
  Signed.ofWord_of_lt (Nat.lt_trans (h _ (image.size_mem_toShape spatial)) (by decide))

/-! ## Counts -/

namespace Window

variable {window : Window} {size : Spatial Nat}

/-- Windows that are counted fill the axes. -/
theorem count_eq_ok (hsize : ∀ spatial, Signed.ofWord (size.get spatial) = size.get spatial)
    {count : Spatial Nat} (h : window.count size = .ok count) :
    count = window.image size ∧
      ∀ spatial, window.Fills spatial (size.get spatial) (count.get spatial) := by
  have hplaces (spatial : SpatialAxis) :
      (window.stride.get spatial).toNat ≠ 0 ∧
        window.extent spatial ≤ window.padded spatial (size.get spatial) ∧
        count.get spatial = window.places spatial (size.get spatial) := by
    obtain ⟨hslack, hstride, hcount⟩ := countWindows_eq_ok (Spatial.ofM_eq_ok.1 h spatial)
    rw [hsize] at hslack hcount
    -- The slack is not negative, so that the quotient is rounded down.
    rw [Int.tdiv_eq_ediv_of_nonneg hslack] at hcount
    refine ⟨hstride, Int.le_of_sub_nonneg hslack, ?_⟩
    rw [places, ← Int.toNat_natCast (count.get spatial), hcount]
    rfl
  constructor
  · obtain ⟨-, -, hheight⟩ := hplaces .height
    obtain ⟨-, -, hwidth⟩ := hplaces .width
    cases count with
    | mk height width =>
        rw [image, Spatial.mk.injEq]
        exact ⟨hheight, hwidth⟩
  · intro spatial
    obtain ⟨hstride, hfits, hcount⟩ := hplaces spatial
    rw [hcount]
    exact fills_places hstride hfits

/-- Where the padding is at fault, no window fits on the axis. -/
theorem count_eq_error (hsize : ∀ spatial, Signed.ofWord (size.get spatial) = size.get spatial)
    {spatial : SpatialAxis} {cause : AttributeCause}
    (h : window.count size = .error (.invalidAttribute (.padding spatial) cause)) :
    window.padded spatial (size.get spatial) < window.extent spatial := by
  obtain ⟨other, hother⟩ := Spatial.exists_of_ofM_eq_error h
  obtain ⟨he, hlt⟩ := countWindows_eq_error hother
  -- The error names the axis whose windows were counted.
  cases he
  rw [hsize] at hlt
  exact hlt

end Window

/-! ## The two rules -/

/-- Windows that are counted on an image fill the axes that the record holds. -/
theorem Window.fills_fields {window : Window} {image : ImageShape} {axes : AxisArray}
    {count : Spatial Nat} (haxes : image.toShape.toAxisArray = .ok axes)
    (hcount : window.count image.size = .ok count) :
    count = window.image axes.image ∧
      ∀ spatial, window.Fills spatial (axes.image.get spatial) (count.get spatial) := by
  obtain ⟨-, -, hsize⟩ := ImageShape.fields_of_toAxisArray haxes
  rw [hsize]
  exact count_eq_ok (ImageShape.ofWord_size fun _ => ImageShape.lt_of_toAxisArray haxes) hcount

theorem Operator.Conv2d.Accepted.outputShape_eq {op : Operator.Conv2d} {context : Context}
    {image : ImageShape} {kernel : KernelShape} {count : Spatial Nat} {record : Record.Conv2d}
    (h : op.Accepted context image kernel count record) :
    record.outputShape =
        ImageShape.toShape { batch := image.batch, channels := kernel.outChannels, size := count } ∧
      record.outputShape = [record.inputShape[0].toNat, record.outChannels.toNat, count.height,
        count.width] := by
  obtain ⟨hbatch, -, -⟩ := ImageShape.fields_of_toAxisArray h.inputShape_eq
  obtain ⟨hcount, -⟩ := Window.fills_fields h.inputShape_eq h.count_eq
  rw [Record.Conv2d.outputShape, ← hcount, hbatch, h.outChannels_eq]
  exact ⟨rfl, rfl⟩

theorem Operator.ReduceWindow2d.Accepted.outputShape_eq {op : Operator.ReduceWindow2d}
    {context : Context} {image : ImageShape} {count : Spatial Nat}
    {record : Record.ReduceWindow2d} (h : op.Accepted context image count record) :
    record.outputShape = ImageShape.toShape { image with size := count } ∧
      record.outputShape = [record.inputShape[0].toNat, record.inputShape[1].toNat, count.height,
        count.width] := by
  obtain ⟨hbatch, hchannels, -⟩ := ImageShape.fields_of_toAxisArray h.inputShape_eq
  obtain ⟨hcount, -⟩ := Window.fills_fields h.inputShape_eq h.count_eq
  rw [Record.ReduceWindow2d.outputShape, ← hcount, hbatch, hchannels]
  exact ⟨rfl, rfl⟩

/-- A window of some attributes that does not fit reaches past the padded axis. -/
theorem Window.padded_le_of_count_eq_error {filterName : SpatialAxis → AttributeName}
    {filter : Spatial Nat} {padding : Spatial Padding} {stride dilation : Spatial Nat}
    {window : Window} {image : ImageShape} {spatial : SpatialAxis} {cause : AttributeCause}
    (hwindow : ofAttributes filterName filter padding stride dilation = .ok window)
    (hdims : ∀ dimension ∈ image.toShape, dimension < UInt32.size)
    (h : window.count image.size = .error (.invalidAttribute (.padding spatial) cause)) :
    image.size.get spatial + (padding.get spatial).total ≤
      dilation.get spatial * (filter.get spatial - 1 : Int) := by
  obtain ⟨hpadding, hfilter, -, hdilation⟩ := ofAttributes_eq_ok hwindow
  have hlt := count_eq_error (ImageShape.ofWord_size hdims) h
  rw [padded, extent, hpadding, (hfilter spatial).2, (hdilation spatial).2] at hlt
  exact Int.le_of_lt_add_one hlt

/-- **The windows of a record fill the image.** Where one of the rules makes a record, the output of
    the operator has the shape that the record tells, and along each axis as many places as windows
    fill it. Where one of the rules finds fault with the padding of an axis, and the dimensions of
    the input have fields, even one window reaches past the end of the padded axis. -/
theorem windows_fill_image (graph : Graph) (oracle : Oracle) :
    (∀ (op : Operator.Conv2d) (r : Record), op.lower (graph.context oracle) = .ok r →
      ∃ (record : Record.Conv2d) (output : Value) (count : Spatial Nat), r = .conv2d record ∧
        graph.value? op.output = some output ∧ output.shape = record.outputShape ∧
        output.shape = [record.inputShape[0].toNat, record.outChannels.toNat, count.height,
          count.width] ∧
        ∀ spatial, record.window.Fills spatial (record.inputShape.image.get spatial)
          (count.get spatial)) ∧
    (∀ (op : Operator.ReduceWindow2d) (r : Record), op.lower (graph.context oracle) = .ok r →
      ∃ (record : Record.ReduceWindow2d) (output : Value) (count : Spatial Nat),
        r = .reduceWindow2d record ∧
        graph.value? op.output = some output ∧ output.shape = record.outputShape ∧
        output.shape = [record.inputShape[0].toNat, record.inputShape[1].toNat, count.height,
          count.width] ∧
        ∀ spatial, record.window.Fills spatial (record.inputShape.image.get spatial)
          (count.get spatial)) ∧
    (∀ (op : Operator.Conv2d) (input : Value) (spatial : SpatialAxis) (cause : AttributeCause),
      graph.value? op.input = some input → (∀ dimension ∈ input.shape, dimension < UInt32.size) →
      op.lower (graph.context oracle) = .error (.invalidAttribute (.padding spatial) cause) →
      ∃ (image : ImageShape) (kernel : KernelShape), input.shape = image.toShape ∧
        op.weights.shape = kernel.toShape ∧
        image.size.get spatial + (op.padding.get spatial).total ≤
          op.dilation.get spatial * (kernel.filter.get spatial - 1 : Int)) ∧
    ∀ (op : Operator.ReduceWindow2d) (input : Value) (spatial : SpatialAxis)
      (cause : AttributeCause),
      graph.value? op.input = some input → (∀ dimension ∈ input.shape, dimension < UInt32.size) →
      op.lower (graph.context oracle) = .error (.invalidAttribute (.padding spatial) cause) →
      ∃ image : ImageShape, input.shape = image.toShape ∧
        image.size.get spatial + (op.padding.get spatial).total ≤
          op.dilation.get spatial * (op.filter.get spatial - 1 : Int) := by
  refine ⟨fun op r h => ?_, fun op r h => ?_, fun op input spatial cause hinput hdims h => ?_,
    fun op input spatial cause hinput hdims h => ?_⟩
  · obtain ⟨image, kernel, count, record, rfl, haccepted⟩ := op.exists_accepted_of_lower h
    obtain ⟨output, houtput, hshape⟩ := Context.shape_eq_ok.1 haccepted.found_eq
    obtain ⟨-, hfills⟩ := Window.fills_fields haccepted.inputShape_eq haccepted.count_eq
    obtain ⟨hrecord, hfields⟩ := haccepted.outputShape_eq
    have hshape : output.shape = record.outputShape := by rw [hshape, hrecord]
    exact ⟨record, output, count, rfl, houtput, hshape, hshape.trans hfields, hfills⟩
  · obtain ⟨image, count, record, rfl, haccepted⟩ := op.exists_accepted_of_lower h
    obtain ⟨output, houtput, hshape⟩ := Context.shape_eq_ok.1 haccepted.found_eq
    obtain ⟨-, hfills⟩ := Window.fills_fields haccepted.inputShape_eq haccepted.count_eq
    obtain ⟨hrecord, hfields⟩ := haccepted.outputShape_eq
    have hshape : output.shape = record.outputShape := by rw [hshape, hrecord]
    exact ⟨record, output, count, rfl, houtput, hshape, hshape.trans hfields, hfills⟩
  · obtain ⟨image, kernel, window, hshape, hkernel, hwindow, hcount⟩ :=
      op.count_eq_error_of_lower h
    obtain ⟨value, hvalue, hshape⟩ := Context.shape_eq_ok.1 hshape
    cases hvalue.symm.trans hinput
    rw [hshape] at hdims
    exact ⟨image, kernel, hshape, hkernel,
      Window.padded_le_of_count_eq_error hwindow hdims hcount⟩
  · obtain ⟨image, window, hshape, hwindow, hcount⟩ := op.count_eq_error_of_lower h
    obtain ⟨value, hvalue, hshape⟩ := Context.shape_eq_ok.1 hshape
    cases hvalue.symm.trans hinput
    rw [hshape] at hdims
    exact ⟨image, hshape, Window.padded_le_of_count_eq_error hwindow hdims hcount⟩

/-- A graph with a batch of one image, and a smaller one. -/
def poolingGraph : Graph where
  values := #[{ name := none, shape := [1, 2, 5, 4], elementType := .float32 },
    { name := none, shape := [1, 2, 2, 2], elementType := .float32 }]
  nodes := #[]

/-- A pooling that crops the image from above, leaves a row out of each window, and pads the image
    on the right. -/
def cropPooling (crop : Int32) : Operator.ReduceWindow2d where
  input := 0
  output := 1
  reduction := .max
  initial := Reduction.max.initial
  filter := { height := 2, width := 3 }
  padding := { height := { before := crop, after := 0 }, width := { before := 0, after := 1 } }
  stride := { height := 1, width := 2 }
  dilation := { height := 2, width := 1 }
  activation := .relu

/-- A graph with a batch of two images, and of those that a convolution makes of them. -/
def imageGraph : Graph where
  values := #[{ name := none, shape := [2, 2, 6, 4], elementType := .float32 },
    { name := none, shape := [2, 3, 3, 2], elementType := .float32 }]
  nodes := #[]

/-- A convolution of two channels to three that pads the image from above, strides over rows and
    leaves a column out of each window. -/
def stridedConvolution : Operator.Conv2d where
  input := 0
  output := 1
  weights := { shape := [3, 2, 2, 2], data := .replicate 24 .zero, size_eq := rfl }
  bias := .ofArray (.replicate 3 .zero)
  groups := 1
  padding := { height := { before := 1, after := 0 }, width := .none }
  stride := { height := 2, width := 1 }
  dilation := { height := 1, width := 2 }
  activation := .linear

/-- Of five rows, four are left for two windows of three rows; two are not enough for one. Of seven
    rows, three windows of two rows leave out the last. -/
theorem windows_fill_image_crop :
    let oracle : Oracle := fun value =>
      some { region := .data, start := .ofNat (160 * value.index), size := 160 }
    (∃ record, (cropPooling (-1)).lower (poolingGraph.context oracle) =
        .ok (.reduceWindow2d record) ∧ record.outputShape = [1, 2, 2, 2] ∧
      record.window.Fills .height 5 2 ∧ record.window.Fills .width 4 2) ∧
    (∃ record, stridedConvolution.lower (imageGraph.context oracle) = .ok (.conv2d record) ∧
      record.outputShape = [2, 3, 3, 2] ∧
      record.window.Fills .height 6 3 ∧ record.window.Fills .width 4 2) ∧
    ∃ cause, (cropPooling (-3)).lower (poolingGraph.context oracle) =
        .error (.invalidAttribute (.padding .height) cause) ∧
      5 + ((cropPooling (-3)).padding.get .height).total ≤ 2 * (2 - 1) := by
  intro oracle
  obtain ⟨-, hpooling, -, hrefused⟩ := windows_fill_image poolingGraph oracle
  obtain ⟨hconvolution, -⟩ := windows_fill_image imageGraph oracle
  refine ⟨?_, ?_, ?_⟩
  · obtain ⟨record, output, count, hrecord, houtput, hshape, hcount, hfills⟩ :=
      hpooling (cropPooling (-1)) _ rfl
    cases hrecord
    cases houtput
    cases count with
    | mk height width =>
        cases hcount
        exact ⟨_, rfl, hshape.symm, hfills .height, hfills .width⟩
  · obtain ⟨record, output, count, hrecord, houtput, hshape, hcount, hfills⟩ :=
      hconvolution stridedConvolution _ rfl
    cases hrecord
    cases houtput
    cases count with
    | mk height width =>
        cases hcount
        exact ⟨_, rfl, hshape.symm, hfills .height, hfills .width⟩
  · have hdims : ∀ dimension ∈ [1, 2, 5, 4], dimension < UInt32.size := by decide
    obtain ⟨image, himage, hreach⟩ :=
      hrefused (cropPooling (-3)) poolingGraph.values[0] .height _ rfl hdims rfl
    cases ImageShape.ofShape?_eq_some.2 himage
    exact ⟨_, rfl, hreach⟩

end TensorLowering
