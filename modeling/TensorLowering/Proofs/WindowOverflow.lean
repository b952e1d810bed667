import TensorLowering.Rule.Spatial

set_option autoImplicit false

/-! # Windows that overflow

The rules for convolution and pooling check that filter, stride and dilation each fit a field of 32
bits, and compute with them in words of 64 bits. A filter and a dilation that fit still have a
product that need not: a window may reach further than a signed word can say. A convolution also
multiplies the groups with the channels of a group, which it takes from the shape of its weights as
they are; where another dimension is zero, they may be any word. The rules are abandoned at these
two places and nowhere else (`lower_faults_iff_window_overflows`). -/

namespace TensorLowering

/-! ## Attributes that do not fit together -/

/-- Each attribute of a window fits its field. -/
def Window.AttributesFit (filter stride dilation : Spatial Nat) : Prop :=
  ∀ spatial, FitsField (filter.get spatial) ∧ FitsField (stride.get spatial) ∧
    FitsField (dilation.get spatial)

/-- A window whose attributes fit their fields reaches further than a signed word can say. The width
    is looked at only if a window fits the height. -/
structure WindowOverflows (filter : Spatial Nat) (padding : Spatial Padding)
    (stride dilation size : Spatial Nat) : Prop where
  attributesFit : Window.AttributesFit filter stride dilation
  extent : 0x8000000000000000 ≤ windowExtent filter.height dilation.height ∨
    windowExtent filter.height dilation.height ≤ size.height + padding.height.total ∧
      0x8000000000000000 ≤ windowExtent filter.width dilation.width

/-- The numbers of a convolution leave the word: the groups pass for the channels of the image and
    of the kernel, and either there are too many channels for all groups together, or just as many
    as the image has and the window overflows. -/
structure Operator.Conv2d.Overflows (op : Operator.Conv2d) (image : ImageShape)
    (kernel : KernelShape) : Prop where
  weights_shape : op.weights.shape = kernel.toShape
  groups : FitsField op.groups
  dvd_channels : op.groups ∣ image.channels
  dvd_outChannels : op.groups ∣ kernel.outChannels
  overflows : Word.size ≤ kernel.groupChannels * op.groups ∨
    kernel.groupChannels * op.groups = image.channels ∧ op.bias.size = kernel.outChannels ∧
      WindowOverflows kernel.filter op.padding op.stride op.dilation image.size

/-- The numbers of a pooling leave the word. -/
def Operator.ReduceWindow2d.Overflows (op : Operator.ReduceWindow2d) (image : ImageShape) : Prop :=
  WindowOverflows op.filter op.padding op.stride op.dilation image.size

/-! ## Windows -/

namespace Window

variable {filterName : SpatialAxis → AttributeName} {filter : Spatial Nat}
  {padding : Spatial Padding} {stride dilation size : Spatial Nat}

theorem exists_ofAttributes_eq_ok :
    (∃ window, ofAttributes filterName filter padding stride dilation = .ok window) ↔
      AttributesFit filter stride dilation := by
  have hfields (name : SpatialAxis → AttributeName) (sizes : Spatial Nat) :
      (∃ fields, (Spatial.ofM fun spatial => positiveField (name spatial) (sizes.get spatial)) =
        .ok fields) ↔ ∀ spatial, FitsField (sizes.get spatial) := by
    rw [Spatial.exists_ofM_eq_ok]
    exact forall_congr' fun spatial => exists_positiveField_eq_ok
  constructor
  · rintro ⟨window, h⟩
    simp only [ofAttributes, Outcome.bind_eq_ok] at h
    obtain ⟨filters, hfilter, strides, hstride, dilations, hdilation, -⟩ := h
    intro spatial
    exact ⟨(hfields _ _).1 ⟨_, hfilter⟩ spatial, (hfields _ _).1 ⟨_, hstride⟩ spatial,
      (hfields _ _).1 ⟨_, hdilation⟩ spatial⟩
  · intro h
    obtain ⟨filters, hfilter⟩ := (hfields filterName filter).2 fun spatial => (h spatial).1
    obtain ⟨strides, hstride⟩ := (hfields .stride stride).2 fun spatial => (h spatial).2.1
    obtain ⟨dilations, hdilation⟩ := (hfields .dilation dilation).2 fun spatial => (h spatial).2.2
    exact ⟨_, by simp only [ofAttributes, hfilter, hstride, hdilation, Outcome.ok_bind]; rfl⟩

/-- Making a window of attributes and counting it on an image is abandoned exactly if the window
    overflows. -/
theorem faults_count_iff (hsize : ∀ spatial, size.get spatial < UInt32.size) :
    (∃ window, ofAttributes filterName filter padding stride dilation = .ok window ∧
        (window.count size).Faults) ↔
      WindowOverflows filter padding stride dilation size := by
  have hcount {window : Window}
      (hwindow : ofAttributes filterName filter padding stride dilation = .ok window) :
      (window.count size).Faults ↔
        0x8000000000000000 ≤ windowExtent filter.height dilation.height ∨
          windowExtent filter.height dilation.height ≤ size.height + padding.height.total ∧
            0x8000000000000000 ≤ windowExtent filter.width dilation.width := by
    obtain ⟨rfl, hfilter, hstride, hdilation⟩ := ofAttributes_eq_ok hwindow
    have hfilterPos (spatial : SpatialAxis) : (window.filter.get spatial).toNat ≠ 0 := by
      rw [(hfilter spatial).2]
      exact (hfilter spatial).1
    have hstridePos (spatial : SpatialAxis) : (window.stride.get spatial).toNat ≠ 0 := by
      rw [(hstride spatial).2]
      exact (hstride spatial).1
    rw [count, Spatial.faults_ofM,
      faults_countWindows (hsize .height) (hfilterPos .height) (hstridePos .height),
      exists_countWindows_eq_ok (hsize .height) (hfilterPos .height) (hstridePos .height),
      faults_countWindows (hsize .width) (hfilterPos .width) (hstridePos .width),
      (hfilter .height).2, (hfilter .width).2, (hdilation .height).2, (hdilation .width).2]
    rfl
  constructor
  · rintro ⟨window, hwindow, hfault⟩
    exact
      { attributesFit := exists_ofAttributes_eq_ok.1 ⟨window, hwindow⟩
        extent := (hcount hwindow).1 hfault }
  · intro h
    obtain ⟨window, hwindow⟩ := exists_ofAttributes_eq_ok.2 h.attributesFit
    exact ⟨window, hwindow, (hcount hwindow).2 h.extent⟩

end Window

/-! ## The two rules -/

/-- The sizes of images in a graph whose dimensions fit are small. -/
theorem Graph.DimensionsFit.size_lt {graph : Graph} (h : graph.DimensionsFit) {id : ValueId}
    {value : Value} {image : ImageShape} (hvalue : graph.value? id = some value)
    (hshape : value.shape = image.toShape) (spatial : SpatialAxis) :
    image.size.get spatial < UInt32.size := by
  refine h value (Array.mem_of_getElem? hvalue) _ ?_
  rw [hshape]
  exact image.size_mem_toShape spatial

section

variable {graph : Graph} {oracle : Oracle} (hfit : graph.DimensionsFit)

include hfit

theorem Operator.Conv2d.faults_lower_iff (op : Operator.Conv2d) :
    (op.lower (graph.context oracle)).Faults ↔
      ∃ input image kernel, graph.value? op.input = some input ∧ input.shape = image.toShape ∧
        op.Overflows image kernel := by
  constructor
  · rintro ⟨t, h⟩
    obtain ⟨image, kernel, hshape, hkernel, hgroups, hinput, houtput, hrest⟩ := lower_eq_fault.1 h
    obtain ⟨input, hvalue, hshape⟩ := Context.shape_eq_ok.1 hshape
    refine ⟨input, image, kernel, hvalue, hshape, hkernel, hgroups, hinput, houtput, ?_⟩
    obtain hmul | ⟨hmul, hbias, window, hwindow, hcount⟩ := hrest
    · exact .inl (Word.mul_eq_error.1 hmul).1
    · exact .inr ⟨(Word.mul_eq_ok.1 hmul).2, hbias,
        (Window.faults_count_iff (hfit.size_lt hvalue hshape)).1 ⟨window, hwindow, t, hcount⟩⟩
  · rintro ⟨input, image, kernel, hvalue, hshape, hkernel, hgroups, hinput, houtput, hrest⟩
    have hcontext : (graph.context oracle).shape op.input = .ok image.toShape :=
      Context.shape_eq_ok.2 ⟨input, hvalue, hshape⟩
    obtain hmul | ⟨hmul, hbias, hwindow⟩ := hrest
    · exact ⟨_, lower_eq_fault.2 ⟨image, kernel, hcontext, hkernel, hgroups, hinput, houtput,
        .inl (Word.mul_eq_error.2 ⟨hmul, rfl⟩)⟩⟩
    · obtain ⟨window, hwindow, t, hcount⟩ :=
        (Window.faults_count_iff (hfit.size_lt hvalue hshape)).2 hwindow
      have hword : kernel.groupChannels * op.groups < Word.size := by
        have hchannels : image.channels < UInt32.size := by
          refine hfit input (Array.mem_of_getElem? hvalue) _ ?_
          rw [hshape]
          simp [ImageShape.toShape]
        rw [hmul]
        exact Nat.lt_trans hchannels (by decide)
      exact ⟨t, lower_eq_fault.2 ⟨image, kernel, hcontext, hkernel, hgroups, hinput, houtput,
        .inr ⟨Word.mul_eq_ok.2 ⟨hword, hmul⟩, hbias, window, hwindow, hcount⟩⟩⟩

theorem Operator.ReduceWindow2d.faults_lower_iff (op : Operator.ReduceWindow2d) :
    (op.lower (graph.context oracle)).Faults ↔
      ∃ input image, graph.value? op.input = some input ∧ input.shape = image.toShape ∧
        op.Overflows image := by
  constructor
  · rintro ⟨t, h⟩
    obtain ⟨image, window, hshape, hwindow, hcount⟩ := lower_eq_fault.1 h
    obtain ⟨input, hvalue, hshape⟩ := Context.shape_eq_ok.1 hshape
    exact ⟨input, image, hvalue, hshape,
      (Window.faults_count_iff (hfit.size_lt hvalue hshape)).1 ⟨window, hwindow, t, hcount⟩⟩
  · rintro ⟨input, image, hvalue, hshape, hoverflows⟩
    obtain ⟨window, hwindow, t, hcount⟩ :=
      (Window.faults_count_iff (hfit.size_lt hvalue hshape)).2 hoverflows
    exact ⟨t, lower_eq_fault.2
      ⟨image, window, Context.shape_eq_ok.2 ⟨input, hvalue, hshape⟩, hwindow, hcount⟩⟩

end

/-- Attributes that a rule accepts fit their fields. -/
theorem Operator.Conv2d.Accepted.attributesFit {op : Operator.Conv2d} {context : Context}
    {image : ImageShape} {kernel : KernelShape} {count : Spatial Nat} {record : Record.Conv2d}
    (h : op.Accepted context image kernel count record) :
    FitsField op.groups ∧ Window.AttributesFit kernel.filter op.stride op.dilation := by
  refine ⟨⟨h.groups_ne_zero, ?_⟩, Window.exists_ofAttributes_eq_ok.1 ⟨_, h.window_eq⟩⟩
  rw [← h.groups_eq]
  exact record.groups.toNat_lt

/-- **The rules for windows are abandoned only where their numbers leave the word.** In a graph
    whose dimensions fit fields, lowering a convolution or a pooling ends in a record or an error
    unless the numbers of the operator overflow, and then it faults; no fault is a division by zero.
    An attribute that does not fit its field is an error, unless the channels of a convolution
    overflow before it is looked at. -/
theorem lower_faults_iff_window_overflows (graph : Graph) (oracle : Oracle)
    (hfit : graph.DimensionsFit) :
    (∀ op : Operator.Conv2d,
      ((op.lower (graph.context oracle)).Faults ↔
        ∃ input image kernel, graph.value? op.input = some input ∧ input.shape = image.toShape ∧
          op.Overflows image kernel) ∧
      (op.lower (graph.context oracle)).FaultsAre Fault.IsOverflow ∧
      (¬FitsField op.groups → ∃ e, op.lower (graph.context oracle) = .error e) ∧
      ∀ kernel : KernelShape, op.weights.shape = kernel.toShape →
        kernel.groupChannels * op.groups < Word.size →
        ¬Window.AttributesFit kernel.filter op.stride op.dilation →
        ∃ e, op.lower (graph.context oracle) = .error e) ∧
    ∀ op : Operator.ReduceWindow2d,
      ((op.lower (graph.context oracle)).Faults ↔
        ∃ input image, graph.value? op.input = some input ∧ input.shape = image.toShape ∧
          op.Overflows image) ∧
      (op.lower (graph.context oracle)).FaultsAre Fault.IsOverflow ∧
      (¬Window.AttributesFit op.filter op.stride op.dilation →
        ∃ e, op.lower (graph.context oracle) = .error e) := by
  refine ⟨fun op => ⟨op.faults_lower_iff hfit, op.faultsAre_lower _, fun hgroups => ?_,
    fun kernel hkernel hword hattributes => ?_⟩,
    fun op => ⟨op.faults_lower_iff hfit, op.faultsAre_lower _, fun hattributes => ?_⟩⟩
  · refine Outcome.exists_eq_error (fun r hr => ?_) fun hfault => ?_
    · obtain ⟨image, kernel, count, record, -, haccepted⟩ := op.exists_accepted_of_lower hr
      exact hgroups haccepted.attributesFit.1
    · obtain ⟨input, image, kernel, -, -, hoverflows⟩ := (op.faults_lower_iff hfit).1 hfault
      exact hgroups hoverflows.groups
  · have hunique {other : KernelShape} (h : op.weights.shape = other.toShape) : other = kernel :=
      Option.some.inj ((KernelShape.ofShape?_eq_some.2 h).symm.trans
        (KernelShape.ofShape?_eq_some.2 hkernel))
    refine Outcome.exists_eq_error (fun r hr => ?_) fun hfault => ?_
    · obtain ⟨image, other, count, record, -, haccepted⟩ := op.exists_accepted_of_lower hr
      cases hunique haccepted.kernel_eq
      exact hattributes haccepted.attributesFit.2
    · obtain ⟨input, image, other, -, -, hoverflows⟩ := (op.faults_lower_iff hfit).1 hfault
      cases hunique hoverflows.weights_shape
      rcases hoverflows.overflows with hmul | ⟨-, -, hwindow⟩
      · exact absurd hword (Nat.not_lt.2 hmul)
      · exact hattributes hwindow.attributesFit
  · refine Outcome.exists_eq_error (fun r hr => ?_) fun hfault => ?_
    · obtain ⟨image, count, record, -, haccepted⟩ := op.exists_accepted_of_lower hr
      exact hattributes (Window.exists_ofAttributes_eq_ok.1 ⟨_, haccepted.window_eq⟩)
    · obtain ⟨input, image, -, -, hoverflows⟩ := (op.faults_lower_iff hfit).1 hfault
      exact hattributes hoverflows.attributesFit

/-- A graph with an image of one place, and one of two channels. -/
def placesGraph : Graph where
  values := #[{ name := none, shape := [1, 1, 1, 1], elementType := .float32 },
    { name := none, shape := [1, 2, 1, 1], elementType := .float32 }]
  nodes := #[]

/-- A pooling of a column of places that lie apart. -/
def sparsePooling (filter dilation : Nat) : Operator.ReduceWindow2d where
  input := 0
  output := 0
  reduction := .max
  initial := Reduction.max.initial
  filter := { height := filter, width := 1 }
  padding := { height := .none, width := .none }
  stride := { height := 1, width := 1 }
  dilation := { height := dilation, width := 1 }
  activation := .linear

/-- With the largest dilation that fits its field, the window of a filter of `0x80000001` places can
    be said in a signed word and that of one place more cannot. With a larger dilation the operator
    is refused. -/
theorem lower_faults_iff_window_overflows_sparse :
    let oracle : Oracle := fun _ => none
    placesGraph.DimensionsFit ∧
      ¬((sparsePooling 0x80000001 0xFFFFFFFF).lower (placesGraph.context oracle)).Faults ∧
      ((sparsePooling 0x80000002 0xFFFFFFFF).lower (placesGraph.context oracle)).Faults ∧
      ∃ e, (sparsePooling 0x80000002 0x100000000).lower (placesGraph.context oracle) =
        .error e := by
  intro oracle
  have hfit : placesGraph.DimensionsFit := by decide
  obtain ⟨-, hpooling⟩ := lower_faults_iff_window_overflows placesGraph oracle hfit
  refine ⟨hfit, fun hfault => ?_, ?_, ?_⟩
  · obtain ⟨input, image, -, -, hoverflows⟩ := (hpooling _).1.1 hfault
    rcases hoverflows.extent with hheight | ⟨-, hwidth⟩
    · exact absurd hheight (by decide)
    · exact absurd hwidth (by decide)
  · refine (hpooling _).1.2 ⟨placesGraph.values[0], ⟨1, 1, ⟨1, 1⟩⟩, rfl, rfl, ?_⟩
    refine { attributesFit := fun spatial => ?_, extent := .inl (by decide) }
    cases spatial <;> decide
  · refine (hpooling _).2.2 fun hattributes => ?_
    exact absurd (hattributes .height).2.2 (by decide)

/-- A convolution in two groups, of an image with two channels. -/
def halvesConvolution (weights : ConstantTensor) : Operator.Conv2d where
  input := 1
  output := 1
  weights := weights
  bias := .ofArray #[]
  groups := 2
  padding := { height := .none, width := .none }
  stride := { height := 1, width := 1 }
  dilation := { height := 1, width := 1 }
  activation := .linear

/-- Neither a window of the largest attributes nor the channels of weights without elements are
    refused; lowering is abandoned at both. -/
theorem lower_abandoned_at_window :
    let oracle : Oracle := fun _ => none
    placesGraph.DimensionsFit ∧
      (sparsePooling 0xFFFFFFFF 0xFFFFFFFF).lower (placesGraph.context oracle) =
        .fault (.overflow .mul) ∧
      ∃ weights, ConstantTensor.ofShape? [0, 0x8000000000000000, 1, 1] #[] = .ok (some weights) ∧
        (halvesConvolution weights).lower (placesGraph.context oracle) =
          .fault (.overflow .mul) := by
  intro oracle
  refine ⟨by decide, rfl, { shape := [0, 0x8000000000000000, 1, 1], data := #[], size_eq := rfl },
    rfl, ?_⟩
  refine Operator.Conv2d.lower_eq_fault.2 ⟨⟨1, 2, ⟨1, 1⟩⟩, ⟨0, 0x8000000000000000, ⟨1, 1⟩⟩, rfl,
    rfl, ?_, ?_, ?_, .inl rfl⟩
  · decide
  · decide
  · decide

end TensorLowering
