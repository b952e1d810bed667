import TensorLowering.Rule.Window

set_option autoImplicit false

/-! # Rules for operators on images

Images have the dimensions batch, channel, height and width. Convolution and pooling slide a window
over height and width and keep the batch. -/

namespace TensorLowering

/-- The dimensions of a batch of images. -/
structure ImageShape where
  batch : Nat
  channels : Nat
  size : Spatial Nat
deriving DecidableEq, Repr

namespace ImageShape

/-- The dimensions of a shape of rank four. -/
def ofShape? : Shape → Option ImageShape
  | [batch, channels, height, width] => some { batch, channels, size := { height, width } }
  | _ => none

/-- The shape with these dimensions. -/
def toShape (image : ImageShape) : Shape :=
  [image.batch, image.channels, image.size.height, image.size.width]

theorem ofShape?_eq_some {shape : Shape} {image : ImageShape} :
    ofShape? shape = some image ↔ shape = image.toShape := by
  unfold ofShape?
  split
  · next b c h w =>
      constructor
      · intro heq; cases heq; rfl
      · intro heq; cases image; cases heq; rfl
  · next hne =>
      simp only [reduceCtorEq, false_iff]
      rintro rfl
      exact hne _ _ _ _ rfl

/-- The size of an image along an axis is one of the dimensions of its shape. -/
theorem size_mem_toShape (image : ImageShape) (spatial : SpatialAxis) :
    image.size.get spatial ∈ image.toShape := by
  cases spatial with
  | height => simp [toShape, Spatial.get]
  | width => simp [toShape, Spatial.get]

end ImageShape

/-- The dimensions of the weights of a convolution. -/
structure KernelShape where
  outChannels : Nat
  groupChannels : Nat
  filter : Spatial Nat
deriving DecidableEq, Repr

namespace KernelShape

/-- The dimensions of a shape of rank four. -/
def ofShape? : Shape → Option KernelShape
  | [outChannels, groupChannels, height, width] =>
      some { outChannels, groupChannels, filter := { height, width } }
  | _ => none

/-- The shape with these dimensions. -/
def toShape (kernel : KernelShape) : Shape :=
  [kernel.outChannels, kernel.groupChannels, kernel.filter.height, kernel.filter.width]

theorem ofShape?_eq_some {shape : Shape} {kernel : KernelShape} :
    ofShape? shape = some kernel ↔ shape = kernel.toShape := by
  unfold ofShape?
  split
  · next o g h w =>
      constructor
      · intro heq; cases heq; rfl
      · intro heq; cases kernel; cases heq; rfl
  · next hne =>
      simp only [reduceCtorEq, false_iff]
      rintro rfl
      exact hne _ _ _ _ rfl

end KernelShape

/-- The dimensions of a batch of images, if the shape is one. -/
def imageShape (shape : Shape) : Outcome RuleError ImageShape :=
  Outcome.ofOption (.incompatibleShapes (.notImages shape)) (ImageShape.ofShape? shape)

/-- Checks that an output has the dimensions that windows give it. -/
def requireImages (found : Shape) (expected : ImageShape) : Outcome RuleError Unit :=
  Outcome.require (found = expected.toShape)
    (.incompatibleShapes (.output found .computed expected.toShape))

@[simp] theorem imageShape_eq_ok {shape : Shape} {image : ImageShape} :
    imageShape shape = .ok image ↔ shape = image.toShape := by
  rw [imageShape, Outcome.ofOption_eq_ok, ImageShape.ofShape?_eq_some]

@[simp] theorem imageShape_eq_error {shape : Shape} {e : RuleError} :
    imageShape shape = .error e ↔
      ImageShape.ofShape? shape = none ∧ RuleError.incompatibleShapes (.notImages shape) = e := by
  rw [imageShape, Outcome.ofOption_eq_error]

@[simp] theorem imageShape_ne_fault {shape : Shape} {t : Fault} : imageShape shape ≠ .fault t :=
  Outcome.ofOption_ne_fault

@[simp] theorem requireImages_eq_ok {found : Shape} {expected : ImageShape} {u : Unit} :
    requireImages found expected = .ok u ↔ found = expected.toShape :=
  Outcome.require_eq_ok

@[simp] theorem requireImages_eq_error {found : Shape} {expected : ImageShape} {e : RuleError} :
    requireImages found expected = .error e ↔ found ≠ expected.toShape ∧
      RuleError.incompatibleShapes (.output found .computed expected.toShape) = e :=
  Outcome.require_eq_error

@[simp] theorem requireImages_ne_fault {found : Shape} {expected : ImageShape} {t : Fault} :
    requireImages found expected ≠ .fault t :=
  Outcome.require_ne_fault

/-! ## Convolution -/

/-- The rule for convolution. The groups divide the channels of input and output evenly, the weights
    are for the input channels of one group, and the bias has a value per output channel. -/
def Operator.Conv2d.lower (op : Operator.Conv2d) (context : Context) :
    Outcome RuleError Record := do
  let shape ← context.shape op.input
  let image ← imageShape shape
  let kernel ← Outcome.ofOption (.invalidAttribute .weights .notKernel)
    (KernelShape.ofShape? op.weights.shape)
  let groups ← positiveField .groups op.groups
  -- The groups are positive by now, so the remainders exist; the product may still leave the word.
  let inputExcess ← Word.mod image.channels op.groups
  let outputExcess ← Word.mod kernel.outChannels op.groups
  Outcome.require (inputExcess = 0 ∧ outputExcess = 0) (.invalidAttribute .groups .unevenGroups)
  let channels ← Word.mul kernel.groupChannels op.groups
  Outcome.require (channels = image.channels)
    (.incompatibleShapes (.channels kernel.groupChannels image.channels op.groups))
  Outcome.require (op.bias.size = kernel.outChannels)
    (.invalidAttribute .bias (.valueCount kernel.outChannels op.bias.size))
  let window ←
    Window.ofAttributes (fun _ => .weights) kernel.filter op.padding op.stride op.dilation
  let size ← window.count image.size
  let found ← context.shape op.output
  requireImages found { batch := image.batch, channels := kernel.outChannels, size }
  let input ← context.range op.input
  let output ← context.range op.output
  let inputShape ← shapeField shape
  let outChannels ← sizeField .weights kernel.outChannels
  let activation ← activationField op.activation
  return .conv2d
    { input, output, inputShape, groups, outChannels, window, activation,
      weights := op.weights, bias := op.bias }

/-- What the rule for convolution finds, and what it makes of it, where it makes a record. -/
structure Operator.Conv2d.Accepted (op : Operator.Conv2d) (context : Context) (image : ImageShape)
    (kernel : KernelShape) (size : Spatial Nat) (record : Record.Conv2d) : Prop where
  shape_eq : context.shape op.input = .ok image.toShape
  kernel_eq : op.weights.shape = kernel.toShape
  groups_ne_zero : op.groups ≠ 0
  groups_eq : record.groups.toNat = op.groups
  channels_mod : image.channels % op.groups = 0
  outChannels_mod : kernel.outChannels % op.groups = 0
  channels_eq : kernel.groupChannels * op.groups = image.channels
  bias_size : op.bias.size = kernel.outChannels
  window_eq : Window.ofAttributes (fun _ => .weights) kernel.filter op.padding op.stride
    op.dilation = .ok record.window
  count_eq : record.window.count image.size = .ok size
  found_eq : context.shape op.output =
    .ok { batch := image.batch, channels := kernel.outChannels, size : ImageShape }.toShape
  input_eq : context.range? op.input = some record.input
  output_eq : context.range? op.output = some record.output
  inputShape_eq : image.toShape.toAxisArray = .ok record.inputShape
  outChannels_eq : record.outChannels.toNat = kernel.outChannels
  activation_eq : record.activation = op.activation
  weights_eq : record.weights = op.weights
  bias_eq : record.bias = op.bias

/-- Each record of a convolution is of an operator that the rule accepts. -/
theorem Operator.Conv2d.exists_accepted_of_lower {op : Operator.Conv2d} {context : Context}
    {r : Record} (h : op.lower context = .ok r) :
    ∃ image kernel size record, r = .conv2d record ∧
      op.Accepted context image kernel size record := by
  simp only [lower, Outcome.bind_eq_ok, imageShape_eq_ok, Outcome.ofOption_eq_ok,
    KernelShape.ofShape?_eq_some, positiveField_eq_ok, Outcome.liftM_eq, Outcome.ofChecked_eq_ok,
    Word.mod_eq_ok, Word.mul_eq_ok, Outcome.require_eq_ok, requireImages_eq_ok,
    Context.range_eq_ok, shapeField_eq_ok, sizeField_eq_ok, Outcome.pure_eq_ok,
    Outcome.ok.injEq] at h
  obtain ⟨shape, hshape, image, rfl, kernel, hkernel, groups, ⟨hzero, hgroups⟩, _, ⟨-, rfl⟩, _,
    ⟨-, rfl⟩, _, ⟨hmod, houtMod⟩, _, ⟨-, rfl⟩, _, hchannels, _, hbias, window, hwindow, size,
    hcount, found, hfound, _, rfl, input, hinput, output, houtput, axes, haxes, outChannels,
    houtChannels, activation, hactivation, rfl⟩ := h
  exact ⟨image, kernel, size, _, rfl,
    { shape_eq := hshape
      kernel_eq := hkernel
      groups_ne_zero := hzero
      groups_eq := hgroups
      channels_mod := hmod
      outChannels_mod := houtMod
      channels_eq := hchannels
      bias_size := hbias
      window_eq := hwindow
      count_eq := hcount
      found_eq := hfound
      input_eq := hinput
      output_eq := houtput
      inputShape_eq := haxes
      outChannels_eq := houtChannels
      activation_eq := activationField_eq_ok hactivation
      weights_eq := rfl
      bias_eq := rfl }⟩

/-- Of an operator that is refused for its padding the windows have been counted. -/
theorem Operator.Conv2d.count_eq_error_of_lower {op : Operator.Conv2d} {context : Context}
    {spatial : SpatialAxis} {cause : AttributeCause}
    (h : op.lower context = .error (.invalidAttribute (.padding spatial) cause)) :
    ∃ (image : ImageShape) (kernel : KernelShape) (window : Window),
      context.shape op.input = .ok image.toShape ∧ op.weights.shape = kernel.toShape ∧
      Window.ofAttributes (fun _ => .weights) kernel.filter op.padding op.stride op.dilation =
        .ok window ∧
      window.count image.size = .error (.invalidAttribute (.padding spatial) cause) := by
  -- Each other step succeeds, faults, or fails for a reason that is not the padding.
  simp only [lower, Outcome.bind_eq_error, Context.shape_eq_error, imageShape_eq_ok,
    imageShape_eq_error, Outcome.ofOption_eq_ok, Outcome.ofOption_eq_error,
    KernelShape.ofShape?_eq_some, positiveField_eq_error, Outcome.liftM_eq,
    Outcome.ofChecked_ne_error, Outcome.require_eq_error, requireImages_eq_ok,
    requireImages_eq_error, Context.range_eq_error, shapeField_eq_error, sizeField_eq_error,
    activationField_eq_error, Outcome.pure_eq_ok, RuleError.invalidAttribute.injEq, reduceCtorEq,
    false_and, and_false, exists_false, false_or, or_false] at h
  obtain ⟨_, hshape, image, rfl, kernel, hkernel, _, -, _, -, _, -, _, -, _, -, _, -, _, -,
    hwindow | ⟨window, hwindow, hcount⟩⟩ := h
  · obtain ⟨_, _, he | he | he⟩ := Window.ofAttributes_eq_error hwindow <;> cases he
  · exact ⟨image, kernel, window, hshape, hkernel, hwindow, hcount⟩

/-- The rule for convolution is abandoned at the product of the groups with the channels of a group,
    or when it counts the windows. -/
theorem Operator.Conv2d.lower_eq_fault {op : Operator.Conv2d} {context : Context} {t : Fault} :
    op.lower context = .fault t ↔
      ∃ (image : ImageShape) (kernel : KernelShape), context.shape op.input = .ok image.toShape ∧
        op.weights.shape = kernel.toShape ∧ FitsField op.groups ∧ op.groups ∣ image.channels ∧
        op.groups ∣ kernel.outChannels ∧
        (Word.mul kernel.groupChannels op.groups = .error t ∨
          Word.mul kernel.groupChannels op.groups = .ok image.channels ∧
          op.bias.size = kernel.outChannels ∧
          ∃ window, Window.ofAttributes (fun _ => .weights) kernel.filter op.padding op.stride
              op.dilation = .ok window ∧
            window.count image.size = .fault t) := by
  simp only [lower, Outcome.bind_eq_fault, imageShape_eq_ok, Context.shape_ne_fault,
    imageShape_ne_fault, Outcome.ofOption_ne_fault, Outcome.ofOption_eq_ok,
    KernelShape.ofShape?_eq_some, positiveField_ne_fault, Outcome.liftM_eq,
    Outcome.ofChecked_eq_fault, Outcome.ofChecked_eq_ok, Outcome.require_ne_fault,
    Outcome.require_eq_ok, Window.ofAttributes_ne_fault, requireImages_ne_fault,
    Context.range_ne_fault, shapeField_ne_fault, sizeField_ne_fault, activationField_ne_fault,
    Outcome.pure_eq_ok, reduceCtorEq, and_false, exists_false, false_or, or_false]
  constructor
  · rintro ⟨_, hshape, image, rfl, kernel, hkernel, groups, hgroups, hrest⟩
    have hfit := exists_positiveField_eq_ok.1 ⟨groups, hgroups⟩
    have hmod {n : Nat} : Word.mod n op.groups ≠ .error t := fun h =>
      hfit.1 (Word.mod_eq_error.1 h).1
    -- The groups are positive, so the remainders exist.
    obtain hfault | ⟨_, hinput, hfault | ⟨_, houtput, _, ⟨rfl, rfl⟩, hrest⟩⟩ := hrest
    · exact absurd hfault hmod
    · exact absurd hfault hmod
    refine ⟨image, kernel, hshape, hkernel, hfit,
      Nat.dvd_of_mod_eq_zero (Word.mod_eq_ok.1 hinput).2,
      Nat.dvd_of_mod_eq_zero (Word.mod_eq_ok.1 houtput).2, ?_⟩
    obtain hmul | ⟨_, hmul, _, rfl, _, hbias, window, hwindow, hcount⟩ := hrest
    · exact .inl hmul
    · exact .inr ⟨hmul, hbias, window, hwindow, hcount⟩
  · rintro ⟨image, kernel, hshape, hkernel, hfit, hinput, houtput, hrest⟩
    obtain ⟨groups, hgroups⟩ := exists_positiveField_eq_ok.2 hfit
    have hmod {n : Nat} (h : op.groups ∣ n) : Word.mod n op.groups = .ok 0 :=
      Word.mod_eq_ok.2 ⟨hfit.1, Nat.mod_eq_zero_of_dvd h⟩
    refine ⟨_, hshape, image, rfl, kernel, hkernel, groups, hgroups,
      .inr ⟨0, hmod hinput, .inr ⟨0, hmod houtput, (), ⟨rfl, rfl⟩, ?_⟩⟩⟩
    obtain hmul | ⟨hmul, hbias, window, hwindow, hcount⟩ := hrest
    · exact .inl hmul
    · exact .inr ⟨_, hmul, (), rfl, (), hbias, window, hwindow, hcount⟩

/-- Lowering a convolution divides by no zero: it takes remainders by the groups and quotients by
    the strides only after it has found them positive. -/
theorem Operator.Conv2d.faultsAre_lower (op : Operator.Conv2d) (context : Context) :
    (op.lower context).FaultsAre Fault.IsOverflow := by
  intro t h
  obtain ⟨image, kernel, -, -, -, -, -, hmul | ⟨-, -, window, hwindow, hcount⟩⟩ :=
    lower_eq_fault.1 h
  · exact Word.isOverflow_of_mul_eq_error hmul
  · exact Window.isOverflow_of_count_eq_fault hwindow hcount

/-! ## Pooling -/

/-- The rule for pooling: every channel has its own windows. -/
def Operator.ReduceWindow2d.lower (op : Operator.ReduceWindow2d) (context : Context) :
    Outcome RuleError Record := do
  let shape ← context.shape op.input
  let image ← imageShape shape
  let window ← Window.ofAttributes .filter op.filter op.padding op.stride op.dilation
  let size ← window.count image.size
  let found ← context.shape op.output
  requireImages found { image with size }
  let input ← context.range op.input
  let output ← context.range op.output
  let inputShape ← shapeField shape
  let activation ← activationField op.activation
  return .reduceWindow2d
    { input, output, reduction := op.reduction, inputShape, window, initial := op.initial,
      activation }

/-- What the rule for pooling finds, and what it makes of it, where it makes a record. -/
structure Operator.ReduceWindow2d.Accepted (op : Operator.ReduceWindow2d) (context : Context)
    (image : ImageShape) (size : Spatial Nat) (record : Record.ReduceWindow2d) : Prop where
  shape_eq : context.shape op.input = .ok image.toShape
  window_eq : Window.ofAttributes .filter op.filter op.padding op.stride op.dilation =
    .ok record.window
  count_eq : record.window.count image.size = .ok size
  found_eq : context.shape op.output = .ok { image with size }.toShape
  input_eq : context.range? op.input = some record.input
  output_eq : context.range? op.output = some record.output
  inputShape_eq : image.toShape.toAxisArray = .ok record.inputShape
  reduction_eq : record.reduction = op.reduction
  initial_eq : record.initial = op.initial
  activation_eq : record.activation = op.activation

/-- Each record of a pooling is of an operator that the rule accepts. -/
theorem Operator.ReduceWindow2d.exists_accepted_of_lower {op : Operator.ReduceWindow2d}
    {context : Context} {r : Record} (h : op.lower context = .ok r) :
    ∃ image size record, r = .reduceWindow2d record ∧ op.Accepted context image size record := by
  simp only [lower, Outcome.bind_eq_ok, imageShape_eq_ok, requireImages_eq_ok,
    Context.range_eq_ok, shapeField_eq_ok, Outcome.pure_eq_ok, Outcome.ok.injEq] at h
  obtain ⟨shape, hshape, image, rfl, window, hwindow, size, hcount, found, hfound, _, rfl, input,
    hinput, output, houtput, axes, haxes, activation, hactivation, rfl⟩ := h
  exact ⟨image, size, _, rfl,
    { shape_eq := hshape
      window_eq := hwindow
      count_eq := hcount
      found_eq := hfound
      input_eq := hinput
      output_eq := houtput
      inputShape_eq := haxes
      reduction_eq := rfl
      initial_eq := rfl
      activation_eq := activationField_eq_ok hactivation }⟩

theorem Operator.ReduceWindow2d.count_eq_error_of_lower {op : Operator.ReduceWindow2d}
    {context : Context} {spatial : SpatialAxis} {cause : AttributeCause}
    (h : op.lower context = .error (.invalidAttribute (.padding spatial) cause)) :
    ∃ (image : ImageShape) (window : Window), context.shape op.input = .ok image.toShape ∧
      Window.ofAttributes .filter op.filter op.padding op.stride op.dilation = .ok window ∧
      window.count image.size = .error (.invalidAttribute (.padding spatial) cause) := by
  simp only [lower, Outcome.bind_eq_error, Context.shape_eq_error, imageShape_eq_ok,
    imageShape_eq_error, requireImages_eq_ok, requireImages_eq_error, Context.range_eq_error,
    shapeField_eq_error, activationField_eq_error, Outcome.pure_eq_ok,
    RuleError.invalidAttribute.injEq, reduceCtorEq, false_and, and_false, exists_false, false_or,
    or_false] at h
  obtain ⟨_, hshape, image, rfl, hwindow | ⟨window, hwindow, hcount⟩⟩ := h
  · obtain ⟨_, _, he | he | he⟩ := Window.ofAttributes_eq_error hwindow <;> cases he
  · exact ⟨image, window, hshape, hwindow, hcount⟩

/-- Only counting the windows can abandon the rule for pooling. -/
theorem Operator.ReduceWindow2d.lower_eq_fault {op : Operator.ReduceWindow2d} {context : Context}
    {t : Fault} :
    op.lower context = .fault t ↔
      ∃ (image : ImageShape) (window : Window), context.shape op.input = .ok image.toShape ∧
        Window.ofAttributes .filter op.filter op.padding op.stride op.dilation = .ok window ∧
        window.count image.size = .fault t := by
  simp only [lower, Outcome.bind_eq_fault, imageShape_eq_ok, Context.shape_ne_fault,
    imageShape_ne_fault, Window.ofAttributes_ne_fault, requireImages_ne_fault,
    Context.range_ne_fault, shapeField_ne_fault, activationField_ne_fault, Outcome.pure_eq_ok,
    reduceCtorEq, and_false, exists_false, false_or, or_false]
  constructor
  · rintro ⟨_, hshape, image, rfl, window, hwindow, hcount⟩
    exact ⟨image, window, hshape, hwindow, hcount⟩
  · rintro ⟨image, window, hshape, hwindow, hcount⟩
    exact ⟨_, hshape, image, rfl, window, hwindow, hcount⟩

theorem Operator.ReduceWindow2d.faultsAre_lower (op : Operator.ReduceWindow2d) (context : Context) :
    (op.lower context).FaultsAre Fault.IsOverflow := by
  intro t h
  obtain ⟨image, window, -, hwindow, hcount⟩ := lower_eq_fault.1 h
  exact Window.isOverflow_of_count_eq_fault hwindow hcount

end TensorLowering
