import TensorLowering.Proofs.WindowGeometry

set_option autoImplicit false

/-! # The channels of a grouped convolution

A convolution divides the channels of its input and of its output evenly among groups. The weights
of an output channel meet the input channels of its own group only, so the interpreter computes from
the index of the output channel where these begin. The rule compares no index with a bound: its
checks are about the numbers of channels alone. That every index which the interpreter computes from
a record is within bounds follows from them (`Operator.Conv2d.reads_in_bounds`), and neither the
rule nor the interpreter divides by zero on the way. -/

namespace TensorLowering

/-! ## Groups of equal size -/

/-- Groups that share some channels evenly have at least one channel each, if there is any. -/
theorem div_ne_zero_of_dvd {groups channels channel : Nat} (hdvd : groups ∣ channels)
    (hchannel : channel < channels) : channels / groups ≠ 0 := by
  intro hzero
  have hall : channels / groups * groups = channels := Nat.div_mul_cancel hdvd
  rw [hzero, Nat.zero_mul] at hall
  omega

/-- The channels of one of several groups, counted through, come before the end of the last. -/
theorem div_mul_add_lt {groups channels groupChannels outChannel channel : Nat}
    (hdvd : groups ∣ channels) (hout : outChannel < channels) (hchannel : channel < groupChannels) :
    outChannel / (channels / groups) * groupChannels + channel < groups * groupChannels := by
  have hgroup : outChannel / (channels / groups) < groups := by
    apply Nat.div_lt_of_lt_mul
    rw [Nat.div_mul_cancel hdvd]
    exact hout
  exact Shape.mul_add_lt_mul hgroup hchannel

/-! ## Convolutions with even groups -/

namespace Record.Conv2d

/-- The channels of input and output are divided evenly among the groups, and there are as many
    weights and biases as that takes. Each group has `groupChannels` of the input channels. -/
structure EvenGroups (record : Record.Conv2d) (groupChannels : Nat) : Prop where
  one_le_groups : 1 ≤ record.groups.toNat
  dvd_inputChannels : record.groups.toNat ∣ record.inputShape[1].toNat
  dvd_outChannels : record.groups.toNat ∣ record.outChannels.toNat
  inputChannels_eq : record.inputShape[1].toNat = record.groups.toNat * groupChannels
  weights_shape : record.weights.shape = [record.outChannels.toNat, groupChannels,
    record.window.filter.height.toNat, record.window.filter.width.toNat]
  weights_size : record.weights.data.size = record.outChannels.toNat * groupChannels *
    record.window.filter.height.toNat * record.window.filter.width.toNat
  bias_size : record.bias.data.size = record.outChannels.toNat

/-- What the interpreter reads for a weight is there: the input channel that the weight meets, the
    weight itself and the bias of its output channel. To find the input channel the interpreter
    divides by the number of output channels of a group. -/
structure ReadsInBounds (record : Record.Conv2d)
    (groupChannels outChannel channel row column : Nat) : Prop where
  groupSize_ne_zero : record.outChannels.toNat / record.groups.toNat ≠ 0
  inputChannel_lt :
    record.inputChannel groupChannels outChannel channel < record.inputShape[1].toNat
  weight_lt : record.weights.shape.offset [outChannel, channel, row, column] <
    record.weights.data.size
  bias_lt : outChannel < record.bias.data.size

variable {record : Record.Conv2d} {groupChannels : Nat}

/-- With even groups, the interpreter stays within bounds at each weight. -/
theorem EvenGroups.readsInBounds (h : record.EvenGroups groupChannels)
    {outChannel channel row column : Nat} (hout : outChannel < record.outChannels.toNat)
    (hchannel : channel < groupChannels) (hrow : row < record.window.filter.height.toNat)
    (hcolumn : column < record.window.filter.width.toNat) :
    record.ReadsInBounds groupChannels outChannel channel row column := by
  have hcontains : record.weights.shape.Contains [outChannel, channel, row, column] := by
    rw [h.weights_shape]
    exact ⟨hout, hchannel, hrow, hcolumn, trivial⟩
  refine { groupSize_ne_zero := ?_, inputChannel_lt := ?_, weight_lt := ?_, bias_lt := ?_ }
  · exact div_ne_zero_of_dvd h.dvd_outChannels hout
  · rw [inputChannel, h.inputChannels_eq]
    exact div_mul_add_lt h.dvd_outChannels hout hchannel
  · rw [record.weights.size_eq]
    exact Shape.offset_lt hcontains
  · rw [h.bias_size]
    exact hout

end Record.Conv2d

/-! ## The checks of the rule -/

/-- The rule makes records with even groups only. -/
theorem Operator.Conv2d.Accepted.evenGroups {op : Operator.Conv2d} {context : Context}
    {image : ImageShape} {kernel : KernelShape} {count : Spatial Nat} {record : Record.Conv2d}
    (h : op.Accepted context image kernel count record) :
    record.EvenGroups kernel.groupChannels := by
  obtain ⟨-, hchannels, -⟩ := ImageShape.fields_of_toAxisArray h.inputShape_eq
  obtain ⟨-, hfilter, -⟩ := Window.ofAttributes_eq_ok h.window_eq
  have hshape : record.weights.shape = [record.outChannels.toNat, kernel.groupChannels,
      record.window.filter.height.toNat, record.window.filter.width.toNat] := by
    have hheight : record.window.filter.height.toNat = kernel.filter.height := (hfilter .height).2
    have hwidth : record.window.filter.width.toNat = kernel.filter.width := (hfilter .width).2
    rw [h.weights_eq, h.kernel_eq, h.outChannels_eq, hheight, hwidth]
    rfl
  refine
    { one_le_groups := ?_
      dvd_inputChannels := ?_
      dvd_outChannels := ?_
      inputChannels_eq := ?_
      weights_shape := hshape
      weights_size := ?_
      bias_size := ?_ }
  · rw [h.groups_eq]
    exact Nat.one_le_iff_ne_zero.2 h.groups_ne_zero
  · rw [h.groups_eq, hchannels]
    exact Nat.dvd_of_mod_eq_zero h.channels_mod
  · rw [h.groups_eq, h.outChannels_eq]
    exact Nat.dvd_of_mod_eq_zero h.outChannels_mod
  · rw [h.groups_eq, hchannels, ← h.channels_eq, Nat.mul_comm]
  · rw [record.weights.size_eq, hshape]
    simp only [Shape.elements_cons, Shape.elements_nil, Nat.mul_one, Nat.mul_assoc]
  · rw [h.bias_eq, h.outChannels_eq]
    exact h.bias_size

/-- **A grouped convolution stays within bounds.** A record that the rule makes has even groups, of
    the channels that the input has in the graph and with the weights and the bias of the operator,
    and for every weight the interpreter reads an input channel, a weight and a bias that are there.
    Where the rule makes no record, it has divided by no zero. -/
theorem Operator.Conv2d.reads_in_bounds (graph : Graph) (oracle : Oracle) (op : Operator.Conv2d) :
    (∀ r, op.lower (graph.context oracle) = .ok r →
      ∃ (record : Record.Conv2d) (groupChannels : Nat) (input : Value), r = .conv2d record ∧
        graph.value? op.input = some input ∧ input.shape = record.inputShape.dims ∧
        record.groups.toNat = op.groups ∧ record.weights = op.weights ∧ record.bias = op.bias ∧
        record.EvenGroups groupChannels ∧
        ∀ outChannel < record.outChannels.toNat, ∀ channel < groupChannels,
          ∀ row < record.window.filter.height.toNat,
            ∀ column < record.window.filter.width.toNat,
              record.ReadsInBounds groupChannels outChannel channel row column) ∧
    op.lower (graph.context oracle) ≠ .fault .divisionByZero ∧
    op.lower (graph.context oracle) ≠ .fault .remainderByZero := by
  have hfaults := op.faultsAre_lower (graph.context oracle)
  refine ⟨?_, ?_, ?_⟩
  · intro r h
    obtain ⟨image, kernel, count, record, rfl, haccepted⟩ := op.exists_accepted_of_lower h
    obtain ⟨input, hinput, hshape⟩ := Context.shape_eq_ok.1 haccepted.shape_eq
    have hdims := ImageShape.dims_of_toAxisArray haccepted.inputShape_eq
    have hgroups := haccepted.evenGroups
    exact ⟨record, kernel.groupChannels, input, rfl, hinput, hshape.trans hdims.symm,
      haccepted.groups_eq, haccepted.weights_eq, haccepted.bias_eq, hgroups,
      fun _ hout _ hchannel _ hrow _ hcolumn => hgroups.readsInBounds hout hchannel hrow hcolumn⟩
  · intro h
    obtain ⟨operation, hoverflow⟩ := hfaults _ h
    cases hoverflow
  · intro h
    obtain ⟨operation, hoverflow⟩ := hfaults _ h
    cases hoverflow

/-- A graph with an image of four channels, and one of six. -/
def groupedGraph : Graph where
  values := #[{ name := none, shape := [1, 4, 1, 1], elementType := .float32 },
    { name := none, shape := [1, 6, 1, 1], elementType := .float32 }]
  nodes := #[]

/-- A convolution of single places in two groups, from two channels to three each. -/
def groupedConvolution : Operator.Conv2d where
  input := 0
  output := 1
  weights := { shape := [6, 2, 1, 1], data := .replicate 12 .zero, size_eq := rfl }
  bias := .ofArray (.replicate 6 .zero)
  groups := 2
  padding := { height := .none, width := .none }
  stride := { height := 1, width := 1 }
  dilation := { height := 1, width := 1 }
  activation := .linear

/-- The last output channel of two groups meets the last input channel. -/
theorem Operator.Conv2d.reads_in_bounds_last :
    let oracle : Oracle := fun value =>
      some { region := .data, start := .ofNat (24 * value.index), size := 24 }
    ∃ record, groupedConvolution.lower (groupedGraph.context oracle) = .ok (.conv2d record) ∧
      record.EvenGroups 2 ∧ record.ReadsInBounds 2 5 1 0 0 ∧ record.inputChannel 2 5 1 = 3 := by
  intro oracle
  obtain ⟨hrecord, -, -⟩ := Operator.Conv2d.reads_in_bounds groupedGraph oracle groupedConvolution
  obtain ⟨record, groupChannels, input, heq, -, -, -, hweights, -, hgroups, hreads⟩ :=
    hrecord _ rfl
  cases heq
  cases hgroups.weights_shape
  exact ⟨_, rfl, hgroups, hreads 5 (by decide) 1 (by decide) 0 (by decide) 0 (by decide), rfl⟩

end TensorLowering
