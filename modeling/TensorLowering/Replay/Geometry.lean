import TensorLowering.Record

set_option autoImplicit false

/-! # What a window record covers

Convolution and pooling records say how windows slide but not how many there are; the interpreter
computes that, and with it the shape of the output, from the record alone. The arithmetic is exact.
-/

namespace TensorLowering

/-- The sizes of the two axes of an image, in the axis array of a batch of images. -/
def AxisArray.image (axes : AxisArray) : Spatial Nat :=
  { height := axes[2].toNat, width := axes[3].toNat }

namespace Window

variable (window : Window)

/-- The size of an axis of `size` places once it is padded. -/
def padded (spatial : SpatialAxis) (size : Nat) : Int := size + (window.padding.get spatial).total

/-- The number of places that the window covers along an axis, from its first to its last. -/
def extent (spatial : SpatialAxis) : Int :=
  (window.dilation.get spatial).toNat * ((window.filter.get spatial).toNat - 1) + 1

/-- The number of windows along an axis of `size` places. -/
def places (spatial : SpatialAxis) (size : Nat) : Nat :=
  let slack := window.padded spatial size - window.extent spatial
  (slack / (window.stride.get spatial).toNat + 1).toNat

/-- The place on the padded axis that a tap of the filter is at in one of the windows. -/
def place (spatial : SpatialAxis) (index tap : Nat) : Int :=
  index * (window.stride.get spatial).toNat + tap * (window.dilation.get spatial).toNat

/-- So many windows fill an axis of `size` places: there is at least one, all taps of each are on
    the padded axis, and one more would reach past its end. -/
structure Fills (spatial : SpatialAxis) (size count : Nat) : Prop where
  one_le : 1 ≤ count
  on_axis : ∀ index < count, ∀ tap < (window.filter.get spatial).toNat,
    0 ≤ window.place spatial index tap ∧
      window.place spatial index tap < window.padded spatial size
  full : window.padded spatial size ≤
    count * (window.stride.get spatial).toNat +
      (window.dilation.get spatial).toNat * ((window.filter.get spatial).toNat - 1)

/-- The number of windows along each axis of an image. -/
def image (size : Spatial Nat) : Spatial Nat :=
  { height := window.places .height size.height, width := window.places .width size.width }

end Window

/-! ## Counting windows -/

namespace Window

variable {window : Window} {spatial : SpatialAxis} {size : Nat}

/-- If one window fits, the windows that start within the slack fill the axis. -/
theorem fills_places (hstride : (window.stride.get spatial).toNat ≠ 0)
    (hfits : window.extent spatial ≤ window.padded spatial size) :
    window.Fills spatial size (window.places spatial size) := by
  obtain ⟨slack, hslack⟩ := Int.eq_ofNat_of_zero_le (Int.sub_nonneg_of_le hfits)
  have hplaces : window.places spatial size = slack / (window.stride.get spatial).toNat + 1 := by
    unfold places
    rw [hslack]
    exact Int.toNat_natCast _
  -- In exact numbers, the windows are those that start within the slack.
  rw [extent] at hslack
  rw [hplaces]
  refine { one_le := Nat.le_add_left .., on_axis := fun index hindex tap htap => ?_, full := ?_ }
  · have hstart : index * (window.stride.get spatial).toNat ≤ slack :=
      (Nat.le_div_iff_mul_le (Nat.pos_of_ne_zero hstride)).1 (Nat.le_of_lt_succ hindex)
    have hstart : (index * (window.stride.get spatial).toNat : Int) ≤ slack := by
      exact_mod_cast hstart
    have hreach : (tap * (window.dilation.get spatial).toNat : Int) ≤
        (window.dilation.get spatial).toNat * ((window.filter.get spatial).toNat - 1) := by
      rw [Int.mul_comm]
      exact Int.mul_le_mul_of_nonneg_left (by omega) (Int.natCast_nonneg _)
    refine ⟨?_, ?_⟩
    · exact Int.add_nonneg (Int.mul_nonneg (Int.natCast_nonneg _) (Int.natCast_nonneg _))
        (Int.mul_nonneg (Int.natCast_nonneg _) (Int.natCast_nonneg _))
    · rw [place]
      omega
  · have hnext : slack < (slack / (window.stride.get spatial).toNat + 1) *
        (window.stride.get spatial).toNat :=
      (Nat.div_lt_iff_lt_mul (Nat.pos_of_ne_zero hstride)).1 (Nat.lt_succ_self _)
    have hnext : (slack : Int) < (slack / (window.stride.get spatial).toNat + 1 : Nat) *
        (window.stride.get spatial).toNat := by
      exact_mod_cast hnext
    omega

end Window

/-! ## The shape of the output -/

/-- The shape of the output of a convolution. -/
def Record.Conv2d.outputShape (record : Record.Conv2d) : Shape :=
  let size := record.window.image record.inputShape.image
  [record.inputShape[0].toNat, record.outChannels.toNat, size.height, size.width]

/-- The shape of the output of a pooling. -/
def Record.ReduceWindow2d.outputShape (record : Record.ReduceWindow2d) : Shape :=
  let size := record.window.image record.inputShape.image
  [record.inputShape[0].toNat, record.inputShape[1].toNat, size.height, size.width]

/-- The input channel that the weights of an output channel meet at their channel `channel`, where
    each group has `groupChannels` input channels. -/
def Record.Conv2d.inputChannel (record : Record.Conv2d) (groupChannels outChannel channel : Nat) :
    Nat :=
  outChannel / (record.outChannels.toNat / record.groups.toNat) * groupChannels + channel

end TensorLowering
