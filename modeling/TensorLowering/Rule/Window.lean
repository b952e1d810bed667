import TensorLowering.Rule.Field

set_option autoImplicit false

/-! # Sliding windows

Convolution and pooling slide a window over the two axes of an image. Along an axis a window covers
`dilation * (filter - 1) + 1` places of the padded axis, and consecutive windows start `stride`
places apart; the output has as many places as windows fit. The computation is in signed words,
since a negative padding crops. -/

namespace TensorLowering

/-- The number of places that windows have along an axis. Filter, stride and dilation are at least
    one. -/
def countWindows (spatial : SpatialAxis) (size : Nat) (padding : Padding)
    (filter stride dilation : UInt32) : Outcome RuleError Nat := do
  let padded ← Signed.add (Signed.ofWord size) padding.total
  let reach ← Signed.mul dilation.toNat (filter.toNat - 1)
  let extent ← Signed.add reach 1
  Outcome.require (extent ≤ padded)
    (.invalidAttribute (.padding spatial) (.windowTooLarge padded extent))
  -- From here on no step can leave the word: both sizes fit, and the slack is not negative.
  let slack ← Signed.sub padded extent
  let steps ← Signed.div slack stride.toNat
  let count ← Signed.add steps 1
  return count.toNat

/-- The number of places that a window covers along an axis, from its first to its last. -/
def windowExtent (filter dilation : Nat) : Int := dilation * (filter - 1) + 1

namespace Window

/-- The window with the given attributes, each of which has to be at least one and fit its field. An
    error about the filter names the attribute that the filter comes from. -/
def ofAttributes (filterName : SpatialAxis → AttributeName) (filter : Spatial Nat)
    (padding : Spatial Padding) (stride dilation : Spatial Nat) : Outcome RuleError Window := do
  let filter ← Spatial.ofM fun spatial => positiveField (filterName spatial) (filter.get spatial)
  let stride ← Spatial.ofM fun spatial => positiveField (.stride spatial) (stride.get spatial)
  let dilation ← Spatial.ofM fun spatial => positiveField (.dilation spatial) (dilation.get spatial)
  return { filter, padding, stride, dilation }

/-- The number of places that the window has along each axis of an image. -/
def count (window : Window) (size : Spatial Nat) : Outcome RuleError (Spatial Nat) :=
  Spatial.ofM fun spatial =>
    countWindows spatial (size.get spatial) (window.padding.get spatial) (window.filter.get spatial)
      (window.stride.get spatial) (window.dilation.get spatial)

end Window

/-! ## What the attributes make -/

namespace Spatial

variable {ε α : Type} {make : SpatialAxis → Outcome ε α}

theorem ofM_eq_ok {pair : Spatial α} :
    Spatial.ofM make = .ok pair ↔ ∀ spatial, make spatial = .ok (pair.get spatial) := by
  simp only [Spatial.ofM, Outcome.bind_eq_ok, Outcome.pure_eq_ok, Outcome.ok.injEq]
  constructor
  · rintro ⟨_, hh, _, hw, rfl⟩ spatial
    cases spatial with
    | height => exact hh
    | width => exact hw
  · intro h
    exact ⟨_, h .height, _, h .width, rfl⟩

theorem exists_ofM_eq_ok :
    (∃ pair, Spatial.ofM make = .ok pair) ↔ ∀ spatial, ∃ a, make spatial = .ok a := by
  simp only [ofM_eq_ok]
  constructor
  · rintro ⟨pair, h⟩ spatial
    exact ⟨_, h spatial⟩
  · intro h
    obtain ⟨height, hheight⟩ := h .height
    obtain ⟨width, hwidth⟩ := h .width
    refine ⟨{ height, width }, fun spatial => ?_⟩
    cases spatial with
    | height => exact hheight
    | width => exact hwidth

/-- A pair is abandoned with its first entry, or with its second once the first is made. -/
theorem faults_ofM :
    (Spatial.ofM make).Faults ↔
      (make .height).Faults ∨ (∃ a, make .height = .ok a) ∧ (make .width).Faults := by
  simp only [Spatial.ofM, Outcome.faults_bind, Outcome.pure_eq_ok, Outcome.not_faults_ok, and_false,
    exists_false, or_false, exists_and_right]

/-- A pair that cannot be made fails with the error of one of its entries. -/
theorem exists_of_ofM_eq_error {e : ε} (h : Spatial.ofM make = .error e) :
    ∃ spatial, make spatial = .error e := by
  simp only [Spatial.ofM, Outcome.bind_eq_error, Outcome.pure_eq_ok] at h
  rcases h with hh | ⟨_, -, hw | ⟨_, -, h⟩⟩
  · exact ⟨.height, hh⟩
  · exact ⟨.width, hw⟩
  · cases h

end Spatial

namespace Window

variable {filterName : SpatialAxis → AttributeName} {filter : Spatial Nat}
  {padding : Spatial Padding} {stride dilation : Spatial Nat}

/-- A window has the attributes it is made of, and none of them is zero. -/
theorem ofAttributes_eq_ok {window : Window}
    (h : ofAttributes filterName filter padding stride dilation = .ok window) :
    window.padding = padding ∧
      (∀ spatial, filter.get spatial ≠ 0 ∧
        (window.filter.get spatial).toNat = filter.get spatial) ∧
      (∀ spatial, stride.get spatial ≠ 0 ∧
        (window.stride.get spatial).toNat = stride.get spatial) ∧
      ∀ spatial, dilation.get spatial ≠ 0 ∧
        (window.dilation.get spatial).toNat = dilation.get spatial := by
  simp only [ofAttributes, Outcome.bind_eq_ok, Spatial.ofM_eq_ok, positiveField_eq_ok,
    Outcome.pure_eq_ok, Outcome.ok.injEq] at h
  obtain ⟨filterField, hfilter, strideField, hstride, dilationField, hdilation, rfl⟩ := h
  exact ⟨rfl, hfilter, hstride, hdilation⟩

/-- A window that cannot be made fails with an error about the attribute that it checks. -/
theorem ofAttributes_eq_error {e : RuleError}
    (h : ofAttributes filterName filter padding stride dilation = .error e) :
    ∃ spatial cause, RuleError.invalidAttribute (filterName spatial) cause = e ∨
      RuleError.invalidAttribute (.stride spatial) cause = e ∨
      RuleError.invalidAttribute (.dilation spatial) cause = e := by
  have hfield {name : SpatialAxis → AttributeName} {sizes : Spatial Nat}
      (h : (Spatial.ofM fun spatial => positiveField (name spatial) (sizes.get spatial)) =
        .error e) : ∃ spatial cause, RuleError.invalidAttribute (name spatial) cause = e := by
    obtain ⟨spatial, h⟩ := Spatial.exists_of_ofM_eq_error h
    rcases positiveField_eq_error.1 h with ⟨-, he⟩ | ⟨-, -, he⟩
    · exact ⟨spatial, _, he⟩
    · exact ⟨spatial, _, he⟩
  simp only [ofAttributes, Outcome.bind_eq_error, Outcome.pure_eq_ok, reduceCtorEq, and_false,
    exists_false, or_false] at h
  rcases h with hfilter | ⟨_, -, hstride | ⟨_, -, hdilation⟩⟩
  · obtain ⟨spatial, cause, he⟩ := hfield hfilter
    exact ⟨spatial, cause, .inl he⟩
  · obtain ⟨spatial, cause, he⟩ := hfield hstride
    exact ⟨spatial, cause, .inr (.inl he)⟩
  · obtain ⟨spatial, cause, he⟩ := hfield hdilation
    exact ⟨spatial, cause, .inr (.inr he)⟩

end Window

/-! ## What a count says -/

/-- A count is the number of windows that start within the slack, in exact integers. -/
theorem countWindows_eq_ok {spatial : SpatialAxis} {size : Nat} {padding : Padding}
    {filter stride dilation : UInt32} {n : Nat}
    (h : countWindows spatial size padding filter stride dilation = .ok n) :
    let slack :=
      Signed.ofWord size + padding.total - (dilation.toNat * (filter.toNat - 1 : Int) + 1)
    0 ≤ slack ∧ stride.toNat ≠ 0 ∧ (n : Int) = slack.tdiv stride.toNat + 1 := by
  simp only [countWindows, Outcome.bind_eq_ok, Outcome.liftM_eq, Outcome.ofChecked_eq_ok,
    Signed.add_eq_ok, Signed.mul_eq_ok, Signed.sub_eq_ok, Signed.div_eq_ok,
    Outcome.require_eq_ok, Outcome.pure_eq_ok, Outcome.ok.injEq] at h
  obtain ⟨_, ⟨-, rfl⟩, _, ⟨-, rfl⟩, _, ⟨-, rfl⟩, -, hle, _, ⟨-, rfl⟩, _, ⟨hstride, -, rfl⟩, _,
    ⟨-, rfl⟩, rfl⟩ := h
  have hslack : 0 ≤ Signed.ofWord size + padding.total -
      (dilation.toNat * (filter.toNat - 1 : Int) + 1) := by omega
  have hsteps := Int.tdiv_nonneg hslack (Int.natCast_nonneg stride.toNat)
  exact ⟨hslack, by omega, by omega⟩

/-- Without a count no window fits. -/
theorem countWindows_eq_error {spatial : SpatialAxis} {size : Nat} {padding : Padding}
    {filter stride dilation : UInt32} {e : RuleError}
    (h : countWindows spatial size padding filter stride dilation = .error e) :
    let padded := Signed.ofWord size + padding.total
    let extent := dilation.toNat * (filter.toNat - 1 : Int) + 1
    e = .invalidAttribute (.padding spatial) (.windowTooLarge padded extent) ∧
      padded < extent := by
  simp only [countWindows, Outcome.bind_eq_error, Outcome.liftM_eq, Outcome.ofChecked_ne_error,
    Outcome.ofChecked_eq_ok, Signed.add_eq_ok, Signed.mul_eq_ok, Outcome.require_eq_error,
    Outcome.pure_eq_ok, reduceCtorEq, false_or, or_false, and_false, exists_false] at h
  obtain ⟨_, ⟨-, rfl⟩, _, ⟨-, rfl⟩, _, ⟨-, rfl⟩, hle, rfl⟩ := h
  exact ⟨rfl, by omega⟩

/-! ## Counts of exact numbers -/

section

variable {spatial : SpatialAxis} {size : Nat} {padding : Padding} {filter stride dilation : UInt32}

/-- The size of a padded axis is a signed word if that of the axis has a field. -/
theorem fits_padded (hsize : size < UInt32.size) (padding : Padding) :
    Signed.Fits (size + padding.total) := by
  have hbounds := padding.total_bounds
  rw [UInt32.size] at hsize
  exact ⟨by omega, by omega⟩

theorem add_total_eq_ok (hsize : size < UInt32.size) :
    Signed.add (Signed.ofWord size) padding.total = .ok (size + padding.total) := by
  rw [Signed.ofWord_of_lt (Nat.lt_trans hsize (by decide)), Signed.add_eq_ok]
  exact ⟨fits_padded hsize padding, rfl⟩

/-- A window that a signed word can say is counted in exact numbers. -/
theorem countWindows_of_extent_lt (hsize : size < UInt32.size) (hfilter : filter.toNat ≠ 0)
    (hstride : stride.toNat ≠ 0)
    (hlt : windowExtent filter.toNat dilation.toNat < 0x8000000000000000) :
    let padded := size + padding.total
    let extent := windowExtent filter.toNat dilation.toNat
    countWindows spatial size padding filter stride dilation =
      if extent ≤ padded then .ok ((padded - extent) / stride.toNat + 1).toNat
      else .error (.invalidAttribute (.padding spatial) (.windowTooLarge padded extent)) := by
  intro padded extent
  have hreach : 0 ≤ (dilation.toNat : Int) * (filter.toNat - 1) :=
    Int.mul_nonneg (Int.natCast_nonneg _) (by omega)
  have hextent : (dilation.toNat : Int) * (filter.toNat - 1) + 1 = extent := rfl
  have hmul : Signed.mul dilation.toNat (filter.toNat - 1) =
      .ok (dilation.toNat * (filter.toNat - 1)) :=
    Signed.mul_eq_ok.2 ⟨⟨by omega, by omega⟩, rfl⟩
  have hadd : Signed.add (dilation.toNat * (filter.toNat - 1)) 1 = .ok extent :=
    Signed.add_eq_ok.2 ⟨⟨by omega, by omega⟩, hextent⟩
  have hpadded : Signed.add (Signed.ofWord size) padding.total = .ok padded := add_total_eq_ok hsize
  unfold countWindows
  simp only [hpadded, hmul, hadd, Outcome.liftM_eq, Outcome.ofChecked_ok, Outcome.ok_bind]
  by_cases hfits : extent ≤ padded
  · -- From here on the numbers only get smaller.
    obtain ⟨-, hword⟩ := fits_padded hsize padding
    have hstride : 0 < (stride.toNat : Int) := by omega
    have hslack : 0 ≤ padded - extent := by omega
    have hsub : Signed.sub padded extent = .ok (padded - extent) :=
      Signed.sub_eq_ok.2 ⟨⟨by omega, by omega⟩, rfl⟩
    have hsteps := Int.ediv_nonneg hslack (Int.le_of_lt hstride)
    have hsteps' := Int.ediv_le_self stride.toNat hslack
    have hdiv := Signed.div_of_nonneg hslack ⟨by omega, by omega⟩ hstride
    have hcount : Signed.add ((padded - extent) / stride.toNat) 1 =
        .ok ((padded - extent) / stride.toNat + 1) :=
      Signed.add_eq_ok.2 ⟨⟨by omega, by omega⟩, rfl⟩
    simp only [if_pos hfits, Outcome.require, hsub, hdiv, hcount, Outcome.ofChecked_ok,
      Outcome.ok_bind, Outcome.pure_eq_ok]
  · simp only [if_neg hfits, Outcome.require, Outcome.error_bind]

/-- The count of any other window is abandoned, at the product or when the last place is added to
    it. -/
theorem countWindows_of_le_extent (hsize : size < UInt32.size)
    (hle : 0x8000000000000000 ≤ windowExtent filter.toNat dilation.toNat) :
    (countWindows spatial size padding filter stride dilation).Faults := by
  unfold windowExtent at hle
  unfold countWindows
  rw [add_total_eq_ok hsize]
  simp only [Outcome.liftM_eq, Outcome.ofChecked_ok, Outcome.ok_bind]
  cases hmul : Signed.mul dilation.toNat (filter.toNat - 1) with
  | error t => exact Outcome.faults_fault t
  | ok reach =>
      obtain ⟨-, rfl⟩ := Signed.mul_eq_ok.1 hmul
      have hadd : Signed.add (dilation.toNat * (filter.toNat - 1)) 1 = .error (.overflow .add) :=
        Signed.add_eq_error.2 ⟨fun h => absurd h.2 (by omega), rfl⟩
      rw [Outcome.ofChecked_ok, Outcome.ok_bind, hadd]
      exact Outcome.faults_fault _

theorem faults_countWindows (hsize : size < UInt32.size) (hfilter : filter.toNat ≠ 0)
    (hstride : stride.toNat ≠ 0) :
    (countWindows spatial size padding filter stride dilation).Faults ↔
      0x8000000000000000 ≤ windowExtent filter.toNat dilation.toNat := by
  constructor
  · intro h
    refine Int.not_lt.1 fun hlt => ?_
    rw [countWindows_of_extent_lt hsize hfilter hstride hlt] at h
    split at h
    · exact Outcome.not_faults_ok _ h
    · exact Outcome.not_faults_error _ h
  · exact countWindows_of_le_extent hsize

theorem exists_countWindows_eq_ok (hsize : size < UInt32.size) (hfilter : filter.toNat ≠ 0)
    (hstride : stride.toNat ≠ 0) :
    (∃ n, countWindows spatial size padding filter stride dilation = .ok n) ↔
      windowExtent filter.toNat dilation.toNat ≤ size + padding.total := by
  by_cases hlt : windowExtent filter.toNat dilation.toNat < 0x8000000000000000
  · rw [countWindows_of_extent_lt hsize hfilter hstride hlt]
    split <;> simp [*]
  · -- A padded axis is a signed word, and the window is not.
    obtain ⟨t, ht⟩ := countWindows_of_le_extent hsize (Int.not_lt.1 hlt)
    obtain ⟨-, hword⟩ := fits_padded hsize padding
    rw [ht]
    simp only [reduceCtorEq, exists_false, false_iff, Int.not_le]
    omega

end

/-! ## Faults of a count -/

/-- Counting windows divides by the stride only, so that without one of zero it can do no worse than
    leave the range of a word. -/
theorem countWindows_faultsAre {spatial : SpatialAxis} {size : Nat} {padding : Padding}
    {filter stride dilation : UInt32} (hstride : stride.toNat ≠ 0) :
    (countWindows spatial size padding filter stride dilation).FaultsAre Fault.IsOverflow := by
  have hstride : (stride.toNat : Int) ≠ 0 := Int.natCast_ne_zero.2 hstride
  unfold countWindows
  simp only [Outcome.faultsAre_bind, Outcome.liftM_eq, Outcome.faultsAre_ofChecked]
  refine ⟨fun _ => Signed.isOverflow_of_add_eq_error, fun padded _ => ?_⟩
  refine ⟨fun _ => Signed.isOverflow_of_mul_eq_error, fun reach _ => ?_⟩
  refine ⟨fun _ => Signed.isOverflow_of_add_eq_error, fun extent _ => ?_⟩
  refine ⟨Outcome.faultsAre_require, fun _ _ => ?_⟩
  refine ⟨fun _ => Signed.isOverflow_of_sub_eq_error, fun slack _ => ?_⟩
  refine ⟨fun _ => Signed.isOverflow_of_div_eq_error hstride, fun steps _ => ?_⟩
  exact ⟨fun _ => Signed.isOverflow_of_add_eq_error, fun count _ => Outcome.faultsAre_ok _⟩

namespace Spatial

variable {ε α : Type} {make : SpatialAxis → Outcome ε α}

theorem faultsAre_ofM {P : Fault → Prop} (h : ∀ spatial, (make spatial).FaultsAre P) :
    (Spatial.ofM make).FaultsAre P := by
  unfold Spatial.ofM
  simp only [Outcome.faultsAre_bind]
  exact ⟨h .height, fun _ _ => ⟨h .width, fun _ _ => Outcome.faultsAre_ok _⟩⟩

end Spatial

namespace Window

variable {filterName : SpatialAxis → AttributeName} {filter : Spatial Nat}
  {padding : Spatial Padding} {stride dilation size : Spatial Nat} {window : Window} {t : Fault}

/-- Attributes are only compared with their fields. -/
theorem ofAttributes_ne_fault :
    ofAttributes filterName filter padding stride dilation ≠ .fault t := by
  have hfields (name : SpatialAxis → AttributeName) (sizes : Spatial Nat) :
      (Spatial.ofM fun spatial => positiveField (name spatial) (sizes.get spatial)) ≠ .fault t := by
    simp only [Spatial.ofM, ne_eq, Outcome.bind_eq_fault, positiveField_ne_fault,
      Outcome.pure_eq_ok, reduceCtorEq, and_false, exists_false, or_false, not_false_eq_true]
  simp only [ofAttributes, ne_eq, Outcome.bind_eq_fault, hfields, Outcome.pure_eq_ok, reduceCtorEq,
    and_false, exists_false, or_false, not_false_eq_true]

/-- A window of some attributes has strides, so that counting it divides by no zero. -/
theorem isOverflow_of_count_eq_fault
    (hwindow : ofAttributes filterName filter padding stride dilation = .ok window)
    (hcount : window.count size = .fault t) : t.IsOverflow := by
  obtain ⟨-, -, hstride, -⟩ := ofAttributes_eq_ok hwindow
  refine Spatial.faultsAre_ofM (fun spatial => countWindows_faultsAre ?_) t hcount
  rw [(hstride spatial).2]
  exact (hstride spatial).1

end Window

end TensorLowering
