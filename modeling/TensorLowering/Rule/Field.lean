import TensorLowering.Rule.Context

set_option autoImplicit false

/-! # Record fields

The conversions by which rules bring shapes and attributes into the fields of a record, each with
the error of an operator whose attribute or shape does not fit. -/

namespace TensorLowering

/-- A size as a field of 32 bits. -/
def sizeField (name : AttributeName) (size : Nat) : Outcome RuleError UInt32 :=
  Outcome.ofOption (.invalidAttribute name .tooLarge) (Word.toUInt32? size)

/-- A size of at least one as a field of 32 bits. -/
def positiveField (name : AttributeName) (size : Nat) : Outcome RuleError UInt32 := do
  Outcome.require (size ≠ 0) (.invalidAttribute name .zero)
  sizeField name size

/-- A shape as an axis array. -/
def shapeField (shape : Shape) : Outcome RuleError AxisArray :=
  (Outcome.ofExcept shape.toAxisArray).mapError .ofShape

/-- An activation, if it clamps to an interval that is not empty. -/
def activationField (activation : Activation) : Outcome RuleError Activation := do
  let (low, high) := activation.interval
  Outcome.require (low.isNaN = false ∧ high.isNaN = false ∧ ¬high < low)
    (.invalidAttribute .activation (.clampRange low high))
  return activation

/-- A size that a field for sizes of at least one can hold. -/
def FitsField (size : Nat) : Prop := size ≠ 0 ∧ size < UInt32.size

instance (size : Nat) : Decidable (FitsField size) := inferInstanceAs (Decidable (_ ∧ _))

/-! ## When a field can be made -/

@[simp] theorem sizeField_eq_ok {name : AttributeName} {size : Nat} {field : UInt32} :
    sizeField name size = .ok field ↔ field.toNat = size := by
  simp [sizeField]

/-- Sizes that fit their fields are kept, in order. -/
theorem mapM_sizeField_eq_ok {name : AttributeName} {sizes : List Nat} {fields : List UInt32}
    (h : sizes.mapM (sizeField name) = .ok fields) : fields.map UInt32.toNat = sizes := by
  rw [Outcome.mapM_eq_ok] at h
  induction sizes generalizing fields with
  | nil => cases fields with
    | nil => rfl
    | cons field fields => cases h
  | cons size sizes ih => cases fields with
    | nil => cases h
    | cons field fields =>
        rw [List.map_cons, List.map_cons, List.cons.injEq, sizeField_eq_ok] at h
        rw [List.map_cons, h.1, ih h.2]

/-- A size that does not fit its field is an error about its attribute. -/
@[simp] theorem sizeField_eq_error {name : AttributeName} {size : Nat} {e : RuleError} :
    sizeField name size = .error e ↔
      Word.toUInt32? size = none ∧ RuleError.invalidAttribute name .tooLarge = e := by
  simp [sizeField]

@[simp] theorem sizeField_ne_fault {name : AttributeName} {size : Nat} {t : Fault} :
    sizeField name size ≠ .fault t := by
  simp [sizeField]

@[simp] theorem positiveField_eq_ok {name : AttributeName} {size : Nat} {field : UInt32} :
    positiveField name size = .ok field ↔ size ≠ 0 ∧ field.toNat = size := by
  simp [positiveField, Outcome.bind_eq_ok]

theorem exists_positiveField_eq_ok {name : AttributeName} {size : Nat} :
    (∃ field, positiveField name size = .ok field) ↔ FitsField size := by
  simp only [positiveField_eq_ok, FitsField]
  constructor
  · rintro ⟨field, hne, rfl⟩
    exact ⟨hne, field.toNat_lt⟩
  · rintro ⟨hne, hlt⟩
    exact ⟨.ofNatLT size hlt, hne, UInt32.toNat_ofNatLT⟩

@[simp] theorem positiveField_eq_error {name : AttributeName} {size : Nat} {e : RuleError} :
    positiveField name size = .error e ↔
      size = 0 ∧ RuleError.invalidAttribute name .zero = e ∨
        size ≠ 0 ∧ Word.toUInt32? size = none ∧
          RuleError.invalidAttribute name .tooLarge = e := by
  simp [positiveField, Outcome.bind_eq_error]

@[simp] theorem positiveField_ne_fault {name : AttributeName} {size : Nat} {t : Fault} :
    positiveField name size ≠ .fault t := by
  simp [positiveField, Outcome.bind_eq_fault]

@[simp] theorem shapeField_eq_ok {shape : Shape} {axes : AxisArray} :
    shapeField shape = .ok axes ↔ shape.toAxisArray = .ok axes := by
  simp [shapeField]

@[simp] theorem shapeField_eq_error {shape : Shape} {e : RuleError} :
    shapeField shape = .error e ↔
      ∃ cause, shape.toAxisArray = .error cause ∧
        RuleError.incompatibleShapes (.shape cause) = e := by
  simp [shapeField, RuleError.ofShape]

@[simp] theorem shapeField_ne_fault {shape : Shape} {t : Fault} : shapeField shape ≠ .fault t := by
  simp [shapeField]

@[simp] theorem activationField_ne_fault {activation : Activation} {t : Fault} :
    activationField activation ≠ .fault t := by
  simp [activationField, Outcome.bind_eq_fault]

/-- An activation that is not accepted is an error about the activation. -/
@[simp] theorem activationField_eq_error {activation : Activation} {e : RuleError} :
    activationField activation = .error e ↔
      ¬(activation.interval.1.isNaN = false ∧ activation.interval.2.isNaN = false ∧
        ¬activation.interval.2 < activation.interval.1) ∧
      RuleError.invalidAttribute .activation
        (.clampRange activation.interval.1 activation.interval.2) = e := by
  unfold activationField
  simp only [Outcome.bind_eq_error, Outcome.require_eq_error, Outcome.pure_eq_ok, reduceCtorEq,
    and_false, exists_false, or_false]

/-- An activation that is accepted is passed on as it is. -/
theorem activationField_eq_ok {activation field : Activation}
    (h : activationField activation = .ok field) : field = activation := by
  simp only [activationField, Outcome.bind_eq_ok, Outcome.pure_eq_ok, Outcome.ok.injEq] at h
  obtain ⟨-, -, rfl⟩ := h
  rfl

end TensorLowering
