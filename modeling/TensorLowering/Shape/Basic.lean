import TensorLowering.Arithmetic.Word
import TensorLowering.Outcome
import TensorLowering.Text.Listing

set_option autoImplicit false

/-! # Shapes

A shape is the list of a tensor's dimensions, outermost first. Its exact number of elements is
`elements`; `checkedElements` is the same product taken in words, which faults when a step of it has
no word. The two agree wherever `checkedElements` answers (`checkedElements_eq_ok`), and it answers
whenever no dimension is zero and the exact count is a word (`checkedElements_of_pos`). Where one is
zero, the dimensions before it must have a product that is a word (`countOverflows_iff_beforeZero`). -/

namespace TensorLowering

/-- The dimensions of a tensor. -/
abbrev Shape := List Nat

/-- Why a shape or a layout parameter could not be derived. -/
inductive ShapeError where
  /-- The axis lies outside `[-rank, rank)`. -/
  | axisOutOfRange (axis : Int) (rank : Nat)
  /-- The shape has more dimensions than the target can hold. -/
  | rankTooLarge (rank limit : Nat)
  /-- The list does not name each axis exactly once. -/
  | invalidPermutation
  /-- A dimension or a derived size does not fit its field. -/
  | dimensionOverflow
  /-- A dimension of size zero makes a derived loop empty. -/
  | zeroSizedAxis (axis : Nat)
deriving DecidableEq, Repr

/-- The text of a shape error. -/
def ShapeError.message : ShapeError → String
  | .axisOutOfRange axis rank => s!"axis {decimal axis} is out of range for rank {rank}"
  | .rankTooLarge rank limit => s!"rank {rank} exceeds maximum rank {limit}"
  | .invalidPermutation => "invalid permutation"
  | .dimensionOverflow => "size overflows record field"
  | .zeroSizedAxis axis => s!"axis {axis} has size zero"

namespace Shape

/-- The number of dimensions. -/
abbrev rank (shape : Shape) : Nat := shape.length

/-- The exact number of elements: the product of the dimensions. -/
def elements (shape : Shape) : Nat := shape.foldr (· * ·) 1

/-- The number of elements as a word. -/
def checkedElements (shape : Shape) : Checked Nat := Word.product shape

/-- The number of elements of some of the leading dimensions has no word. -/
def CountOverflows (shape : Shape) : Prop := ∃ n, Word.size ≤ elements (shape.take n)

/-- The dimensions before the first one of size zero. -/
def beforeZero (shape : Shape) : Shape := shape.takeWhile (· ≠ 0)

/-- The shape as messages show it. -/
def text (shape : Shape) : String := listingOfNats shape

/-- Fails on the first dimension of size zero; `first` is the axis of the first dimension listed. -/
def requireNonzero (dims : List Nat) (first : Nat) : Except ShapeError Unit :=
  match dims.findIdx? (· == 0) with
  | some position => .error (.zeroSizedAxis (first + position))
  | none => .ok ()

/-- The same check, where the number of the first dimension of size zero is added up in words. -/
def requireNonzeroInWords (dims : List Nat) (first : Nat) : Outcome ShapeError Unit :=
  match dims.findIdx? (· == 0) with
  | some position => do
      let dimension ← Word.add first position
      Outcome.error (.zeroSizedAxis dimension)
  | none => .ok ()

/-! ## Element counts -/

@[simp] theorem elements_nil : elements [] = 1 := rfl

@[simp] theorem elements_cons (d : Nat) (ds : Shape) : elements (d :: ds) = d * elements ds := rfl

@[simp] theorem elements_append (s t : Shape) : elements (s ++ t) = elements s * elements t := by
  induction s with
  | nil => simp
  | cons d ds ih =>
      rw [List.cons_append, elements_cons, elements_cons, ih, Nat.mul_assoc]

@[simp] theorem elements_replicate_one (n : Nat) : elements (List.replicate n 1) = 1 := by
  induction n with
  | zero => rfl
  | succ n ih => rw [List.replicate_succ, elements_cons, ih]

theorem elements_pos {shape : Shape} (h : ∀ d ∈ shape, 0 < d) : 0 < shape.elements :=
  Word.foldr_mul_pos h

theorem elements_eq_zero_iff {shape : Shape} : shape.elements = 0 ↔ 0 ∈ shape := by
  induction shape with
  | nil => simp
  | cons d ds ih => rw [elements_cons, Nat.mul_eq_zero, ih, List.mem_cons, eq_comm]

/-- Rearranging dimensions leaves the number of elements. -/
theorem elements_eq_of_perm {a b : Shape} (h : a.Perm b) : a.elements = b.elements :=
  h.foldr_eq' (fun d _ d' _ n => Nat.mul_left_comm d' d n) 1

/-- Where the count in words answers, it is the exact one. -/
theorem checkedElements_eq_ok {shape : Shape} {n : Nat} (h : shape.checkedElements = .ok n) :
    n = shape.elements :=
  Word.product_eq_ok h

/-- The count in words answers if no dimension is zero and the exact count is a word. -/
theorem checkedElements_of_pos {shape : Shape} (hpos : ∀ d ∈ shape, 0 < d)
    (h : shape.elements < Word.size) : shape.checkedElements = .ok shape.elements :=
  Word.product_of_pos hpos h

theorem checkedElements_eq_error {shape : Shape} {t : Fault} :
    shape.checkedElements = .error t ↔ shape.CountOverflows ∧ Fault.overflow .mul = t :=
  Word.product_eq_error

/-- Elements that can be counted are counted. -/
theorem countOverflows_or_ok (shape : Shape) :
    shape.CountOverflows ∨ ∃ n, shape.checkedElements = .ok n := by
  cases h : shape.checkedElements with
  | error t => exact .inl (checkedElements_eq_error.1 h).1
  | ok n => exact .inr ⟨n, rfl⟩

/-! ## Dimensions before the first of size zero -/

@[simp] theorem beforeZero_nil : beforeZero [] = [] := rfl

@[simp] theorem beforeZero_zero_cons (ds : Shape) : beforeZero (0 :: ds) = [] := rfl

theorem beforeZero_cons {d : Nat} (hd : d ≠ 0) (ds : Shape) :
    beforeZero (d :: ds) = d :: beforeZero ds :=
  List.takeWhile_cons_of_pos (by simpa using hd)

theorem beforeZero_eq_self {shape : Shape} (hne : ∀ d ∈ shape, d ≠ 0) :
    shape.beforeZero = shape := by
  induction shape with
  | nil => rfl
  | cons d ds ih =>
      obtain ⟨hd, hds⟩ := List.forall_mem_cons.1 hne
      rw [beforeZero_cons hd, ih hds]

/-- As many leading dimensions as one takes, those before the first of size zero have no fewer
    elements. -/
theorem elements_take_le (shape : Shape) (n : Nat) :
    elements (shape.take n) ≤ shape.beforeZero.elements := by
  induction shape generalizing n with
  | nil => exact Nat.le_of_eq (congrArg elements List.take_nil)
  | cons d ds ih =>
      by_cases hd : d = 0
      · subst hd
        cases n with
        | zero => exact Nat.le_refl 1
        | succ n => simp
      · rw [beforeZero_cons hd, elements_cons]
        cases n with
        | zero =>
            have hrest : 1 ≤ (beforeZero ds).elements := ih 0
            exact Nat.mul_pos (Nat.pos_of_ne_zero hd) hrest
        | succ n =>
            rw [List.take_succ_cons, elements_cons]
            exact Nat.mul_le_mul_left d (ih n)

/-- The product of some of the leading dimensions has no word exactly if that of those before the
    first of size zero has none. -/
theorem countOverflows_iff_beforeZero {shape : Shape} :
    shape.CountOverflows ↔ Word.size ≤ shape.beforeZero.elements := by
  constructor
  · intro ⟨n, h⟩
    exact Nat.le_trans h (elements_take_le shape n)
  · intro h
    have htake : shape.beforeZero = shape.take shape.beforeZero.length :=
      List.prefix_iff_eq_take.1 (List.takeWhile_prefix _)
    exact ⟨shape.beforeZero.length, htake ▸ h⟩

/-- Without a dimension of size zero the number of all elements is the largest. -/
theorem countOverflows_iff {shape : Shape} (hne : ∀ d ∈ shape, d ≠ 0) :
    shape.CountOverflows ↔ Word.size ≤ shape.elements := by
  rw [countOverflows_iff_beforeZero, beforeZero_eq_self hne]

/-! ## Looking for a dimension of size zero -/

@[simp] theorem requireNonzero_eq_ok {dims : List Nat} {first : Nat} {u : Unit} :
    requireNonzero dims first = .ok u ↔ ∀ d ∈ dims, d ≠ 0 := by
  unfold requireNonzero
  split
  · next position h =>
      simp only [reduceCtorEq, false_iff]
      intro hall
      rw [List.findIdx?_eq_some_iff_getElem] at h
      obtain ⟨hlt, hzero, -⟩ := h
      exact hall _ (List.getElem_mem hlt) (by simpa using hzero)
  · next h =>
      simp only [true_iff]
      rw [List.findIdx?_eq_none_iff] at h
      intro d hd
      simpa using h d hd

/-- No sum leaves the words if the numbers of all dimensions listed are words. -/
theorem requireNonzeroInWords_eq {dims : List Nat} {first : Nat}
    (h : first + dims.length ≤ Word.size) :
    requireNonzeroInWords dims first = Outcome.ofExcept (requireNonzero dims first) := by
  unfold requireNonzeroInWords requireNonzero
  cases hposition : dims.findIdx? (· == 0) with
  | some position =>
      obtain ⟨hlt, -⟩ := List.findIdx?_eq_some_iff_getElem.1 hposition
      have hsum : Word.add first position = .ok (first + position) :=
        Word.add_eq_ok.2 ⟨by omega, rfl⟩
      simp [hsum]
  | none => rfl

/-- The dimension that the error names is the first of size zero. -/
theorem requireNonzero_eq_error {dims : List Nat} {first : Nat} {e : ShapeError} :
    requireNonzero dims first = .error e ↔
      ∃ position, dims[position]? = some 0 ∧ (∀ earlier < position, dims[earlier]? ≠ some 0) ∧
        ShapeError.zeroSizedAxis (first + position) = e := by
  unfold requireNonzero
  split
  · next position h =>
      obtain ⟨hlt, hzero, hearlier⟩ := List.findIdx?_eq_some_iff_getElem.1 h
      have hfound : dims[position]? = some 0 := by simpa [List.getElem?_eq_getElem hlt] using hzero
      have hfirst : ∀ earlier < position, dims[earlier]? ≠ some 0 := by
        intro earlier hlt'
        rw [List.getElem?_eq_getElem (Nat.lt_trans hlt' hlt)]
        simpa using hearlier earlier hlt'
      rw [Except.error.injEq]
      constructor
      · rintro rfl
        exact ⟨position, hfound, hfirst, rfl⟩
      · rintro ⟨other, hother, hbefore, rfl⟩
        rcases Nat.lt_trichotomy position other with hlt' | rfl | hlt'
        · exact absurd hfound (hbefore position hlt')
        · rfl
        · exact absurd hother (hfirst other hlt')
  · next h =>
      simp only [reduceCtorEq, false_iff]
      rintro ⟨position, hzero, -⟩
      have := List.findIdx?_eq_none_iff.1 h 0 (List.mem_of_getElem? hzero)
      simp at this

end Shape

end TensorLowering
