import TensorLowering.Operator.Constant
import TensorLowering.Value

set_option autoImplicit false

/-! # Which element counts are exact

The count in words multiplies dimensions from the left, so it sees the product of the leading ones
before a later dimension of size zero can cancel it. The dimensions before the first of size zero
decide: the count is the exact number of elements if the product of these is a word, and faults
otherwise (`checkedElements_eq`). Whether it answers thus depends on the order of the dimensions,
though what it answers does not. Some order is counted exactly if the number of elements is a word
(`exists_perm_checkedElements_iff`), and every order exactly if the product of all dimensions of other
sizes than zero is (`forall_perm_checkedElements_iff`); without a dimension of size zero the two
conditions are the same. -/

namespace TensorLowering

namespace Shape

/-- The dimensions that are not of size zero. -/
def nonzero (shape : Shape) : Shape := shape.filter (· ≠ 0)

variable {shape : Shape}

/-! ## When the count answers -/

/-- The count in words is the exact number of elements if the dimensions before the first of size
    zero have a product that is a word, and faults otherwise. -/
theorem checkedElements_eq (shape : Shape) :
    shape.checkedElements =
      if shape.beforeZero.elements < Word.size then .ok shape.elements
      else .error (.overflow .mul) := by
  by_cases h : shape.beforeZero.elements < Word.size
  · rw [if_pos h]
    rcases countOverflows_or_ok shape with hover | ⟨n, hn⟩
    · exact absurd (countOverflows_iff_beforeZero.1 hover) (Nat.not_le.2 h)
    · rw [hn, checkedElements_eq_ok hn]
  · rw [if_neg h]
    exact checkedElements_eq_error.2 ⟨countOverflows_iff_beforeZero.2 (Nat.not_lt.1 h), rfl⟩

theorem checkedElements_eq_ok_iff {n : Nat} :
    shape.checkedElements = .ok n ↔
      shape.beforeZero.elements < Word.size ∧ shape.elements = n := by
  rw [checkedElements_eq]
  by_cases h : shape.beforeZero.elements < Word.size <;> simp [h]

theorem elements_le_beforeZero (shape : Shape) : shape.elements ≤ shape.beforeZero.elements := by
  have h := elements_take_le shape shape.length
  rwa [List.take_length] at h

/-! ## The dimensions that are not of size zero -/

theorem nonzero_cons {d : Nat} (hd : d ≠ 0) (ds : Shape) : nonzero (d :: ds) = d :: nonzero ds :=
  List.filter_cons_of_pos (by simpa using hd)

theorem ne_zero_of_mem_nonzero {d : Nat} (h : d ∈ shape.nonzero) : d ≠ 0 :=
  of_decide_eq_true (List.mem_filter.1 h).2

theorem nonzero_eq_self (hne : ∀ d ∈ shape, d ≠ 0) : shape.nonzero = shape :=
  List.filter_eq_self.2 fun d hd => decide_eq_true (hne d hd)

theorem elements_beforeZero_le_nonzero (shape : Shape) :
    shape.beforeZero.elements ≤ shape.nonzero.elements := by
  induction shape with
  | nil => exact Nat.le_refl 1
  | cons d ds ih =>
      by_cases hd : d = 0
      · subst hd
        exact elements_pos fun d hd => Nat.pos_of_ne_zero (ne_zero_of_mem_nonzero hd)
      · rw [beforeZero_cons hd, nonzero_cons hd, elements_cons, elements_cons]
        exact Nat.mul_le_mul_left d ih

/-! ## The order of the dimensions -/

theorem beforeZero_append (hne : ∀ d ∈ shape, d ≠ 0) (rest : Shape) :
    beforeZero (shape ++ rest) = shape ++ beforeZero rest :=
  List.takeWhile_append_of_pos fun d hd => decide_eq_true (hne d hd)

theorem beforeZero_eq_nil (hzero : ∀ d ∈ shape, d = 0) : shape.beforeZero = [] := by
  cases shape with
  | nil => rfl
  | cons d ds =>
      obtain ⟨rfl, -⟩ := List.forall_mem_cons.1 hzero
      rfl

/-- With the dimensions of size zero at the end, all others come before them. -/
theorem exists_perm_beforeZero_eq_nonzero (shape : Shape) :
    ∃ other : Shape, other.Perm shape ∧ other.beforeZero = shape.nonzero := by
  have hzero : ∀ d ∈ shape.filter (fun d => !decide (d ≠ 0)), d = 0 := by
    intro d hd
    simpa using (List.mem_filter.1 hd).2
  refine ⟨_, List.filter_append_perm (fun d => decide (d ≠ 0)) shape, ?_⟩
  calc beforeZero (shape.nonzero ++ shape.filter fun d => !decide (d ≠ 0))
    _ = shape.nonzero ++ beforeZero (shape.filter fun d => !decide (d ≠ 0)) :=
        beforeZero_append (fun d hd => ne_zero_of_mem_nonzero hd) _
    _ = shape.nonzero := by rw [beforeZero_eq_nil hzero, List.append_nil]

/-- Some order of the dimensions is counted exactly if the number of elements is a word. -/
theorem exists_perm_checkedElements_iff :
    (∃ other : Shape, other.Perm shape ∧ other.checkedElements = .ok shape.elements) ↔
      shape.elements < Word.size := by
  constructor
  · intro ⟨other, hperm, hcount⟩
    obtain ⟨hbefore, -⟩ := checkedElements_eq_ok_iff.1 hcount
    rw [← elements_eq_of_perm hperm]
    exact Nat.lt_of_le_of_lt (elements_le_beforeZero other) hbefore
  · intro h
    by_cases hzero : 0 ∈ shape
    · -- In front of the others, the dimension of size zero is the only one that matters.
      have hperm : List.Perm (0 :: shape.erase 0) shape := (List.perm_cons_erase hzero).symm
      refine ⟨0 :: shape.erase 0, hperm, checkedElements_eq_ok_iff.2 ⟨?_, elements_eq_of_perm hperm⟩⟩
      rw [beforeZero_zero_cons, elements_nil]
      decide
    · refine ⟨shape, .refl shape, checkedElements_eq_ok_iff.2 ⟨?_, rfl⟩⟩
      rwa [beforeZero_eq_self fun d hd => ne_of_mem_of_not_mem hd hzero]

/-- Every order of the dimensions is counted exactly if the product of the dimensions that are not of
    size zero is a word. -/
theorem forall_perm_checkedElements_iff :
    (∀ other : Shape, other.Perm shape → other.checkedElements = .ok shape.elements) ↔
      shape.nonzero.elements < Word.size := by
  constructor
  · intro hall
    obtain ⟨other, hperm, hbefore⟩ := exists_perm_beforeZero_eq_nonzero shape
    rw [← hbefore]
    exact (checkedElements_eq_ok_iff.1 (hall other hperm)).1
  · intro h other hperm
    refine checkedElements_eq_ok_iff.2 ⟨?_, elements_eq_of_perm hperm⟩
    have hnonzero : other.nonzero.elements = shape.nonzero.elements :=
      elements_eq_of_perm (hperm.filter _)
    calc other.beforeZero.elements ≤ other.nonzero.elements := elements_beforeZero_le_nonzero other
      _ = shape.nonzero.elements := hnonzero
      _ < Word.size := h

end Shape

/-- **Which element counts are exact.** Some order of the dimensions of a shape is counted exactly if
    its number of elements is a word, and every order exactly if the product of the dimensions other
    than those of size zero is, which are all of them where none has size zero. An order is counted
    if the dimensions before its first one of size zero have a product that is a word, and the count
    is then the same for all of them: the exact number of elements. Every other order faults. This
    goes for the count of a value, and for making a constant, which succeeds for an order that is
    counted exactly if the number of its elements is the exact one of the shape. -/
theorem elementCount_exact_iff (shape : Shape) :
    ((∃ other : Shape, other.Perm shape ∧ other.checkedElements = .ok shape.elements) ↔
      shape.elements < Word.size) ∧
    ((∀ other : Shape, other.Perm shape → other.checkedElements = .ok shape.elements) ↔
      shape.nonzero.elements < Word.size) ∧
    ((∀ d ∈ shape, d ≠ 0) → shape.nonzero = shape) ∧
    ∀ other : Shape, other.Perm shape →
      (∀ n, other.checkedElements = .ok n ↔
        other.beforeZero.elements < Word.size ∧ shape.elements = n) ∧
      (∀ t, other.checkedElements = .error t ↔
        Word.size ≤ other.beforeZero.elements ∧ Fault.overflow .mul = t) ∧
      (∀ value : Value, value.shape = other → value.count = other.checkedElements) ∧
      ∀ data : Array Binary32,
        ((∃ constant, ConstantTensor.ofShape? other data = .ok (some constant)) ↔
          other.beforeZero.elements < Word.size ∧ shape.elements = data.size) ∧
        (ConstantTensor.ofShape? other data = .ok none ↔
          other.beforeZero.elements < Word.size ∧ shape.elements ≠ data.size) ∧
        ∀ t, ConstantTensor.ofShape? other data = .error t ↔
          Word.size ≤ other.beforeZero.elements ∧ Fault.overflow .mul = t := by
  refine ⟨Shape.exists_perm_checkedElements_iff, Shape.forall_perm_checkedElements_iff,
    Shape.nonzero_eq_self, ?_⟩
  intro other hperm
  rw [← Shape.elements_eq_of_perm hperm]
  have hok : ∀ n, other.checkedElements = .ok n ↔
      other.beforeZero.elements < Word.size ∧ other.elements = n :=
    fun n => Shape.checkedElements_eq_ok_iff
  have herror : ∀ t, other.checkedElements = .error t ↔
      Word.size ≤ other.beforeZero.elements ∧ Fault.overflow .mul = t := by
    intro t
    rw [Shape.checkedElements_eq_error, Shape.countOverflows_iff_beforeZero]
  refine ⟨hok, herror, ?_, fun data => ⟨?_, ?_, fun t => ?_⟩⟩
  · intro value hvalue
    rw [Value.count, hvalue]
  · rw [ConstantTensor.exists_ofShape?_eq_some, hok]
  · simp only [ConstantTensor.ofShape?_eq_none, hok, and_assoc, exists_and_left, exists_eq_left']
  · rw [ConstantTensor.ofShape?_eq_error, herror]

/-- Two dimensions whose product is not a word, with one of size zero between them: there are no
    elements, and a constant without any is made. With the dimension of size zero at the end the
    shape cannot be counted. -/
theorem elementCount_exact_iff_zero_between :
    let half := 0x100000000
    let shape : Shape := [half, 0, half]
    let value : Value := { name := none, shape, elementType := .float32 }
    (∃ other : Shape, other.Perm shape ∧ other.checkedElements = .ok 0) ∧
      ¬(∀ other : Shape, other.Perm shape → other.checkedElements = .ok 0) ∧
      shape.checkedElements = .ok 0 ∧ value.count = .ok 0 ∧
      (∃ constant, ConstantTensor.ofShape? shape #[] = .ok (some constant)) ∧
      Shape.checkedElements [half, half, 0] = .error (.overflow .mul) ∧
      ConstantTensor.ofShape? [half, half, 0] #[] = .error (.overflow .mul) := by
  intro half shape value
  have helements : shape.elements = 0 := by decide
  obtain ⟨hsome, hall, -, horder⟩ := elementCount_exact_iff shape
  rw [helements] at hsome hall
  obtain ⟨hok, -, hvalue, hdata⟩ := horder shape (.refl shape)
  have hlast : List.Perm [half, half, 0] shape := by decide
  obtain ⟨-, herror, -, hdata'⟩ := horder [half, half, 0] hlast
  have hcount : shape.checkedElements = .ok 0 := (hok 0).2 (by decide)
  exact ⟨hsome.2 (by decide), fun h => absurd (hall.1 h) (by decide), hcount,
    (hvalue value rfl).trans hcount, (hdata #[]).1.2 (by decide), (herror _).2 (by decide),
    ((hdata' #[]).2.2 _).2 (by decide)⟩

/-- A shape without elements that is not counted, since the product of the two dimensions in front is
    not a word. With the dimension of size zero in front it is. -/
theorem elementCount_faults_before_zero :
    let shape : Shape := [0x8000000000000000, 2, 0]
    let other : Shape := [0, 0x8000000000000000, 2]
    shape.elements < Word.size ∧ (#[] : Array Binary32).size = shape.elements ∧
      other.Perm shape ∧
      shape.checkedElements = .error (.overflow .mul) ∧ other.checkedElements = .ok 0 ∧
      ConstantTensor.ofShape? shape #[] = .error (.overflow .mul) ∧
      ∃ constant, ConstantTensor.ofShape? other #[] = .ok (some constant) := by
  intro shape other
  refine ⟨by decide, by decide, by decide, by rfl, by rfl, by rfl, ?_⟩
  exact ⟨_, rfl⟩

end TensorLowering
