import Mathlib.Tactic.Ring
import TensorLowering.Shape.Loop

set_option autoImplicit false

/-! # The loop bounds of a concatenation are exact

The bounds are two checked products, one of the dimensions before the axis and one of those after it
with the width of an element. A product that is checked step by step may overflow although a later
factor is zero, but the dimensions beside the axis are looked at first, and without a zero among them
the whole product is the largest. So the bounds are there exactly if no dimension beside the axis is
zero and both exact products are words (`Shape.chunkLoop_exact`); each of the three errors has a
condition as sharp. -/

namespace TensorLowering

namespace Shape

/-- Another dimension than the one on `axis` has size zero. -/
def EmptyBeside (shape : Shape) (axis dimension : Nat) : Prop :=
  dimension ≠ axis ∧ shape[dimension]? = some 0

/-- The first dimension of size zero, except for the one on `axis`. -/
def FirstEmptyBeside (shape : Shape) (axis dimension : Nat) : Prop :=
  shape.EmptyBeside axis dimension ∧ ∀ earlier < dimension, ¬shape.EmptyBeside axis earlier

variable {shape : Shape} {axis : Nat}

/-! ## Dimensions before and after the axis -/

theorem lt_of_getElem?_take {dimension d : Nat} (h : (shape.take axis)[dimension]? = some d) :
    dimension < axis := by
  have hlt := (List.getElem?_eq_some_iff.1 h).1
  rw [List.length_take] at hlt
  exact Nat.lt_of_lt_of_le hlt (Nat.min_le_left axis shape.length)

/-- A position before the axis is one of the whole shape. -/
theorem emptyBeside_of_lt {dimension : Nat} (h : dimension < axis) :
    shape.EmptyBeside axis dimension ↔ (shape.take axis)[dimension]? = some 0 := by
  rw [EmptyBeside, List.getElem?_take_of_lt h]
  exact and_iff_right (Nat.ne_of_lt h)

/-- A position after the axis is counted from the axis on. -/
theorem emptyBeside_add (position : Nat) :
    shape.EmptyBeside axis (axis + 1 + position) ↔
      (shape.drop (axis + 1))[position]? = some 0 := by
  rw [EmptyBeside, List.getElem?_drop]
  exact and_iff_right (by omega)

theorem forall_take_ne_zero :
    (∀ d ∈ shape.take axis, d ≠ 0) ↔ ∀ dimension < axis, ¬shape.EmptyBeside axis dimension := by
  constructor
  · intro h dimension hlt hempty
    exact h 0 (List.mem_of_getElem? ((emptyBeside_of_lt hlt).1 hempty)) rfl
  · intro h d hd hzero
    obtain ⟨dimension, hdimension⟩ := List.mem_iff_getElem?.1 hd
    have hlt := lt_of_getElem?_take hdimension
    exact h dimension hlt ((emptyBeside_of_lt hlt).2 (hzero ▸ hdimension))

theorem forall_drop_ne_zero :
    (∀ d ∈ shape.drop (axis + 1), d ≠ 0) ↔
      ∀ dimension, axis < dimension → ¬shape.EmptyBeside axis dimension := by
  constructor
  · intro h dimension hlt hempty
    obtain ⟨position, rfl⟩ := Nat.exists_eq_add_of_le hlt
    exact h 0 (List.mem_of_getElem? ((emptyBeside_add position).1 hempty)) rfl
  · intro h d hd hzero
    obtain ⟨position, hposition⟩ := List.mem_iff_getElem?.1 hd
    exact h (axis + 1 + position) (by omega) ((emptyBeside_add position).2 (hzero ▸ hposition))

/-- The two checks for dimensions of size zero look at each dimension but that of the axis. -/
theorem forall_beside_ne_zero :
    ((∀ d ∈ shape.take axis, d ≠ 0) ∧ ∀ d ∈ shape.drop (axis + 1), d ≠ 0) ↔
      ∀ dimension, ¬shape.EmptyBeside axis dimension := by
  rw [forall_take_ne_zero, forall_drop_ne_zero]
  constructor
  · intro h dimension hempty
    rcases Nat.lt_or_gt_of_ne hempty.1 with hlt | hgt
    · exact h.1 dimension hlt hempty
    · exact h.2 dimension hgt hempty
  · intro h
    exact ⟨fun dimension _ => h dimension, fun dimension _ => h dimension⟩

/-- The first check fails on a dimension before the axis, which no other comes before. -/
theorem requireNonzero_take_eq_error {e : ShapeError} :
    requireNonzero (shape.take axis) 0 = .error e ↔
      ∃ dimension < axis, shape.FirstEmptyBeside axis dimension ∧
        ShapeError.zeroSizedAxis dimension = e := by
  rw [requireNonzero_eq_error]
  constructor
  · rintro ⟨dimension, hzero, hearlier, rfl⟩
    have hlt := lt_of_getElem?_take hzero
    refine ⟨dimension, hlt, ⟨(emptyBeside_of_lt hlt).2 hzero, fun earlier hbefore hempty => ?_⟩, ?_⟩
    · exact hearlier earlier hbefore
        ((emptyBeside_of_lt (Nat.lt_trans hbefore hlt)).1 hempty)
    · rw [Nat.zero_add]
  · rintro ⟨dimension, hlt, ⟨hempty, hfirst⟩, rfl⟩
    refine ⟨dimension, (emptyBeside_of_lt hlt).1 hempty, fun earlier hbefore hzero => ?_, ?_⟩
    · exact hfirst earlier hbefore ((emptyBeside_of_lt (Nat.lt_trans hbefore hlt)).2 hzero)
    · rw [Nat.zero_add]

/-- The second check, which comes after the first has passed, fails on a dimension after the axis. -/
theorem requireNonzero_drop_eq_error (htake : ∀ d ∈ shape.take axis, d ≠ 0) {e : ShapeError} :
    requireNonzero (shape.drop (axis + 1)) (axis + 1) = .error e ↔
      ∃ dimension, shape.FirstEmptyBeside axis dimension ∧
        ShapeError.zeroSizedAxis dimension = e := by
  rw [forall_take_ne_zero] at htake
  rw [requireNonzero_eq_error]
  constructor
  · rintro ⟨position, hzero, hearlier, rfl⟩
    refine ⟨axis + 1 + position, ⟨(emptyBeside_add position).2 hzero, ?_⟩, rfl⟩
    intro earlier hbefore hempty
    rcases Nat.lt_or_gt_of_ne hempty.1 with hlt | hgt
    · exact htake earlier hlt hempty
    · obtain ⟨other, rfl⟩ := Nat.exists_eq_add_of_le hgt
      exact hearlier other (by omega) ((emptyBeside_add other).1 hempty)
  · rintro ⟨dimension, ⟨hempty, hfirst⟩, rfl⟩
    have hgt : axis < dimension :=
      (Nat.lt_or_gt_of_ne hempty.1).resolve_left fun hlt => htake dimension hlt hempty
    obtain ⟨position, rfl⟩ := Nat.exists_eq_add_of_le hgt
    refine ⟨position, (emptyBeside_add position).1 hempty, fun other hbefore hzero => ?_, rfl⟩
    exact hfirst (axis + 1 + other) (by omega) ((emptyBeside_add other).2 hzero)

/-! ## When there are bounds -/

section

variable {elementWidth : Nat}

/-- Where no dimension beside the axis is zero, one of the products has no field exactly if one of
    the exact ones is no word. -/
theorem fieldProducts_eq_error (hbeside : ∀ dimension, ¬shape.EmptyBeside axis dimension)
    {e : ShapeError} :
    (fieldProduct (elementWidth :: shape.drop (axis + 1)) = .error e ∨
        ∃ inner, fieldProduct (elementWidth :: shape.drop (axis + 1)) = .ok inner ∧
          fieldProduct (shape.take axis) = .error e) ↔
      (Word.size ≤ elementWidth * elements (shape.drop (axis + 1)) ∨
          Word.size ≤ elements (shape.take axis)) ∧
        ShapeError.dimensionOverflow = e := by
  obtain ⟨hbefore, hafter⟩ := forall_beside_ne_zero.2 hbeside
  have hinner : ∀ e, fieldProduct (elementWidth :: shape.drop (axis + 1)) = .error e ↔
      Word.size ≤ elementWidth * elements (shape.drop (axis + 1)) ∧
        ShapeError.dimensionOverflow = e :=
    fun _ => @fieldProduct_eq_error (elementWidth :: _) hafter _
  have houter : fieldProduct (shape.take axis) = .error e ↔
      Word.size ≤ elements (shape.take axis) ∧ ShapeError.dimensionOverflow = e :=
    fieldProduct_eq_error fun d hd => hbefore d (List.mem_of_mem_tail hd)
  rw [houter]
  cases hfield : fieldProduct (elementWidth :: shape.drop (axis + 1)) with
  | error cause =>
      obtain ⟨hle, rfl⟩ := (hinner cause).1 hfield
      simp [hle]
  | ok inner =>
      have hlt : elementWidth * elements (shape.drop (axis + 1)) < Word.size := by
        rw [← elements_cons, ← fieldProduct_eq_ok hfield]
        exact inner.toNat_lt
      simp [Nat.not_le.2 hlt]

/-- What each error says, and that it is the first that applies. -/
theorem chunkLoop_eq_error_iff {e : ShapeError} :
    shape.chunkLoop elementWidth axis = .error e ↔
      shape.rank ≤ axis ∧ ShapeError.axisOutOfRange (Signed.ofWord axis) shape.rank = e ∨
      axis < shape.rank ∧
        ((∃ dimension, shape.FirstEmptyBeside axis dimension ∧
            ShapeError.zeroSizedAxis dimension = e) ∨
          (∀ dimension, ¬shape.EmptyBeside axis dimension) ∧
            (Word.size ≤ elementWidth * elements (shape.drop (axis + 1)) ∨
              Word.size ≤ elements (shape.take axis)) ∧
            ShapeError.dimensionOverflow = e) := by
  unfold chunkLoop
  by_cases haxis : axis < shape.rank
  · simp only [haxis, if_true, true_and, Nat.not_le.2 haxis, false_and, false_or,
      Outcome.except_bind_eq_error, requireNonzero_eq_ok, pure, Except.pure, reduceCtorEq,
      and_false, exists_false, or_false]
    constructor
    · rintro (hfirst | ⟨-, hbefore, hsecond | ⟨-, hafter, hfields⟩⟩)
      · obtain ⟨dimension, -, hempty, he⟩ := requireNonzero_take_eq_error.1 hfirst
        exact .inl ⟨dimension, hempty, he⟩
      · exact .inl ((requireNonzero_drop_eq_error hbefore).1 hsecond)
      · have hbeside := forall_beside_ne_zero.1 ⟨hbefore, hafter⟩
        exact .inr ⟨hbeside, (fieldProducts_eq_error hbeside).1 hfields⟩
    · rintro (⟨dimension, hempty, he⟩ | ⟨hbeside, hfields⟩)
      · by_cases hbefore : ∀ d ∈ shape.take axis, d ≠ 0
        · exact .inr ⟨(), hbefore,
            .inl ((requireNonzero_drop_eq_error hbefore).2 ⟨dimension, hempty, he⟩)⟩
        · -- One of the dimensions before the axis is empty, so the first empty one is before it.
          rw [forall_take_ne_zero] at hbefore
          push Not at hbefore
          obtain ⟨other, hlt, hother⟩ := hbefore
          have hle : dimension ≤ other := Nat.not_lt.1 fun h => hempty.2 other h hother
          exact .inl (requireNonzero_take_eq_error.2
            ⟨dimension, Nat.lt_of_le_of_lt hle hlt, hempty, he⟩)
      · obtain ⟨hbefore, hafter⟩ := forall_beside_ne_zero.2 hbeside
        exact .inr ⟨(), hbefore, .inr ⟨(), hafter, (fieldProducts_eq_error hbeside).2 hfields⟩⟩
  · simp [haxis, Nat.not_lt.1 haxis]

/-- The dimensions around the axis make up the shape. -/
theorem elements_around (haxis : axis < shape.rank) :
    shape.elements =
      elements (shape.take axis) * (shape.getD axis 0 * elements (shape.drop (axis + 1))) := by
  have haround : shape = shape.take axis ++ shape.getD axis 0 :: shape.drop (axis + 1) := by
    rw [List.getD_eq_getElem?_getD, List.getElem?_eq_getElem haxis, Option.getD_some,
      ← List.drop_eq_getElem_cons haxis, List.take_append_drop]
  calc shape.elements
      = elements (shape.take axis ++ shape.getD axis 0 :: shape.drop (axis + 1)) :=
        congrArg elements haround
    _ = _ := by rw [elements_append, elements_cons]

/-- The bytes of all rounds are those of the shape. -/
theorem bytes_of_chunkLoop {bounds : ChunkLoop}
    (h : shape.chunkLoop elementWidth axis = .ok bounds) :
    bounds.inner.toNat * bounds.outer.toNat * shape.getD axis 0 =
      elementWidth * shape.elements := by
  obtain ⟨haxis, hinner, houter⟩ := chunkLoop_eq_ok h
  rw [hinner, houter, elements_around haxis]
  ring

end

/-! ## The bounds -/

/-- **The loop bounds of a concatenation are exact up to the last word.** There are bounds exactly if
    the axis is one of the shape, no other dimension is zero, and the exact products of the
    dimensions around the axis are words, the one after it times the width of an element. The bounds
    are then those products, so that all rounds together have the bytes of the shape. Otherwise the
    error is about the axis, or else about the first dimension of size zero beside the axis, or else
    about a size. Nothing is abandoned: for a shape whose rank is a word, adding up numbers of
    dimensions in words makes no difference. -/
theorem chunkLoop_exact (shape : Shape) (elementWidth axis : Nat) :
    ((∃ bounds, shape.chunkLoop elementWidth axis = .ok bounds) ↔
      axis < shape.rank ∧ (∀ dimension, ¬shape.EmptyBeside axis dimension) ∧
        elementWidth * elements (shape.drop (axis + 1)) < Word.size ∧
        elements (shape.take axis) < Word.size) ∧
    (∀ bounds, shape.chunkLoop elementWidth axis = .ok bounds →
      bounds.inner.toNat = elementWidth * elements (shape.drop (axis + 1)) ∧
        bounds.outer.toNat = elements (shape.take axis) ∧
        bounds.inner.toNat * bounds.outer.toNat * shape.getD axis 0 =
          elementWidth * shape.elements) ∧
    (∀ e, shape.chunkLoop elementWidth axis = .error e ↔
      shape.rank ≤ axis ∧ ShapeError.axisOutOfRange (Signed.ofWord axis) shape.rank = e ∨
      axis < shape.rank ∧
        ((∃ dimension, shape.FirstEmptyBeside axis dimension ∧
            ShapeError.zeroSizedAxis dimension = e) ∨
          (∀ dimension, ¬shape.EmptyBeside axis dimension) ∧
            (Word.size ≤ elementWidth * elements (shape.drop (axis + 1)) ∨
              Word.size ≤ elements (shape.take axis)) ∧
            ShapeError.dimensionOverflow = e)) ∧
    (shape.rank < Word.size →
      shape.chunkLoopInWords elementWidth axis =
        Outcome.ofExcept (shape.chunkLoop elementWidth axis)) := by
  refine ⟨⟨?_, ?_⟩, fun bounds h => ?_, fun e => chunkLoop_eq_error_iff,
    fun hrank => chunkLoopInWords_eq hrank elementWidth axis⟩
  · rintro ⟨bounds, h⟩
    obtain ⟨haxis, hbefore, hafter, hinner, houter⟩ := chunkLoop_eq_ok_iff.1 h
    rw [← hinner, ← houter]
    exact ⟨haxis, forall_beside_ne_zero.1 ⟨hbefore, hafter⟩, bounds.inner.toNat_lt,
      bounds.outer.toNat_lt⟩
  · rintro ⟨haxis, hbeside, hinner, houter⟩
    obtain ⟨hbefore, hafter⟩ := forall_beside_ne_zero.2 hbeside
    refine ⟨{ inner := .ofNatLT _ hinner, outer := .ofNatLT _ houter }, ?_⟩
    exact chunkLoop_eq_ok_iff.2
      ⟨haxis, hbefore, hafter, UInt64.toNat_ofNatLT, UInt64.toNat_ofNatLT⟩
  · obtain ⟨-, hinner, houter⟩ := chunkLoop_eq_ok h
    exact ⟨hinner, houter, bytes_of_chunkLoop h⟩

/-- Along an axis of size zero, elements of four bytes in blocks of the largest size that has a field
    are accepted, and the rounds have no bytes. -/
theorem chunkLoop_exact_empty_axis :
    let shape : Shape := [3, 0, 0x3FFFFFFFFFFFFFFF]
    let bounds : ChunkLoop := { inner := 0xFFFFFFFFFFFFFFFC, outer := 3 }
    shape.chunkLoop 4 1 = .ok bounds ∧
      bounds.inner.toNat * bounds.outer.toNat * shape.getD 1 0 = 4 * shape.elements ∧
      shape.rank < Word.size ∧ shape.chunkLoopInWords 4 1 = .ok bounds := by
  intro shape bounds
  have hbounds : shape.chunkLoop 4 1 = .ok bounds := rfl
  have hrank : shape.rank < Word.size := by decide
  obtain ⟨-, hexact, -, hwords⟩ := chunkLoop_exact shape 4 1
  obtain ⟨-, -, hbytes⟩ := hexact bounds hbounds
  exact ⟨hbounds, hbytes, hrank, hwords hrank⟩

end Shape

end TensorLowering
