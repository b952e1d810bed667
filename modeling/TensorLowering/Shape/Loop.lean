import TensorLowering.Outcome
import TensorLowering.Shape.Basic

set_option autoImplicit false

/-! # Loop bounds

The interpreter runs a concatenation as an outer loop over contiguous chunks and a softmax as a loop
over rows. Here are the bounds of those loops. Both refuse shapes in which a
loop would be empty; the concatenation axis itself may be empty, as it is no loop of its own. Numbers
of dimensions are added up in words without a difference (`Shape.chunkLoopInWords_eq`). -/

namespace TensorLowering

/-- The loop bounds of a concatenation. In each of `outer` rounds an input of size `n` along the
    axis contributes `inner * n` contiguous bytes. -/
structure ChunkLoop where
  inner : UInt64
  outer : UInt64
deriving DecidableEq, Repr

/-- The loop bounds of an operation on the rows of a tensor. -/
structure RowLoop where
  outer : Nat
  inner : Nat
deriving DecidableEq, Repr

namespace Shape

/-- The product of some sizes as a field of 64 bits. -/
def fieldProduct (ns : List Nat) : Except ShapeError UInt64 :=
  match (Word.product ns).toOption.bind Word.toUInt64? with
  | some n => .ok n
  | none => .error .dimensionOverflow

/-- The loop bounds of a concatenation along `axis` whose result has this shape and elements of
    `elementWidth` bytes. -/
def chunkLoop (shape : Shape) (elementWidth axis : Nat) :
    Except ShapeError ChunkLoop :=
  if axis < shape.rank then do
    requireNonzero (shape.take axis) 0
    requireNonzero (shape.drop (axis + 1)) (axis + 1)
    let inner ← fieldProduct (elementWidth :: shape.drop (axis + 1))
    let outer ← fieldProduct (shape.take axis)
    return { inner, outer }
  else .error (.axisOutOfRange (Signed.ofWord axis) shape.rank)

/-- The bounds, where the numbers of dimensions are added up in words as well. -/
def chunkLoopInWords (shape : Shape) (elementWidth axis : Nat) : Outcome ShapeError ChunkLoop :=
  if axis < shape.rank then do
    requireNonzeroInWords (shape.take axis) 0
    let next ← Word.add axis 1
    requireNonzeroInWords (shape.drop next) next
    let inner ← Outcome.ofExcept (fieldProduct (elementWidth :: shape.drop next))
    let outer ← Outcome.ofExcept (fieldProduct (shape.take axis))
    return { inner, outer }
  else .error (.axisOutOfRange (Signed.ofWord axis) shape.rank)

/-- The loop bounds for the rows of a tensor, which lie along its first dimension. The length of a
    row is the number of elements divided by the number of rows, so the whole count has to be a
    word. -/
def rowLoop (shape : Shape) : Outcome ShapeError RowLoop :=
  match shape with
  | [] => .error (.axisOutOfRange 0 0)
  | rows :: _ => do
      Outcome.ofExcept (requireNonzero shape 0)
      let count ← checkedElements shape
      let inner ← Word.div count rows
      return { outer := rows, inner }

/-! ## The bounds are the exact products -/

/-- A product that fits its field is the exact one. -/
theorem fieldProduct_eq_ok {ns : List Nat} {n : UInt64} (h : fieldProduct ns = .ok n) :
    n.toNat = elements ns := by
  unfold fieldProduct at h
  split at h
  · next w hw =>
      cases h
      obtain ⟨m, hm, hmw⟩ := Option.bind_eq_some_iff.1 hw
      rw [Word.toUInt64?_eq_some] at hmw
      cases hp : Word.product ns with
      | error t => rw [hp] at hm; cases hm
      | ok p =>
          rw [hp] at hm
          cases hm
          rw [hmw]
          exact Word.product_eq_ok hp
  · cases h

/-- A product of which only the first factor may be zero fits its field if the exact one does. -/
theorem fieldProduct_eq_ok_iff {ns : List Nat} (hne : ∀ d ∈ ns.tail, d ≠ 0) {n : UInt64} :
    fieldProduct ns = .ok n ↔ n.toNat = elements ns := by
  refine ⟨fieldProduct_eq_ok, fun h => ?_⟩
  have hlt : elements ns < Word.size := by
    rw [← h]
    exact n.toNat_lt
  have hproduct : Word.product ns = .ok (elements ns) :=
    Word.product_of_tail_pos (fun d hd => Nat.pos_of_ne_zero (hne d hd)) hlt
  unfold fieldProduct
  rw [hproduct, Except.toOption, Option.bind_some, Word.toUInt64?_eq_some.2 h]

/-- Otherwise it overflows its field. A zero further on could not undo an overflow before it. -/
theorem fieldProduct_eq_error {ns : List Nat} (hne : ∀ d ∈ ns.tail, d ≠ 0) {e : ShapeError} :
    fieldProduct ns = .error e ↔ Word.size ≤ elements ns ∧ ShapeError.dimensionOverflow = e := by
  have hok : ∀ n, fieldProduct ns = .ok n ↔ n.toNat = elements ns :=
    fun n => fieldProduct_eq_ok_iff hne
  cases h : fieldProduct ns with
  | ok n =>
      have hlt : elements ns < Word.size := by
        rw [← (hok n).1 h]
        exact n.toNat_lt
      simp [Nat.not_le.2 hlt]
  | error cause =>
      have hle : Word.size ≤ elements ns := by
        refine Nat.not_lt.1 fun hlt => ?_
        have hexact : fieldProduct ns = .ok (.ofNatLT (elements ns) hlt) :=
          (hok _).2 UInt64.toNat_ofNatLT
        cases h.symm.trans hexact
      have hcause : ShapeError.dimensionOverflow = cause := by
        unfold fieldProduct at h
        split at h
        · cases h
        · exact Except.error.inj h
      rw [Except.error.injEq, ← hcause]
      exact ⟨fun he => ⟨hle, he⟩, fun he => he.2⟩

/-- There are bounds for a concatenation along an axis of the shape exactly if no other dimension is
    zero and the exact products of the dimensions around the axis have fields. -/
theorem chunkLoop_eq_ok_iff {shape : Shape} {elementWidth axis : Nat} {p : ChunkLoop} :
    shape.chunkLoop elementWidth axis = .ok p ↔
      axis < shape.rank ∧ (∀ d ∈ shape.take axis, d ≠ 0) ∧ (∀ d ∈ shape.drop (axis + 1), d ≠ 0) ∧
        p.inner.toNat = elementWidth * elements (shape.drop (axis + 1)) ∧
        p.outer.toNat = elements (shape.take axis) := by
  unfold chunkLoop
  by_cases haxis : axis < shape.rank
  · simp only [haxis, if_true, true_and, Outcome.except_bind_eq_ok, requireNonzero_eq_ok]
    constructor
    · rintro ⟨-, hbefore, -, hafter, inner, hinner, outer, houter, hp⟩
      cases hp
      exact ⟨hbefore, hafter, fieldProduct_eq_ok hinner, fieldProduct_eq_ok houter⟩
    · rintro ⟨hbefore, hafter, hinner, houter⟩
      have hfieldInner : fieldProduct (elementWidth :: shape.drop (axis + 1)) = .ok p.inner :=
        (@fieldProduct_eq_ok_iff (elementWidth :: _) hafter _).2 hinner
      have hfieldOuter : fieldProduct (shape.take axis) = .ok p.outer :=
        (fieldProduct_eq_ok_iff fun d hd => hbefore d (List.mem_of_mem_tail hd)).2 houter
      exact ⟨(), hbefore, (), hafter, p.inner, hfieldInner, p.outer, hfieldOuter, rfl⟩
  · simp [haxis]

/-- The bounds of a concatenation are the exact products of the dimensions around the axis. -/
theorem chunkLoop_eq_ok {shape : Shape} {elementWidth axis : Nat} {p : ChunkLoop}
    (h : shape.chunkLoop elementWidth axis = .ok p) :
    axis < shape.rank ∧ p.inner.toNat = elementWidth * elements (shape.drop (axis + 1)) ∧
      p.outer.toNat = elements (shape.take axis) := by
  obtain ⟨haxis, -, -, hinner, houter⟩ := chunkLoop_eq_ok_iff.1 h
  exact ⟨haxis, hinner, houter⟩

/-- No sum leaves the words for a shape whose rank is one. -/
theorem chunkLoopInWords_eq {shape : Shape} (hrank : shape.rank < Word.size) (elementWidth axis : Nat) :
    shape.chunkLoopInWords elementWidth axis =
      Outcome.ofExcept (shape.chunkLoop elementWidth axis) := by
  unfold chunkLoopInWords chunkLoop
  by_cases haxis : axis < shape.rank
  · have hlt : axis < shape.length := haxis
    have hlength : shape.length < Word.size := hrank
    have hnext : Word.add axis 1 = .ok (axis + 1) := Word.add_eq_ok.2 ⟨by omega, rfl⟩
    have hbefore : requireNonzeroInWords (shape.take axis) 0 =
        Outcome.ofExcept (requireNonzero (shape.take axis) 0) := by
      apply requireNonzeroInWords_eq
      rw [List.length_take]
      omega
    have hafter : requireNonzeroInWords (shape.drop (axis + 1)) (axis + 1) =
        Outcome.ofExcept (requireNonzero (shape.drop (axis + 1)) (axis + 1)) := by
      apply requireNonzeroInWords_eq
      rw [List.length_drop]
      omega
    simp only [haxis, if_true, hnext, hbefore, hafter, Outcome.liftM_eq, Outcome.ofChecked_ok,
      Outcome.ok_bind, Outcome.ofExcept_bind]
    rfl
  · simp [haxis]

/-- There are rows exactly if no dimension is zero and the elements can be counted; a row then has
    the elements of the other dimensions. -/
theorem rowLoop_eq_ok_iff {shape : Shape} {p : RowLoop} :
    shape.rowLoop = .ok p ↔
      ∃ rest, shape = p.outer :: rest ∧ (∀ d ∈ shape, d ≠ 0) ∧ shape.elements < Word.size ∧
        p.inner = elements rest := by
  cases shape with
  | nil => simp [rowLoop]
  | cons rows rest =>
      simp only [rowLoop, Outcome.bind_eq_ok, Outcome.ofExcept_eq_ok, requireNonzero_eq_ok,
        Outcome.liftM_eq, Outcome.ofChecked_eq_ok, Word.div_eq_ok, Outcome.pure_eq_ok,
        Outcome.ok.injEq]
      constructor
      · rintro ⟨-, hne, count, hcount, inner, ⟨hrows, rfl⟩, rfl⟩
        have hlt : elements (rows :: rest) < Word.size := by
          refine Nat.not_le.1 fun hle => ?_
          have hfault : checkedElements (rows :: rest) = .error (.overflow .mul) :=
            checkedElements_eq_error.2 ⟨(countOverflows_iff hne).2 hle, rfl⟩
          cases hcount.symm.trans hfault
        refine ⟨rest, rfl, hne, hlt, ?_⟩
        rw [checkedElements_eq_ok hcount, elements_cons,
          Nat.mul_div_cancel_left _ (Nat.pos_of_ne_zero hrows)]
      · rintro ⟨_, hshape, hne, hlt, hinner⟩
        cases hshape
        have hrows : p.outer ≠ 0 := hne _ List.mem_cons_self
        refine ⟨(), hne, _, checkedElements_of_pos (fun d hd => Nat.pos_of_ne_zero (hne d hd)) hlt,
          _, ⟨hrows, rfl⟩, ?_⟩
        rw [elements_cons, Nat.mul_div_cancel_left _ (Nat.pos_of_ne_zero hrows), ← hinner]

/-- Counting the rows is abandoned only if the elements are too many to count; no row is empty. -/
theorem rowLoop_eq_fault {shape : Shape} {t : Fault} :
    shape.rowLoop = .fault t ↔ shape ≠ [] ∧ (∀ d ∈ shape, d ≠ 0) ∧
      Word.size ≤ shape.elements ∧ Fault.overflow .mul = t := by
  cases shape with
  | nil => simp [rowLoop]
  | cons rows rest =>
      simp only [rowLoop, Outcome.bind_eq_fault, Outcome.ofExcept_ne_fault, Outcome.ofExcept_eq_ok,
        requireNonzero_eq_ok, Outcome.liftM_eq, Outcome.ofChecked_eq_fault, Outcome.pure_eq_ok,
        Word.div_eq_error, checkedElements_eq_error, reduceCtorEq, and_false, exists_false,
        false_or, or_false]
      constructor
      · rintro ⟨_, hne, ⟨hcount, rfl⟩ | ⟨_, -, hzero, -⟩⟩
        · exact ⟨List.cons_ne_nil rows rest, hne, (countOverflows_iff hne).1 hcount, rfl⟩
        · exact absurd hzero (hne rows List.mem_cons_self)
      · rintro ⟨-, hne, hcount, rfl⟩
        exact ⟨(), hne, .inl ⟨(countOverflows_iff hne).2 hcount, rfl⟩⟩

end Shape

end TensorLowering
