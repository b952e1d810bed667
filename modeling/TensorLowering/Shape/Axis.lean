import TensorLowering.Outcome
import TensorLowering.Shape.Basic

set_option autoImplicit false

/-! # Axes

An operator names an axis of a tensor of rank `r` by an integer in `[-r, r)`; negative ones count
back from the last dimension. Resolving a list of axes gives the set of dimensions they name as a
strictly increasing list, which is the form every other definition works with.

Resolving inserts each dimension where it belongs. Sorting all of them first and then dropping
repetitions that stand next to each other gives the same list, and no sum that is taken in words on
the way leaves them (`axisDimensionsInWords_eq`). -/

namespace TensorLowering

/-- The dimension that an axis names. The rank takes part as a signed word, so the least signed
    word, whose negation is no word, faults. -/
def axisDimension (rank : Nat) (axis : Int) : Outcome ShapeError Nat := do
  let signedRank := Signed.ofWord rank
  let lowest ← Signed.neg signedRank
  Outcome.require (lowest ≤ axis ∧ axis < signedRank) (.axisOutOfRange axis rank)
  return (if 0 ≤ axis then axis else signedRank + axis).toNat

/-- The dimension that an axis names, where the sum of the rank and a negative axis is taken in
    signed words as well, and the result is read as an unsigned word. -/
def axisDimensionInWords (rank : Nat) (axis : Int) : Outcome ShapeError Nat := do
  let signedRank := Signed.ofWord rank
  let lowest ← Signed.neg signedRank
  Outcome.require (lowest ≤ axis ∧ axis < signedRank) (.axisOutOfRange axis rank)
  let resolved ← (if 0 ≤ axis then .ok axis else Signed.add signedRank axis : Checked Int)
  return Signed.toWord resolved

/-- Insert an axis into a strictly increasing list, which it may already belong to. -/
def insertAxis (axis : Nat) : List Nat → List Nat
  | [] => [axis]
  | other :: rest =>
      if axis < other then axis :: other :: rest
      else if axis = other then other :: rest
      else other :: insertAxis axis rest

/-- The strictly increasing list of the members of a list. -/
def axisSet (axes : List Nat) : List Nat := axes.foldr insertAxis []

/-- The set of dimensions that a list of axes names, or the error of the first axis that names
    none. -/
def axisDimensions (rank : Nat) (axes : List Int) : Outcome ShapeError (List Nat) := do
  return axisSet (← axes.mapM (axisDimension rank))

/-- The entries of a list, but for those that equal the one before them. -/
def dropRepeats : List Nat → List Nat
  | [] => []
  | [entry] => [entry]
  | first :: second :: rest =>
      if first = second then dropRepeats (second :: rest)
      else first :: dropRepeats (second :: rest)

/-- The dimensions that a list of axes names, each resolved in words, then sorted, then without those
    that equal the one before them. -/
def axisDimensionsInWords (rank : Nat) (axes : List Int) : Outcome ShapeError (List Nat) := do
  let resolved ← axes.mapM (axisDimensionInWords rank)
  return dropRepeats (resolved.mergeSort (· ≤ ·))

/-! ## What an axis resolves to -/

/-- For a rank that is half a word or less nothing faults, and resolving is the wrap-around of the
    axis into `[0, rank)`. -/
theorem axisDimension_eq {rank : Nat} (h : rank < 0x8000000000000000) (axis : Int) :
    axisDimension rank axis =
      if -(rank : Int) ≤ axis ∧ axis < rank then
        .ok (if 0 ≤ axis then axis else rank + axis).toNat
      else .error (.axisOutOfRange axis rank) := by
  have hneg : Signed.neg (rank : Int) = .ok (-(rank : Int)) := by
    rw [Signed.neg_eq_ok]
    exact ⟨⟨by omega, by omega⟩, rfl⟩
  unfold axisDimension
  simp only [Signed.ofWord_of_lt h, hneg, Outcome.liftM_eq, Outcome.ofChecked_ok, Outcome.ok_bind]
  by_cases hr : -(rank : Int) ≤ axis ∧ axis < rank <;> simp [Outcome.require, hr]

theorem axisDimension_eq_ok {rank : Nat} (h : rank < 0x8000000000000000) {axis : Int} {r : Nat} :
    axisDimension rank axis = .ok r ↔
      -(rank : Int) ≤ axis ∧ r < rank ∧ (axis = r ∨ axis = (r : Int) - rank) := by
  rw [axisDimension_eq h]
  split
  · next hr =>
      simp only [Outcome.ok.injEq]
      split <;> omega
  · next hr =>
      simp only [reduceCtorEq, false_iff]
      omega

/-- Naming an axis is abandoned only at the rank that has no negation among the signed words. -/
theorem axisDimension_eq_fault {rank : Nat} {axis : Int} {t : Fault} :
    axisDimension rank axis = .fault t ↔
      ¬Signed.Fits (-Signed.ofWord rank) ∧ Fault.overflow .neg = t := by
  simp only [axisDimension, Outcome.bind_eq_fault, Outcome.liftM_eq, Outcome.ofChecked_eq_fault,
    Signed.neg_eq_error, Outcome.require_ne_fault, Outcome.pure_eq_ok, reduceCtorEq, and_false,
    exists_false, or_false]

/-- An axis that is found is one of the shape, whatever its rank. -/
theorem lt_of_axisDimension_eq_ok {rank : Nat} {axis : Int} {dimension : Nat}
    (h : axisDimension rank axis = .ok dimension) : dimension < rank := by
  simp only [axisDimension, Outcome.bind_eq_ok, Outcome.liftM_eq, Outcome.ofChecked_eq_ok,
    Signed.neg_eq_ok, Outcome.require_eq_ok, Outcome.pure_eq_ok, Outcome.ok.injEq] at h
  obtain ⟨_, ⟨-, rfl⟩, _, ⟨hlow, hhigh⟩, rfl⟩ := h
  have hle := Signed.ofWord_le rank
  split <;> omega

theorem not_faults_axisDimension {rank : Nat} (h : rank < 0x8000000000000000) (axis : Int) :
    ¬(axisDimension rank axis).Faults := by
  rintro ⟨t, ht⟩
  rw [axisDimension_eq_fault, Signed.ofWord_of_lt h] at ht
  exact ht.1 ⟨by omega, by omega⟩

/-- No sum of the rank and a negative axis in range leaves the signed words, and none is negative. -/
theorem axisDimensionInWords_eq (rank : Nat) (axis : Int) :
    axisDimensionInWords rank axis = axisDimension rank axis := by
  unfold axisDimensionInWords axisDimension
  cases hneg : Signed.neg (Signed.ofWord rank) with
  | error t => simp only [hneg, Outcome.liftM_eq, Outcome.ofChecked_error, Outcome.fault_bind]
  | ok lowest =>
      simp only [hneg, Outcome.liftM_eq, Outcome.ofChecked_ok, Outcome.ok_bind]
      obtain ⟨-, rfl⟩ := Signed.neg_eq_ok.1 hneg
      obtain ⟨-, hmax⟩ := Signed.fits_ofWord rank
      by_cases hrange : -Signed.ofWord rank ≤ axis ∧ axis < Signed.ofWord rank
      · have hrequire : Outcome.require (-Signed.ofWord rank ≤ axis ∧ axis < Signed.ofWord rank)
            (ShapeError.axisOutOfRange axis rank) = .ok () := Outcome.require_eq_ok.2 hrange
        obtain ⟨hlow, hhigh⟩ := hrange
        rw [hrequire, Outcome.ok_bind, Outcome.ok_bind]
        by_cases hsign : 0 ≤ axis
        · have hword : Signed.toWord axis = axis.toNat :=
            Signed.toWord_of_nonneg hsign ⟨by omega, by omega⟩
          simp only [hsign, if_true, Outcome.ofChecked_ok, Outcome.ok_bind, hword]
        · have hfits : Signed.Fits (Signed.ofWord rank + axis) := ⟨by omega, by omega⟩
          have hsum : Signed.add (Signed.ofWord rank) axis = .ok (Signed.ofWord rank + axis) :=
            Signed.add_eq_ok.2 ⟨hfits, rfl⟩
          have hword : Signed.toWord (Signed.ofWord rank + axis) =
              (Signed.ofWord rank + axis).toNat :=
            Signed.toWord_of_nonneg (by omega) hfits
          simp only [hsign, if_false, hsum, Outcome.ofChecked_ok, Outcome.ok_bind, hword]
      · rw [Outcome.require_eq_error.2 ⟨hrange, rfl⟩, Outcome.error_bind, Outcome.error_bind]

/-! ## Sets of axes -/

theorem insertAxis_cons (axis other : Nat) (rest : List Nat) :
    insertAxis axis (other :: rest) =
      if axis < other then axis :: other :: rest
      else if axis = other then other :: rest
      else other :: insertAxis axis rest := rfl

@[simp] theorem mem_insertAxis {axis other : Nat} {axes : List Nat} :
    other ∈ insertAxis axis axes ↔ other = axis ∨ other ∈ axes := by
  induction axes with
  | nil => simp [insertAxis]
  | cons a as ih =>
      unfold insertAxis
      split
      · simp
      · split
        · next he => subst he; simp
        · simp only [List.mem_cons, ih]
          exact or_left_comm

@[simp] theorem mem_axisSet {axis : Nat} {axes : List Nat} :
    axis ∈ axisSet axes ↔ axis ∈ axes := by
  induction axes with
  | nil => simp [axisSet]
  | cons a as ih => simpa [axisSet] using or_congr_right ih

theorem insertAxis_pairwise {axis : Nat} {axes : List Nat} (h : axes.Pairwise (· < ·)) :
    (insertAxis axis axes).Pairwise (· < ·) := by
  induction axes with
  | nil => simp [insertAxis]
  | cons a as ih =>
      have ⟨ha, has⟩ := List.pairwise_cons.1 h
      unfold insertAxis
      split
      · next hlt =>
          refine List.pairwise_cons.2 ⟨fun x hx => ?_, h⟩
          rcases List.mem_cons.1 hx with rfl | hx
          · exact hlt
          · exact Nat.lt_trans hlt (ha x hx)
      · split
        · exact h
        · refine List.pairwise_cons.2 ⟨fun x hx => ?_, ih has⟩
          rcases mem_insertAxis.1 hx with rfl | hx
          · omega
          · exact ha x hx

/-- A set of axes is listed in strictly increasing order. -/
theorem axisSet_pairwise (axes : List Nat) : (axisSet axes).Pairwise (· < ·) := by
  induction axes with
  | nil => exact List.Pairwise.nil
  | cons a as ih => exact insertAxis_pairwise ih

/-- A set of axes is determined by its members. -/
theorem axisSet_eq_of_mem_iff {axes axes' : List Nat} (h : ∀ axis, axis ∈ axes ↔ axis ∈ axes') :
    axisSet axes = axisSet axes' := by
  have hnodup : ∀ axes, (axisSet axes).Nodup :=
    fun axes => (axisSet_pairwise axes).imp Nat.ne_of_lt
  have hperm : (axisSet axes).Perm (axisSet axes') := by
    refine (List.perm_ext_iff_of_nodup (hnodup axes) (hnodup axes')).2 ?_
    intro axis
    rw [mem_axisSet, mem_axisSet, h]
  refine hperm.eq_of_pairwise ?_ (axisSet_pairwise axes) (axisSet_pairwise axes')
  intro axis other _ _ hlt hgt
  exact absurd hlt (Nat.lt_asymm hgt)

/-! ## Sorting and dropping repetitions -/

theorem dropRepeats_cons_cons (first second : Nat) (rest : List Nat) :
    dropRepeats (first :: second :: rest) =
      if first = second then dropRepeats (second :: rest)
      else first :: dropRepeats (second :: rest) := rfl

theorem exists_dropRepeats_cons (first : Nat) (rest : List Nat) :
    ∃ others, dropRepeats (first :: rest) = first :: others := by
  induction rest generalizing first with
  | nil => exact ⟨[], rfl⟩
  | cons second rest ih =>
      rw [dropRepeats_cons_cons]
      by_cases heq : first = second
      · rw [if_pos heq, heq]
        exact ih second
      · rw [if_neg heq]
        exact ⟨dropRepeats (second :: rest), rfl⟩

/-- Putting an axis before a sorted list drops it if it repeats the first entry. -/
theorem insertAxis_dropRepeats {first second : Nat} (h : first ≤ second) (rest : List Nat) :
    insertAxis first (dropRepeats (second :: rest)) = dropRepeats (first :: second :: rest) := by
  obtain ⟨others, hothers⟩ := exists_dropRepeats_cons second rest
  rw [dropRepeats_cons_cons, hothers, insertAxis_cons]
  by_cases heq : first = second
  · rw [if_neg (Nat.not_lt.2 (Nat.le_of_eq heq.symm)), if_pos heq, if_pos heq]
  · rw [if_pos (Nat.lt_of_le_of_ne h heq), if_neg heq]

/-- In a sorted list the entries that are equal stand next to each other. -/
theorem axisSet_eq_dropRepeats {axes : List Nat} (h : axes.Pairwise (· ≤ ·)) :
    axisSet axes = dropRepeats axes := by
  induction axes with
  | nil => rfl
  | cons first axes ih =>
      obtain ⟨hle, hrest⟩ := List.pairwise_cons.1 h
      cases axes with
      | nil => rfl
      | cons second axes =>
          rw [← insertAxis_dropRepeats (hle second List.mem_cons_self), ← ih hrest]
          rfl

/-- Sorting first and dropping repetitions then gives the set. -/
theorem dropRepeats_mergeSort (axes : List Nat) :
    dropRepeats (axes.mergeSort (· ≤ ·)) = axisSet axes := by
  have hsorted : (axes.mergeSort (· ≤ ·)).Pairwise (· ≤ ·) := by
    have h := @List.pairwise_mergeSort Nat (fun a b => decide (a ≤ b))
      (by simpa using fun _ _ _ => Nat.le_trans) (by simpa using Nat.le_total) axes
    simpa using h
  rw [← axisSet_eq_dropRepeats hsorted]
  exact axisSet_eq_of_mem_iff fun axis => (List.mergeSort_perm axes _).mem_iff

theorem axisDimensionsInWords_eq (rank : Nat) (axes : List Int) :
    axisDimensionsInWords rank axes = axisDimensions rank axes := by
  have hstep : axisDimensionInWords rank = axisDimension rank :=
    funext (axisDimensionInWords_eq rank)
  unfold axisDimensionsInWords axisDimensions
  simp only [hstep, dropRepeats_mergeSort]

/-- The dimensions that are found are listed in strictly increasing order. -/
theorem axisDimensions_pairwise {rank : Nat} {axes : List Int} {dimensions : List Nat}
    (h : axisDimensions rank axes = .ok dimensions) : dimensions.Pairwise (· < ·) := by
  simp only [axisDimensions, Outcome.bind_eq_ok, Outcome.pure_eq_ok, Outcome.ok.injEq] at h
  obtain ⟨resolved, -, rfl⟩ := h
  exact axisSet_pairwise resolved

/-- Each axis of a list names a dimension exactly if each is in range. -/
theorem exists_axisDimensions_eq_ok {rank : Nat} (hrank : rank < 0x8000000000000000)
    {axes : List Int} :
    (∃ dimensions, axisDimensions rank axes = .ok dimensions) ↔
      ∀ axis ∈ axes, -(rank : Int) ≤ axis ∧ axis < rank := by
  have hsome : (∃ dimensions, axisDimensions rank axes = .ok dimensions) ↔
      ∃ resolved, axes.mapM (axisDimension rank) = .ok resolved := by
    simp only [axisDimensions, Outcome.bind_eq_ok, Outcome.pure_eq_ok, Outcome.ok.injEq]
    exact ⟨fun ⟨_, resolved, h, _⟩ => ⟨resolved, h⟩, fun ⟨resolved, h⟩ => ⟨_, resolved, h, rfl⟩⟩
  rw [hsome, Outcome.exists_mapM_eq_ok]
  refine forall₂_congr fun axis _ => ?_
  rw [axisDimension_eq hrank]
  by_cases hr : -(rank : Int) ≤ axis ∧ axis < rank <;> simp [hr]

/-- Nor is naming several axes abandoned at another one. -/
theorem axisDimensions_eq_fault {rank : Nat} {axes : List Int} {t : Fault}
    (h : axisDimensions rank axes = .fault t) :
    ¬Signed.Fits (-Signed.ofWord rank) ∧ Fault.overflow .neg = t := by
  simp only [axisDimensions, Outcome.bind_eq_fault, Outcome.pure_eq_ok, reduceCtorEq, and_false,
    exists_false, or_false] at h
  exact Outcome.faultsAre_mapM (fun axis _ t ht => axisDimension_eq_fault.1 ht) t h

theorem not_faults_axisDimensions {rank : Nat} (h : rank < 0x8000000000000000) (axes : List Int) :
    ¬(axisDimensions rank axes).Faults := by
  rintro ⟨t, ht⟩
  have haxis : axisDimension rank 0 = .fault t :=
    axisDimension_eq_fault.2 (axisDimensions_eq_fault ht)
  exact not_faults_axisDimension h 0 ⟨t, haxis⟩

/-- The dimensions that are found are those that one of the axes names. -/
theorem mem_axisDimensions {rank : Nat} (hrank : rank < 0x8000000000000000) {axes : List Int}
    {dimensions : List Nat} (h : axisDimensions rank axes = .ok dimensions) {dimension : Nat} :
    dimension ∈ dimensions ↔
      dimension < rank ∧ ∃ axis ∈ axes, axis = dimension ∨ axis = (dimension : Int) - rank := by
  simp only [axisDimensions, Outcome.bind_eq_ok, Outcome.pure_eq_ok, Outcome.ok.injEq] at h
  obtain ⟨resolved, hresolved, rfl⟩ := h
  rw [mem_axisSet, Outcome.mem_of_mapM_eq_ok hresolved]
  simp only [axisDimension_eq_ok hrank]
  constructor
  · rintro ⟨axis, haxis, -, hlt, heq⟩
    exact ⟨hlt, axis, haxis, heq⟩
  · rintro ⟨hlt, axis, haxis, heq⟩
    exact ⟨axis, haxis, by omega, hlt, heq⟩

end TensorLowering
