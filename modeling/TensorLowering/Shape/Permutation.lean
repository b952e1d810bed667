import TensorLowering.Outcome
import TensorLowering.Shape.Layout

set_option autoImplicit false

/-! # Permutations of axes and the rank of records

Records hold axis arrays of a fixed rank. A shape of lower rank is padded on the left with
dimensions of size one; a permutation is extended by identity positions for the axes that padding
inserts and has its own entries shifted past them (`PermutedShape.atRank`). What a reordering means
is said by `PermutedShape.sourceOffset`, which tells from where in a tensor each element of the
reordered tensor comes. The entries of a permutation are axes of the shape (`isPermutation_iff_perm`),
so shifting them in words changes nothing (`PermutedShape.atRankInWords_eq`). -/

namespace TensorLowering

/-- Whether a list names each of the axes below `rank` exactly once. -/
def isPermutation (rank : Nat) (perm : List Nat) : Bool :=
  perm.length == rank && (List.range rank).all fun axis => perm.count axis == 1

/-- The test accepts exactly the rearrangements of the axes. -/
theorem isPermutation_iff_perm {rank : Nat} {perm : List Nat} :
    isPermutation rank perm = true ↔ perm.Perm (List.range rank) := by
  simp only [isPermutation, Bool.and_eq_true, beq_iff_eq, List.all_eq_true, List.mem_range]
  constructor
  · intro ⟨hlength, hcount⟩
    have hkept : (perm.filter (· < rank)).Perm (List.range rank) := by
      refine List.perm_iff_count.2 ?_
      intro axis
      rw [List.nodup_range.count]
      by_cases haxis : axis < rank
      · rw [List.count_filter (by simpa using haxis), hcount axis haxis,
          if_pos (List.mem_range.2 haxis)]
      · rw [List.count_eq_zero.2 (by simp [haxis]), if_neg (by simpa using haxis)]
    -- No entry is left for anything but the axes, because there are as many entries as axes.
    have hall : (perm.filter (· < rank)).length = perm.length := by
      rw [hkept.length_eq, List.length_range, hlength]
    rwa [List.filter_eq_self.2 (List.length_filter_eq_length_iff.1 hall)] at hkept
  · intro h
    refine ⟨by simpa using h.length_eq, ?_⟩
    intro axis haxis
    rw [h.count_eq, List.nodup_range.count, if_pos (List.mem_range.2 haxis)]

/-- The number of dimensions that axis arrays in records have. -/
def recordRank : Nat := 4

/-- A word for each of the axes that a record knows. -/
abbrev AxisArray := Vector UInt32 recordRank

namespace AxisArray

/-- The entries as numbers. -/
def dims (axes : AxisArray) : Shape := axes.toList.map UInt32.toNat

/-- The axis array with the given entries, each taken modulo the size of a word. -/
def ofList (entries : List Nat) : AxisArray :=
  Vector.ofFn fun axis => UInt32.ofNat (entries.getD axis 1)

@[simp] theorem length_dims (axes : AxisArray) : axes.dims.length = recordRank := by
  simp [dims]

/-- Entries that are words are kept. -/
theorem dims_ofList {entries : List Nat} (hlength : entries.length = recordRank)
    (hword : ∀ n ∈ entries, n < UInt32.size) : (ofList entries).dims = entries := by
  apply List.ext_getElem
  · simp [hlength]
  · intro i hi hi'
    have hlt := hword _ (List.getElem_mem hi')
    simp only [dims, ofList, List.getElem_map, Vector.getElem_toList, Vector.getElem_ofFn,
      List.getD, List.getElem?_eq_getElem hi', Option.getD_some]
    simpa [UInt32.toNat_ofNat] using Nat.mod_eq_of_lt hlt

end AxisArray

namespace Shape

/-- The shape with dimensions of size one on the left, up to `rank` of them in all. -/
def padLeft (rank : Nat) (shape : Shape) : Shape :=
  List.replicate (rank - shape.length) 1 ++ shape

/-- The axis array of a shape. -/
def toAxisArray (shape : Shape) : Except ShapeError AxisArray :=
  if recordRank < shape.rank then .error (.rankTooLarge shape.rank recordRank)
  else if shape.all (· < UInt32.size) then .ok (AxisArray.ofList (shape.padLeft recordRank))
  else .error .dimensionOverflow

/-! ## Padding -/

theorem length_padLeft {rank : Nat} {shape : Shape} (h : shape.length ≤ rank) :
    (shape.padLeft rank).length = rank := by
  simp [padLeft]; omega

/-- A shape that already has the rank is not padded. -/
theorem padLeft_of_length_eq {rank : Nat} {shape : Shape} (h : shape.length = rank) :
    shape.padLeft rank = shape := by
  simp [padLeft, h]

@[simp] theorem elements_padLeft (rank : Nat) (shape : Shape) :
    (shape.padLeft rank).elements = shape.elements := by
  simp [padLeft]

/-- An axis array holds the shape it was made from, padded to the rank of records. -/
theorem dims_of_toAxisArray {shape : Shape} {axes : AxisArray}
    (h : shape.toAxisArray = .ok axes) :
    shape.rank ≤ recordRank ∧ axes.dims = shape.padLeft recordRank := by
  unfold toAxisArray at h
  split at h
  · cases h
  · next hrank =>
      have hle : shape.length ≤ recordRank := Nat.le_of_not_lt hrank
      split at h
      · next hall =>
          cases h
          refine ⟨hle, AxisArray.dims_ofList (length_padLeft hle) ?_⟩
          intro n hn
          rcases List.mem_append.1 hn with hn | hn
          · rw [(List.mem_replicate.1 hn).2]; decide
          · simpa using List.all_eq_true.1 hall n hn
      · cases h

end Shape

/-- A shape together with an order of its axes. -/
structure PermutedShape where
  shape : Shape
  perm : List Nat
deriving DecidableEq, Repr

namespace PermutedShape

/-- The same tensor and the same order of its axes at the rank `target`. -/
def atRank (reordering : PermutedShape) (target : Nat) : Except ShapeError PermutedShape :=
  let { shape, perm } := reordering
  if target < shape.rank then .error (.rankTooLarge shape.rank target)
  else if isPermutation shape.rank perm then
    let pad := target - shape.rank
    .ok { shape := shape.padLeft target, perm := List.range pad ++ perm.map (· + pad) }
  else .error .invalidPermutation

/-- The extension to a rank, where the number of axes that padding inserts and the entries shifted
    by it are computed in words. -/
def atRankInWords (reordering : PermutedShape) (target : Nat) :
    Outcome ShapeError PermutedShape :=
  let { shape, perm } := reordering
  if target < shape.rank then .error (.rankTooLarge shape.rank target)
  else if isPermutation shape.rank perm then do
    let pad ← Word.sub target shape.rank
    let shifted ← perm.mapM fun axis => (Word.add axis pad : Outcome ShapeError Nat)
    return { shape := shape.padLeft target, perm := List.range pad ++ shifted }
  else .error .invalidPermutation

/-- The shape of the reordered tensor: its axis `i` is axis `perm[i]` of the given one. -/
def result (reordering : PermutedShape) : Shape :=
  reordering.perm.map fun axis => reordering.shape.getD axis 1

/-- The coordinate in the given tensor of the element at a coordinate of the reordered one. -/
def source (reordering : PermutedShape) (coordinate : Coordinate) : Coordinate :=
  (List.range reordering.perm.length).map fun axis =>
    coordinate.getD (reordering.perm.idxOf axis) 0

/-- The coordinate in the reordered tensor of the element at a coordinate of the given one: its
    index on axis `i` is the one on axis `perm[i]`. -/
def target (reordering : PermutedShape) (coordinate : Coordinate) : Coordinate :=
  reordering.perm.map fun axis => coordinate.getD axis 0

/-- The offset in the given tensor of the element at an offset of the reordered one. -/
def sourceOffset (reordering : PermutedShape) (position : Nat) : Nat :=
  reordering.shape.offset (reordering.source (reordering.result.coordinate position))

@[simp] theorem length_result (reordering : PermutedShape) :
    reordering.result.length = reordering.perm.length := by
  simp [result]

@[simp] theorem length_source (reordering : PermutedShape) (coordinate : Coordinate) :
    (reordering.source coordinate).length = reordering.perm.length := by
  simp [source]

@[simp] theorem length_target (reordering : PermutedShape) (coordinate : Coordinate) :
    (reordering.target coordinate).length = reordering.perm.length := by
  simp [target]

/-- A reordering is extended exactly if its rank allows and it is one. -/
theorem atRank_eq_ok {reordering extended : PermutedShape} {target : Nat} :
    reordering.atRank target = .ok extended ↔
      reordering.shape.rank ≤ target ∧
        isPermutation reordering.shape.rank reordering.perm = true ∧
        extended.shape = reordering.shape.padLeft target ∧
        extended.perm = List.range (target - reordering.shape.rank) ++
          reordering.perm.map (· + (target - reordering.shape.rank)) := by
  obtain ⟨shape, perm⟩ := reordering
  obtain ⟨extendedShape, extendedPerm⟩ := extended
  unfold atRank
  simp only
  split
  · next hrank =>
      simp only [reduceCtorEq, false_iff]
      exact fun h => absurd h.1 (Nat.not_le.2 hrank)
  · next hrank =>
      split
      · next hperm => simp [Nat.le_of_not_lt hrank, hperm, eq_comm]
      · next hperm => simp [hperm]

/-! ## Shifted entries stay words -/

/-- Entries are shifted in words to their sums, where all of these are words. -/
theorem mapM_add_eq_ok {ε : Type} {entries : List Nat} {pad : Nat}
    (h : ∀ entry ∈ entries, entry + pad < Word.size) :
    entries.mapM (fun entry => (Outcome.ofChecked (Word.add entry pad) : Outcome ε Nat)) =
      .ok (entries.map (· + pad)) := by
  rw [Outcome.mapM_eq_ok, List.map_map]
  refine List.map_congr_left ?_
  intro entry hentry
  have hadd : Word.add entry pad = .ok (entry + pad) := Word.add_eq_ok.2 ⟨h entry hentry, rfl⟩
  rw [hadd]
  rfl

/-- No shifted entry leaves the words, if the rank is one. -/
theorem atRankInWords_eq {reordering : PermutedShape} {target : Nat} (h : target < Word.size) :
    reordering.atRankInWords target = Outcome.ofExcept (reordering.atRank target) := by
  obtain ⟨shape, perm⟩ := reordering
  unfold atRankInWords atRank
  by_cases hrank : target < shape.rank
  · simp only [hrank, if_true, Outcome.ofExcept_error]
  · by_cases hperm : isPermutation shape.rank perm = true
    · have hpad : Word.sub target shape.rank = .ok (target - shape.rank) :=
        Word.sub_eq_ok.2 ⟨Nat.not_lt.1 hrank, rfl⟩
      have hwords : ∀ axis ∈ perm, axis + (target - shape.rank) < Word.size := by
        intro axis haxis
        have hlt : axis < shape.rank :=
          List.mem_range.1 ((isPermutation_iff_perm.1 hperm).mem_iff.1 haxis)
        omega
      simp only [hrank, if_false, hperm, if_true, hpad, Outcome.liftM_eq, Outcome.ofChecked_ok,
        Outcome.ok_bind]
      rw [mapM_add_eq_ok hwords]
      rfl
    · simp only [hrank, if_false, hperm]
      rfl

end PermutedShape

end TensorLowering
