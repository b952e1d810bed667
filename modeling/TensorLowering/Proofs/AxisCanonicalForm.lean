import Mathlib.Data.Int.ModEq
import Mathlib.Data.List.Dedup
import Mathlib.Data.List.Sort
import TensorLowering.Shape.Axis

set_option autoImplicit false

/-! # Resolved axes are a canonical form

A dimension can be named from the start or from the end, any number of times and in any order. What
a list of axes resolves to forgets all of this and nothing else: two lists resolve to the same
dimensions exactly if one is got from the other by reordering, repeating and respelling axes
(`SameAxes`), and a resolved list, read as axes again, is one of those that resolve to it
(`axisDimensions_isCanonicalForm`).

Nothing overflows on the way: with every step taken in words, sorting and dropping repetitions
included, the result is the same (`axisDimensionsInWords_eq`). -/

namespace TensorLowering

/-! ## What a list of axes resolves to -/

/-- An axis in range is congruent to the dimension that it names, from either end, and to no
    other. -/
theorem modEq_iff_names {rank dimension : Nat} {axis : Int} (hlow : -(rank : Int) ≤ axis)
    (hhigh : axis < rank) (hdimension : dimension < rank) :
    axis ≡ dimension [ZMOD rank] ↔ axis = dimension ∨ axis = (dimension : Int) - rank := by
  have hmod : (dimension : Int) % rank = dimension :=
    Int.emod_eq_of_lt (Int.natCast_nonneg dimension) (by omega)
  rw [Int.ModEq, hmod]
  by_cases hsign : 0 ≤ axis
  · rw [Int.emod_eq_of_lt hsign hhigh]
    omega
  · rw [← Int.add_emod_right, Int.emod_eq_of_lt (by omega) (by omega)]
    omega

variable {rank : Nat} {axes axes' : List Int} {dimensions : List Nat}

/-- The dimensions are determined by being in increasing order and by being those that the axes,
    which are all in range, name. -/
theorem axisDimensions_eq_ok_iff (hrank : rank < 0x8000000000000000) :
    axisDimensions rank axes = .ok dimensions ↔
      (∀ axis ∈ axes, -(rank : Int) ≤ axis ∧ axis < rank) ∧ dimensions.Pairwise (· < ·) ∧
        ∀ dimension, dimension ∈ dimensions ↔
          dimension < rank ∧ ∃ axis ∈ axes, axis = dimension ∨ axis = (dimension : Int) - rank := by
  constructor
  · intro h
    exact ⟨(exists_axisDimensions_eq_ok hrank).1 ⟨dimensions, h⟩, axisDimensions_pairwise h,
      fun dimension => mem_axisDimensions hrank h⟩
  · intro ⟨hrange, hpairwise, hmem⟩
    obtain ⟨found, hfound⟩ := (exists_axisDimensions_eq_ok hrank).2 hrange
    have hsame : found = dimensions := by
      refine (axisDimensions_pairwise hfound).eq_of_mem_iff hpairwise ?_
      intro dimension
      rw [mem_axisDimensions hrank hfound, hmem]
    rw [hfound, hsame]

/-- The dimensions that are found are those that an axis is congruent to. -/
theorem mem_axisDimensions_iff_modEq (hrank : rank < 0x8000000000000000)
    (h : axisDimensions rank axes = .ok dimensions) {dimension : Nat} :
    dimension ∈ dimensions ↔
      dimension < rank ∧ ∃ axis ∈ axes, axis ≡ dimension [ZMOD rank] := by
  have hrange := (exists_axisDimensions_eq_ok hrank).1 ⟨dimensions, h⟩
  rw [mem_axisDimensions hrank h]
  refine and_congr_right fun hlt => exists_congr fun axis => and_congr_right fun haxis => ?_
  obtain ⟨hlow, hhigh⟩ := hrange axis haxis
  exact (modEq_iff_names hlow hhigh hlt).symm

/-- The error is about the first axis out of range. -/
theorem axisDimensions_eq_error_iff (hrank : rank < 0x8000000000000000) {e : ShapeError} :
    axisDimensions rank axes = .error e ↔
      ∃ before axis after, axes = before ++ axis :: after ∧
        (∀ earlier ∈ before, -(rank : Int) ≤ earlier ∧ earlier < rank) ∧
        ¬(-(rank : Int) ≤ axis ∧ axis < rank) ∧ ShapeError.axisOutOfRange axis rank = e := by
  have hok : ∀ axis, (∃ dimension, axisDimension rank axis = .ok dimension) ↔
      -(rank : Int) ≤ axis ∧ axis < rank := by
    intro axis
    rw [axisDimension_eq hrank]
    by_cases hrange : -(rank : Int) ≤ axis ∧ axis < rank <;> simp [hrange]
  have herror : ∀ axis, axisDimension rank axis = .error e ↔
      ¬(-(rank : Int) ≤ axis ∧ axis < rank) ∧ ShapeError.axisOutOfRange axis rank = e := by
    intro axis
    rw [axisDimension_eq hrank]
    by_cases hrange : -(rank : Int) ≤ axis ∧ axis < rank <;> simp [hrange]
  simp only [axisDimensions, Outcome.bind_eq_error, Outcome.pure_eq_ok, reduceCtorEq, and_false,
    exists_false, or_false, Outcome.mapM_eq_error, hok, herror]

/-! ## Reordering, repeating and respelling -/

/-- The lists of axes that are got from one another by reordering them, by repeating an axis, and by
    naming a dimension from the end instead of from the start. -/
inductive SameAxes (rank : Nat) : List Int → List Int → Prop
  | reordered {axes axes' : List Int} (h : axes.Perm axes') : SameAxes rank axes axes'
  | repeated {axis : Int} {axes : List Int} (h : axis ∈ axes) : SameAxes rank axes (axis :: axes)
  | respelled (before : List Int) {axis : Int} (after : List Int) (hlow : 0 ≤ axis)
      (hhigh : axis < rank) :
      SameAxes rank (before ++ axis :: after) (before ++ (axis - rank) :: after)
  | symm {axes axes' : List Int} (h : SameAxes rank axes axes') : SameAxes rank axes' axes
  | trans {axes axes' axes'' : List Int} (h : SameAxes rank axes axes')
      (h' : SameAxes rank axes' axes'') : SameAxes rank axes axes''

namespace SameAxes

theorem refl (axes : List Int) : SameAxes rank axes axes := reordered (.refl axes)

/-- An axis in front of both lists makes no difference. -/
theorem cons (first : Int) (h : SameAxes rank axes axes') :
    SameAxes rank (first :: axes) (first :: axes') := by
  induction h with
  | reordered h => exact reordered (h.cons first)
  | repeated h =>
      exact (repeated (List.mem_cons_of_mem first h)).trans (reordered (.swap first _ _))
  | respelled before after hlow hhigh => exact respelled (first :: before) after hlow hhigh
  | symm _ ih => exact ih.symm
  | trans _ _ ih ih' => exact ih.trans ih'

/-- Axes in range are got from the places in `[0, rank)` that they are congruent to. -/
theorem map_emod (hrange : ∀ axis ∈ axes, -(rank : Int) ≤ axis ∧ axis < rank) :
    SameAxes rank axes (axes.map (· % (rank : Int))) := by
  induction axes with
  | nil => exact refl []
  | cons axis axes ih =>
      obtain ⟨⟨hlow, hhigh⟩, hrest⟩ := List.forall_mem_cons.1 hrange
      have hfirst : SameAxes rank (axis :: axes) (axis % rank :: axes) := by
        by_cases hsign : 0 ≤ axis
        · rw [Int.emod_eq_of_lt hsign hhigh]
          exact refl _
        · have hmod : axis % rank = axis + rank := by
            rw [← Int.add_emod_right, Int.emod_eq_of_lt (by omega) (by omega)]
          have hrespelled : SameAxes rank ((axis + rank) :: axes) ((axis + rank - rank) :: axes) :=
            respelled [] axes (by omega) (by omega)
          rw [Int.add_sub_cancel] at hrespelled
          rw [hmod]
          exact hrespelled.symm
      exact hfirst.trans ((ih hrest).cons _)

/-- Repetitions of an axis can be dropped. -/
theorem dedup (axes : List Int) : SameAxes rank axes axes.dedup := by
  induction axes with
  | nil => exact refl []
  | cons axis axes ih =>
      by_cases hmem : axis ∈ axes
      · rw [List.dedup_cons_of_mem hmem]
        exact (repeated hmem).symm.trans ih
      · rw [List.dedup_cons_of_notMem hmem]
        exact ih.cons axis

/-- Lists with the same members are got from one another. -/
theorem of_mem_iff (h : ∀ axis, axis ∈ axes ↔ axis ∈ axes') : SameAxes rank axes axes' := by
  have hperm : axes.dedup.Perm axes'.dedup := by
    refine (List.perm_ext_iff_of_nodup (List.nodup_dedup axes) (List.nodup_dedup axes')).2 ?_
    intro axis
    rw [List.mem_dedup, List.mem_dedup, h]
  exact ((dedup axes).trans (reordered hperm)).trans (dedup axes').symm

/-- The axes of both lists are in range if those of one are, and they name the same dimensions. -/
theorem names_iff (h : SameAxes rank axes axes') :
    ((∀ axis ∈ axes, -(rank : Int) ≤ axis ∧ axis < rank) ↔
        ∀ axis ∈ axes', -(rank : Int) ≤ axis ∧ axis < rank) ∧
      ∀ dimension < rank,
        (∃ axis ∈ axes, axis = dimension ∨ axis = (dimension : Int) - rank) ↔
          ∃ axis ∈ axes', axis = dimension ∨ axis = (dimension : Int) - rank := by
  induction h with
  | reordered h => simp only [h.mem_iff, implies_true, and_self]
  | @repeated axis axes h =>
      have hmem : ∀ other, other ∈ axis :: axes ↔ other ∈ axes := by
        intro other
        rw [List.mem_cons]
        exact or_iff_right_of_imp fun heq => heq ▸ h
      simp only [hmem, implies_true, and_self]
  | @respelled before axis after hlow hhigh =>
      have hrange : (-(rank : Int) ≤ axis ∧ axis < rank) ↔
          -(rank : Int) ≤ axis - rank ∧ axis - rank < rank := by omega
      refine ⟨?_, ?_⟩
      · simp only [List.forall_mem_append, List.forall_mem_cons, hrange]
      · intro dimension hlt
        have hnames : (axis = dimension ∨ axis = (dimension : Int) - rank) ↔
            axis - rank = dimension ∨ axis - rank = (dimension : Int) - rank := by omega
        simp only [List.mem_append, List.mem_cons, or_and_right, exists_or, exists_eq_left, hnames]
  | symm _ ih => exact ⟨ih.1.symm, fun dimension hlt => (ih.2 dimension hlt).symm⟩
  | trans _ _ ih ih' =>
      exact ⟨ih.1.trans ih'.1, fun dimension hlt => (ih.2 dimension hlt).trans (ih'.2 dimension hlt)⟩

/-- What the lists resolve to is the same. -/
theorem axisDimensions_iff (hrank : rank < 0x8000000000000000) (h : SameAxes rank axes axes') :
    axisDimensions rank axes = .ok dimensions ↔ axisDimensions rank axes' = .ok dimensions := by
  obtain ⟨hrange, hnames⟩ := h.names_iff
  rw [axisDimensions_eq_ok_iff hrank, axisDimensions_eq_ok_iff hrank, hrange]
  refine and_congr_right fun _ => and_congr_right fun _ => forall_congr' fun dimension => ?_
  rw [and_congr_right (hnames dimension)]

/-- A list of axes in range is got from the dimensions that it resolves to. -/
theorem of_axisDimensions (hrank : rank < 0x8000000000000000)
    (h : axisDimensions rank axes = .ok dimensions) :
    SameAxes rank axes (dimensions.map Int.ofNat) := by
  have hrange := (exists_axisDimensions_eq_ok hrank).1 ⟨dimensions, h⟩
  refine (map_emod hrange).trans (of_mem_iff fun place => ?_)
  rw [List.mem_map, List.mem_map]
  constructor
  · intro ⟨axis, haxis, hplace⟩
    have hpos : (0 : Int) < rank := by
      have := hrange axis haxis
      omega
    obtain ⟨dimension, hdimension⟩ :=
      Int.eq_ofNat_of_zero_le (Int.emod_nonneg axis (Int.ne_of_gt hpos))
    have hlt : dimension < rank := by
      have := Int.emod_lt_of_pos axis hpos
      omega
    have hmod : axis ≡ dimension [ZMOD rank] := by
      rw [← hdimension]
      exact (Int.mod_modEq axis rank).symm
    have hmem : dimension ∈ dimensions :=
      (mem_axisDimensions_iff_modEq hrank h).2 ⟨hlt, axis, haxis, hmod⟩
    exact ⟨dimension, hmem, hdimension.symm.trans hplace⟩
  · intro ⟨dimension, hdimension, hplace⟩
    obtain ⟨hlt, axis, haxis, hmod⟩ := (mem_axisDimensions_iff_modEq hrank h).1 hdimension
    have hsmall : (dimension : Int) % rank = dimension :=
      Int.emod_eq_of_lt (Int.natCast_nonneg dimension) (Int.ofNat_lt.2 hlt)
    refine ⟨axis, haxis, ?_⟩
    calc axis % rank = (dimension : Int) % rank := hmod
      _ = dimension := hsmall
      _ = place := hplace

end SameAxes

/-- **Resolving axes is a canonical form.** A list of axes resolves exactly if each of them is in
    `[-rank, rank)`. It then resolves to a strictly increasing list of the dimensions that an axis is
    congruent to; the lists that resolve to the same are exactly those got from it by reordering,
    repeating and respelling, and the resolved list itself is one of them. Otherwise the error gives
    the rank and the first axis out of range. With every sum and negation taken in signed words, the
    dimensions sorted and those equal to the one before them dropped the result is the same, so
    nothing overflows. -/
theorem axisDimensions_isCanonicalForm {rank : Nat} (hrank : rank < 0x8000000000000000)
    (axes : List Int) :
    ((∃ dimensions, axisDimensions rank axes = .ok dimensions) ↔
      ∀ axis ∈ axes, -(rank : Int) ≤ axis ∧ axis < rank) ∧
    (∀ dimensions, axisDimensions rank axes = .ok dimensions →
      dimensions.Pairwise (· < ·) ∧
      (∀ dimension, dimension ∈ dimensions ↔
        dimension < rank ∧ ∃ axis ∈ axes, axis ≡ dimension [ZMOD rank]) ∧
      (∀ other, axisDimensions rank other = .ok dimensions ↔ SameAxes rank axes other) ∧
      axisDimensions rank (dimensions.map Int.ofNat) = .ok dimensions) ∧
    (∀ e, axisDimensions rank axes = .error e ↔
      ∃ before axis after, axes = before ++ axis :: after ∧
        (∀ earlier ∈ before, -(rank : Int) ≤ earlier ∧ earlier < rank) ∧
        ¬(-(rank : Int) ≤ axis ∧ axis < rank) ∧ ShapeError.axisOutOfRange axis rank = e) ∧
    axisDimensionsInWords rank axes = axisDimensions rank axes ∧
    ¬(axisDimensionsInWords rank axes).Faults := by
  have hwords := axisDimensionsInWords_eq rank axes
  refine ⟨exists_axisDimensions_eq_ok hrank, ?_, fun e => axisDimensions_eq_error_iff hrank, hwords,
    hwords ▸ not_faults_axisDimensions hrank axes⟩
  intro dimensions h
  have hcanonical := SameAxes.of_axisDimensions hrank h
  refine ⟨axisDimensions_pairwise h, fun dimension => mem_axisDimensions_iff_modEq hrank h, ?_,
    (hcanonical.axisDimensions_iff hrank).1 h⟩
  intro other
  constructor
  · intro hother
    exact hcanonical.trans (SameAxes.of_axisDimensions hrank hother).symm
  · intro hsame
    exact (hsame.axisDimensions_iff hrank).1 h

/-- The height and the width of an image are the axes 2 and 3 of four, here named from both ends and
    the width twice. Of two axes that an image does not have the first one is reported. -/
theorem axisDimensions_isCanonicalForm_image :
    let axes : List Int := [-1, 2, 3]
    4 < 0x8000000000000000 ∧ axisDimensions 4 axes = .ok [2, 3] ∧
      SameAxes 4 axes [3, -2] ∧ axisDimensions 4 [2, 3] = .ok [2, 3] ∧
      (∃ axis ∈ axes, axis ≡ (3 : Nat) [ZMOD (4 : Nat)]) ∧
      axisDimensionsInWords 4 axes = .ok [2, 3] ∧
      axisDimensions 4 [-1, 4, -5] = .error (.axisOutOfRange 4 4) := by
  intro axes
  have hrank : 4 < 0x8000000000000000 := by decide
  have hresolved : axisDimensions 4 axes = .ok [2, 3] := rfl
  have hother : axisDimensions 4 [3, -2] = .ok [2, 3] := rfl
  obtain ⟨-, hok, -, hwords, -⟩ := axisDimensions_isCanonicalForm hrank axes
  obtain ⟨-, hmem, hsame, hagain⟩ := hok [2, 3] hresolved
  obtain ⟨-, hcongruent⟩ := (hmem 3).1 (by decide)
  obtain ⟨-, -, herror, -⟩ := axisDimensions_isCanonicalForm hrank [-1, 4, -5]
  refine ⟨hrank, hresolved, (hsame [3, -2]).1 hother, hagain, hcongruent, hwords.trans hresolved, ?_⟩
  exact (herror _).2 ⟨[-1], 4, [-5], rfl, by decide, by decide, rfl⟩

end TensorLowering
