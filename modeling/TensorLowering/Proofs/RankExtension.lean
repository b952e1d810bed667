import TensorLowering.Proofs.AxisOrder

set_option autoImplicit false

/-! # Extending a reordering in steps

A reordering can be brought to a higher rank at once, or to one in between and from there on. Both
pad the shape on the left and shift the entries of the permutation past the padding, and padding
that was put there before is kept by the second step as dimensions like any others. The second step
checks the permutation that the first one made, and always accepts it. So nothing is lost by going
in steps, and a reordering that has the rank already is not changed
(`PermutedShape.atRank_atRank`). -/

namespace TensorLowering

/-! ## Padding in steps -/

/-- Padding up to one rank and then to a higher one is padding up to the higher one. -/
theorem Shape.padLeft_padLeft {shape : Shape} {first second : Nat} (hfirst : shape.rank ≤ first)
    (hsecond : first ≤ second) :
    (shape.padLeft first).padLeft second = shape.padLeft second := by
  have hpad : second - first + (first - shape.length) = second - shape.length := by
    have : shape.length ≤ first := hfirst
    omega
  calc (shape.padLeft first).padLeft second
      = List.replicate (second - first) 1 ++
          (List.replicate (first - shape.length) 1 ++ shape) := by
        rw [Shape.padLeft, Shape.length_padLeft hfirst, Shape.padLeft]
    _ = List.replicate (second - shape.length) 1 ++ shape := by
        rw [← List.append_assoc, ← List.replicate_add, hpad]
    _ = shape.padLeft second := rfl

/-- Shifting an order past some axes, which keep their places, and then past further ones is
    shifting it past all of them. -/
theorem range_append_map_add (outer inner : Nat) (perm : List Nat) :
    List.range outer ++ (List.range inner ++ perm.map (· + inner)).map (· + outer) =
      List.range (inner + outer) ++ perm.map (· + (inner + outer)) := by
  have hrange : List.range outer ++ (List.range inner).map (· + outer) =
      List.range (inner + outer) := by
    rw [Nat.add_comm inner outer, List.range_add]
    simp only [Nat.add_comm]
  have hperm : (perm.map (· + inner)).map (· + outer) = perm.map (· + (inner + outer)) := by
    rw [List.map_map]
    exact List.map_congr_left fun axis _ => Nat.add_assoc axis inner outer
  rw [List.map_append, ← List.append_assoc, hrange, hperm]

/-! ## Extension in steps -/

namespace PermutedShape

variable {reordering extended : PermutedShape} {first second rank : Nat}

/-- There is an extension exactly if the rank allows it and the order is one. -/
theorem exists_atRank_eq_ok :
    (∃ extended, reordering.atRank rank = .ok extended) ↔
      reordering.shape.rank ≤ rank ∧ reordering.IsReordering := by
  refine ⟨?_, ?_⟩
  · intro ⟨extended, hextended⟩
    exact ⟨(atRank_eq_ok.1 hextended).1, isReordering_of_atRank hextended⟩
  · intro ⟨hrank, hperm⟩
    exact ⟨⟨_, _⟩, atRank_eq_ok.2 ⟨hrank, isPermutation_iff_perm.2 hperm, rfl, rfl⟩⟩

/-- There is none where the rank is too low, which is looked at first, or where the order names some
    axis twice or not at all. -/
theorem atRank_eq_error {e : ShapeError} :
    reordering.atRank rank = .error e ↔
      rank < reordering.shape.rank ∧
          ShapeError.rankTooLarge reordering.shape.rank rank = e ∨
        reordering.shape.rank ≤ rank ∧ ¬reordering.IsReordering ∧
          ShapeError.invalidPermutation = e := by
  obtain ⟨shape, perm⟩ := reordering
  have htest : IsReordering { shape, perm } ↔ isPermutation shape.rank perm = true :=
    isPermutation_iff_perm.symm
  rw [htest]
  rcases Nat.lt_or_ge rank shape.rank with hlt | hrank
  · simp [atRank, hlt, Nat.not_le.2 hlt]
  · by_cases hperm : isPermutation shape.rank perm = true
    · simp [atRank, Nat.not_lt.2 hrank, hperm]
    · simp [atRank, Nat.not_lt.2 hrank, hrank, hperm]

/-- Extending an extension to a higher rank gives the extension to that rank. -/
theorem atRank_of_atRank (hextended : reordering.atRank first = .ok extended)
    (hle : first ≤ second) : extended.atRank second = reordering.atRank second := by
  obtain ⟨hrank, htest, hshape, hperm⟩ := atRank_eq_ok.1 hextended
  obtain ⟨direct, hdirect⟩ : ∃ direct, reordering.atRank second = .ok direct :=
    exists_atRank_eq_ok.2 ⟨hrank.trans hle, isReordering_of_atRank hextended⟩
  obtain ⟨-, -, hdirectShape, hdirectPerm⟩ := atRank_eq_ok.1 hdirect
  have hlength : extended.shape.rank = first := length_shape_of_atRank hextended
  have hpad : first - reordering.shape.rank + (second - first) =
      second - reordering.shape.rank := by omega
  rw [hdirect]
  refine atRank_eq_ok.2 ⟨hlength.trans_le hle, ?_, ?_, ?_⟩
  · exact isPermutation_iff_perm.2 (isReordering_atRank hextended)
  · rw [hdirectShape, hshape, Shape.padLeft_padLeft hrank hle]
  · rw [hdirectPerm, hlength, hperm, range_append_map_add, hpad]

/-- **A reordering is extended alike at once and in steps.** For a rank between that of the
    reordering and a higher one, extending the reordering to the one in between and the result to
    the higher one ends as extending it to the higher one does, with the same extension or with the
    same error. Extending twice to one rank is extending once, whatever the rank and the order. There
    is an extension exactly if the rank is not below that of the shape and the order names each of
    its axes once; otherwise the error is about the rank, or else about the order. What one step
    makes, the next one accepts. -/
theorem atRank_atRank :
    (∀ (reordering : PermutedShape) (first second : Nat), reordering.shape.rank ≤ first →
      first ≤ second →
      (reordering.atRank first >>= fun extended => extended.atRank second) =
        reordering.atRank second) ∧
    (∀ (reordering : PermutedShape) (rank : Nat),
      (reordering.atRank rank >>= fun extended => extended.atRank rank) =
        reordering.atRank rank) ∧
    (∀ (reordering : PermutedShape) (rank : Nat),
      ((∃ extended, reordering.atRank rank = .ok extended) ↔
        reordering.shape.rank ≤ rank ∧
          reordering.perm.Perm (List.range reordering.shape.rank)) ∧
      ∀ e, reordering.atRank rank = .error e ↔
        rank < reordering.shape.rank ∧
            ShapeError.rankTooLarge reordering.shape.rank rank = e ∨
          reordering.shape.rank ≤ rank ∧
            ¬reordering.perm.Perm (List.range reordering.shape.rank) ∧
            ShapeError.invalidPermutation = e) ∧
    ∀ (reordering extended : PermutedShape) (first second : Nat),
      reordering.atRank first = .ok extended → first ≤ second →
      isPermutation extended.shape.rank extended.perm = true ∧
        ∃ again, extended.atRank second = .ok again := by
  refine ⟨?_, ?_, fun reordering rank => ⟨exists_atRank_eq_ok, fun e => atRank_eq_error⟩, ?_⟩
  · intro reordering first second hrank hle
    by_cases hperm : reordering.IsReordering
    · obtain ⟨extended, hextended⟩ := exists_atRank_eq_ok.2 ⟨hrank, hperm⟩
      rw [hextended]
      exact atRank_of_atRank hextended hle
    · -- Both ways end in the error of the first check.
      have herror : ∀ rank, reordering.shape.rank ≤ rank →
          reordering.atRank rank = .error .invalidPermutation := by
        intro rank hrank
        exact atRank_eq_error.2 (.inr ⟨hrank, hperm, rfl⟩)
      rw [herror first hrank, herror second (hrank.trans hle)]
      rfl
  · intro reordering rank
    rcases hextended : reordering.atRank rank with e | extended
    · rfl
    · exact (atRank_of_atRank hextended le_rfl).trans hextended
  · intro reordering extended first second hextended hle
    have hreordering := isReordering_atRank hextended
    refine ⟨isPermutation_iff_perm.2 hreordering, exists_atRank_eq_ok.2 ⟨?_, hreordering⟩⟩
    exact (length_shape_of_atRank hextended).trans_le hle

/-- A transposed matrix brought to rank four by way of rank three, and an order that is none. -/
theorem atRank_atRank_matrix :
    let reordering : PermutedShape := { shape := [2, 3], perm := [1, 0] }
    let extended : PermutedShape := { shape := [1, 1, 2, 3], perm := [0, 1, 3, 2] }
    let repeated : PermutedShape := { shape := [2, 3], perm := [1, 1] }
    (reordering.shape.rank ≤ 3 ∧
      (reordering.atRank 3 >>= fun between => between.atRank 4) = .ok extended ∧
      extended.atRank 4 = .ok extended) ∧
    (repeated.atRank 3 >>= fun between => between.atRank 4) = .error .invalidPermutation ∧
    ∃ again, extended.atRank 7 = .ok again := by
  intro reordering extended repeated
  obtain ⟨hsteps, htwice, -, hagain⟩ := atRank_atRank
  have hdirect : reordering.atRank 4 = .ok extended := by decide
  refine ⟨⟨by decide, ?_, ?_⟩, ?_, ?_⟩
  · rw [hsteps reordering 3 4 (by decide) (by decide)]
    exact hdirect
  · have htwice := htwice reordering 4
    rw [hdirect] at htwice
    exact htwice
  · rw [hsteps repeated 3 4 (by decide) (by decide)]
    decide
  · exact (hagain reordering extended 4 7 hdirect (by decide)).2

end PermutedShape

end TensorLowering
