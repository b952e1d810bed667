import TensorLowering.Proofs.AxisOrder

set_option autoImplicit false

/-! # A reordering names only axes that there are

The test of an order counts how often each axis is named and compares no entry with the rank. That no
entry is past the last axis follows: there are as many entries as axes, so once each axis is named
no entry is left (`isPermutation_iff_nodup`). Everything that the rule does with an order after the
test rests on it. The dimensions that it reads are those of axes of the input, the entries that it
shifts stay words, and those that it narrows to fields are kept
(`Operator.Transpose.names_only_axes`). -/

namespace TensorLowering

/-- The test accepts exactly the orders of the right length that repeat no entry and go past no
    axis. -/
theorem isPermutation_iff_nodup {rank : Nat} {perm : List Nat} :
    isPermutation rank perm = true ↔
      perm.length = rank ∧ perm.Nodup ∧ ∀ axis ∈ perm, axis < rank := by
  rw [isPermutation_iff_perm]
  refine ⟨?_, ?_⟩
  · intro h
    refine ⟨by simpa using h.length_eq, h.nodup_iff.2 List.nodup_range, ?_⟩
    intro axis haxis
    exact List.mem_range.1 (h.mem_iff.1 haxis)
  · intro ⟨hlength, hnodup, hlt⟩
    have hsubset : perm ⊆ List.range rank := by
      intro axis haxis
      exact List.mem_range.2 (hlt axis haxis)
    have hsubperm := List.subperm_of_subset hnodup hsubset
    exact hsubperm.perm_of_length_le (by simp [hlength])

namespace PermutedShape

/-- A shifted entry is an axis of the higher rank. -/
theorem IsReordering.add_lt {reordering : PermutedShape} {target axis : Nat}
    (h : reordering.IsReordering) (hrank : reordering.shape.rank ≤ target)
    (haxis : axis ∈ reordering.perm) :
    axis + (target - reordering.shape.rank) < target := by
  have hlt : axis < reordering.shape.rank := h.mem_perm.1 haxis
  omega

end PermutedShape

/-! ## The rule -/

namespace Operator.Transpose

variable {op : Operator.Transpose} {context : Context} {shape : Shape}

/-- Once the order is tested, each dimension that the rule reads is there. -/
theorem mapM_entry_ne_fault {extended : PermutedShape} {rank : Nat} {t : Fault}
    (hextended : PermutedShape.atRank { shape, perm := op.perm } rank = .ok extended) :
    op.perm.mapM (fun axis => (Word.entry shape axis : Outcome RuleError Nat)) ≠ .fault t := by
  have hreordering := PermutedShape.isReordering_of_atRank hextended
  refine Outcome.mapM_ne_fault ?_
  intro axis haxis t hfault
  have hlt : axis < shape.length := hreordering.mem_perm.1 haxis
  rw [Outcome.liftM_eq, Outcome.ofChecked_eq_fault] at hfault
  exact Word.entry_ne_error hlt hfault

theorem lower_ne_fault {t : Fault} : op.lower context ≠ .fault t := by
  simp only [lower, ne_eq, Outcome.bind_eq_fault, Context.shape_ne_fault,
    Outcome.mapError_eq_fault, Outcome.mapError_eq_ok, Outcome.ofExcept_ne_fault,
    Outcome.ofExcept_eq_ok, Outcome.require_ne_fault, Context.range_ne_fault,
    shapeField_ne_fault, Outcome.pure_eq_ok, reduceCtorEq, and_false, exists_false, false_or,
    or_false]
  rintro ⟨shape, -, extended, hextended, hentries⟩
  exact mapM_entry_ne_fault hextended hentries

/-- **The rule for reordering names only axes that there are.** The test of an order accepts exactly
    the rearrangements of the axes, that is, as many entries as axes, all different and each an axis.
    Extending a reordering to a rank that is a word computes nothing that is not one. So the rule is
    never abandoned: where it goes on after the test, each entry is an axis of the input, and an axis
    of the rank of records once it is shifted. Where it makes a record, the four entries there are
    those of the extension and rearrange the four axes. -/
theorem names_only_axes :
    (∀ (rank : Nat) (perm : List Nat),
      (isPermutation rank perm = true ↔ perm.Perm (List.range rank)) ∧
      (isPermutation rank perm = true ↔
        perm.length = rank ∧ perm.Nodup ∧ ∀ axis ∈ perm, axis < rank)) ∧
    (∀ (reordering : PermutedShape) (target : Nat), target < Word.size →
      reordering.atRankInWords target = Outcome.ofExcept (reordering.atRank target)) ∧
    ∀ (graph : Graph) (oracle : Oracle) (op : Operator.Transpose),
      ¬(op.lower (graph.context oracle)).Faults ∧
      (∀ (input : Value) (extended : PermutedShape), graph.value? op.input = some input →
        PermutedShape.atRank { shape := input.shape, perm := op.perm } recordRank =
          .ok extended →
        ∀ axis ∈ op.perm, axis < input.shape.rank ∧
          axis + (recordRank - input.shape.rank) < recordRank) ∧
      ∀ r, op.lower (graph.context oracle) = .ok r →
        ∃ (record : Record.Transpose) (input : Value) (extended : PermutedShape),
          r = .transpose record ∧ graph.value? op.input = some input ∧
          PermutedShape.atRank { shape := input.shape, perm := op.perm } recordRank =
            .ok extended ∧
          record.perm.dims = extended.perm ∧ record.perm.dims.Perm (List.range recordRank) ∧
          ∀ axis ∈ record.perm.dims, axis < recordRank := by
  refine ⟨fun rank perm => ⟨isPermutation_iff_perm, isPermutation_iff_nodup⟩,
    fun reordering target htarget => PermutedShape.atRankInWords_eq htarget,
    fun graph oracle op => ⟨?_, ?_, ?_⟩⟩
  · exact Outcome.not_faults_of_ne_fault fun t => lower_ne_fault
  · intro input extended _ hextended axis haxis
    have hreordering := PermutedShape.isReordering_of_atRank hextended
    have hrank := (PermutedShape.atRank_eq_ok.1 hextended).1
    exact ⟨hreordering.mem_perm.1 haxis, hreordering.add_lt hrank haxis⟩
  · intro r hlower
    obtain ⟨shape, extended, record, rfl, h⟩ := op.exists_accepted_of_lower hlower
    obtain ⟨input, hinput, rfl⟩ := Context.shape_eq_ok.1 h.shape_eq
    have hperm : record.perm.dims = extended.perm := congrArg PermutedShape.perm h.fields_eq
    have hlength : extended.shape.rank = recordRank :=
      PermutedShape.length_shape_of_atRank h.extended_eq
    have hreordering : extended.perm.Perm (List.range recordRank) :=
      hlength ▸ PermutedShape.isReordering_atRank h.extended_eq
    refine ⟨record, input, extended, rfl, hinput, h.extended_eq, hperm, hperm ▸ hreordering, ?_⟩
    intro axis haxis
    rw [hperm] at haxis
    exact List.mem_range.1 (hreordering.mem_iff.1 haxis)

/-- The channels of an image are axis 2 of three and axis 3 of four. An order that names them twice
    is refused and not abandoned, although it has the right length. -/
theorem names_only_axes_channels :
    let oracle : Oracle := fun value =>
      some { region := .data, start := .ofNat (30 * value.index), size := 30 }
    let context := channelsGraph.context oracle
    let reordering : PermutedShape := { shape := [2, 3, 5], perm := channelsFirst.perm }
    (recordRank < Word.size ∧
      reordering.atRankInWords recordRank = .ok { shape := [1, 2, 3, 5], perm := [0, 3, 1, 2] }) ∧
    (channelsGraph.value? channelsFirst.input).map Value.shape = some reordering.shape ∧
    (∀ axis ∈ channelsFirst.perm, axis < 3 ∧ axis + 1 < 4) ∧
    (∃ record, channelsFirst.lower context = .ok (.transpose record) ∧
      record.perm.dims = [0, 3, 1, 2] ∧ record.perm.dims.Perm (List.range 4)) ∧
    ¬(({ channelsFirst with perm := [2, 0, 2] } : Operator.Transpose).lower context).Faults := by
  intro oracle context reordering
  obtain ⟨-, hwords, hrule⟩ := names_only_axes
  obtain ⟨-, haxes, hrecord⟩ := hrule channelsGraph oracle channelsFirst
  obtain ⟨hsafe, -, -⟩ :=
    hrule channelsGraph oracle { channelsFirst with perm := [2, 0, 2] }
  have hextended : reordering.atRank recordRank =
      .ok { shape := [1, 2, 3, 5], perm := [0, 3, 1, 2] } := by decide
  obtain ⟨record, input, extended, hr, hinput, hextended', hdims, hperm, -⟩ :=
    hrecord _ rfl
  cases hinput
  cases hextended.symm.trans hextended'
  have hrank : recordRank < Word.size := by decide
  refine ⟨⟨hrank, ?_⟩, rfl, haxes _ _ rfl hextended, ⟨record, ?_, hdims, hperm⟩, hsafe⟩
  · rw [hwords reordering recordRank hrank, hextended]
    rfl
  · rw [← hr]
    rfl

end Operator.Transpose

end TensorLowering
