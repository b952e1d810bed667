import Mathlib
import TensorLowering.Replay.Selection
import TensorLowering.Rule.Rearrange

set_option autoImplicit false

/-! # The order of axes at a higher rank

A reordering and its extension to a higher rank take each element from the same place. Tracking
coordinates from the given tensor to the reordered one (`PermutedShape.target`) is easy on both
sides of the padding, as it reads a coordinate in the order of the permutation; the other direction
(`PermutedShape.source`) is its inverse, so nothing has to be said about positions within an
extended permutation. A record holds an extension to the rank of records, which gives the meaning of
a reordering record (`PermutedShape.atRank_keeps_places`). -/

namespace TensorLowering

namespace PermutedShape

/-- The order names each axis of the shape exactly once. -/
def IsReordering (reordering : PermutedShape) : Prop :=
  reordering.perm.Perm (List.range reordering.shape.rank)

/-! ## Coordinates on both sides -/

section

variable {reordering : PermutedShape} (h : reordering.IsReordering)

include h

theorem IsReordering.length_perm : reordering.perm.length = reordering.shape.length := by
  simpa using h.length_eq

theorem IsReordering.mem_perm {axis : Nat} :
    axis ∈ reordering.perm ↔ axis < reordering.shape.length := by
  rw [h.mem_iff, List.mem_range]

theorem IsReordering.nodup_perm : reordering.perm.Nodup :=
  h.nodup_iff.2 List.nodup_range

theorem IsReordering.source_target {coordinate : Coordinate}
    (hlength : coordinate.length = reordering.shape.length) :
    reordering.source (reordering.target coordinate) = coordinate := by
  refine List.ext_getElem (by simp [h.length_perm, hlength]) fun axis _ haxis => ?_
  have hmem : axis ∈ reordering.perm := h.mem_perm.2 (hlength ▸ haxis)
  have hidx := List.idxOf_lt_length_of_mem hmem
  simp [source, target, List.getD_eq_getElem?_getD, hidx, haxis]

theorem IsReordering.target_source {coordinate : Coordinate}
    (hlength : coordinate.length = reordering.shape.length) :
    reordering.target (reordering.source coordinate) = coordinate := by
  refine List.ext_getElem (by simp [h.length_perm, hlength]) fun i hi hi' => ?_
  have hi : i < reordering.perm.length := by simpa using hi
  have haxis : reordering.perm[i] < reordering.perm.length := by
    rw [h.length_perm]
    exact h.mem_perm.1 (List.getElem_mem hi)
  simp [source, target, List.getD_eq_getElem?_getD, haxis, h.nodup_perm.idxOf_getElem, hi']

theorem IsReordering.contains_target {coordinate : Coordinate}
    (hcontains : reordering.shape.Contains coordinate) :
    reordering.result.Contains (reordering.target coordinate) :=
  Shape.contains_map fun _ haxis => Shape.getD_lt_of_contains hcontains (h.mem_perm.1 haxis)

/-- The element at a coordinate of the given tensor is the source of the one at its target. -/
theorem IsReordering.sourceOffset_target {coordinate : Coordinate}
    (hcontains : reordering.shape.Contains coordinate) :
    reordering.sourceOffset (reordering.result.offset (reordering.target coordinate)) =
      reordering.shape.offset coordinate := by
  rw [sourceOffset, Shape.coordinate_offset (h.contains_target hcontains),
    h.source_target (Shape.length_of_contains hcontains)]

end

/-! ## Padding -/

/-- Reading a padded list in the order of the extended permutation gives the padding, followed by
    the list in the order of the permutation. -/
theorem map_getD_shift (pad fill : Nat) (perm entries : List Nat) :
    (List.range pad ++ perm.map (· + pad)).map
        (fun axis => (List.replicate pad fill ++ entries).getD axis fill) =
      List.replicate pad fill ++ perm.map fun axis => entries.getD axis fill := by
  rw [List.map_append, List.map_map]
  congr 1
  · refine List.eq_replicate_iff.2 ⟨by simp, fun entry hentry => ?_⟩
    obtain ⟨axis, haxis, rfl⟩ := List.mem_map.1 hentry
    have haxis : axis < (List.replicate pad fill).length := by simpa using haxis
    rw [List.getD_append _ _ _ _ haxis, List.getD_replicate _ (by simpa using haxis)]
  · refine List.map_congr_left fun axis _ => ?_
    rw [Function.comp_apply, List.getD_append_right _ _ _ _ (by simp)]
    simp

section

variable {reordering extended : PermutedShape} {rank : Nat}
  (hextended : reordering.atRank rank = .ok extended)

include hextended

theorem isReordering_of_atRank : reordering.IsReordering :=
  isPermutation_iff_perm.1 (atRank_eq_ok.1 hextended).2.1

theorem shape_of_atRank : extended.shape = reordering.shape.padLeft rank :=
  (atRank_eq_ok.1 hextended).2.2.1

theorem length_shape_of_atRank : extended.shape.length = rank := by
  rw [shape_of_atRank hextended]
  exact Shape.length_padLeft (atRank_eq_ok.1 hextended).1

theorem isReordering_atRank : extended.IsReordering := by
  obtain ⟨hrank, -, -, hperm⟩ := atRank_eq_ok.1 hextended
  have hshift : (reordering.perm.map (· + (rank - reordering.shape.rank))).Perm
      ((List.range reordering.shape.rank).map (· + (rank - reordering.shape.rank))) :=
    (isReordering_of_atRank hextended).map _
  have hrange : List.range rank = List.range (rank - reordering.shape.rank) ++
      (List.range reordering.shape.rank).map (· + (rank - reordering.shape.rank)) := by
    conv_lhs => rw [← Nat.sub_add_cancel hrank, List.range_add]
    simp [Nat.add_comm]
  rw [IsReordering, Shape.rank, length_shape_of_atRank hextended, hperm, hrange]
  exact hshift.append_left _

theorem result_atRank : extended.result = reordering.result.padLeft rank := by
  obtain ⟨-, -, hshape, hperm⟩ := atRank_eq_ok.1 hextended
  rw [result, hshape, hperm, Shape.padLeft, map_getD_shift, Shape.padLeft, length_result,
    (isReordering_of_atRank hextended).length_perm, result]

theorem target_atRank {coordinate : Coordinate}
    (hlength : coordinate.length = reordering.shape.length) :
    extended.target (padCoordinate rank coordinate) =
      padCoordinate rank (reordering.target coordinate) := by
  obtain ⟨-, -, -, hperm⟩ := atRank_eq_ok.1 hextended
  rw [target, hperm, padCoordinate, hlength, map_getD_shift, padCoordinate, length_target,
    (isReordering_of_atRank hextended).length_perm, target]

theorem source_atRank {coordinate : Coordinate}
    (hlength : coordinate.length = reordering.shape.length) :
    extended.source (padCoordinate rank coordinate) =
      padCoordinate rank (reordering.source coordinate) := by
  have h := isReordering_of_atRank hextended
  have hsource : (reordering.source coordinate).length = reordering.shape.length := by
    rw [length_source, h.length_perm]
  have hpadded : (padCoordinate rank (reordering.source coordinate)).length =
      extended.shape.length := by
    rw [length_padCoordinate (hsource.trans_le (atRank_eq_ok.1 hextended).1),
      length_shape_of_atRank hextended]
  -- The coordinate is the target of its source, and targets are padded.
  calc extended.source (padCoordinate rank coordinate)
      = extended.source
          (padCoordinate rank (reordering.target (reordering.source coordinate))) := by
        rw [h.target_source hlength]
    _ = extended.source (extended.target (padCoordinate rank (reordering.source coordinate))) := by
        rw [target_atRank hextended hsource]
    _ = padCoordinate rank (reordering.source coordinate) :=
        (isReordering_atRank hextended).source_target hpadded

/-- The extension takes each element from the same place. -/
theorem sourceOffset_atRank {position : Nat} (hposition : position < reordering.result.elements) :
    extended.sourceOffset position = reordering.sourceOffset position := by
  have h := isReordering_of_atRank hextended
  have hlength : (reordering.result.coordinate position).length = reordering.shape.length := by
    rw [Shape.length_coordinate, length_result, h.length_perm]
  have hsource : (reordering.source (reordering.result.coordinate position)).length =
      reordering.shape.length := by
    rw [length_source, h.length_perm]
  rw [sourceOffset, result_atRank hextended, coordinate_padLeft rank hposition,
    source_atRank hextended hlength, shape_of_atRank hextended, offset_padLeft rank hsource,
    sourceOffset]

end

end PermutedShape

/-! ## Records -/

/-- The fields of a reordering record are the extension to the rank of records. -/
theorem Operator.Transpose.Accepted.fields_eq {op : Operator.Transpose} {context : Context}
    {shape : Shape} {extended : PermutedShape} {record : Record.Transpose}
    (h : op.Accepted context shape extended record) :
    ({ shape := record.inputShape.dims, perm := record.perm.dims } : PermutedShape) = extended := by
  have hlength := PermutedShape.length_shape_of_atRank h.extended_eq
  have hreordering := PermutedShape.isReordering_atRank h.extended_eq
  have hshape : record.inputShape.dims = extended.shape := by
    rw [(Shape.dims_of_toAxisArray h.inputShape_eq).2, Shape.padLeft_of_length_eq hlength]
  have hperm : record.perm.dims = extended.perm := by
    rw [h.perm_eq]
    refine AxisArray.dims_ofList (hreordering.length_perm.trans hlength) fun axis haxis => ?_
    exact lt_trans (hlength ▸ hreordering.mem_perm.1 haxis) (by decide)
  rw [hshape, hperm]

/-- **A reordering keeps its meaning at a higher rank.** A reordering is extended to any rank that
    is not lower than its own. The extension reorders the axes of that rank, its result is the
    padded result, and it takes each element from the same place. So where the rule makes a record,
    the output of the operator has the dimensions of its input in the operator's order, and the
    record takes each element from where that order has it: the element at a coordinate of the input
    is the one whose index on axis `i` of the output is that on axis `perm[i]`. -/
theorem PermutedShape.atRank_keeps_places :
    (∀ (reordering : PermutedShape) (rank : Nat), reordering.shape.rank ≤ rank →
      reordering.perm.Perm (List.range reordering.shape.rank) →
      ∃ extended, reordering.atRank rank = .ok extended ∧
        extended.shape.length = rank ∧ extended.perm.length = rank ∧
        extended.perm.Perm (List.range rank) ∧
        extended.result = reordering.result.padLeft rank ∧
        ∀ position < extended.result.elements,
          extended.sourceOffset position = reordering.sourceOffset position) ∧
    ∀ (graph : Graph) (oracle : Oracle) (op : Operator.Transpose) (r : Record),
      op.lower (graph.context oracle) = .ok r →
      ∃ (record : Record.Transpose) (input output : Value) (reordering : PermutedShape),
        r = .transpose record ∧ graph.value? op.input = some input ∧
        graph.value? op.output = some output ∧
        reordering = { shape := input.shape, perm := op.perm } ∧
        output.shape = reordering.result ∧
        (∀ position < output.shape.elements,
          record.inputOffset position = reordering.sourceOffset position) ∧
        ∀ coordinate, input.shape.Contains coordinate →
          output.shape.Contains (reordering.target coordinate) ∧
          record.inputOffset (output.shape.offset (reordering.target coordinate)) =
            input.shape.offset coordinate := by
  refine ⟨fun reordering rank hrank hperm => ?_, fun graph oracle op r hlower => ?_⟩
  · obtain ⟨extended, hextended⟩ : ∃ extended, reordering.atRank rank = .ok extended :=
      ⟨⟨_, _⟩, atRank_eq_ok.2 ⟨hrank, isPermutation_iff_perm.2 hperm, rfl, rfl⟩⟩
    have hlength := length_shape_of_atRank hextended
    have hreordering := isReordering_atRank hextended
    have hresult := result_atRank hextended
    refine ⟨extended, hextended, hlength, hreordering.length_perm.trans hlength,
      hlength ▸ hreordering, hresult, fun position hposition => ?_⟩
    rw [hresult, Shape.elements_padLeft] at hposition
    exact sourceOffset_atRank hextended hposition
  · obtain ⟨shape, extended, record, rfl, h⟩ := op.exists_accepted_of_lower hlower
    obtain ⟨input, hinput, rfl⟩ := Context.shape_eq_ok.1 h.shape_eq
    obtain ⟨output, houtput, hfound⟩ := Context.shape_eq_ok.1 h.found_eq
    have hreordering := isReordering_of_atRank h.extended_eq
    have hplaces : ∀ position < output.shape.elements,
        record.inputOffset position =
          sourceOffset { shape := input.shape, perm := op.perm } position := by
      intro position hposition
      rw [hfound] at hposition
      rw [Record.Transpose.inputOffset, h.fields_eq, sourceOffset_atRank h.extended_eq hposition]
    refine ⟨record, input, output, _, rfl, hinput, houtput, rfl, hfound, hplaces, ?_⟩
    intro coordinate hcoordinate
    have htarget := hreordering.contains_target hcoordinate
    rw [← hfound] at htarget
    refine ⟨htarget, ?_⟩
    rw [hplaces _ (Shape.offset_lt htarget), hfound, hreordering.sourceOffset_target hcoordinate]

/-- A graph with an image of two rows of three pixels of five channels, and one with the channels in
    front. -/
def channelsGraph : Graph where
  values := #[{ name := none, shape := [2, 3, 5], elementType := .uint8 },
    { name := none, shape := [5, 2, 3], elementType := .uint8 }]
  nodes := #[]

/-- The reordering that brings the channels to the front. -/
def channelsFirst : Operator.Transpose where
  input := 0
  output := 1
  perm := [2, 0, 1]

/-- The second pixel of the first row of channel 1 comes from place 6, at any rank. -/
theorem PermutedShape.atRank_keeps_places_channels :
    let oracle : Oracle := fun value =>
      some { region := .data, start := .ofNat (30 * value.index), size := 30 }
    let reordering : PermutedShape := { shape := [2, 3, 5], perm := [2, 0, 1] }
    (reordering.shape.rank ≤ 6 ∧ reordering.perm.Perm (List.range reordering.shape.rank) ∧
      ∃ extended, reordering.atRank 6 = .ok extended ∧ extended.perm.Perm (List.range 6) ∧
        extended.result = [1, 1, 1, 5, 2, 3] ∧ extended.sourceOffset 7 = 6) ∧
    ∃ record, channelsFirst.lower (channelsGraph.context oracle) = .ok (.transpose record) ∧
      record.inputShape.dims = [1, 2, 3, 5] ∧ record.perm.dims = [0, 3, 1, 2] ∧
      Shape.offset [5, 2, 3] [1, 0, 1] = 7 ∧ record.inputOffset 7 = 6 := by
  intro oracle reordering
  obtain ⟨hextend, hrecord⟩ := atRank_keeps_places
  have hperm : reordering.perm.Perm (List.range reordering.shape.rank) := by decide
  obtain ⟨extended, hextended, -, -, hpermutes, hresult, hplaces⟩ :=
    hextend reordering 6 (by decide) hperm
  obtain ⟨record, input, output, _, hr, hinput, houtput, rfl, -, -, htargets⟩ :=
    hrecord channelsGraph oracle channelsFirst _ rfl
  cases hr
  cases hinput
  cases houtput
  refine ⟨⟨by decide, hperm, extended, hextended, hpermutes, hresult, ?_⟩, _, rfl, by decide,
    by decide, rfl, (htargets [0, 1, 1] (by decide)).2⟩
  rw [hplaces 7 (by rw [hresult]; decide)]
  decide

end TensorLowering
