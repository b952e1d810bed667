import Mathlib
import TensorLowering.Proofs.Interleave
import TensorLowering.Rule.Rearrange

set_option autoImplicit false

/-! # What a concatenation record means

In each round the interpreter writes the elements that have the same indices before the axis, input
by input. In row-major order these are exactly the elements of the output with those indices, in the
order of their index along the axis. So what it writes is the concatenation of the inputs
(`Operator.Concat.replay_isConcatenation`). -/

namespace TensorLowering

/-! ## Chunks and coordinates -/

section

variable {α : Type} {width : Nat} {outer inner : Shape} {sizes : List Nat}
  {inputs : List (StoredTensor α width)}

theorem sum_map_chunk (chunk : Nat) (sizes : List Nat) :
    (sizes.map (chunk * ·)).sum = chunk * sizes.sum := by
  simpa using List.sum_map_mul_left sizes id chunk

/-- Inputs that agree on all axes but one hold a chunk for each index of the axes before it. -/
theorem map_length_items_of_shapes
    (h : inputs.map StoredTensor.shape = sizes.map fun size => outer ++ size :: inner) :
    (inputs.map StoredTensor.items).map List.length =
      (sizes.map (inner.elements * width * ·)).map (outer.elements * ·) := by
  have hlength : (inputs.map StoredTensor.items).map List.length =
      (inputs.map StoredTensor.shape).map fun shape => shape.elements * width := by
    rw [List.map_map, List.map_map]
    exact List.map_congr_left fun input _ => input.length_items
  rw [hlength, h, List.map_map, List.map_map]
  refine List.map_congr_left fun size _ => ?_
  simp only [Function.comp_apply, Shape.elements_append, Shape.elements_cons]
  ring

/-- What the interpreter writes at the place of an element of the whole is what it reads at the
    place of the element of a part: both lie in the round that the indices before the axis count,
    and as far into the chunk of the part as the indices from the axis on lead. -/
theorem getElem?_interleave_middle {before after : Coordinate} {p i size index : Nat}
    {part : StoredTensor α width}
    (hinputs : inputs.map StoredTensor.shape = sizes.map fun size => outer ++ size :: inner)
    (hsize : sizes[p]? = some size) (hpart : inputs[p]? = some part)
    (hbefore : outer.Contains before) (hi : i < size) (hafter : inner.Contains after)
    (hindex : index < width) :
    (interleave outer.elements (sizes.map (inner.elements * width * ·))
        (inputs.map StoredTensor.items))[(outer ++ sizes.sum :: inner).offset
          (before ++ ((sizes.take p).sum + i) :: after) * width + index]? =
      part.items[(outer ++ size :: inner).offset (before ++ i :: after) * width + index]? := by
  have hlength := Shape.length_of_contains hbefore
  have hwithin : inner.offset after * width + index < inner.elements * width :=
    Shape.mul_add_lt_mul (Shape.offset_lt hafter) hindex
  have hin : i * (inner.elements * width) + (inner.offset after * width + index) <
      inner.elements * width * size := by
    rw [Nat.mul_comm _ size]
    exact Shape.mul_add_lt_mul hi hwithin
  have hchunk : (sizes.map (inner.elements * width * ·))[p]? =
      some (inner.elements * width * size) := by
    rw [List.getElem?_map, hsize, Option.map_some]
  have hbuffer : (inputs.map StoredTensor.items)[p]? = some part.items := by
    rw [List.getElem?_map, hpart, Option.map_some]
  have hwrite : (outer ++ sizes.sum :: inner).offset
        (before ++ ((sizes.take p).sum + i) :: after) * width + index =
      outer.offset before * (sizes.map (inner.elements * width * ·)).sum +
        (((sizes.map (inner.elements * width * ·)).take p).sum +
          (i * (inner.elements * width) + (inner.offset after * width + index))) := by
    rw [Shape.offset_middle hlength, sum_map_chunk, ← List.map_take, sum_map_chunk]
    ring
  have hread : (outer ++ size :: inner).offset (before ++ i :: after) * width + index =
      outer.offset before * (inner.elements * width * size) +
        (i * (inner.elements * width) + (inner.offset after * width + index)) := by
    rw [Shape.offset_middle hlength]
    ring
  rw [hwrite, hread]
  exact getElem?_interleave (map_length_items_of_shapes hinputs) (Shape.offset_lt hbefore) hchunk
    hbuffer hin

/-- Chunk by chunk, the inputs end up side by side along the axis. -/
theorem isConcatenation_interleave {whole : StoredTensor α width}
    (hwhole : whole.shape = outer ++ sizes.sum :: inner)
    (hinputs : inputs.map StoredTensor.shape = sizes.map fun size => outer ++ size :: inner)
    (hitems : whole.items = interleave outer.elements (sizes.map (inner.elements * width * ·))
      (inputs.map StoredTensor.items)) :
    whole.IsConcatenation outer.length inputs := by
  intro coordinate hcoordinate
  rw [hwhole] at hcoordinate
  obtain ⟨before, place, after, rfl, hlength, hbefore, hplace, hafter⟩ :=
    Shape.exists_middle_of_contains hcoordinate
  obtain ⟨found, hfound⟩ := Option.isSome_iff_exists.1 (isSome_locate?.2 hplace)
  obtain ⟨rfl, size, hsize, hi⟩ := locate?_eq_some.1 hfound
  have hsizes : (inputs.map fun part => part.shape.getD outer.length 0) = sizes := by
    have := congrArg (List.map fun shape : Shape => shape.getD outer.length 0) hinputs
    simpa [Function.comp_def] using this
  obtain ⟨part, hpart, hshape⟩ : ∃ part, inputs[found.part]? = some part ∧
      part.shape = outer ++ size :: inner := by
    have := congrArg (·[found.part]?) hinputs
    simpa [hsize] using this
  have hmoved : (before ++ ((sizes.take found.part).sum + found.index) :: after).set outer.length
      found.index = before ++ found.index :: after := by
    rw [← hlength]
    simp
  refine ⟨found, part, ?_, hpart, ?_, fun index hindex => ?_⟩
  · rw [hsizes, ← hlength]
    simpa using hfound
  · rw [hmoved, hshape]
    exact Shape.contains_middle hbefore hi hafter
  · rw [hmoved, StoredTensor.item?, StoredTensor.item?, hwhole, hshape, hitems]
    exact getElem?_interleave_middle hinputs hsize hpart hbefore hi hafter hindex

end

/-! ## What the record does -/

namespace Operator.Concat.Accepted

variable {context : Context} {op : Operator.Concat} {whole : Value} {axis : Nat}
  {parts : List Value} {record : Record.Concat}

/-- The shapes of the output and of the inputs are the same around the axis, and the fields of the
    record count what is before and after it. -/
theorem exists_around (h : op.Accepted context whole axis parts record) :
    ∃ outer inner : Shape, outer.length = axis ∧
      whole.shape = outer ++ (record.sizes.map UInt32.toNat).sum :: inner ∧
      parts.map Value.shape =
        (record.sizes.map UInt32.toNat).map (fun size => outer ++ size :: inner) ∧
      record.outer.toNat = outer.elements ∧
      record.inner.toNat = inner.elements * whole.elementType.size := by
  obtain ⟨haxis, hinner, houter⟩ := Shape.chunkLoop_eq_ok h.bounds_eq
  have hlength : (whole.shape.take axis).length = axis := by
    rw [List.length_take]
    exact Nat.min_eq_left (Nat.le_of_lt haxis)
  have hwhole : whole.shape = whole.shape.take axis ++
      (record.sizes.map UInt32.toNat).sum :: whole.shape.drop (axis + 1) := by
    obtain ⟨hlt, hget⟩ := List.getElem?_eq_some_iff.1 h.total_eq
    rw [List.sum_eq_foldr, ← hget, List.getElem_cons_drop, List.take_append_drop]
  refine ⟨whole.shape.take axis, whole.shape.drop (axis + 1), hlength, hwhole, ?_, houter, ?_⟩
  · -- Outside the axis the parts have the dimensions of the whole, on it their own.
    have hsizes : parts.map (fun part => part.shape.getD axis 0) =
        record.sizes.map UInt32.toNat := by
      have := congrArg (List.map fun size? => size?.getD 0) h.sizes_eq
      simpa [Function.comp_def] using this
    rw [← hsizes, List.map_map]
    refine List.map_congr_left fun part hpart => ?_
    obtain ⟨size, -, hsize⟩ : ∃ size ∈ record.sizes.map UInt32.toNat,
        some size = part.shape[axis]? := by
      rw [← List.mem_map, ← h.sizes_eq]
      exact List.mem_map_of_mem hpart
    have hagrees := h.agrees part hpart
    rw [hwhole] at hagrees
    rw [Function.comp_apply, List.getD_eq_getElem?_getD, ← hsize, Option.getD_some]
    exact Shape.eq_middle_of_agreesOutside hlength hagrees hsize.symm
  · rw [hinner, Nat.mul_comm]

/-- Inputs whose elements have the type of those of the output are all of that type. -/
theorem elementType_eq (h : op.Accepted context whole axis parts record)
    (htypes : ∀ input ∈ op.inputs, (context.value? input).map Value.elementType =
      (context.value? op.output).map Value.elementType) {part : Value} (hpart : part ∈ parts) :
    part.elementType = whole.elementType := by
  have hmem : some part ∈ op.inputs.map context.value? := by
    rw [h.parts_eq]
    exact List.mem_map_of_mem hpart
  obtain ⟨input, hinput, hvalue⟩ := List.mem_map.1 hmem
  have := htypes input hinput
  rw [hvalue, h.whole_eq] at this
  exact Option.some.inj this

end Operator.Concat.Accepted

/-- **A concatenation record concatenates.** If the elements of the inputs have the type of those of
    the output, what a record of the rule writes, given its inputs in row-major storage, is the
    concatenation along the axis that the operator names, in row-major storage. The record accounts
    for each byte of the output and of each input. -/
theorem Operator.Concat.replay_isConcatenation (graph : Graph) (oracle : Oracle)
    (op : Operator.Concat) (r : Record)
    (htypes : ∀ input ∈ op.inputs, (graph.value? input).map Value.elementType =
      (graph.value? op.output).map Value.elementType)
    (hlower : op.lower (graph.context oracle) = .ok r) :
    ∃ (record : Record.Concat) (whole : Value) (axis : Nat) (parts : List Value),
      r = .concat record ∧ graph.value? op.output = some whole ∧
      op.inputs.map graph.value? = parts.map some ∧ oracle op.output = some record.output ∧
      op.inputs.map oracle = record.inputs.map some ∧
      axisDimension whole.shape.rank op.axis = .ok axis ∧ axis < whole.shape.rank ∧
      (whole.shape.rank < 2 ^ 63 →
        (axis : Int) = if 0 ≤ op.axis then op.axis else whole.shape.rank + op.axis) ∧
      record.inner.toNat * record.outer.toNat * (record.sizes.map UInt32.toNat).sum =
        whole.shape.elements * whole.elementType.size ∧
      record.sizes.map (fun size => record.inner.toNat * record.outer.toNat * size.toNat) =
        parts.map (fun part => part.shape.elements * part.elementType.size) ∧
      ∀ (α : Type) (inputs : List (StoredTensor α whole.elementType.size)),
        inputs.map StoredTensor.shape = parts.map Value.shape →
        ∃ result : StoredTensor α whole.elementType.size, result.shape = whole.shape ∧
          result.items = record.replay (inputs.map StoredTensor.items) ∧
          result.IsConcatenation axis inputs := by
  obtain ⟨whole, axis, parts, record, rfl, h⟩ := exists_accepted_of_lower hlower
  -- From here on only the dimensions before and after the axis matter.
  obtain ⟨outer, inner, haxis, hwhole, hparts, houter, hinner⟩ := h.exists_around
  obtain ⟨hrank, -, -⟩ := Shape.chunkLoop_eq_ok h.bounds_eq
  have hchunks : record.chunkSizes =
      (record.sizes.map UInt32.toNat).map (inner.elements * whole.elementType.size * ·) := by
    rw [Record.Concat.chunkSizes, hinner, List.map_map]
    rfl
  refine ⟨record, whole, axis, parts, rfl, h.whole_eq, h.parts_eq, h.output_eq, h.inputs_eq,
    h.axis_eq, hrank, ?_, ?_, ?_, ?_⟩
  · intro hlt
    obtain ⟨-, hlt, hresolved⟩ := (axisDimension_eq_ok hlt).1 h.axis_eq
    split <;> omega
  · rw [hinner, houter, hwhole, Shape.elements_append, Shape.elements_cons]
    ring
  · have hbytes : parts.map (fun part => part.shape.elements * part.elementType.size) =
        (parts.map Value.shape).map fun shape => shape.elements * whole.elementType.size := by
      rw [List.map_map]
      refine List.map_congr_left fun part hpart => ?_
      rw [h.elementType_eq htypes hpart]
      rfl
    rw [hbytes, hparts, hinner, houter, List.map_map, List.map_map]
    refine List.map_congr_left fun size _ => ?_
    simp only [Function.comp_apply, Shape.elements_append, Shape.elements_cons]
    ring
  · intro α inputs hinputs
    have hlength := map_length_items_of_shapes (hinputs.trans hparts)
    have hitems : record.replay (inputs.map StoredTensor.items) = interleave outer.elements
        ((record.sizes.map UInt32.toNat).map (inner.elements * whole.elementType.size * ·))
        (inputs.map StoredTensor.items) := by
      rw [Record.Concat.replay, hchunks, houter]
    refine ⟨⟨whole.shape, record.replay (inputs.map StoredTensor.items), ?_⟩, rfl, rfl, ?_⟩
    · rw [hitems, length_interleave hlength, sum_map_chunk, hwhole, Shape.elements_append,
        Shape.elements_cons]
      ring
    · rw [← haxis]
      exact isConcatenation_interleave hwhole (hinputs.trans hparts) hitems

/-- A graph whose value 2 has the columns of value 0 and those of value 1. -/
def columnsGraph : Graph where
  values := #[{ name := none, shape := [2, 1], elementType := .uint8 },
    { name := none, shape := [2, 2], elementType := .uint8 },
    { name := none, shape := [2, 3], elementType := .uint8 }]
  nodes := #[]

/-- The concatenation of those columns, along the last axis. -/
def columnsConcat : Operator.Concat where
  inputs := [0, 1]
  output := 2
  axis := -1

/-- In each row, the column of the first input precedes those of the second. -/
theorem Operator.Concat.replay_isConcatenation_columns :
    let oracle : Oracle := fun value =>
      some { region := .data, start := .ofNat (6 * value.index), size := 6 }
    let inputs : List (StoredTensor Char 1) :=
      [{ shape := [2, 1], items := ['a', 'b'], length_items := rfl },
        { shape := [2, 2], items := ['p', 'q', 'r', 's'], length_items := rfl }]
    (∀ input ∈ columnsConcat.inputs, (columnsGraph.value? input).map Value.elementType =
      (columnsGraph.value? columnsConcat.output).map Value.elementType) ∧
    ∃ record, columnsConcat.lower (columnsGraph.context oracle) = .ok (.concat record) ∧
      ∃ result : StoredTensor Char 1, result.shape = [2, 3] ∧
        record.replay (inputs.map StoredTensor.items) = result.items ∧
        result.items = ['a', 'p', 'q', 'b', 'r', 's'] ∧ result.IsConcatenation 1 inputs := by
  intro oracle inputs
  have htypes : ∀ input ∈ columnsConcat.inputs,
      (columnsGraph.value? input).map Value.elementType =
        (columnsGraph.value? columnsConcat.output).map Value.elementType := by decide
  have hlower : columnsConcat.lower (columnsGraph.context oracle) = .ok (.concat
      { output := ⟨.data, 12, 6⟩, inner := 1, outer := 2, sizes := [1, 2]
        inputs := [⟨.data, 0, 6⟩, ⟨.data, 6, 6⟩] }) := by
    have haxis : axisDimension 2 (-1) = .ok 1 := rfl
    simp only [lower, Outcome.bind_eq_ok, Outcome.mapError_eq_ok]
    exact ⟨(), rfl, _, rfl, 1, haxis, [1, 2], rfl, 3, rfl, 3, rfl, (), rfl, _, rfl, _, rfl, _, rfl,
      _, rfl, rfl⟩
  obtain ⟨_, whole, axis, parts, hrecord, hwhole, hparts, -, -, haxis, -, -, -, -, hreplay⟩ :=
    replay_isConcatenation columnsGraph oracle columnsConcat _ htypes hlower
  cases hrecord
  cases hwhole
  have hresolved : axisDimension 2 (-1) = .ok axis := haxis
  cases hresolved
  have hknown : parts = columnsGraph.values.toList.take 2 :=
    (List.map_inj_right fun _ _ => Option.some.inj).1 (hparts.symm.trans rfl)
  obtain ⟨result, hshape, hitems, hconcat⟩ := hreplay Char inputs (by rw [hknown]; rfl)
  exact ⟨htypes, _, hlower, result, hshape, hitems.symm, hitems, hconcat⟩

end TensorLowering
