import TensorLowering.Proofs.ChunkCoverage

set_option autoImplicit false

/-! # When the size of a chunk is a word

A record of a concatenation has fields for the bytes that the dimensions after the axis take and for
the size of each input along the axis. The rule sees to it that each of these fits its field. The
size of a chunk is the product of two of them, and it is not computed before someone asks the record
for it: the fields can fit where their product is no word. It is the number of bytes that the
dimensions of the input take from the axis on, so it can be asked for exactly if that number is a
word (`Operator.Concat.chunkSize?_exact`). This is so for each input whose bytes can be counted. -/

namespace TensorLowering

/-! ## What a record answers -/

namespace Record.Concat

variable {record : Record.Concat} {index : Nat}

theorem chunkSize?_eq_none :
    record.chunkSize? index = .ok none ↔ record.sizes.length ≤ index := by
  unfold chunkSize?
  rcases hsize : record.sizes[index]? with _ | size
  · simpa using hsize
  · have hlt := (List.getElem?_eq_some_iff.1 hsize).1
    simp [Outcome.except_bind_eq_ok, pure, Except.pure, hlt]

/-- The size of a chunk is the exact product, if that is a word. -/
theorem chunkSize?_eq_some {size : UInt32} (hsize : record.sizes[index]? = some size) {n : Nat} :
    record.chunkSize? index = .ok (some n) ↔
      record.inner.toNat * size.toNat < Word.size ∧ record.inner.toNat * size.toNat = n := by
  unfold chunkSize?
  simp [hsize, Outcome.except_bind_eq_ok, pure, Except.pure]

/-- Asking for the size of a chunk is abandoned otherwise. -/
theorem chunkSize?_eq_error {size : UInt32} (hsize : record.sizes[index]? = some size)
    {t : Fault} :
    record.chunkSize? index = .error t ↔
      Word.size ≤ record.inner.toNat * size.toNat ∧ Fault.overflow .mul = t := by
  unfold chunkSize?
  simp [hsize, Outcome.except_bind_eq_error, pure, Except.pure]

end Record.Concat

/-! ## Chunks as parts of inputs -/

namespace Operator.Concat

variable {op : Operator.Concat} {context : Context} {whole : Value} {axis : Nat}
  {parts : List Value} {record : Record.Concat}

theorem Accepted.length_sizes (h : op.Accepted context whole axis parts record) :
    record.sizes.length = op.inputs.length := by
  have hsizes := congrArg List.length h.sizes_eq
  have hparts := congrArg List.length h.parts_eq
  simp only [List.length_map] at hsizes hparts
  rw [hparts, hsizes]

/-- A chunk has the bytes of the dimensions of its input from the axis on. -/
theorem Accepted.chunk_eq (h : op.Accepted context whole axis parts record) {index : Nat}
    {part : Value} {size : UInt32} (hpart : parts[index]? = some part)
    (hsize : record.sizes[index]? = some size) :
    record.inner.toNat * size.toNat =
      Shape.elements (part.shape.drop axis) * whole.elementType.size := by
  obtain ⟨outer, inner, haxis, -, hshapes, -, hinner⟩ := h.exists_around
  have hshape : part.shape = outer ++ size.toNat :: inner := by
    have := congrArg (·[index]?) hshapes
    simpa [hpart, hsize] using this
  rw [hinner, hshape, ← haxis, List.drop_left, Shape.elements_cons]
  ring

/-- There is a round, since no dimension before the axis is empty. -/
theorem Accepted.outer_pos (h : op.Accepted context whole axis parts record) :
    0 < record.outer.toNat := by
  obtain ⟨-, hbefore, -, -, houter⟩ := Shape.chunkLoop_eq_ok_iff.1 h.bounds_eq
  rw [houter]
  refine Shape.elements_pos ?_
  intro dimension hdimension
  exact Nat.pos_of_ne_zero (hbefore dimension hdimension)

/-- A chunk has no more bytes than all rounds read of its input. -/
theorem Accepted.chunk_le (h : op.Accepted context whole axis parts record) {index : Nat}
    {part : Value} {size : UInt32} (hpart : parts[index]? = some part)
    (hsize : record.sizes[index]? = some size) :
    record.inner.toNat * size.toNat ≤ part.shape.elements * whole.elementType.size := by
  calc record.inner.toNat * size.toNat
      ≤ record.outer.toNat * (record.inner.toNat * size.toNat) :=
        Nat.le_mul_of_pos_left _ h.outer_pos
    _ = record.outer.toNat * record.inner.toNat * size.toNat := (Nat.mul_assoc ..).symm
    _ = part.shape.elements * whole.elementType.size := h.bytes_read hpart hsize

/-- **The size of a chunk is exact where it is a word.** A record of a concatenation has a size for
    each input and answers for no other index. The exact size of the chunks of an input is the number
    of bytes that its dimensions take from the axis on, with the width of the elements of the output.
    The record answers with that number if it is a word, as it is where all the elements of the input
    with that width are a word of bytes; otherwise asking for it is abandoned. -/
theorem chunkSize?_exact (graph : Graph) (oracle : Oracle) (op : Operator.Concat) (r : Record)
    (hlower : op.lower (graph.context oracle) = .ok r) :
    ∃ (record : Record.Concat) (whole : Value) (axis : Nat) (parts : List Value),
      r = .concat record ∧ graph.value? op.output = some whole ∧
      axisDimension whole.shape.rank op.axis = .ok axis ∧
      op.inputs.map graph.value? = parts.map some ∧
      record.sizes.length = op.inputs.length ∧
      (∀ index, record.chunkSize? index = .ok none ↔ op.inputs.length ≤ index) ∧
      ∀ (index : Nat) (part : Value) (size : UInt32),
        parts[index]? = some part → record.sizes[index]? = some size →
        let chunk := record.inner.toNat * size.toNat
        chunk = Shape.elements (part.shape.drop axis) * whole.elementType.size ∧
        (∀ n, record.chunkSize? index = .ok (some n) ↔ chunk < Word.size ∧ chunk = n) ∧
        (∀ t, record.chunkSize? index = .error t ↔
          Word.size ≤ chunk ∧ Fault.overflow .mul = t) ∧
        (part.shape.elements * whole.elementType.size < Word.size →
          record.chunkSize? index = .ok (some chunk)) := by
  obtain ⟨whole, axis, parts, record, rfl, h⟩ := exists_accepted_of_lower hlower
  have hlength := h.length_sizes
  refine ⟨record, whole, axis, parts, rfl, h.whole_eq, h.axis_eq, h.parts_eq, hlength, ?_, ?_⟩
  · intro index
    rw [Record.Concat.chunkSize?_eq_none, hlength]
  · intro index part size hpart hsize chunk
    refine ⟨h.chunk_eq hpart hsize, fun n => Record.Concat.chunkSize?_eq_some hsize,
      fun t => Record.Concat.chunkSize?_eq_error hsize, ?_⟩
    intro hbytes
    have hlt := Nat.lt_of_le_of_lt (h.chunk_le hpart hsize) hbytes
    exact (Record.Concat.chunkSize?_eq_some hsize).2 ⟨hlt, rfl⟩

/-- A graph whose value 2 has the shape of the slabs of value 0 and those of value 1. Each dimension
    has a field of 32 bits. -/
def slabsGraph : Graph where
  values := #[{ name := none, shape := [1, 0x80000000, 0x80000000], elementType := .uint8 },
    { name := none, shape := [4, 0x80000000, 0x80000000], elementType := .uint8 },
    { name := none, shape := [5, 0x80000000, 0x80000000], elementType := .uint8 }]
  nodes := #[]

/-- The concatenation of its values 0 and 1. -/
def slabsConcat : Operator.Concat where
  inputs := [0, 1]
  output := 2
  axis := 0

/-- A range for every value. -/
def slabsRanges : Oracle := fun _ => some { region := .data, start := 0, size := 64 }

/-- The record of the concatenation. -/
def slabsRecord : Record.Concat where
  output := ⟨.data, 0, 64⟩
  inner := 0x4000000000000000
  outer := 1
  inputs := [⟨.data, 0, 64⟩, ⟨.data, 0, 64⟩]
  sizes := [1, 4]

theorem lower_slabs :
    slabsConcat.lower (slabsGraph.context slabsRanges) = .ok (.concat slabsRecord) := by
  have haxis : axisDimension 3 0 = .ok 0 := rfl
  simp only [Operator.Concat.lower, Outcome.bind_eq_ok, Outcome.mapError_eq_ok]
  exact ⟨(), rfl, _, rfl, 0, haxis, [1, 4], rfl, 5, rfl, 5, rfl, (), rfl, _, rfl, _, rfl, _, rfl,
    _, rfl, rfl⟩

/-- The chunk of one slab has a size; there is no third input. -/
theorem chunkSize?_exact_slabs :
    slabsConcat.lower (slabsGraph.context slabsRanges) = .ok (.concat slabsRecord) ∧
      slabsRecord.chunkSize? 0 = .ok (some 0x4000000000000000) ∧
      slabsRecord.chunkSize? 2 = .ok none := by
  obtain ⟨record, whole, axis, parts, hrecord, hwhole, haxis, hparts, -, hnone, hchunks⟩ :=
    chunkSize?_exact slabsGraph slabsRanges slabsConcat _ lower_slabs
  cases hrecord
  cases hwhole
  have hknown : parts = slabsGraph.values.toList.take 2 :=
    (List.map_inj_right fun _ _ => Option.some.inj).1 (hparts.symm.trans rfl)
  subst hknown
  obtain ⟨-, -, -, hsize⟩ := hchunks 0 _ 1 rfl rfl
  exact ⟨lower_slabs, hsize (by decide), (hnone 2).2 (by decide)⟩

/-- The rule makes a record from which the size of the chunks of four slabs cannot be had: their
    bytes are one more than the largest word. -/
theorem chunkSize?_abandoned :
    ∃ record : Record.Concat,
      slabsConcat.lower (slabsGraph.context slabsRanges) = .ok (.concat record) ∧
      record.inputs.length = 2 ∧ record.sizes[1]? = some 4 ∧
      record.inner.toNat * 4 = Word.size ∧
      record.chunkSize? 1 = .error (.overflow .mul) :=
  ⟨slabsRecord, lower_slabs, rfl, rfl, by decide, by decide⟩

end Operator.Concat

end TensorLowering
