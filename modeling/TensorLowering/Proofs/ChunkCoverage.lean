import TensorLowering.Proofs.Concatenation

set_option autoImplicit false

/-! # How far a concatenation reads into its inputs

The interpreter reads each input of a concatenation chunk by chunk, and the record gives the size of
a chunk in bytes of the output: the rule takes the width of elements from the output and does not
look at that of the inputs. So an input whose elements have another width is not read to its end, or
is read past it. What is read of an input is always as many bytes as its elements would take with
the width of the output (`Operator.Concat.chunks_cover_iff`). -/

namespace TensorLowering

/-! ## Rounds as chunks -/

section

variable {α : Type} {sizes : List Nat} {buffers : List (List α)}

theorem chunksAfter_zero : chunksAfter 0 sizes buffers = List.zipWith List.take sizes buffers := by
  simp [chunksAfter]

/-- The chunks after a first round are those of what that round leaves. -/
theorem chunksAfter_succ (rounds : Nat) :
    chunksAfter (rounds + 1) sizes buffers =
      chunksAfter rounds sizes (List.zipWith List.drop sizes buffers) := by
  unfold chunksAfter
  induction sizes generalizing buffers with
  | nil => simp
  | cons size sizes ih =>
      cases buffers with
      | nil => simp
      | cons buffer buffers =>
          rw [List.zipWith_cons_cons, List.zipWith_cons_cons, List.zipWith_cons_cons, ih,
            List.drop_drop, Nat.add_mul, Nat.one_mul, Nat.add_comm]

/-- In each round the next chunk of every buffer is written. -/
theorem interleave_eq_flatMap (rounds : Nat) :
    interleave rounds sizes buffers =
      (List.range rounds).flatMap fun round => (chunksAfter round sizes buffers).flatten := by
  induction rounds generalizing buffers with
  | zero => rfl
  | succ rounds ih =>
      rw [interleave, ih, List.range_succ_eq_map, List.flatMap_cons, List.flatMap_map,
        chunksAfter_zero]
      simp only [Nat.succ_eq_add_one, chunksAfter_succ]

end

/-! ## What is read of an input -/

/-- The chunks of an input lie one after the other, from its first byte on. -/
theorem Record.Concat.reads_iff {record : Record.Concat} {input position : Nat} {size : UInt32}
    (hsize : record.sizes[input]? = some size) :
    record.Reads input position ↔
      position < record.outer.toNat * record.inner.toNat * size.toNat := by
  have hchunk : record.chunkSizes[input]? = some (record.inner.toNat * size.toNat) := by
    rw [chunkSizes, List.getElem?_map, hsize, Option.map_some]
  rw [Nat.mul_assoc]
  constructor
  · rintro ⟨round, hround, chunk, heq, -, hend⟩
    cases hchunk.symm.trans heq
    exact Nat.lt_of_lt_of_le hend (Nat.mul_le_mul_right _ hround)
  · intro hposition
    -- The position is in the round that counts the whole chunks before it.
    have hpos : 0 < record.inner.toNat * size.toNat := by
      by_contra hzero
      rw [Nat.eq_zero_of_not_pos hzero, Nat.mul_zero] at hposition
      exact Nat.not_lt_zero _ hposition
    refine ⟨position / (record.inner.toNat * size.toNat), ?_, _, hchunk, ?_, ?_⟩
    · exact Nat.div_lt_of_lt_mul (Nat.mul_comm .. ▸ hposition)
    · exact Nat.div_mul_le_self ..
    · exact Nat.lt_mul_of_div_lt (Nat.lt_succ_self _) hpos

/-- What a record reads of an input has as many bytes as the elements of the input would take with
    the width of the elements of the output. -/
theorem Operator.Concat.Accepted.bytes_read {op : Operator.Concat} {context : Context}
    {whole : Value} {axis : Nat} {parts : List Value} {record : Record.Concat}
    (h : op.Accepted context whole axis parts record) {input : Nat} {part : Value} {size : UInt32}
    (hpart : parts[input]? = some part) (hsize : record.sizes[input]? = some size) :
    record.outer.toNat * record.inner.toNat * size.toNat =
      part.shape.elements * whole.elementType.size := by
  obtain ⟨outer, inner, -, -, hshapes, houter, hinner⟩ := h.exists_around
  have hshape : part.shape = outer ++ size.toNat :: inner := by
    have := congrArg (·[input]?) hshapes
    simpa [hpart, hsize] using this
  rw [houter, hinner, hshape, Shape.elements_append, Shape.elements_cons]
  ring

/-- **How far a concatenation reads.** In each round the interpreter writes the next chunk of every
    input. Altogether the chunks of an input are a run of bytes from its first on, as many as its
    elements would take with the width of the elements of the output. So they are exactly the bytes
    of the input if and only if it has no elements or its elements have that width, and they stay
    within the input if and only if it has no elements or its elements are not narrower. -/
theorem Operator.Concat.chunks_cover_iff (graph : Graph) (oracle : Oracle) (op : Operator.Concat)
    (r : Record) (hlower : op.lower (graph.context oracle) = .ok r) :
    ∃ (record : Record.Concat) (whole : Value) (parts : List Value),
      r = .concat record ∧ graph.value? op.output = some whole ∧
      op.inputs.map graph.value? = parts.map some ∧ record.sizes.length = parts.length ∧
      (∀ (α : Type) (buffers : List (List α)), record.replay buffers =
        (List.range record.outer.toNat).flatMap fun round =>
          (chunksAfter round record.chunkSizes buffers).flatten) ∧
      ∀ (input : Nat) (part : Value) (size : UInt32),
        parts[input]? = some part → record.sizes[input]? = some size →
        let read := record.outer.toNat * record.inner.toNat * size.toNat
        let bytes := part.shape.elements * part.elementType.size
        (∀ position, record.Reads input position ↔ position < read) ∧
        read = part.shape.elements * whole.elementType.size ∧
        (read = bytes ↔
          part.shape.elements = 0 ∨ whole.elementType.size = part.elementType.size) ∧
        (read ≤ bytes ↔
          part.shape.elements = 0 ∨ whole.elementType.size ≤ part.elementType.size) := by
  obtain ⟨whole, axis, parts, record, rfl, h⟩ := exists_accepted_of_lower hlower
  refine ⟨record, whole, parts, rfl, h.whole_eq, h.parts_eq, ?_, ?_, ?_⟩
  · have := congrArg List.length h.sizes_eq
    simpa using this.symm
  · intro α buffers
    exact interleave_eq_flatMap _
  · intro input part size hpart hsize read bytes
    have hread : read = part.shape.elements * whole.elementType.size := h.bytes_read hpart hsize
    refine ⟨fun position => Record.Concat.reads_iff hsize, hread, ?_, ?_⟩
    · rw [hread, mul_eq_mul_left_iff, or_comm]
    · rw [hread]
      by_cases hzero : part.shape.elements = 0
      · simp [bytes, hzero]
      · rw [or_iff_right hzero]
        exact Nat.mul_le_mul_left_iff (Nat.pos_of_ne_zero hzero)

/-- A graph whose value 2 has the shape of the columns of value 0 and those of value 1, but only
    value 1 has elements of the same type. -/
def mixedColumnsGraph : Graph where
  values := #[{ name := none, shape := [2, 1], elementType := .uint8 },
    { name := none, shape := [2, 2], elementType := .float32 },
    { name := none, shape := [2, 3], elementType := .float32 }]
  nodes := #[]

/-- Ranges for the values of that graph, one after the other. -/
def mixedColumnsRanges : Oracle := fun value =>
  ([⟨.data, 0, 2⟩, ⟨.data, 2, 16⟩, ⟨.data, 18, 24⟩] : List MemoryRange)[value.index]?

/-- The record of their concatenation. -/
def mixedColumnsRecord : Record.Concat where
  output := ⟨.data, 18, 24⟩
  inner := 4
  outer := 2
  inputs := [⟨.data, 0, 2⟩, ⟨.data, 2, 16⟩]
  sizes := [1, 2]

theorem lower_mixedColumns :
    columnsConcat.lower (mixedColumnsGraph.context mixedColumnsRanges) =
      .ok (.concat mixedColumnsRecord) := by
  have haxis : axisDimension 2 (-1) = .ok 1 := rfl
  simp only [Operator.Concat.lower, Outcome.bind_eq_ok, Outcome.mapError_eq_ok]
  exact ⟨(), rfl, _, rfl, 1, haxis, [1, 2], rfl, 3, rfl, 3, rfl, (), rfl, _, rfl, _, rfl, _, rfl,
    _, rfl, rfl⟩

/-- Of value 0 more bytes are read than it has, of value 1 exactly those that it has. -/
theorem Operator.Concat.chunks_cover_iff_mixed :
    columnsConcat.lower (mixedColumnsGraph.context mixedColumnsRanges) =
        .ok (.concat mixedColumnsRecord) ∧
      ¬(∀ position, mixedColumnsRecord.Reads 0 position → position < 2) ∧
      ∀ position, mixedColumnsRecord.Reads 1 position ↔ position < 16 := by
  obtain ⟨record, whole, parts, hrecord, hwhole, hparts, -, -, hreads⟩ :=
    chunks_cover_iff mixedColumnsGraph mixedColumnsRanges columnsConcat _ lower_mixedColumns
  cases hrecord
  cases hwhole
  have hknown : parts = mixedColumnsGraph.values.toList.take 2 :=
    (List.map_inj_right fun _ _ => Option.some.inj).1 (hparts.symm.trans rfl)
  subst hknown
  obtain ⟨hrun, -, -, hwithin⟩ := hreads 0 _ 1 rfl rfl
  obtain ⟨hrun', -, hexact, -⟩ := hreads 1 _ 2 rfl rfl
  refine ⟨lower_mixedColumns, ?_, fun position => ?_⟩
  · intro hpast
    have hseven := hpast 7 ((hrun 7).2 (by decide))
    exact absurd hseven (by decide)
  · rw [hrun', hexact.2 (.inr rfl)]
    rfl

/-- The rule accepts elements of one byte where the output has four: in the second round it reads
    four bytes from the fourth on of an input that has two. -/
theorem Operator.Concat.reads_past_end :
    ∃ (record : Record.Concat) (part : Value) (size : UInt32),
      columnsConcat.lower (mixedColumnsGraph.context mixedColumnsRanges) = .ok (.concat record) ∧
      mixedColumnsGraph.value? 0 = some part ∧ record.sizes[0]? = some size ∧
      record.outer.toNat * record.inner.toNat * size.toNat = 8 ∧
      part.shape.elements * part.elementType.size = 2 ∧ record.Reads 0 7 :=
  ⟨mixedColumnsRecord, _, 1, lower_mixedColumns, rfl, rfl, rfl, rfl,
    1, by decide, 4, rfl, by decide, by decide⟩

end TensorLowering
