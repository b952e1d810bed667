import TensorLowering.Rule.Reduction
import TensorLowering.Shape.Layout

set_option autoImplicit false

/-! # Which tensors softmax splits into rows

A row of a tensor is what lies under one index of its first dimension. The length of a row is found
by counting the elements of the whole tensor in words and dividing by the number of rows. Where the
number of rows and the length of a row both have a field, their product is a word, and as no
dimension is zero it is the largest number that is met on the way; so every tensor that the record
can describe is accepted (`Operator.Softmax.lower_partitions_rows`). Row by row, its elements fill
the storage (`Shape.mem_row_iff`). -/

namespace TensorLowering

/-! ## Rows in storage -/

/-- A row takes up as many places as it has elements, and follows the rows before it. -/
theorem Shape.mem_row_iff {rows : Nat} {row : Shape} {index position : Nat} :
    (∃ coordinate, Contains (rows :: row) (index :: coordinate) ∧
        offset (rows :: row) (index :: coordinate) = position) ↔
      index < rows ∧ index * row.elements ≤ position ∧
        position < (index + 1) * row.elements := by
  have hnext : (index + 1) * row.elements = index * row.elements + row.elements := by
    rw [Nat.add_mul, Nat.one_mul]
  rw [hnext]
  constructor
  · rintro ⟨coordinate, ⟨hindex, hcoordinate⟩, rfl⟩
    have hlt := offset_lt hcoordinate
    rw [offset]
    exact ⟨hindex, Nat.le_add_right _ _, Nat.add_lt_add_left hlt _⟩
  · rintro ⟨hindex, hle, hlt⟩
    obtain ⟨place, rfl⟩ := Nat.exists_eq_add_of_le hle
    have hplace : place < row.elements := Nat.lt_of_add_lt_add_left hlt
    refine ⟨row.coordinate place, ⟨hindex, contains_coordinate hplace⟩, ?_⟩
    rw [offset, offset_coordinate hplace]

/-! ## What is accepted -/

/-- A softmax reads and writes tensors of one shape, which is a number of rows and the dimensions of
    a row. Nothing in it is empty, the number of rows and the length of a row have fields, and both
    tensors have a range. -/
structure Operator.Softmax.Partitions (op : Operator.Softmax) (graph : Graph) (oracle : Oracle)
    (rows : Nat) (row : Shape) : Prop where
  input_shape : (graph.value? op.input).map Value.shape = some (rows :: row)
  output_shape : (graph.value? op.output).map Value.shape = some (rows :: row)
  ne_zero : ∀ dimension ∈ rows :: row, dimension ≠ 0
  rows_lt : rows < UInt32.size
  row_lt : row.elements < UInt32.size
  input_range : (oracle op.input).isSome
  output_range : (oracle op.output).isSome

namespace Operator.Softmax

variable {op : Operator.Softmax} {graph : Graph} {oracle : Oracle} {rows : Nat} {row : Shape}

/-- Two numbers with fields of 32 bits have a product that is a word. -/
theorem Partitions.elements_lt (h : op.Partitions graph oracle rows row) :
    Shape.elements (rows :: row) < Word.size :=
  calc rows * row.elements < UInt32.size * UInt32.size := Nat.mul_lt_mul'' h.rows_lt h.row_lt
    _ ≤ Word.size := by decide

/-- So the elements can be counted, in whatever order. -/
theorem Partitions.checkedElements_eq (h : op.Partitions graph oracle rows row) :
    Shape.checkedElements (rows :: row) = .ok (Shape.elements (rows :: row)) :=
  Shape.checkedElements_of_pos (fun dimension hmem => Nat.pos_of_ne_zero (h.ne_zero dimension hmem))
    h.elements_lt

/-- What the rule accepts is a partition into rows. -/
theorem Accepted.partitions {shape : Shape} {bounds : RowLoop} {record : Record.Softmax}
    (h : op.Accepted (graph.context oracle) shape bounds record) :
    ∃ rows row, op.Partitions graph oracle rows row := by
  obtain ⟨row, hshape, hne, -, hinner⟩ := Shape.rowLoop_eq_ok_iff.1 h.bounds_eq
  subst hshape
  exact ⟨bounds.outer, row,
    { input_shape := Context.shape_eq_ok_iff_map.1 h.shape_eq
      output_shape := Context.shape_eq_ok_iff_map.1 h.found_eq
      ne_zero := hne
      rows_lt := h.outer_eq ▸ record.outer.toNat_lt
      row_lt := (h.inner_eq.trans hinner) ▸ record.inner.toNat_lt
      input_range := Option.isSome_of_eq_some h.input_eq
      output_range := Option.isSome_of_eq_some h.output_eq }⟩

/-- Each partition into rows is accepted, and the record says how many rows there are and how long
    they are. -/
theorem Partitions.exists_record (h : op.Partitions graph oracle rows row) :
    ∃ record, op.lower (graph.context oracle) = .ok (.softmax record) ∧
      oracle op.input = some record.input ∧ oracle op.output = some record.output ∧
      record.outer.toNat = rows ∧ record.inner.toNat = row.elements := by
  obtain ⟨input, hinput⟩ := Option.isSome_iff_exists.1 h.input_range
  obtain ⟨output, houtput⟩ := Option.isSome_iff_exists.1 h.output_range
  have hrows : Shape.rowLoop (rows :: row) = .ok { outer := rows, inner := row.elements } :=
    Shape.rowLoop_eq_ok_iff.2 ⟨row, rfl, h.ne_zero, h.elements_lt, rfl⟩
  refine ⟨{ input, output, inner := .ofNatLT _ h.row_lt, outer := .ofNatLT _ h.rows_lt }, ?_, hinput,
    houtput, UInt32.toNat_ofNatLT, UInt32.toNat_ofNatLT⟩
  simp only [lower, Outcome.bind_eq_ok, Outcome.require_eq_ok, Outcome.mapError_eq_ok,
    Context.shape_eq_ok_iff_map, Context.range_eq_ok, sizeField_eq_ok, Outcome.pure_eq_ok,
    Outcome.ok.injEq]
  exact ⟨_, h.input_shape, _, h.output_shape, (), rfl, _, hrows, input, hinput, output, houtput, _,
    UInt32.toNat_ofNatLT, _, UInt32.toNat_ofNatLT, rfl⟩

end Operator.Softmax

/-- **Softmax accepts exactly the tensors that its record can describe.** There is a record exactly
    if input and output are known and have one shape with at least one dimension, no dimension is
    zero, the first dimension and the exact product of the others both have a field, and both values
    have a range. For such a tensor the product of all dimensions, which is taken in words, is exact.
    The record has the first dimension as the number of rows and the product of the others as the
    length of a row. Together they make up the exact number of elements, and the elements of a row,
    those under one index of the first dimension, are at the places of its length that follow the
    rows before it. -/
theorem Operator.Softmax.lower_partitions_rows (graph : Graph) (oracle : Oracle)
    (op : Operator.Softmax) :
    ((∃ r, op.lower (graph.context oracle) = .ok r) ↔
      ∃ rows row, op.Partitions graph oracle rows row) ∧
    ∀ rows row, op.Partitions graph oracle rows row →
      Shape.checkedElements (rows :: row) = .ok (Shape.elements (rows :: row)) ∧
      ∃ record, op.lower (graph.context oracle) = .ok (.softmax record) ∧
        oracle op.input = some record.input ∧ oracle op.output = some record.output ∧
        record.outer.toNat = rows ∧ record.inner.toNat = row.elements ∧
        record.outer.toNat * record.inner.toNat = Shape.elements (rows :: row) ∧
        ∀ index position,
          (∃ coordinate, Shape.Contains (rows :: row) (index :: coordinate) ∧
              Shape.offset (rows :: row) (index :: coordinate) = position) ↔
            index < record.outer.toNat ∧ index * record.inner.toNat ≤ position ∧
              position < (index + 1) * record.inner.toNat := by
  refine ⟨⟨?_, ?_⟩, ?_⟩
  · rintro ⟨r, h⟩
    obtain ⟨_, _, _, -, haccepted⟩ := op.exists_accepted_of_lower h
    exact haccepted.partitions
  · rintro ⟨rows, row, h⟩
    obtain ⟨record, hlower, -⟩ := h.exists_record
    exact ⟨_, hlower⟩
  · intro rows row h
    obtain ⟨record, hlower, hinput, houtput, hrows, hrow⟩ := h.exists_record
    refine ⟨h.checkedElements_eq, record, hlower, hinput, houtput, hrows, hrow, ?_, ?_⟩
    · rw [hrows, hrow, Shape.elements_cons]
    · intro index position
      rw [hrows, hrow]
      exact Shape.mem_row_iff

/-- A graph with one value, which has as many rows of as many entries as fields allow. -/
def largestRowsGraph : Graph where
  values := #[{ name := none, shape := [0xFFFFFFFF, 0xFFFF, 0x10001], elementType := .float32 }]
  nodes := #[]

/-- The largest rows are accepted, although it takes 64 bits to count their elements, and the first
    row ends where the second one begins. -/
theorem Operator.Softmax.lower_partitions_rows_largest :
    let oracle : Oracle := fun _ => some { region := .data, start := 0, size := 0xFFFFFFFF }
    let op : Operator.Softmax := { input := 0, output := 0 }
    op.Partitions largestRowsGraph oracle 0xFFFFFFFF [0xFFFF, 0x10001] ∧
      ∃ record, op.lower (largestRowsGraph.context oracle) = .ok (.softmax record) ∧
        record.outer.toNat * record.inner.toNat = 0xFFFFFFFE00000001 ∧
        ∃ coordinate, Shape.offset [0xFFFFFFFF, 0xFFFF, 0x10001] (1 :: coordinate) = 0xFFFFFFFF := by
  intro oracle op
  have hrows : op.Partitions largestRowsGraph oracle 0xFFFFFFFF [0xFFFF, 0x10001] :=
    { input_shape := rfl
      output_shape := rfl
      ne_zero := by decide
      rows_lt := by decide
      row_lt := by decide
      input_range := rfl
      output_range := rfl }
  obtain ⟨-, hexact⟩ := lower_partitions_rows largestRowsGraph oracle op
  obtain ⟨-, record, hlower, -, -, houter, hinner, helements, hplaces⟩ := hexact _ _ hrows
  have hinner : record.inner.toNat = 0xFFFFFFFF := hinner
  have hsecond := (hplaces 1 0xFFFFFFFF).2 (by rw [houter, hinner]; decide)
  obtain ⟨coordinate, -, hoffset⟩ := hsecond
  exact ⟨hrows, record, hlower, helements, coordinate, hoffset⟩

end TensorLowering
