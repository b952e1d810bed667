import Mathlib
import TensorLowering.Replay.Selection
import TensorLowering.Rule.Pointwise

set_option autoImplicit false

/-! # Operands that are stretched to a result

An operand fits a result if, matched from the right, each of its dimensions is that of the result or
one. The coordinates of the result then lead to elements of the operand, and a record that holds the
padded shape of the operand leads to the same elements (`Shape.Fits.operandOffset`). Operands that
broadcast fit the shape that they broadcast to, which gives the meaning of the record of an
elementwise function (`Operator.Binary.offsets_follow_broadcast`). -/

namespace TensorLowering

namespace Shape

/-- Matched from the right, each dimension of the operand is that of the result or one. -/
def Fits (operand result : Shape) : Prop :=
  ∃ leading matched, result = leading ++ matched ∧
    List.Forall₂ (fun d e => d = e ∨ d = 1) operand matched

section

variable {operand result : Shape} (h : operand.Fits result)

include h

theorem Fits.length_le : operand.length ≤ result.length := by
  obtain ⟨leading, matched, rfl, hmatched⟩ := h
  rw [hmatched.length_eq, List.length_append]
  exact Nat.le_add_left ..

theorem Fits.contains_operandCoordinate {coordinate : Coordinate}
    (hcontains : result.Contains coordinate) :
    operand.Contains (operand.operandCoordinate coordinate) := by
  obtain ⟨leading, matched, rfl, hmatched⟩ := h
  have hlength := length_of_contains hcontains
  rw [List.length_append] at hlength
  -- The indices that the operand does not see are those of the leading dimensions.
  have hdropped : coordinate.length - operand.length = leading.length := by
    rw [hlength, hmatched.length_eq, Nat.add_sub_cancel]
  rw [← List.take_append_drop leading.length coordinate, contains_append (by simp; omega)]
    at hcontains
  rw [operandCoordinate, hdropped]
  obtain ⟨-, hcontains⟩ := hcontains
  generalize coordinate.drop leading.length = indices at hcontains
  clear hlength hdropped
  induction hmatched generalizing indices with
  | nil => cases indices <;> trivial
  | @cons d e ds es hdim hdims ih => cases indices with
    | nil => exact hcontains.elim
    | cons i is =>
        obtain ⟨hi, his⟩ := hcontains
        refine ⟨?_, ih is his⟩
        show (if d = 1 then 0 else i) < d
        split
        · next hone => rw [hone]; exact Nat.zero_lt_one
        · next hone => exact (hdim.resolve_right hone) ▸ hi

theorem Fits.padLeft {rank : Nat} (hrank : result.length ≤ rank) :
    List.Forall₂ (fun d e => d = e ∨ d = 1) (operand.padLeft rank) (result.padLeft rank) := by
  have hoperand := h.length_le
  obtain ⟨leading, matched, rfl, hmatched⟩ := h
  have hinserted {inserted : Shape} :
      List.Forall₂ (fun d e => d = e ∨ d = 1) (List.replicate inserted.length 1) inserted := by
    induction inserted with
    | nil => exact .nil
    | cons e es ih => exact .cons (.inr rfl) ih
  have hcount : rank - operand.length =
      (List.replicate (rank - (leading ++ matched).length) 1 ++ leading).length := by
    have := hmatched.length_eq
    simp only [List.length_append, List.length_replicate] at hrank ⊢
    omega
  rw [Shape.padLeft, Shape.padLeft, hcount, ← List.append_assoc]
  exact List.rel_append hinserted hmatched

end

/-! ## Shapes that broadcast -/

theorem exists_matched_of_broadcastInnermost {ms ns ds : List Nat}
    (h : broadcastInnermost ms ns = some ds) :
    ∃ matched rest, ds = matched ++ rest ∧
      List.Forall₂ (fun d e => d = e ∨ d = 1) ms matched := by
  induction ms generalizing ns ds with
  | nil => exact ⟨[], ds, rfl, .nil⟩
  | cons m ms ih => cases ns with
    | nil =>
        cases h
        exact ⟨m :: ms, [], (List.append_nil _).symm, List.forall₂_same.2 fun _ _ => .inl rfl⟩
    | cons n ns =>
        rw [broadcastInnermost_cons, Option.bind_eq_some_iff] at h
        obtain ⟨d, hd, h⟩ := h
        obtain ⟨rest, hrest, rfl⟩ := Option.map_eq_some_iff.1 h
        obtain ⟨matched, rest, rfl, hmatched⟩ := ih hrest
        exact ⟨d :: matched, rest, rfl, .cons (broadcastDim_eq_some.1 hd).1 hmatched⟩

theorem fits_of_broadcast {a b result : Shape} (h : a.broadcast b = some result) :
    a.Fits result := by
  obtain ⟨innermost, hinnermost, rfl⟩ := Option.map_eq_some_iff.1 h
  obtain ⟨matched, rest, rfl, hmatched⟩ := exists_matched_of_broadcastInnermost hinnermost
  refine ⟨rest.reverse, matched.reverse, List.reverse_append, ?_⟩
  rw [← List.reverse_reverse a]
  exact List.rel_reverse hmatched

end Shape

/-! ## Records -/

section

variable {operand result : Shape} {axes resultAxes : AxisArray}

/-- A record that holds the padded shape of an operand leads to its elements. -/
theorem Shape.Fits.operandOffset (h : operand.Fits result)
    (haxes : axes.dims = operand.padLeft recordRank) (hrank : result.rank ≤ recordRank)
    {coordinate : Coordinate} (hcontains : result.Contains coordinate) :
    operand.Contains (operand.operandCoordinate coordinate) ∧
      Record.operandOffset axes coordinate = operand.offset (operand.operandCoordinate coordinate) ∧
      Record.operandOffset axes coordinate < operand.elements := by
  have hlength := Shape.length_of_contains hcontains
  have hwithin := h.contains_operandCoordinate hcontains
  have hoffset :=
    Record.operandOffset_eq haxes (hlength.symm ▸ h.length_le) (hlength.trans_le hrank)
  exact ⟨hwithin, hoffset, hoffset ▸ Shape.offset_lt hwithin⟩

theorem AxisArray.toNat_get (axes : AxisArray) (axis : Fin recordRank) :
    some (axes.get axis).toNat = axes.dims[axis.val]? := by
  simp [dims, Vector.get_eq_getElem]

/-- On each axis of a record, an operand that fits has the size of the result or one. -/
theorem Shape.Fits.fields (h : operand.Fits result)
    (haxes : axes.dims = operand.padLeft recordRank)
    (hresult : resultAxes.dims = result.padLeft recordRank) (hrank : result.rank ≤ recordRank)
    (axis : Fin recordRank) : resultAxes.get axis = axes.get axis ∨ axes.get axis = 1 := by
  have hfits := h.padLeft hrank
  rw [← haxes, ← hresult] at hfits
  have hleft : axis.val < axes.dims.length := by simp
  have hright : axis.val < resultAxes.dims.length := by simp
  have hdims := hfits.get hleft hright
  have hsize := axes.toNat_get axis
  have hresultSize := resultAxes.toNat_get axis
  rw [List.getElem?_eq_getElem hleft, Option.some.injEq] at hsize
  rw [List.getElem?_eq_getElem hright, Option.some.injEq] at hresultSize
  simp only [List.get_eq_getElem, ← hsize, ← hresultSize] at hdims
  rcases hdims with hsame | hone
  · exact .inl (UInt32.toNat_inj.1 hsame.symm)
  · exact .inr (UInt32.toNat_inj.1 hone)

end

/-- **Records of elementwise functions replay broadcasting.** Where the rule makes a record, each
    element of the output is made of the elements of the operands that broadcasting selects, and the
    record has them at their places, from nothing but its own shapes. The record counts the elements
    of the output, and on each of its axes an operand has the size of the output or one. -/
theorem Operator.Binary.offsets_follow_broadcast (graph : Graph) (oracle : Oracle)
    (op : Operator.Binary) (r : Record) (hlower : op.lower (graph.context oracle) = .ok r) :
    ∃ (record : Record.Binary) (a b output : Value), r = .binary record ∧
      graph.value? op.a = some a ∧ graph.value? op.b = some b ∧
      graph.value? op.output = some output ∧
      (∀ coordinate, output.shape.Contains coordinate →
        (a.shape.Contains (a.shape.operandCoordinate coordinate) ∧
          record.offsetA coordinate = a.shape.offset (a.shape.operandCoordinate coordinate) ∧
          record.offsetA coordinate < a.shape.elements) ∧
        (b.shape.Contains (b.shape.operandCoordinate coordinate) ∧
          record.offsetB coordinate = b.shape.offset (b.shape.operandCoordinate coordinate) ∧
          record.offsetB coordinate < b.shape.elements)) ∧
      record.outputShape.dims.elements = output.shape.elements ∧
      ∀ axis : Fin recordRank,
        (record.outputShape.get axis = record.shapeA.get axis ∨ record.shapeA.get axis = 1) ∧
        (record.outputShape.get axis = record.shapeB.get axis ∨ record.shapeB.get axis = 1) := by
  obtain ⟨_, _, _, record, rfl, h⟩ := op.exists_accepted_of_lower hlower
  obtain ⟨a, ha, rfl⟩ := Context.shape_eq_ok.1 h.a_eq
  obtain ⟨b, hb, rfl⟩ := Context.shape_eq_ok.1 h.b_eq
  obtain ⟨output, houtput, rfl⟩ := Context.shape_eq_ok.1 h.found_eq
  have hfitsA : a.shape.Fits output.shape := Shape.fits_of_broadcast h.broadcast_eq
  have hfitsB : b.shape.Fits output.shape := by
    refine Shape.fits_of_broadcast (b := a.shape) ?_
    rw [Shape.broadcast_comm, h.broadcast_eq]
  obtain ⟨-, hshapeA⟩ := Shape.dims_of_toAxisArray h.shapeA_eq
  obtain ⟨-, hshapeB⟩ := Shape.dims_of_toAxisArray h.shapeB_eq
  obtain ⟨hrank, hshape⟩ := Shape.dims_of_toAxisArray h.outputShape_eq
  refine ⟨record, a, b, output, rfl, ha, hb, houtput, fun coordinate hcoordinate => ?_, ?_,
    fun axis => ?_⟩
  · exact ⟨hfitsA.operandOffset hshapeA hrank hcoordinate,
      hfitsB.operandOffset hshapeB hrank hcoordinate⟩
  · rw [hshape, Shape.elements_padLeft]
  · exact ⟨hfitsA.fields hshapeA hshape hrank axis, hfitsB.fields hshapeB hshape hrank axis⟩

/-- A graph with a column of three rows, two rows of four columns, and the two tables that they make
    together. -/
def tablesGraph : Graph where
  values := #[{ name := none, shape := [3, 1], elementType := .float32 },
    { name := none, shape := [2, 1, 4], elementType := .float32 },
    { name := none, shape := [2, 3, 4], elementType := .float32 }]
  nodes := #[]

/-- The function that makes them. -/
def tablesProduct : Operator.Binary where
  a := 0
  b := 1
  output := 2
  function := .mul
  activation := .linear

/-- The last entry of the second table is made of the last entry of the column and the last of the
    second row. -/
theorem Operator.Binary.offsets_follow_broadcast_tables :
    let oracle : Oracle := fun value =>
      some { region := .data, start := .ofNat (96 * value.index), size := 96 }
    ∃ record, tablesProduct.lower (tablesGraph.context oracle) = .ok (.binary record) ∧
      record.shapeA.dims = [1, 1, 3, 1] ∧ record.shapeB.dims = [1, 2, 1, 4] ∧
      Shape.Contains [2, 3, 4] [1, 2, 3] ∧
      record.offsetA [1, 2, 3] = 2 ∧ record.offsetB [1, 2, 3] = 7 := by
  intro oracle
  obtain ⟨record, a, b, output, hrecord, ha, hb, houtput, hoffsets, -, -⟩ :=
    offsets_follow_broadcast tablesGraph oracle tablesProduct _ rfl
  cases hrecord
  cases ha
  cases hb
  cases houtput
  have hcontains : Shape.Contains [2, 3, 4] [1, 2, 3] := by decide
  obtain ⟨⟨-, hoffsetA, -⟩, -, hoffsetB, -⟩ := hoffsets [1, 2, 3] hcontains
  exact ⟨_, rfl, by decide, by decide, hcontains, hoffsetA, hoffsetB⟩

end TensorLowering
