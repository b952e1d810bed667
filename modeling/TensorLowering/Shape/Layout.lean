import TensorLowering.Shape.Basic

set_option autoImplicit false

/-! # Row-major layout

A coordinate names an element of a tensor by an index per dimension. Tensors are stored with the
last index running fastest. Between the coordinates within the bounds of a shape and the offsets
below its number of elements, `offset` and `coordinate` are inverse to each other
(`coordinate_offset`, `offset_coordinate`). -/

namespace TensorLowering

/-- An index for each dimension of a tensor. -/
abbrev Coordinate := List Nat

namespace Shape

/-- Whether the coordinate has an index for each dimension and each is within its dimension. -/
def Contains : Shape → Coordinate → Prop
  | [], [] => True
  | d :: ds, i :: is => i < d ∧ Contains ds is
  | _, _ => False

/-- The position of an element in row-major storage. -/
def offset : Shape → Coordinate → Nat
  | _ :: ds, i :: is => i * elements ds + offset ds is
  | _, _ => 0

/-- The coordinate of the element at a position in row-major storage. -/
def coordinate : Shape → Nat → Coordinate
  | [], _ => []
  | _ :: ds, position => position / elements ds :: coordinate ds (position % elements ds)

instance decidableContains : (shape : Shape) → (indices : Coordinate) →
    Decidable (shape.Contains indices)
  | [], [] => isTrue trivial
  | _ :: ds, _ :: is =>
      have := decidableContains ds is
      inferInstanceAs (Decidable (_ ∧ _))
  | [], _ :: _ => isFalse id
  | _ :: _, [] => isFalse id

/-- An entry of one of several blocks comes before the end of the last. -/
theorem mul_add_lt_mul {block blocks entry size : Nat} (hblock : block < blocks)
    (hentry : entry < size) : block * size + entry < blocks * size :=
  calc block * size + entry < block * size + size := Nat.add_lt_add_left hentry _
    _ = (block + 1) * size := by rw [Nat.add_mul, Nat.one_mul]
    _ ≤ blocks * size := Nat.mul_le_mul_right _ hblock

/-- A coordinate within the bounds of a shape has an offset within its storage. -/
theorem offset_lt {shape : Shape} {coordinate : Coordinate} (h : shape.Contains coordinate) :
    shape.offset coordinate < shape.elements := by
  induction shape generalizing coordinate with
  | nil =>
      cases coordinate with
      | nil => simp [offset]
      | cons i is => exact h.elim
  | cons d ds ih =>
      cases coordinate with
      | nil => exact h.elim
      | cons i is =>
          rw [offset, elements_cons]
          exact mul_add_lt_mul h.1 (ih h.2)

theorem length_of_contains {shape : Shape} {coordinate : Coordinate}
    (h : shape.Contains coordinate) : coordinate.length = shape.length := by
  induction shape generalizing coordinate with
  | nil => cases coordinate with
    | nil => rfl
    | cons i is => exact h.elim
  | cons d ds ih => cases coordinate with
    | nil => exact h.elim
    | cons i is => simpa using ih h.2

@[simp] theorem length_coordinate (shape : Shape) (position : Nat) :
    (shape.coordinate position).length = shape.length := by
  induction shape generalizing position with
  | nil => rfl
  | cons d ds ih => rw [coordinate, List.length_cons, ih, List.length_cons]

/-- The index on an axis is within the dimension of that axis. -/
theorem getD_lt_of_contains {shape : Shape} {coordinate : Coordinate}
    (h : shape.Contains coordinate) {axis : Nat} (haxis : axis < shape.length) :
    coordinate.getD axis 0 < shape.getD axis 1 := by
  induction shape generalizing coordinate axis with
  | nil => exact absurd haxis (Nat.not_lt_zero axis)
  | cons d ds ih => cases coordinate with
    | nil => exact h.elim
    | cons i is => cases axis with
      | zero => exact h.1
      | succ axis => exact ih h.2 (Nat.lt_of_succ_lt_succ haxis)

/-- Indices that are each within their dimension are a coordinate. -/
theorem contains_map {α : Type} {items : List α} {dimension index : α → Nat}
    (h : ∀ item ∈ items, index item < dimension item) :
    Contains (items.map dimension) (items.map index) := by
  induction items with
  | nil => trivial
  | cons item items ih =>
      exact ⟨h item List.mem_cons_self,
        ih fun other hother => h other (List.mem_cons_of_mem _ hother)⟩

/-- Each offset within the storage of a shape is of a coordinate within its bounds. -/
theorem contains_coordinate {shape : Shape} {position : Nat} (h : position < shape.elements) :
    shape.Contains (shape.coordinate position) := by
  induction shape generalizing position with
  | nil => trivial
  | cons d ds ih =>
      rw [elements_cons, Nat.mul_comm] at h
      have hpos : 0 < elements ds := Nat.pos_of_ne_zero fun h0 => by simp [h0] at h
      exact ⟨Nat.div_lt_of_lt_mul h, ih (Nat.mod_lt _ hpos)⟩

theorem offset_coordinate {shape : Shape} {position : Nat} (h : position < shape.elements) :
    shape.offset (shape.coordinate position) = position := by
  induction shape generalizing position with
  | nil => simpa [offset, eq_comm] using h
  | cons d ds ih =>
      rw [elements_cons, Nat.mul_comm] at h
      have hpos : 0 < elements ds := Nat.pos_of_ne_zero fun h0 => by simp [h0] at h
      rw [coordinate, offset, ih (Nat.mod_lt _ hpos), Nat.mul_comm, Nat.div_add_mod]

theorem coordinate_offset {shape : Shape} {coordinate : Coordinate}
    (h : shape.Contains coordinate) : shape.coordinate (shape.offset coordinate) = coordinate := by
  induction shape generalizing coordinate with
  | nil => cases coordinate with
    | nil => rfl
    | cons i is => exact h.elim
  | cons d ds ih => cases coordinate with
    | nil => exact h.elim
    | cons i is =>
        have hlt := offset_lt h.2
        have hpos : 0 < elements ds := Nat.lt_of_le_of_lt (Nat.zero_le _) hlt
        rw [offset, Shape.coordinate, Nat.mul_comm, Nat.mul_add_div hpos, Nat.mul_add_mod,
          Nat.div_eq_of_lt hlt, Nat.mod_eq_of_lt hlt, Nat.add_zero, ih h.2]

/-- The leading indices of a coordinate count blocks of the size of the remaining dimensions. -/
theorem offset_append {s t : Shape} {c d : Coordinate} (h : c.length = s.length) :
    (s ++ t).offset (c ++ d) = s.offset c * t.elements + t.offset d := by
  induction s generalizing c with
  | nil => cases c with
    | nil => simp [offset]
    | cons i is => cases h
  | cons n ns ih => cases c with
    | nil => cases h
    | cons i is =>
        rw [List.cons_append, List.cons_append, offset, offset, ih (by simpa using h),
          elements_append, Nat.add_mul, Nat.mul_assoc, Nat.add_assoc]

theorem contains_append {s t : Shape} {c d : Coordinate} (h : c.length = s.length) :
    (s ++ t).Contains (c ++ d) ↔ s.Contains c ∧ t.Contains d := by
  induction s generalizing c with
  | nil => cases c with
    | nil => simp [Contains]
    | cons i is => cases h
  | cons n ns ih => cases c with
    | nil => cases h
    | cons i is =>
        rw [List.cons_append, List.cons_append, Contains, Contains, ih (by simpa using h),
          and_assoc]

/-- A coordinate has indices for the dimensions before one in the middle, for that one and for those
    after it. -/
theorem exists_middle_of_contains {s t : Shape} {n : Nat} {coordinate : Coordinate}
    (h : (s ++ n :: t).Contains coordinate) :
    ∃ before i after, coordinate = before ++ i :: after ∧ before.length = s.length ∧
      s.Contains before ∧ i < n ∧ t.Contains after := by
  induction s generalizing coordinate with
  | nil => cases coordinate with
    | nil => exact h.elim
    | cons i is => exact ⟨[], i, is, rfl, rfl, trivial, h.1, h.2⟩
  | cons d ds ih => cases coordinate with
    | nil => exact h.elim
    | cons j js =>
        obtain ⟨before, i, after, rfl, hlength, hbefore, hi, hafter⟩ := ih h.2
        exact ⟨j :: before, i, after, rfl, congrArg (· + 1) hlength, ⟨h.1, hbefore⟩, hi, hafter⟩

theorem contains_middle {s t : Shape} {n i : Nat} {before after : Coordinate}
    (hbefore : s.Contains before) (hi : i < n) (hafter : t.Contains after) :
    (s ++ n :: t).Contains (before ++ i :: after) :=
  (contains_append (length_of_contains hbefore)).2 ⟨hbefore, hi, hafter⟩

/-- The index for a dimension in the middle counts blocks of the size of the dimensions after it. -/
theorem offset_middle {s t : Shape} {n i : Nat} {before after : Coordinate}
    (h : before.length = s.length) :
    (s ++ n :: t).offset (before ++ i :: after) =
      (s.offset before * n + i) * t.elements + t.offset after := by
  rw [offset_append h, elements_cons, offset, Nat.add_mul, Nat.mul_assoc, Nat.add_assoc]

/-- Leading dimensions of size one do not move an element. -/
theorem offset_replicate_one (n : Nat) (shape : Shape) (coordinate : Coordinate) :
    offset (List.replicate n 1 ++ shape) (List.replicate n 0 ++ coordinate) =
      shape.offset coordinate := by
  induction n with
  | zero => rfl
  | succ n ih =>
      rw [List.replicate_succ, List.replicate_succ, List.cons_append, List.cons_append, offset, ih,
        Nat.zero_mul, Nat.zero_add]

/-- The only index of a leading dimension of size one is zero. -/
theorem contains_replicate_one (n : Nat) {shape : Shape} {coordinate : Coordinate}
    (h : shape.Contains coordinate) :
    Contains (List.replicate n 1 ++ shape) (List.replicate n 0 ++ coordinate) := by
  induction n with
  | zero => exact h
  | succ n ih => exact ⟨Nat.zero_lt_one, ih⟩

theorem coordinate_replicate_one (n : Nat) {shape : Shape} {position : Nat}
    (h : position < shape.elements) :
    coordinate (List.replicate n 1 ++ shape) position =
      List.replicate n 0 ++ shape.coordinate position := by
  have hcontains := contains_replicate_one n (contains_coordinate h)
  have hoffset := offset_replicate_one n shape (shape.coordinate position)
  rw [offset_coordinate h] at hoffset
  rw [← coordinate_offset hcontains, hoffset]

end Shape

/-! ## Stored tensors -/

/-- A tensor in row-major storage, where each element takes `width` consecutive items. -/
structure StoredTensor (α : Type) (width : Nat) where
  shape : Shape
  items : List α
  length_items : items.length = shape.elements * width

/-- One of the items of the element at a coordinate. -/
def StoredTensor.item? {α : Type} {width : Nat} (tensor : StoredTensor α width)
    (coordinate : Coordinate) (index : Nat) : Option α :=
  tensor.items[tensor.shape.offset coordinate * width + index]?

end TensorLowering
