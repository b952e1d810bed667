import TensorLowering.Arithmetic.Fault

set_option autoImplicit false

/-! # Identifiers

Nodes and values of a graph are named by identifiers that are issued densely from zero. Each sort of
identifier has its own type, so that an operand cannot be mistaken for a node. The greatest 32-bit
word is not an identifier; asking for it faults. -/

namespace TensorLowering

/-- What an identifier names. -/
inductive IdSort where
  | node
  | value
deriving DecidableEq, Repr

/-- The number of identifiers of a sort. -/
def idLimit : Nat := 0xffffffff

/-- The name of a node or a value. -/
structure Id (sort : IdSort) where
  index : Nat
  index_lt : index < idLimit
deriving DecidableEq

/-- The name of a node. -/
abbrev NodeId := Id .node

/-- The name of a value. -/
abbrev ValueId := Id .value

namespace Id

variable {sort : IdSort}

/-- The identifier with an index. -/
def ofIndex (index : Nat) : Checked (Id sort) :=
  if h : index < idLimit then .ok ⟨index, h⟩ else .error .idOverflow

/-- The identifier whose index is a word. It is stored as the word after that, which has to
    exist. -/
def ofUInt32 (word : UInt32) : Checked (Id sort) :=
  if h : word.toNat + 1 < UInt32.size then .ok ⟨word.toNat, Nat.lt_of_succ_lt_succ h⟩
  else .error .idOverflow

/-- The word that the identifier is stored as: one more than its index, so that no identifier is
    stored as zero. -/
def stored (id : Id sort) : UInt32 := UInt32.ofNatLT (id.index + 1) (Nat.succ_lt_succ id.index_lt)

/-- Identifiers are ordered by index. -/
instance : Ord (Id sort) := ⟨fun a b => compare a.index b.index⟩

instance : Hashable (Id sort) := ⟨fun id => hash id.index⟩

instance : Inhabited (Id sort) := ⟨⟨0, by decide⟩⟩

/-- A numeral is the identifier with that index. -/
instance (index : Nat) : OfNat (Id sort) index :=
  ⟨⟨index % idLimit, Nat.mod_lt index (by decide)⟩⟩

/-- The identifier as messages show it. -/
def text (id : Id sort) : String := id.index.repr

/-- The label that tells the sorts apart where an identifier stands alone. -/
def label : IdSort → String
  | .node => "NodeId"
  | .value => "ValueId"

/-- The identifier with its sort. -/
def labelled (id : Id sort) : String := label sort ++ "(" ++ id.text ++ ")"

@[simp] theorem ofIndex_eq_ok {index : Nat} {id : Id sort} :
    ofIndex index = .ok id ↔ id.index = index := by
  unfold ofIndex
  split
  · next h =>
      constructor
      · intro heq; cases heq; rfl
      · intro heq; cases id; cases heq; rfl
  · next h =>
      simp only [reduceCtorEq, false_iff]
      rintro rfl
      exact h id.index_lt

theorem ext_index {a b : Id sort} (h : a.index = b.index) : a = b := by
  cases a; cases b; cases h; rfl

theorem ofIndex_of_lt {index : Nat} (h : index < idLimit) :
    (ofIndex index : Checked (Id sort)) = .ok ⟨index, h⟩ :=
  dif_pos h

theorem ofIndex_of_le {index : Nat} (h : idLimit ≤ index) :
    (ofIndex index : Checked (Id sort)) = .error .idOverflow :=
  dif_neg (Nat.not_lt.2 h)

/-! ## Identifiers and words -/

theorem stored_ne_zero (id : Id sort) : id.stored ≠ 0 := by
  intro h
  have hword : id.index + 1 = 0 := congrArg UInt32.toNat h
  exact Nat.succ_ne_zero _ hword

theorem stored_injective {a b : Id sort} (h : a.stored = b.stored) : a = b := by
  have hword : a.index + 1 = b.index + 1 := congrArg UInt32.toNat h
  exact ext_index (Nat.succ.inj hword)

/-- A number of entries that identifiers suffice for is a word. -/
theorem toNat_ofNat {count : Nat} (h : count ≤ idLimit) : (UInt32.ofNat count).toNat = count := by
  rw [UInt32.toNat_ofNat']
  exact Nat.mod_eq_of_lt (Nat.lt_succ_of_le h)

/-- The cast to a word does not change which identifier is next. -/
theorem ofUInt32_ofNat {count : Nat} (h : count ≤ idLimit) :
    (ofUInt32 (UInt32.ofNat count) : Checked (Id sort)) = ofIndex count := by
  have hword : count + 1 < UInt32.size ↔ count < idLimit := Nat.succ_lt_succ_iff
  unfold ofUInt32 ofIndex
  simp only [toNat_ofNat h]
  by_cases hlt : count < idLimit
  · rw [dif_pos hlt, dif_pos (hword.2 hlt)]
  · rw [dif_neg hlt, dif_neg (mt hword.1 hlt)]

end Id

end TensorLowering
