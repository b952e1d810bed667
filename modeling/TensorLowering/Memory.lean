import Std.Data.HashMap.Lemmas
import TensorLowering.Id

set_option autoImplicit false

/-! # Memory ranges and their allocation

An earlier pass decides where each value lives. Lowering reads its decision through an *oracle*, a
partial map from values to ranges; `Allocation` is the finite map that serves as one. -/

namespace TensorLowering

/-- The regions of memory that a program works on. -/
inductive Region where
  | input
  | output
  | readOnly
  | data
deriving DecidableEq, Repr

/-- The region as messages show it. -/
def Region.text : Region → String
  | .input => "Input"
  | .output => "Output"
  | .readOnly => "Rdata"
  | .data => "Data"

/-- Consecutive bytes of a region. -/
structure MemoryRange where
  region : Region
  start : UInt32
  size : UInt32
deriving DecidableEq, Repr

namespace MemoryRange

/-- The first byte after the range. It need not be a word of 32 bits. -/
def stop (range : MemoryRange) : Nat := range.start.toNat + range.size.toNat

/-- The range as messages show it. -/
def text (range : MemoryRange) : String :=
  range.region.text ++ "[" ++ range.start.toNat.repr ++ ".." ++ range.stop.repr ++ "]"

end MemoryRange

/-- Where a value lives, if it was allocated. -/
abbrev Oracle := ValueId → Option MemoryRange

/-- The ranges of finitely many values. -/
structure Allocation where
  ranges : Std.HashMap ValueId MemoryRange

namespace Allocation

/-- Nothing is allocated. -/
def empty : Allocation := ⟨∅⟩

/-- Where a value lives. -/
def range? (allocation : Allocation) : Oracle := fun value => allocation.ranges[value]?

/-- Allocate a value, replacing the range that it may have had. -/
def insert (allocation : Allocation) (value : ValueId) (range : MemoryRange) : Allocation :=
  ⟨allocation.ranges.insert value range⟩

/-- The allocation of a list of pairs, of which later ones win. -/
def ofList (pairs : List (ValueId × MemoryRange)) : Allocation :=
  pairs.foldl (fun allocation pair => allocation.insert pair.1 pair.2) empty

/-- The number of values that are allocated. -/
def size (allocation : Allocation) : Nat := allocation.ranges.size

@[simp] theorem range?_empty (value : ValueId) : empty.range? value = none := by
  simp [range?, empty]

theorem range?_insert (allocation : Allocation) (value other : ValueId) (range : MemoryRange) :
    (allocation.insert value range).range? other =
      if value = other then some range else allocation.range? other := by
  simp [range?, insert, Std.HashMap.getElem?_insert]

end Allocation

end TensorLowering
