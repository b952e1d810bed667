import TensorLowering.Record

set_option autoImplicit false

/-! # What a concatenation record does

The interpreter writes the output of a concatenation in rounds. In each round it copies a chunk from
every input in turn, where the next round goes on reading. The chunks of an input have the same size
in every round. -/

namespace TensorLowering

/-- What is written in a number of rounds, each of which takes the next `sizes[i]` items off the
    front of each buffer. -/
def interleave {α : Type} : Nat → List Nat → List (List α) → List α
  | 0, _, _ => []
  | rounds + 1, sizes, buffers =>
      (List.zipWith List.take sizes buffers).flatten ++
        interleave rounds sizes (List.zipWith List.drop sizes buffers)

/-- The chunks that are next in the buffers after a number of rounds. -/
def chunksAfter {α : Type} (rounds : Nat) (sizes : List Nat) (buffers : List (List α)) :
    List (List α) :=
  List.zipWith (fun size buffer => (buffer.drop (rounds * size)).take size) sizes buffers

namespace Record.Concat

/-- The number of bytes that each input contributes in a round, in exact numbers. -/
def chunkSizes (record : Record.Concat) : List Nat :=
  record.sizes.map fun size => record.inner.toNat * size.toNat

/-- Whether the interpreter reads the byte at a position of an input: in one of the rounds, it is
    within the chunk of that input. -/
def Reads (record : Record.Concat) (input position : Nat) : Prop :=
  ∃ round < record.outer.toNat, ∃ chunk, record.chunkSizes[input]? = some chunk ∧
    round * chunk ≤ position ∧ position < (round + 1) * chunk

/-- What the record writes, given the contents of its inputs. -/
def replay {α : Type} (record : Record.Concat) (buffers : List (List α)) : List α :=
  interleave record.outer.toNat record.chunkSizes buffers

end Record.Concat

end TensorLowering
