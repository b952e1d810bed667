import Mathlib
import TensorLowering.Replay.Concatenation
import TensorLowering.Shape.Concatenation

set_option autoImplicit false

/-! # Rounds of chunks

What is written in rounds has the sum of the sizes of the chunks as many times as there are rounds
(`length_interleave`), and within a round the chunks lie side by side (`getElem?_interleave`). Parts
that lie side by side have a place for exactly the indices below the sum of their sizes
(`isSome_locate?`). -/

namespace TensorLowering

/-! ## Places along parts -/

/-- A place that is found lies past the parts before its own, within its own. -/
theorem locate?_eq_some {sizes : List Nat} {place : Nat} {found : PartIndex} :
    locate? sizes place = some found ↔
      place = (sizes.take found.part).sum + found.index ∧
        ∃ size, sizes[found.part]? = some size ∧ found.index < size := by
  induction sizes generalizing place found with
  | nil => simp [locate?]
  | cons size sizes ih =>
      unfold locate?
      obtain ⟨part, index⟩ := found
      cases part with
      | zero =>
          split
          · simp; omega
          · simp; omega
      | succ part =>
          split
          · next hlt => simp; omega
          · next hlt =>
              simp only [Option.map_eq_some_iff, PartIndex.mk.injEq, Nat.add_right_cancel_iff,
                List.take_succ_cons, List.sum_cons, List.getElem?_cons_succ]
              constructor
              · rintro ⟨⟨p, i⟩, h, rfl, rfl⟩
                obtain ⟨hplace, hsize⟩ := ih.1 h
                have hplace : place - size = (sizes.take p).sum + i := hplace
                exact ⟨by omega, hsize⟩
              · rintro ⟨hplace, hsize⟩
                have hplace : place - size = (sizes.take part).sum + index := by omega
                exact ⟨⟨part, index⟩, ih.2 ⟨hplace, hsize⟩, rfl, rfl⟩

theorem isSome_locate? {sizes : List Nat} {place : Nat} :
    (locate? sizes place).isSome ↔ place < sizes.sum := by
  induction sizes generalizing place with
  | nil => simp [locate?]
  | cons size sizes ih =>
      unfold locate?
      split
      · simp; omega
      · rw [Option.isSome_map, ih, List.sum_cons]
        omega

/-! ## How much is written -/

section

variable {α : Type} {rounds : Nat} {sizes : List Nat} {buffers : List (List α)}

theorem length_flatten_take (h : buffers.map List.length = sizes.map ((rounds + 1) * ·)) :
    (List.zipWith List.take sizes buffers).flatten.length = sizes.sum := by
  induction sizes generalizing buffers with
  | nil => simp
  | cons size sizes ih => cases buffers with
    | nil => cases h
    | cons buffer buffers =>
        rw [List.map_cons, List.map_cons, List.cons.injEq] at h
        have hfirst : size ≤ buffer.length := by
          rw [h.1]
          exact Nat.le_mul_of_pos_left size (Nat.succ_pos rounds)
        rw [List.zipWith_cons_cons, List.flatten_cons, List.length_append, ih h.2,
          List.length_take_of_le hfirst, List.sum_cons]

/-- A round leaves a chunk less for each of the rounds after it. -/
theorem map_length_drop (h : buffers.map List.length = sizes.map ((rounds + 1) * ·)) :
    (List.zipWith List.drop sizes buffers).map List.length = sizes.map (rounds * ·) := by
  induction sizes generalizing buffers with
  | nil => simp
  | cons size sizes ih => cases buffers with
    | nil => cases h
    | cons buffer buffers =>
        rw [List.map_cons, List.map_cons, List.cons.injEq] at h
        rw [List.zipWith_cons_cons, List.map_cons, List.map_cons, ih h.2, List.length_drop, h.1,
          Nat.add_mul, Nat.one_mul, Nat.add_sub_cancel]

/-- Buffers that hold a chunk for each round are read to their ends. -/
theorem length_interleave (h : buffers.map List.length = sizes.map (rounds * ·)) :
    (interleave rounds sizes buffers).length = rounds * sizes.sum := by
  induction rounds generalizing buffers with
  | zero => simp [interleave]
  | succ rounds ih =>
      rw [interleave, List.length_append, length_flatten_take h, ih (map_length_drop h),
        Nat.add_mul, Nat.one_mul, Nat.add_comm]

/-! ## What is written where -/

variable {part index size : Nat} {buffer : List α}

theorem sum_take_add_lt_sum (hsize : sizes[part]? = some size) (hindex : index < size) :
    (sizes.take part).sum + index < sizes.sum := by
  induction sizes generalizing part with
  | nil => cases hsize
  | cons first sizes ih => cases part with
    | zero =>
        cases hsize
        rw [List.take_zero, List.sum_nil, List.sum_cons]
        omega
    | succ part =>
        have hrest := ih hsize
        rw [List.take_succ_cons, List.sum_cons, List.sum_cons]
        omega

theorem getElem?_flatten_take (h : buffers.map List.length = sizes.map ((rounds + 1) * ·))
    (hsize : sizes[part]? = some size) (hbuffer : buffers[part]? = some buffer)
    (hindex : index < size) :
    (List.zipWith List.take sizes buffers).flatten[(sizes.take part).sum + index]? =
      buffer[index]? := by
  induction sizes generalizing buffers part with
  | nil => cases hsize
  | cons first sizes ih => cases buffers with
    | nil => cases h
    | cons firstBuffer buffers =>
        rw [List.map_cons, List.map_cons, List.cons.injEq] at h
        have hfirst : (firstBuffer.take first).length = first := by
          rw [List.length_take_of_le]
          rw [h.1]
          exact Nat.le_mul_of_pos_left first (Nat.succ_pos rounds)
        rw [List.zipWith_cons_cons, List.flatten_cons]
        cases part with
        | zero =>
            cases hsize
            cases hbuffer
            rw [List.take_zero, List.sum_nil, Nat.zero_add,
              List.getElem?_append_left (by omega), List.getElem?_take_of_lt hindex]
        | succ part =>
            rw [List.getElem?_cons_succ] at hsize hbuffer
            rw [List.take_succ_cons, List.sum_cons, List.getElem?_append_right (by omega), hfirst,
              ← ih h.2 hsize hbuffer]
            congr 1
            omega

/-- In each round, an item of the chunk of a buffer comes after the chunks of the buffers before,
    and is the item that as many rounds of chunks lead to in the buffer. -/
theorem getElem?_interleave {round : Nat}
    (h : buffers.map List.length = sizes.map (rounds * ·)) (hround : round < rounds)
    (hsize : sizes[part]? = some size) (hbuffer : buffers[part]? = some buffer)
    (hindex : index < size) :
    (interleave rounds sizes buffers)[round * sizes.sum + ((sizes.take part).sum + index)]? =
      buffer[round * size + index]? := by
  induction rounds generalizing buffers buffer round with
  | zero => cases hround
  | succ rounds ih =>
      rw [interleave]
      cases round with
      | zero =>
          -- What the first round writes comes first, and is read from the fronts of the buffers.
          have hfirst : (sizes.take part).sum + index <
              (List.zipWith List.take sizes buffers).flatten.length := by
            rw [length_flatten_take h]
            exact sum_take_add_lt_sum hsize hindex
          rw [Nat.zero_mul, Nat.zero_add, Nat.zero_mul, Nat.zero_add,
            List.getElem?_append_left hfirst, getElem?_flatten_take h hsize hbuffer hindex]
      | succ round =>
          -- A later round is an earlier one of what is left after the first.
          have hdrop : (List.zipWith List.drop sizes buffers)[part]? = some (buffer.drop size) := by
            simp [List.getElem?_zipWith, hsize, hbuffer]
          have hplace : (round + 1) * sizes.sum = sizes.sum + round * sizes.sum := by
            rw [Nat.add_mul, Nat.one_mul, Nat.add_comm]
          have hsource : (round + 1) * size + index = size + (round * size + index) := by
            rw [Nat.add_mul, Nat.one_mul]
            omega
          rw [hplace, hsource, Nat.add_assoc, List.getElem?_append_right
            (by rw [length_flatten_take h]; exact Nat.le_add_right ..), length_flatten_take h,
            Nat.add_sub_cancel_left, ih (map_length_drop h) (Nat.lt_of_succ_lt_succ hround) hdrop,
            List.getElem?_drop]

end

end TensorLowering
