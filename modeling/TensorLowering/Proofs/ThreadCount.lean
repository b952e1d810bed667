import Mathlib.Data.List.Induction
import Mathlib.Data.Nat.Digits.Defs
import TensorLowering.Workers

set_option autoImplicit false

/-! # Reading a number of threads

A text asks for a number of threads by a decimal numeral. One plus sign may stand in front of the
numeral, zeros may lead it, and blanks may surround it. `AsksFor` says this by the places that the
digits have, and it comes to the same that the numeral is what is written for the number, with zeros
before it (`isNumeral_iff_written`). A text is read exactly if it asks for a number that is a word.
The number is then brought into a range that is never empty, so that reading is never abandoned
(`threadsOfText?_reads_numerals`). -/

namespace TensorLowering

/-! ## Numerals -/

/-- The number that a decimal digit stands for. -/
def digitValue (digit : Char) : Nat := digit.toNat - '0'.toNat

/-- One or more decimal digits that denote a number. The last of them counts ones, and each other one
    counts ten times as much as the next. -/
structure IsNumeral (digits : List Char) (n : Nat) : Prop where
  ne_nil : digits ≠ []
  isDigit : ∀ c ∈ digits, c.isDigit = true
  value_eq : Nat.ofDigits 10 (digits.reverse.map digitValue) = n

/-- A numeral, or one after a plus sign. -/
def IsSignedNumeral (text : List Char) (n : Nat) : Prop :=
  ∃ sign digits, text = sign ++ digits ∧ (sign = [] ∨ sign = ['+']) ∧ IsNumeral digits n

/-- The text asks for a number of threads, by a numeral that blanks may surround. -/
def AsksFor (text : String) (n : Nat) : Prop :=
  ∃ before numeral after, text.toList = before ++ numeral ++ after ∧
    (∀ c ∈ before, isBlank c = true) ∧ (∀ c ∈ after, isBlank c = true) ∧
    IsSignedNumeral numeral n

theorem numeralValue_append_singleton (digits : List Char) (c : Char) :
    numeralValue (digits ++ [c]) = 10 * numeralValue digits + digitValue c := by
  simp [numeralValue, digitValue]

/-- Reading digits from the left gives each the weight of its place. -/
theorem numeralValue_eq_ofDigits (digits : List Char) :
    numeralValue digits = Nat.ofDigits 10 (digits.reverse.map digitValue) := by
  induction digits using List.reverseRecOn with
  | nil => rfl
  | append_singleton digits c ih =>
      rw [numeralValue_append_singleton, ih, List.reverse_append, List.map_append,
        List.reverse_singleton, List.map_singleton, List.singleton_append, Nat.ofDigits_cons,
        Nat.add_comm]

theorem isNumeral_iff {digits : List Char} {n : Nat} :
    IsNumeral digits n ↔
      digits ≠ [] ∧ digits.all Char.isDigit = true ∧ numeralValue digits = n := by
  rw [numeralValue_eq_ofDigits, List.all_eq_true]
  refine ⟨?_, ?_⟩
  · intro h
    exact ⟨h.ne_nil, h.isDigit, h.value_eq⟩
  · intro ⟨hne, hdigits, hvalue⟩
    exact ⟨hne, hdigits, hvalue⟩

theorem digitValue_lt {c : Char} (h : c.isDigit = true) : digitValue c < 10 := by
  obtain ⟨-, hle⟩ := Char.isDigit_iff_toNat.1 h
  have hnine : '9'.toNat = 57 := rfl
  have hzero : '0'.toNat = 48 := rfl
  rw [digitValue]
  omega

/-- A digit is what is written for its value. -/
theorem toDigits_digitValue {c : Char} (h : c.isDigit = true) :
    Nat.toDigits 10 (digitValue c) = [c] := by
  have hlt := digitValue_lt h
  have hle : '0'.toNat ≤ c.toNat := (Char.isDigit_iff_toNat.1 h).1
  have hchar : (digitValue c).digitChar = c := by
    rw [← Char.toNat_inj, Nat.toNat_digitChar_of_lt_ten hlt]
    exact Nat.add_sub_cancel' hle
  rw [Nat.toDigits_of_lt_base hlt, hchar]

/-- Digits are what is written for their value, after some zeros. -/
theorem exists_eq_zeros_append {digits : List Char} (hne : digits ≠ [])
    (hdigits : ∀ c ∈ digits, c.isDigit = true) :
    ∃ zeros, digits = List.replicate zeros '0' ++ Nat.toDigits 10 (numeralValue digits) := by
  -- A digit at the end extends what is written for the number before it, unless that is zero.
  induction digits using List.reverseRecOn with
  | nil => exact absurd rfl hne
  | append_singleton digits c ih =>
      have hc : c.isDigit = true := hdigits c (by simp)
      have hrest : ∀ d ∈ digits, d.isDigit = true := by
        intro d hd
        exact hdigits d (List.mem_append_left [c] hd)
      rw [numeralValue_append_singleton]
      rcases List.eq_nil_or_concat digits with rfl | ⟨_, _, hconcat⟩
      · refine ⟨0, ?_⟩
        have hnil : 10 * numeralValue [] + digitValue c = digitValue c := Nat.zero_add _
        rw [hnil, toDigits_digitValue hc]
        rfl
      · obtain ⟨zeros, hzeros⟩ := ih (by simp [hconcat]) hrest
        rcases Nat.eq_zero_or_pos (numeralValue digits) with hzero | hpos
        · refine ⟨zeros + 1, ?_⟩
          rw [hzero, Nat.toDigits_zero] at hzeros
          rw [hzero, Nat.mul_zero, Nat.zero_add, toDigits_digitValue hc,
            List.replicate_succ', ← hzeros]
        · refine ⟨zeros, ?_⟩
          rw [← Nat.toDigits_append_toDigits (by decide) hpos (digitValue_lt hc),
            toDigits_digitValue hc, ← List.append_assoc, ← hzeros]

/-- A numeral of a number is what is written for it, after some zeros. -/
theorem isNumeral_iff_written {digits : List Char} {n : Nat} :
    IsNumeral digits n ↔ ∃ zeros, digits = List.replicate zeros '0' ++ n.repr.toList := by
  rw [Nat.toList_repr]
  refine ⟨?_, ?_⟩
  · intro h
    obtain ⟨zeros, hzeros⟩ := exists_eq_zeros_append h.ne_nil h.isDigit
    rw [(isNumeral_iff.1 h).2.2] at hzeros
    exact ⟨zeros, hzeros⟩
  · intro ⟨zeros, hzeros⟩
    have hvalue : numeralValue digits = Nat.ofDigitChars 10 digits 0 := rfl
    refine isNumeral_iff.2 ⟨?_, List.all_eq_true.2 ?_, ?_⟩
    · rw [hzeros]
      exact List.append_ne_nil_of_right_ne_nil _ Nat.toDigits_ne_nil
    · intro c hc
      rw [hzeros] at hc
      rcases List.mem_append.1 hc with hc | hc
      · rw [(List.mem_replicate.1 hc).2]
        decide
      · exact Nat.isDigit_of_mem_toDigits (by decide) (by decide) hc
    · rw [hvalue, hzeros, Nat.ofDigitChars_append, Nat.ofDigitChars_replicate_zero, Nat.mul_zero,
        Nat.ofDigitChars_toDigits (by decide) (by decide)]

/-! ## Reading a numeral -/

section

variable {text : List Char} {n m : Nat}

theorem isSignedNumeral_plus {rest : List Char} :
    IsSignedNumeral ('+' :: rest) n ↔ IsNumeral rest n := by
  refine ⟨?_, ?_⟩
  · intro ⟨sign, digits, heq, hsign, hdigits⟩
    rcases hsign with rfl | rfl
    · -- A plus sign is no digit.
      rw [List.nil_append] at heq
      have hplus : '+'.isDigit = true := hdigits.isDigit '+' (heq ▸ List.mem_cons_self)
      exact absurd hplus (by decide)
    · cases heq
      exact hdigits
  · intro h
    exact ⟨['+'], rest, rfl, .inr rfl, h⟩

theorem isSignedNumeral_of_ne_plus (h : ∀ rest, text ≠ '+' :: rest) :
    IsSignedNumeral text n ↔ IsNumeral text n := by
  refine ⟨?_, ?_⟩
  · intro ⟨sign, digits, heq, hsign, hdigits⟩
    rcases hsign with rfl | rfl
    · rw [heq]
      exact hdigits
    · exact absurd heq (h digits)
  · intro hdigits
    exact ⟨[], text, rfl, .inl rfl, hdigits⟩

/-- The reading of digits without a sign. -/
theorem ite_numeral_eq_some {digits : List Char} :
    (if digits ≠ [] ∧ digits.all Char.isDigit ∧ numeralValue digits < Word.size then
        some (numeralValue digits)
      else none) = some n ↔ n < Word.size ∧ IsNumeral digits n := by
  rw [isNumeral_iff]
  split
  · next h =>
      obtain ⟨hne, hdigits, hlt⟩ := h
      rw [Option.some.injEq]
      refine ⟨?_, fun h => h.2.2.2⟩
      intro hvalue
      exact ⟨hvalue ▸ hlt, hne, hdigits, hvalue⟩
  · next h =>
      simp only [reduceCtorEq, false_iff]
      intro ⟨hlt, hne, hdigits, hvalue⟩
      exact h ⟨hne, hdigits, hvalue ▸ hlt⟩

/-- What remains of a text without its plus sign decides which number it is a numeral of, and is
    what is read. -/
theorem exists_digits (text : List Char) :
    ∃ digits, (∀ n, IsSignedNumeral text n ↔ IsNumeral digits n) ∧
      wordOfText? text =
        if digits ≠ [] ∧ digits.all Char.isDigit ∧ numeralValue digits < Word.size then
          some (numeralValue digits)
        else none := by
  by_cases hplus : ∃ rest, text = '+' :: rest
  · obtain ⟨rest, rfl⟩ := hplus
    exact ⟨rest, fun n => isSignedNumeral_plus, rfl⟩
  · have hplus : ∀ rest, text ≠ '+' :: rest := fun rest h => hplus ⟨rest, h⟩
    refine ⟨text, fun n => isSignedNumeral_of_ne_plus hplus, ?_⟩
    rw [wordOfText?]
    exact hplus

/-- A text is read as a word exactly if it is a numeral of that word, or one after a plus sign. -/
theorem wordOfText?_eq_some :
    wordOfText? text = some n ↔ n < Word.size ∧ IsSignedNumeral text n := by
  obtain ⟨digits, hsigned, hread⟩ := exists_digits text
  rw [hread, hsigned, ite_numeral_eq_some]

/-- A text is a numeral of one number at most. -/
theorem IsSignedNumeral.eq (hn : IsSignedNumeral text n) (hm : IsSignedNumeral text m) :
    n = m := by
  obtain ⟨digits, hsigned, -⟩ := exists_digits text
  exact ((hsigned n).1 hn).value_eq.symm.trans ((hsigned m).1 hm).value_eq

end

/-! ## Removing blanks -/

theorem not_isBlank_of_isDigit {c : Char} (h : c.isDigit = true) : isBlank c = false := by
  obtain ⟨hge, hle⟩ := Char.isDigit_iff_toNat.1 h
  have hzero : '0'.toNat = 48 := rfl
  have hnine : '9'.toNat = 57 := rfl
  rw [Bool.eq_false_iff]
  simp only [isBlank, blankRanges, List.any_cons, List.any_nil, ne_eq, Bool.or_eq_true,
    Bool.and_eq_true, decide_eq_true_eq, Bool.false_eq_true, or_false]
  omega

section

variable {numeral : List Char} {n : Nat}

theorem IsSignedNumeral.ne_nil (h : IsSignedNumeral numeral n) : numeral ≠ [] := by
  obtain ⟨sign, digits, rfl, -, hdigits⟩ := h
  exact List.append_ne_nil_of_right_ne_nil _ hdigits.ne_nil

theorem IsSignedNumeral.not_isBlank (h : IsSignedNumeral numeral n) :
    ∀ c ∈ numeral, isBlank c = false := by
  intro c hc
  obtain ⟨sign, digits, rfl, hsign, hdigits⟩ := h
  rcases List.mem_append.1 hc with hc | hc
  · rcases hsign with rfl | rfl
    · cases hc
    · rw [List.mem_singleton.1 hc]
      decide
  · exact not_isBlank_of_isDigit (hdigits.isDigit c hc)

/-- The numeral by which a text asks is what remains of the text without its blanks. -/
theorem asksFor_iff {text : String} :
    AsksFor text n ↔ IsSignedNumeral (trimBlanks text.toList) n := by
  refine ⟨?_, ?_⟩
  · intro ⟨before, numeral, after, htext, hbefore, hafter, hnumeral⟩
    have htrim : trimBlanks text.toList = numeral := by
      rw [htext]
      refine trimBlanks_append hbefore hafter hnumeral.ne_nil ?_ ?_
      · intro c hc
        exact hnumeral.not_isBlank c (List.mem_of_head? hc)
      · intro c hc
        exact hnumeral.not_isBlank c (List.mem_of_getLast? hc)
    rw [htrim]
    exact hnumeral
  · intro hnumeral
    obtain ⟨before, after, htext, hbefore, hafter⟩ := exists_eq_append_trimBlanks text.toList
    exact ⟨before, _, after, htext, hbefore, hafter, hnumeral⟩

/-- A text asks for a number by what is written for it, with zeros and a plus sign before it. -/
theorem asksFor_iff_written {text : String} :
    AsksFor text n ↔ ∃ before sign zeros after,
      text.toList = before ++ (sign ++ (List.replicate zeros '0' ++ n.repr.toList)) ++ after ∧
      (∀ c ∈ before, isBlank c = true) ∧ (∀ c ∈ after, isBlank c = true) ∧
      (sign = [] ∨ sign = ['+']) := by
  refine ⟨?_, ?_⟩
  · intro ⟨before, numeral, after, htext, hbefore, hafter, hnumeral⟩
    obtain ⟨sign, digits, rfl, hsign, hdigits⟩ := hnumeral
    obtain ⟨zeros, rfl⟩ := isNumeral_iff_written.1 hdigits
    exact ⟨before, sign, zeros, after, htext, hbefore, hafter, hsign⟩
  · intro ⟨before, sign, zeros, after, htext, hbefore, hafter, hsign⟩
    refine ⟨before, _, after, htext, hbefore, hafter, ?_⟩
    exact ⟨sign, _, rfl, hsign, isNumeral_iff_written.2 ⟨zeros, rfl⟩⟩

/-- What is written for a number asks for it, with any blanks around it. -/
theorem asksFor_repr {before after : String} (hbefore : ∀ c ∈ before.toList, isBlank c = true)
    (hafter : ∀ c ∈ after.toList, isBlank c = true) (n : Nat) :
    AsksFor (before ++ n.repr ++ after) n := by
  refine asksFor_iff_written.2 ⟨before.toList, [], 0, after.toList, ?_, hbefore, hafter, .inl rfl⟩
  simp

/-- A text asks for one number at most. -/
theorem AsksFor.eq {text : String} {m : Nat} (hn : AsksFor text n) (hm : AsksFor text m) :
    n = m :=
  (asksFor_iff.1 hn).eq (asksFor_iff.1 hm)

end

/-! ## The number of threads -/

section

variable {text : String} {limit : Nat}

/-- The range that a number is brought into starts at one and is never empty. -/
theorem threadsOfText?_eq (text : String) (limit : Nat) :
    threadsOfText? text limit =
      .ok ((wordOfText? (trimBlanks text.toList)).map fun n => max 1 (min n (max limit 1))) := by
  unfold threadsOfText?
  rcases wordOfText? (trimBlanks text.toList) with _ | requested
  · rfl
  · have hclamp : Word.clamp requested 1 (max limit 1) =
        .ok (max 1 (min requested (max limit 1))) :=
      Word.clamp_eq_ok.2 ⟨le_max_right limit 1, rfl⟩
    simp only [hclamp]
    rfl

/-- A text that asks for a word gives that number, brought into the range. -/
theorem threadsOfText?_eq_some {threads : Nat} :
    threadsOfText? text limit = .ok (some threads) ↔
      ∃ n, n < Word.size ∧ AsksFor text n ∧ threads = max 1 (min n (max limit 1)) := by
  rw [threadsOfText?_eq, Except.ok.injEq, Option.map_eq_some_iff]
  refine exists_congr fun n => ?_
  rw [wordOfText?_eq_some, ← asksFor_iff, and_assoc, eq_comm (a := threads)]

/-- Every other text gives nothing. -/
theorem threadsOfText?_eq_none :
    threadsOfText? text limit = .ok none ↔ ∀ n, AsksFor text n → Word.size ≤ n := by
  rw [threadsOfText?_eq, Except.ok.injEq, Option.map_eq_none_iff, Option.eq_none_iff_forall_ne_some]
  simp only [ne_eq, wordOfText?_eq_some, ← asksFor_iff, not_and, ← not_lt]
  exact forall_congr' fun n => imp_not_comm

/-- A text that asks for `n` gives `n` brought into the range if it is a word, and else nothing. -/
theorem AsksFor.threadsOfText?_eq {n : Nat} (h : AsksFor text n) (limit : Nat) :
    threadsOfText? text limit =
      .ok (if n < Word.size then some (max 1 (min n (max limit 1))) else none) := by
  split
  · next hlt => exact threadsOfText?_eq_some.2 ⟨n, hlt, h, rfl⟩
  · next hlt =>
      refine threadsOfText?_eq_none.2 ?_
      intro m hm
      rw [← h.eq hm]
      exact not_lt.1 hlt

/-- A text that asks for no more than another one that is read is read, and gives no more. -/
theorem AsksFor.threadsOfText?_mono {text' : String} {n n' threads' : Nat} (h : AsksFor text n)
    (h' : AsksFor text' n') (hle : n ≤ n')
    (hthreads' : threadsOfText? text' limit = .ok (some threads')) :
    ∃ threads, threadsOfText? text limit = .ok (some threads) ∧ threads ≤ threads' := by
  obtain ⟨m, hlt, hm, rfl⟩ := threadsOfText?_eq_some.1 hthreads'
  obtain rfl := h'.eq hm
  refine ⟨_, threadsOfText?_eq_some.2 ⟨n, hle.trans_lt hlt, h, rfl⟩, ?_⟩
  exact max_le_max_left 1 (min_le_min_right _ hle)

/-- A number of threads is read exactly from the texts that ask for a word, in one of the ways to
    write it, and is that word brought into the range from one to the limit. Reading a text is never
    abandoned, whatever the limit is. What is written for a number is read with any blanks around
    it, and a text that asks for less gives no more. -/
theorem threadsOfText?_reads_numerals (limit : Nat) :
    (∀ text threads, threadsOfText? text limit = .ok (some threads) ↔
      ∃ n, n < Word.size ∧ AsksFor text n ∧ threads = max 1 (min n (max limit 1))) ∧
    (∀ text, threadsOfText? text limit = .ok none ↔ ∀ n, AsksFor text n → Word.size ≤ n) ∧
    (∀ text t, threadsOfText? text limit ≠ .error t) ∧
    (∀ text n, AsksFor text n ↔ ∃ before sign zeros after,
      text.toList = before ++ (sign ++ (List.replicate zeros '0' ++ n.repr.toList)) ++ after ∧
      (∀ c ∈ before, isBlank c = true) ∧ (∀ c ∈ after, isBlank c = true) ∧
      (sign = [] ∨ sign = ['+'])) ∧
    (∀ before after : String, (∀ c ∈ before.toList, isBlank c = true) →
      (∀ c ∈ after.toList, isBlank c = true) → ∀ n : Nat,
      threadsOfText? (before ++ n.repr ++ after) limit =
        .ok (if n < Word.size then some (max 1 (min n (max limit 1))) else none)) ∧
    ∀ text text' n n' threads', AsksFor text n → AsksFor text' n' → n ≤ n' →
      threadsOfText? text' limit = .ok (some threads') →
      ∃ threads, threadsOfText? text limit = .ok (some threads) ∧ threads ≤ threads' := by
  refine ⟨fun text threads => threadsOfText?_eq_some, fun text => threadsOfText?_eq_none, ?_,
    fun text n => asksFor_iff_written, ?_, ?_⟩
  · intro text t h
    rw [threadsOfText?_eq] at h
    cases h
  · intro before after hbefore hafter n
    exact (asksFor_repr hbefore hafter n).threadsOfText?_eq limit
  · intro text text' n n' threads' h h' hle hthreads'
    exact h.threadsOfText?_mono h' hle hthreads'

/-- Seven with a sign, zeros and blanks, seven with a limit of zero, the first number that is no
    word, and a text with two signs. -/
theorem threadsOfText?_reads_numerals_padded :
    threadsOfText? "\u2003+007\n" 16 = .ok (some 7) ∧
    threadsOfText? (" " ++ Nat.repr 7 ++ "\u3000") 0 = .ok (some 1) ∧
    threadsOfText? ("" ++ Nat.repr Word.size ++ "") 16 = .ok none ∧
    (∀ n, AsksFor "++7" n → Word.size ≤ n) ∧
    ∃ threads, threadsOfText? "5" 16 = .ok (some threads) ∧ threads ≤ 7 := by
  obtain ⟨hsome, hnone, -, hwritten, hprinted, hmono⟩ := threadsOfText?_reads_numerals 16
  have hseven : AsksFor "\u2003+007\n" 7 :=
    (hwritten _ 7).2 ⟨['\u2003'], ['+'], 2, ['\n'], rfl, List.forall_mem_singleton.2 rfl,
      List.forall_mem_singleton.2 rfl, .inr rfl⟩
  have hfive : AsksFor "5" 5 :=
    (hwritten _ 5).2 ⟨[], [], 0, [], rfl, List.forall_mem_nil _, List.forall_mem_nil _, .inl rfl⟩
  have hthreads : threadsOfText? "\u2003+007\n" 16 = .ok (some 7) :=
    (hsome _ 7).2 ⟨7, by decide, hseven, rfl⟩
  refine ⟨hthreads, ?_, ?_, ?_, ?_⟩
  · obtain ⟨-, -, -, -, hlimit, -⟩ := threadsOfText?_reads_numerals 0
    exact hlimit " " "\u3000" (List.forall_mem_singleton.2 rfl) (List.forall_mem_singleton.2 rfl) 7
  · exact hprinted "" "" (List.forall_mem_nil _) (List.forall_mem_nil _) Word.size
  · exact (hnone "++7").1 (by decide)
  · exact hmono "5" _ 5 7 7 hfive hseven (by decide) hthreads

end

end TensorLowering
