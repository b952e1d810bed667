import TensorLowering.Arithmetic.Fault

set_option autoImplicit false

/-! # Checked word arithmetic

Natural numbers stand for unsigned 64-bit words and integers for signed ones, so that statements
about sizes stay statements of plain arithmetic. Each operation here returns the exact result where
it fits the word and faults where it does not; nothing wraps except the one reinterpretation
`Signed.ofWord`. `product` is the operation that the rest of the library leans on: it multiplies
from the left, so it faults at the first step whose exact value leaves the word even if a later
factor is zero (`product_eq_ok`, `product_of_pos`). -/

namespace TensorLowering

namespace Word

/-- The number of unsigned words; every word is below it. -/
def size : Nat := UInt64.size

/-- The sum of two words. -/
def add (a b : Nat) : Checked Nat :=
  if a + b < size then .ok (a + b) else .error (.overflow .add)

/-- The difference of two words. -/
def sub (a b : Nat) : Checked Nat :=
  if b ≤ a then .ok (a - b) else .error (.overflow .sub)

/-- The product of two words. -/
def mul (a b : Nat) : Checked Nat :=
  if a * b < size then .ok (a * b) else .error (.overflow .mul)

/-- The quotient of two words. -/
def div (a b : Nat) : Checked Nat :=
  if b = 0 then .error .divisionByZero else .ok (a / b)

/-- The remainder of two words. -/
def mod (a b : Nat) : Checked Nat :=
  if b = 0 then .error .remainderByZero else .ok (a % b)

/-- The sum of a list of words, taken from the left. -/
def sum (ns : List Nat) : Checked Nat := ns.foldlM add 0

/-- The product of a list of words, taken from the left. -/
def product (ns : List Nat) : Checked Nat := ns.foldlM mul 1

/-- The entry of a list at an index. -/
def entry (ns : List Nat) (index : Nat) : Checked Nat :=
  match ns[index]? with
  | some n => .ok n
  | none => .error (.indexOutOfBounds ns.length index)

/-- The word nearest to `n` in the interval from `low` to `high`. -/
def clamp (n low high : Nat) : Checked Nat :=
  if low ≤ high then .ok (max low (min n high)) else .error .emptyClamp

/-- The word of half the width with the same value, if there is one. -/
def toUInt32? (n : Nat) : Option UInt32 :=
  if h : n < UInt32.size then some (UInt32.ofNatLT n h) else none

/-- The word with the value `n`, if there is one. -/
def toUInt64? (n : Nat) : Option UInt64 :=
  if h : n < UInt64.size then some (UInt64.ofNatLT n h) else none

/-! ## When an operation succeeds -/

@[simp] theorem add_eq_ok {a b n : Nat} : add a b = .ok n ↔ a + b < size ∧ a + b = n := by
  by_cases h : a + b < size <;> simp [add, h]

@[simp] theorem sub_eq_ok {a b n : Nat} : sub a b = .ok n ↔ b ≤ a ∧ a - b = n := by
  by_cases h : b ≤ a <;> simp [sub, h]

@[simp] theorem mul_eq_ok {a b n : Nat} : mul a b = .ok n ↔ a * b < size ∧ a * b = n := by
  by_cases h : a * b < size <;> simp [mul, h]

@[simp] theorem div_eq_ok {a b n : Nat} : div a b = .ok n ↔ b ≠ 0 ∧ a / b = n := by
  unfold div; split <;> simp_all

@[simp] theorem mod_eq_ok {a b n : Nat} : mod a b = .ok n ↔ b ≠ 0 ∧ a % b = n := by
  unfold mod; split <;> simp_all

@[simp] theorem entry_eq_ok {ns : List Nat} {index n : Nat} :
    entry ns index = .ok n ↔ ns[index]? = some n := by
  unfold entry; split <;> simp_all

@[simp] theorem clamp_eq_ok {n low high r : Nat} :
    clamp n low high = .ok r ↔ low ≤ high ∧ max low (min n high) = r := by
  by_cases h : low ≤ high <;> simp [clamp, h]

@[simp] theorem toUInt32?_eq_some {n : Nat} {w : UInt32} :
    toUInt32? n = some w ↔ w.toNat = n := by
  unfold toUInt32?
  split
  · next h =>
      simp only [Option.some.injEq]
      constructor
      · rintro rfl; simp
      · rintro rfl; simp
  · next h =>
      simp only [reduceCtorEq, false_iff]
      rintro rfl
      exact h w.toNat_lt

@[simp] theorem toUInt64?_eq_some {n : Nat} {w : UInt64} :
    toUInt64? n = some w ↔ w.toNat = n := by
  unfold toUInt64?
  split
  · next h =>
      simp only [Option.some.injEq]
      constructor
      · rintro rfl; simp
      · rintro rfl; simp
  · next h =>
      simp only [reduceCtorEq, false_iff]
      rintro rfl
      exact h w.toNat_lt

/-! ## Which faults an operation has -/

@[simp] theorem add_eq_error {a b : Nat} {t : Fault} :
    add a b = .error t ↔ size ≤ a + b ∧ Fault.overflow .add = t := by
  by_cases h : a + b < size <;> simp [add, h, Nat.not_le.2, Nat.not_lt.1]

@[simp] theorem mul_eq_error {a b : Nat} {t : Fault} :
    mul a b = .error t ↔ size ≤ a * b ∧ Fault.overflow .mul = t := by
  by_cases h : a * b < size <;> simp [mul, h, Nat.not_le.2, Nat.not_lt.1]

theorem isOverflow_of_mul_eq_error {a b : Nat} {t : Fault} (h : mul a b = .error t) :
    t.IsOverflow := by
  obtain ⟨-, rfl⟩ := mul_eq_error.1 h
  exact ⟨_, rfl⟩

@[simp] theorem div_eq_error {a b : Nat} {t : Fault} :
    div a b = .error t ↔ b = 0 ∧ Fault.divisionByZero = t := by
  by_cases h : b = 0 <;> simp [div, h]

@[simp] theorem mod_eq_error {a b : Nat} {t : Fault} :
    mod a b = .error t ↔ b = 0 ∧ Fault.remainderByZero = t := by
  by_cases h : b = 0 <;> simp [mod, h]

theorem entry_ne_error {ns : List Nat} {index : Nat} {t : Fault} (h : index < ns.length) :
    entry ns index ≠ .error t := by
  simp [entry, List.getElem?_eq_getElem h]

/-! ## Sums and products -/

theorem foldlM_add_eq_ok {ns : List Nat} {start n : Nat} (h : ns.foldlM add start = .ok n) :
    n = start + ns.foldr (· + ·) 0 := by
  induction ns generalizing start with
  | nil =>
      simp only [List.foldlM_nil] at h
      cases h
      simp
  | cons d ds ih =>
      simp only [List.foldlM_cons] at h
      cases hm : add start d with
      | error t => rw [hm] at h; cases h
      | ok m =>
          rw [hm] at h
          have := ih h
          rw [add_eq_ok] at hm
          rw [this, ← hm.2, List.foldr_cons, Nat.add_assoc]

/-- A sum that does not fault is the exact one. -/
theorem sum_eq_ok {ns : List Nat} {n : Nat} (h : sum ns = .ok n) :
    n = ns.foldr (· + ·) 0 := by
  simpa using foldlM_add_eq_ok h

/-- A sum faults exactly if the exact one has no word, whatever the order. -/
theorem foldlM_add_eq_error {ns : List Nat} {start : Nat} {t : Fault} (hstart : start < size) :
    ns.foldlM add start = .error t ↔
      size ≤ start + ns.foldr (· + ·) 0 ∧ Fault.overflow .add = t := by
  induction ns generalizing start with
  | nil => simp [pure, Except.pure, Nat.not_le.2 hstart]
  | cons d ds ih =>
      rw [List.foldlM_cons, List.foldr_cons, ← Nat.add_assoc]
      by_cases hd : start + d < size
      · rw [add_eq_ok.2 ⟨hd, rfl⟩]
        exact ih hd
      · rw [add_eq_error.2 ⟨Nat.not_lt.1 hd, rfl⟩]
        have hle : size ≤ start + d + ds.foldr (· + ·) 0 := by omega
        simp [hle, bind, Except.bind]

theorem sum_eq_error {ns : List Nat} {t : Fault} :
    sum ns = .error t ↔ size ≤ ns.foldr (· + ·) 0 ∧ Fault.overflow .add = t := by
  have h := @foldlM_add_eq_error ns 0 t (by decide)
  rwa [Nat.zero_add] at h

theorem foldlM_mul_eq_ok {ns : List Nat} {start n : Nat} (h : ns.foldlM mul start = .ok n) :
    n = start * ns.foldr (· * ·) 1 := by
  induction ns generalizing start with
  | nil =>
      simp only [List.foldlM_nil] at h
      cases h
      simp
  | cons d ds ih =>
      simp only [List.foldlM_cons] at h
      cases hm : mul start d with
      | error t => rw [hm] at h; cases h
      | ok m =>
          rw [hm] at h
          have := ih h
          rw [mul_eq_ok] at hm
          rw [this, ← hm.2, List.foldr_cons, Nat.mul_assoc]

/-- A factor of one makes no difference to a product, not even to where it faults. -/
theorem foldlM_mul_one_cons {ns : List Nat} {start : Nat} (h : start < size) :
    (1 :: ns).foldlM mul start = ns.foldlM mul start := by
  have hone : mul start 1 = .ok start := mul_eq_ok.2 ⟨by rwa [Nat.mul_one], Nat.mul_one start⟩
  rw [List.foldlM_cons, hone]
  rfl

/-- A product that does not fault is the exact one. -/
theorem product_eq_ok {ns : List Nat} {n : Nat} (h : product ns = .ok n) :
    n = ns.foldr (· * ·) 1 := by
  simpa using foldlM_mul_eq_ok h

/-- A product faults exactly if that of some of its first factors has no word. -/
theorem foldlM_mul_eq_error {ns : List Nat} {start : Nat} {t : Fault} (hstart : start < size) :
    ns.foldlM mul start = .error t ↔
      (∃ n, size ≤ start * (ns.take n).foldr (· * ·) 1) ∧ Fault.overflow .mul = t := by
  induction ns generalizing start with
  | nil => simp [pure, Except.pure, Nat.not_le.2 hstart]
  | cons d ds ih =>
      rw [List.foldlM_cons]
      by_cases hd : start * d < size
      · rw [mul_eq_ok.2 ⟨hd, rfl⟩]
        refine (ih hd).trans (and_congr_left' ⟨?_, ?_⟩)
        · rintro ⟨n, h⟩
          exact ⟨n + 1, by rwa [List.take_succ_cons, List.foldr_cons, ← Nat.mul_assoc]⟩
        · rintro ⟨n, h⟩
          cases n with
          | zero => exact absurd hstart (Nat.not_lt.2 (by simpa using h))
          | succ n =>
              rw [List.take_succ_cons, List.foldr_cons, ← Nat.mul_assoc] at h
              exact ⟨n, h⟩
      · rw [mul_eq_error.2 ⟨Nat.not_lt.1 hd, rfl⟩]
        have hfirst : ∃ n, size ≤ start * ((d :: ds).take n).foldr (· * ·) 1 :=
          ⟨1, by simpa using hd⟩
        simp [hfirst, bind, Except.bind]

theorem product_eq_error {ns : List Nat} {t : Fault} :
    product ns = .error t ↔
      (∃ n, size ≤ (ns.take n).foldr (· * ·) 1) ∧ Fault.overflow .mul = t := by
  have h := @foldlM_mul_eq_error ns 1 t (by decide)
  simpa only [product, Nat.one_mul] using h

theorem foldr_mul_pos {ns : List Nat} (hpos : ∀ d ∈ ns, 0 < d) : 0 < ns.foldr (· * ·) 1 := by
  induction ns with
  | nil => exact Nat.one_pos
  | cons d ds ih =>
      exact Nat.mul_pos (hpos d List.mem_cons_self) (ih fun e he => hpos e (List.mem_cons_of_mem _ he))

theorem foldlM_mul_of_pos {ns : List Nat} {start : Nat} (hpos : ∀ d ∈ ns, 0 < d)
    (h : start * ns.foldr (· * ·) 1 < size) :
    ns.foldlM mul start = .ok (start * ns.foldr (· * ·) 1) := by
  induction ns generalizing start with
  | nil => simp [pure, Except.pure]
  | cons d ds ih =>
      have hd : ∀ e ∈ ds, 0 < e := fun e he => hpos e (List.mem_cons_of_mem _ he)
      have hone : 0 < ds.foldr (· * ·) 1 := foldr_mul_pos hd
      rw [List.foldr_cons, ← Nat.mul_assoc] at h ⊢
      have hstep : mul start d = .ok (start * d) := by
        rw [mul_eq_ok]
        exact ⟨Nat.lt_of_le_of_lt (Nat.le_mul_of_pos_right _ hone) h, rfl⟩
      simp only [List.foldlM_cons, hstep]
      exact ih hd h

/-- A product of nonzero words, of which the first may be zero, faults only if the exact product has
    no word. -/
theorem product_of_tail_pos {ns : List Nat} (hpos : ∀ d ∈ ns.tail, 0 < d)
    (h : ns.foldr (· * ·) 1 < size) : product ns = .ok (ns.foldr (· * ·) 1) := by
  cases ns with
  | nil => rfl
  | cons n ns =>
      have hrest : 0 < ns.foldr (· * ·) 1 := foldr_mul_pos hpos
      have hfirst : mul 1 n = .ok n := by
        rw [mul_eq_ok, Nat.one_mul]
        exact ⟨Nat.lt_of_le_of_lt (Nat.le_mul_of_pos_right n hrest) h, rfl⟩
      unfold product
      rw [List.foldlM_cons, hfirst]
      exact foldlM_mul_of_pos hpos h

/-- A product of nonzero words faults only if the exact product has no word. -/
theorem product_of_pos {ns : List Nat} (hpos : ∀ d ∈ ns, 0 < d)
    (h : ns.foldr (· * ·) 1 < size) : product ns = .ok (ns.foldr (· * ·) 1) :=
  product_of_tail_pos (fun d hd => hpos d (List.mem_of_mem_tail hd)) h

end Word

namespace Signed

/-- The integers that a signed word can hold. -/
def Fits (z : Int) : Prop := -0x8000000000000000 ≤ z ∧ z < 0x8000000000000000

instance (z : Int) : Decidable (Fits z) := inferInstanceAs (Decidable (_ ∧ _))

/-- The signed word with the same bits as the unsigned word `n`. -/
def ofWord (n : Nat) : Int := Int.bmod n UInt64.size

/-- The unsigned word with the same bits as the signed word `z`. -/
def toWord (z : Int) : Nat := (z % UInt64.size).toNat

/-- The exact result `z` of an operation, if a signed word can hold it. -/
def checked (operation : WordOperation) (z : Int) : Checked Int :=
  if Fits z then .ok z else .error (.overflow operation)

/-- The sum of two signed words. -/
def add (a b : Int) : Checked Int := checked .add (a + b)

/-- The difference of two signed words. -/
def sub (a b : Int) : Checked Int := checked .sub (a - b)

/-- The product of two signed words. -/
def mul (a b : Int) : Checked Int := checked .mul (a * b)

/-- The negation of a signed word. -/
def neg (a : Int) : Checked Int := checked .neg (-a)

/-- The quotient of two signed words, rounded toward zero. -/
def div (a b : Int) : Checked Int :=
  if b = 0 then .error .divisionByZero else checked .div (a.tdiv b)

@[simp] theorem checked_eq_ok {operation : WordOperation} {z w : Int} :
    checked operation z = .ok w ↔ Fits z ∧ z = w := by
  unfold checked; split <;> simp_all

@[simp] theorem add_eq_ok {a b z : Int} : add a b = .ok z ↔ Fits (a + b) ∧ a + b = z :=
  checked_eq_ok

@[simp] theorem sub_eq_ok {a b z : Int} : sub a b = .ok z ↔ Fits (a - b) ∧ a - b = z :=
  checked_eq_ok

@[simp] theorem mul_eq_ok {a b z : Int} : mul a b = .ok z ↔ Fits (a * b) ∧ a * b = z :=
  checked_eq_ok

@[simp] theorem neg_eq_ok {a z : Int} : neg a = .ok z ↔ Fits (-a) ∧ -a = z :=
  checked_eq_ok

@[simp] theorem div_eq_ok {a b z : Int} :
    div a b = .ok z ↔ b ≠ 0 ∧ Fits (a.tdiv b) ∧ a.tdiv b = z := by
  unfold div; split <;> simp_all

@[simp] theorem checked_eq_error {operation : WordOperation} {z : Int} {t : Fault} :
    checked operation z = .error t ↔ ¬Fits z ∧ Fault.overflow operation = t := by
  unfold checked; split <;> simp_all

@[simp] theorem add_eq_error {a b : Int} {t : Fault} :
    add a b = .error t ↔ ¬Fits (a + b) ∧ Fault.overflow .add = t :=
  checked_eq_error

@[simp] theorem mul_eq_error {a b : Int} {t : Fault} :
    mul a b = .error t ↔ ¬Fits (a * b) ∧ Fault.overflow .mul = t :=
  checked_eq_error

theorem neg_eq_error {a : Int} {t : Fault} :
    neg a = .error t ↔ ¬Fits (-a) ∧ Fault.overflow .neg = t :=
  checked_eq_error

/-- The quotient of words that are not negative is a word, rounded down. -/
theorem div_of_nonneg {a b : Int} (ha : 0 ≤ a) (hfits : Fits a) (hb : 0 < b) :
    div a b = .ok (a / b) := by
  have hnonneg := Int.ediv_nonneg ha (Int.le_of_lt hb)
  have hle := Int.ediv_le_self b ha
  obtain ⟨-, hlt⟩ := hfits
  rw [div_eq_ok, Int.tdiv_eq_ediv_of_nonneg ha]
  exact ⟨Int.ne_of_gt hb, ⟨by omega, by omega⟩, rfl⟩

theorem isOverflow_of_checked_eq_error {operation : WordOperation} {z : Int} {t : Fault}
    (h : checked operation z = .error t) : t.IsOverflow := by
  obtain ⟨-, rfl⟩ := checked_eq_error.1 h
  exact ⟨_, rfl⟩

theorem isOverflow_of_add_eq_error {a b : Int} {t : Fault} (h : add a b = .error t) :
    t.IsOverflow :=
  isOverflow_of_checked_eq_error h

theorem isOverflow_of_sub_eq_error {a b : Int} {t : Fault} (h : sub a b = .error t) :
    t.IsOverflow :=
  isOverflow_of_checked_eq_error h

theorem isOverflow_of_mul_eq_error {a b : Int} {t : Fault} (h : mul a b = .error t) :
    t.IsOverflow :=
  isOverflow_of_checked_eq_error h

theorem isOverflow_of_div_eq_error {a b : Int} {t : Fault} (hb : b ≠ 0)
    (h : div a b = .error t) : t.IsOverflow := by
  rw [div, if_neg hb] at h
  exact isOverflow_of_checked_eq_error h

/-- Words below half the range keep their value when read as signed. -/
theorem ofWord_of_lt {n : Nat} (h : n < 0x8000000000000000) : ofWord n = n := by
  exact Int.bmod_eq_of_le (by rw [UInt64.size]; omega) (by rw [UInt64.size]; omega)

theorem bmod_le_self (n m : Nat) : Int.bmod n m ≤ n := by
  have hle : (n : Int) % m ≤ n := Int.ofNat_le.2 (Nat.mod_le n m)
  rw [Int.bmod_def]
  split
  · exact hle
  · exact Int.le_trans (Int.sub_le_self _ (Int.natCast_nonneg _)) hle

/-- Reading a word as signed does not increase it. -/
theorem ofWord_le (n : Nat) : ofWord n ≤ n := bmod_le_self n UInt64.size

/-- An unsigned word is read as a signed one. -/
theorem fits_ofWord (n : Nat) : Fits (ofWord n) := by
  have hlow := @Int.le_bmod n UInt64.size (by decide)
  have hhigh := @Int.bmod_lt n UInt64.size (by decide)
  rw [UInt64.size] at hlow hhigh
  unfold ofWord
  rw [UInt64.size]
  exact ⟨by omega, by omega⟩

/-- Words that are not negative keep their value when read as unsigned. -/
theorem toWord_of_nonneg {z : Int} (hnonneg : 0 ≤ z) (hfits : Fits z) : toWord z = z.toNat := by
  obtain ⟨-, hlt⟩ := hfits
  unfold toWord
  rw [UInt64.size, Int.emod_eq_of_lt hnonneg (by omega)]

end Signed

end TensorLowering
