import TensorLowering.Arithmetic.Fault

set_option autoImplicit false

/-! # Outcomes

A computation of the library ends in one of three ways: with a value, with an error of its own kind
`ε`, or with a fault. `Outcome ε` is the monad of such computations; the first step that does not
yield a value decides how the whole ends. The lemmas `bind_eq_ok`, `bind_eq_error` and
`bind_eq_fault` turn a statement about a sequence of steps into one about its steps, so that no
proof has to unfold `bind`. -/

namespace TensorLowering

/-- How a computation ends. -/
inductive Outcome (ε α : Type) where
  | ok (value : α)
  | error (cause : ε)
  | fault (cause : Fault)
deriving DecidableEq, Repr

namespace Outcome

variable {ε ε' α β : Type}

/-- Carry on with the value, if there is one. -/
protected def bind (x : Outcome ε α) (f : α → Outcome ε β) : Outcome ε β :=
  match x with
  | .ok a => f a
  | .error e => .error e
  | .fault t => .fault t

instance : Monad (Outcome ε) where
  pure := .ok
  bind := Outcome.bind

instance : LawfulMonad (Outcome ε) := LawfulMonad.mk' (Outcome ε)
  (by intro α x; cases x <;> rfl)
  (by intros; rfl)
  (by intro α β γ x f g; cases x <;> rfl)

/-- Stop with an error of the computation's own kind. -/
instance : MonadExceptOf ε (Outcome ε) where
  throw := .error
  tryCatch x handle := match x with
    | .error e => handle e
    | other => other

/-- A computation that never faults. -/
def ofExcept : Except ε α → Outcome ε α
  | .ok a => .ok a
  | .error e => .error e

/-- A computation on words, as a step of one that has error causes. -/
def ofChecked : Checked α → Outcome ε α
  | .ok a => .ok a
  | .error t => .fault t

instance : MonadLift Checked (Outcome ε) := ⟨ofChecked⟩

/-- Restate the error, if that is how the computation ends. -/
def mapError (f : ε → ε') : Outcome ε α → Outcome ε' α
  | .ok a => .ok a
  | .error e => .error (f e)
  | .fault t => .fault t

/-- The value of `x?`, or the error `e` where there is none. -/
def ofOption (e : ε) : Option α → Outcome ε α
  | some a => .ok a
  | none => .error e

/-- Go on only if `p` holds. -/
def require (p : Prop) [Decidable p] (e : ε) : Outcome ε Unit :=
  if p then .ok () else .error e

/-- Whether the computation ended with a value. -/
def isOk : Outcome ε α → Bool
  | .ok _ => true
  | _ => false

/-- The value, if the computation ended with one. -/
def toOption : Outcome ε α → Option α
  | .ok a => some a
  | _ => none

/-- The fault, if the computation ended with one. -/
def fault? : Outcome ε α → Option Fault
  | .fault t => some t
  | _ => none

/-! ## How a sequence of steps ends -/

@[simp] theorem pure_eq_ok (a : α) : (pure a : Outcome ε α) = .ok a := rfl

@[simp] theorem ok_bind (a : α) (f : α → Outcome ε β) : (Outcome.ok a >>= f) = f a := rfl

@[simp] theorem error_bind (e : ε) (f : α → Outcome ε β) :
    (Outcome.error e >>= f) = .error e := rfl

@[simp] theorem fault_bind (t : Fault) (f : α → Outcome ε β) :
    (Outcome.fault t >>= f) = .fault t := rfl

/-- A sequence yields a value exactly when each step does. -/
theorem bind_eq_ok {x : Outcome ε α} {f : α → Outcome ε β} {b : β} :
    (x >>= f) = .ok b ↔ ∃ a, x = .ok a ∧ f a = .ok b := by
  cases x <;> simp

/-- A sequence ends in the error of its first step that does not yield a value. -/
theorem bind_eq_error {x : Outcome ε α} {f : α → Outcome ε β} {e : ε} :
    (x >>= f) = .error e ↔ x = .error e ∨ ∃ a, x = .ok a ∧ f a = .error e := by
  cases x <;> simp

/-- A sequence ends in the fault of its first step that does not yield a value. -/
theorem bind_eq_fault {x : Outcome ε α} {f : α → Outcome ε β} {t : Fault} :
    (x >>= f) = .fault t ↔ x = .fault t ∨ ∃ a, x = .ok a ∧ f a = .fault t := by
  cases x <;> simp

/-- The same for a sequence of steps that cannot fault. -/
theorem except_bind_eq_ok {x : Except ε α} {f : α → Except ε β} {b : β} :
    (x >>= f) = .ok b ↔ ∃ a, x = .ok a ∧ f a = .ok b := by
  cases x <;> simp [bind, Except.bind]

theorem except_bind_eq_error {x : Except ε α} {f : α → Except ε β} {e : ε} :
    (x >>= f) = .error e ↔ x = .error e ∨ ∃ a, x = .ok a ∧ f a = .error e := by
  cases x <;> simp [bind, Except.bind]

/-! ## The other ways to make an outcome -/

@[simp] theorem map_ok (f : α → β) (a : α) : (f <$> (Outcome.ok a : Outcome ε α)) = .ok (f a) := rfl

@[simp] theorem map_error (f : α → β) (e : ε) :
    (f <$> (Outcome.error e : Outcome ε α)) = .error e := rfl

@[simp] theorem map_fault (f : α → β) (t : Fault) :
    (f <$> (Outcome.fault t : Outcome ε α)) = .fault t := rfl

theorem map_eq_ok {f : α → β} {x : Outcome ε α} {b : β} :
    f <$> x = .ok b ↔ ∃ a, x = .ok a ∧ f a = b := by
  cases x <;> simp

theorem map_eq_error {f : α → β} {x : Outcome ε α} {e : ε} :
    f <$> x = .error e ↔ x = .error e := by
  cases x <;> simp

theorem map_eq_fault {f : α → β} {x : Outcome ε α} {t : Fault} :
    f <$> x = .fault t ↔ x = .fault t := by
  cases x <;> simp

@[simp] theorem require_eq_ok {p : Prop} [Decidable p] {e : ε} {u : Unit} :
    require p e = .ok u ↔ p := by
  by_cases h : p <;> simp [require, h]

@[simp] theorem require_eq_error {p : Prop} [Decidable p] {e e' : ε} :
    require p e = .error e' ↔ ¬p ∧ e = e' := by
  by_cases h : p <;> simp [require, h]

@[simp] theorem require_ne_fault {p : Prop} [Decidable p] {e : ε} {t : Fault} :
    require p e ≠ .fault t := by
  by_cases h : p <;> simp [require, h]

@[simp] theorem ofOption_eq_ok {e : ε} {x : Option α} {a : α} :
    ofOption e x = .ok a ↔ x = some a := by
  cases x <;> simp [ofOption]

@[simp] theorem ofOption_eq_error {e e' : ε} {x : Option α} :
    ofOption e x = .error e' ↔ x = none ∧ e = e' := by
  cases x <;> simp [ofOption]

@[simp] theorem ofOption_ne_fault {e : ε} {x : Option α} {t : Fault} :
    ofOption e x ≠ .fault t := by
  cases x <;> simp [ofOption]

@[simp] theorem ofExcept_ok (a : α) : (ofExcept (.ok a) : Outcome ε α) = .ok a := rfl

@[simp] theorem ofExcept_error (e : ε) : (ofExcept (.error e) : Outcome ε α) = .error e := rfl

@[simp] theorem ofExcept_eq_ok {x : Except ε α} {a : α} : ofExcept x = .ok a ↔ x = .ok a := by
  cases x <;> simp [ofExcept]

@[simp] theorem ofExcept_eq_error {x : Except ε α} {e : ε} :
    ofExcept x = .error e ↔ x = .error e := by
  cases x <;> simp [ofExcept]

@[simp] theorem ofExcept_ne_fault {x : Except ε α} {t : Fault} : ofExcept x ≠ .fault t := by
  cases x <;> simp [ofExcept]

theorem ofExcept_bind (x : Except ε α) (f : α → Except ε β) :
    ofExcept (x >>= f) = ofExcept x >>= fun a => ofExcept (f a) := by
  cases x <;> rfl

@[simp] theorem ofChecked_ok (a : α) : (ofChecked (.ok a) : Outcome ε α) = .ok a := rfl

@[simp] theorem ofChecked_error (t : Fault) :
    (ofChecked (.error t) : Outcome ε α) = .fault t := rfl

@[simp] theorem ofChecked_eq_ok {x : Checked α} {a : α} :
    (ofChecked x : Outcome ε α) = .ok a ↔ x = .ok a := by
  cases x <;> simp [ofChecked]

@[simp] theorem ofChecked_ne_error {x : Checked α} {e : ε} : ofChecked x ≠ .error e := by
  cases x <;> simp [ofChecked]

@[simp] theorem ofChecked_eq_fault {x : Checked α} {t : Fault} :
    (ofChecked x : Outcome ε α) = .fault t ↔ x = .error t := by
  cases x <;> simp [ofChecked]

/-- A computation on words enters a sequence of steps as `ofChecked` says. -/
@[simp] theorem liftM_eq (x : Checked α) : (liftM x : Outcome ε α) = ofChecked x := rfl

@[simp] theorem mapError_ok (f : ε → ε') (a : α) :
    (Outcome.ok a : Outcome ε α).mapError f = .ok a := rfl

@[simp] theorem mapError_error (f : ε → ε') (e : ε) :
    (Outcome.error e : Outcome ε α).mapError f = .error (f e) := rfl

@[simp] theorem mapError_eq_ok {f : ε → ε'} {x : Outcome ε α} {a : α} :
    x.mapError f = .ok a ↔ x = .ok a := by
  cases x <;> simp [mapError]

@[simp] theorem mapError_eq_error {f : ε → ε'} {x : Outcome ε α} {e' : ε'} :
    x.mapError f = .error e' ↔ ∃ e, x = .error e ∧ f e = e' := by
  cases x <;> simp [mapError]

@[simp] theorem mapError_eq_fault {f : ε → ε'} {x : Outcome ε α} {t : Fault} :
    x.mapError f = .fault t ↔ x = .fault t := by
  cases x <;> simp [mapError]

/-- Restating the error and restating the value do not interfere. -/
theorem mapError_map (f : α → β) (g : ε → ε') (x : Outcome ε α) :
    (f <$> x).mapError g = f <$> x.mapError g := by
  cases x <;> rfl

@[simp] theorem toOption_eq_some {x : Outcome ε α} {a : α} :
    x.toOption = some a ↔ x = .ok a := by
  cases x <;> simp [toOption]

@[simp] theorem fault?_eq_some {x : Outcome ε α} {t : Fault} :
    x.fault? = some t ↔ x = .fault t := by
  cases x <;> simp [fault?]

@[simp] theorem fault?_eq_none {x : Outcome ε α} : x.fault? = none ↔ ∀ t, x ≠ .fault t := by
  cases x <;> simp [fault?]

/-! ## A step for each item of a list -/

/-- The steps for the items yield values exactly when each of them does. -/
theorem mapM_eq_ok {step : α → Outcome ε β} {items : List α} {values : List β} :
    items.mapM step = .ok values ↔ items.map step = values.map .ok := by
  induction items generalizing values with
  | nil => cases values <;> simp
  | cons item items ih =>
      simp only [List.mapM_cons, bind_eq_ok, pure_eq_ok, ok.injEq, ih, List.map_cons]
      constructor
      · rintro ⟨value, hvalue, rest, hrest, rfl⟩
        rw [hvalue, hrest, List.map_cons]
      · intro h
        cases values with
        | nil => cases h
        | cons value rest =>
            rw [List.map_cons, List.cons.injEq] at h
            exact ⟨value, h.1, rest, h.2, rfl⟩

/-- Each value is that of a step for one of the items. -/
theorem mem_of_mapM_eq_ok {step : α → Outcome ε β} {items : List α} {values : List β}
    (h : items.mapM step = .ok values) {value : β} :
    value ∈ values ↔ ∃ item ∈ items, step item = .ok value := by
  rw [mapM_eq_ok] at h
  have hmap : (.ok value : Outcome ε β) ∈ values.map .ok ↔ value ∈ values := by simp
  rw [← hmap, ← h, List.mem_map]

/-- The steps for the items yield values if each of them does. -/
theorem exists_mapM_eq_ok {step : α → Outcome ε β} {items : List α} :
    (∃ values, items.mapM step = .ok values) ↔ ∀ item ∈ items, ∃ value, step item = .ok value := by
  induction items with
  | nil => simp
  | cons item items ih =>
      simp only [List.mapM_cons, bind_eq_ok, pure_eq_ok, ok.injEq, List.forall_mem_cons, ← ih]
      constructor
      · rintro ⟨_, value, hvalue, rest, hrest, rfl⟩
        exact ⟨⟨value, hvalue⟩, rest, hrest⟩
      · rintro ⟨⟨value, hvalue⟩, rest, hrest⟩
        exact ⟨_, value, hvalue, rest, hrest, rfl⟩

/-- Steps that yield values leave the end to the steps after them. -/
theorem mapM_append_error {step : α → Outcome ε β} {before after : List α} {item : α} {e : ε}
    (hbefore : ∀ earlier ∈ before, ∃ value, step earlier = .ok value) (h : step item = .error e) :
    (before ++ item :: after).mapM step = .error e := by
  obtain ⟨values, hvalues⟩ := exists_mapM_eq_ok.2 hbefore
  rw [List.mapM_append, hvalues, ok_bind, List.mapM_cons, h, error_bind, error_bind]

theorem mapM_append_fault {step : α → Outcome ε β} {before after : List α} {item : α} {t : Fault}
    (hbefore : ∀ earlier ∈ before, ∃ value, step earlier = .ok value) (h : step item = .fault t) :
    (before ++ item :: after).mapM step = .fault t := by
  obtain ⟨values, hvalues⟩ := exists_mapM_eq_ok.2 hbefore
  rw [List.mapM_append, hvalues, ok_bind, List.mapM_cons, h, fault_bind, fault_bind]

/-- A check of each item succeeds exactly when each item passes. -/
theorem forM_eq_ok {check : α → Outcome ε Unit} {items : List α} {u : Unit} :
    items.forM check = .ok u ↔ ∀ item ∈ items, check item = .ok () := by
  induction items with
  | nil => simp
  | cons item items ih =>
      rw [List.forM_eq_forM] at ih ⊢
      rw [List.forM_cons, bind_eq_ok, ih, List.forall_mem_cons]
      exact ⟨fun ⟨_, hitem, hrest⟩ => ⟨hitem, hrest⟩, fun ⟨hitem, hrest⟩ => ⟨(), hitem, hrest⟩⟩

/-- A check of each item fails with the error of the first item that does not pass. -/
theorem forM_eq_error {check : α → Outcome ε Unit} {items : List α} {e : ε} :
    items.forM check = .error e ↔
      ∃ before item after, items = before ++ item :: after ∧
        (∀ earlier ∈ before, check earlier = .ok ()) ∧ check item = .error e := by
  induction items with
  | nil => simp
  | cons first items ih =>
      rw [List.forM_eq_forM] at ih ⊢
      rw [List.forM_cons, bind_eq_error, ih]
      constructor
      · rintro (hfirst | ⟨_, hfirst, before, item, after, rfl, hbefore, hitem⟩)
        · exact ⟨[], first, items, rfl, by simp, hfirst⟩
        · exact ⟨first :: before, item, after, rfl, List.forall_mem_cons.2 ⟨hfirst, hbefore⟩, hitem⟩
      · rintro ⟨before, item, after, heq, hbefore, hitem⟩
        cases before with
        | nil =>
            cases heq
            exact .inl hitem
        | cons earlier before =>
            cases heq
            obtain ⟨hfirst, hbefore⟩ := List.forall_mem_cons.1 hbefore
            exact .inr ⟨(), hfirst, before, item, after, rfl, hbefore, hitem⟩

/-- A check of each item faults only if the check of one of them does. -/
theorem forM_ne_fault {check : α → Outcome ε Unit} {items : List α} {t : Fault}
    (h : ∀ item ∈ items, check item ≠ .fault t) : items.forM check ≠ .fault t := by
  induction items with
  | nil => simp
  | cons item items ih =>
      obtain ⟨hitem, hrest⟩ := List.forall_mem_cons.1 h
      rw [List.forM_eq_forM] at ih ⊢
      rw [List.forM_cons, ne_eq, bind_eq_fault]
      rintro (hfault | ⟨_, -, hfault⟩)
      · exact hitem hfault
      · exact ih hrest hfault

/-- The steps for the items end in the error of the first step that does not yield a value. -/
theorem mapM_eq_error {step : α → Outcome ε β} {items : List α} {e : ε} :
    items.mapM step = .error e ↔
      ∃ before item after, items = before ++ item :: after ∧
        (∀ earlier ∈ before, ∃ value, step earlier = .ok value) ∧ step item = .error e := by
  constructor
  · intro h
    induction items with
    | nil => cases h
    | cons first items ih =>
        rw [List.mapM_cons, bind_eq_error] at h
        rcases h with hfirst | ⟨value, hvalue, hrest⟩
        · exact ⟨[], first, items, rfl, by simp, hfirst⟩
        · rw [bind_eq_error] at hrest
          rcases hrest with hrest | ⟨_, -, hpure⟩
          · obtain ⟨before, item, after, rfl, hbefore, hitem⟩ := ih hrest
            exact ⟨first :: before, item, after, rfl,
              List.forall_mem_cons.2 ⟨⟨value, hvalue⟩, hbefore⟩, hitem⟩
          · cases hpure
  · rintro ⟨before, item, after, rfl, hbefore, hitem⟩
    exact mapM_append_error hbefore hitem

/-- Restating what each step yields restates what the steps yield together. -/
theorem mapM_map_comm {γ : Type} (f : β → γ) (step : α → Outcome ε β) (items : List α) :
    (items.mapM fun item => f <$> step item) = List.map f <$> items.mapM step := by
  induction items with
  | nil => rfl
  | cons item items ih =>
      rw [List.mapM_cons, List.mapM_cons, ih]
      cases step item with
      | ok value => cases items.mapM step <;> rfl
      | error e => rfl
      | fault t => rfl

/-- Steps that end alike on each item end alike on all of them. -/
theorem mapM_congr {step step' : α → Outcome ε β} {items : List α}
    (h : ∀ item ∈ items, step item = step' item) : items.mapM step = items.mapM step' := by
  induction items with
  | nil => rfl
  | cons item items ih =>
      obtain ⟨hitem, hrest⟩ := List.forall_mem_cons.1 h
      rw [List.mapM_cons, List.mapM_cons, hitem, ih hrest]

theorem forM_congr {check check' : α → Outcome ε Unit} {items : List α}
    (h : ∀ item ∈ items, check item = check' item) : items.forM check = items.forM check' := by
  induction items with
  | nil => rfl
  | cons item items ih =>
      obtain ⟨hitem, hrest⟩ := List.forall_mem_cons.1 h
      rw [List.forM_eq_forM] at ih ⊢
      rw [List.forM_cons, List.forM_cons, hitem, ih hrest]

/-- Either every step yields a value, or there is a first one that does not. -/
theorem forall_ok_or_first (step : α → Outcome ε β) (items : List α) :
    (∀ item ∈ items, ∃ value, step item = .ok value) ∨
      ∃ before item after, items = before ++ item :: after ∧
        (∀ earlier ∈ before, ∃ value, step earlier = .ok value) ∧
        ∀ value, step item ≠ .ok value := by
  induction items with
  | nil => exact .inl (by simp)
  | cons item items ih =>
      by_cases hitem : ∃ value, step item = .ok value
      · rcases ih with hall | ⟨before, first, after, rfl, hbefore, hfirst⟩
        · exact .inl (List.forall_mem_cons.2 ⟨hitem, hall⟩)
        · exact .inr ⟨item :: before, first, after, rfl,
            List.forall_mem_cons.2 ⟨hitem, hbefore⟩, hfirst⟩
      · exact .inr ⟨[], item, items, rfl, by simp, fun value hvalue => hitem ⟨value, hvalue⟩⟩

/-! ## What errors can be -/

/-- Whichever error the computation ends with has the property. -/
def ErrorsAre (P : ε → Prop) (x : Outcome ε α) : Prop := ∀ e, x = .error e → P e

section

variable {P : ε → Prop}

@[simp] theorem errorsAre_ok (a : α) : (Outcome.ok a : Outcome ε α).ErrorsAre P := nofun

@[simp] theorem errorsAre_error {e : ε} : (Outcome.error e : Outcome ε α).ErrorsAre P ↔ P e := by
  simp [ErrorsAre]

/-- A sequence ends in an error of its first step, or of the second on what the first yields. -/
@[simp] theorem errorsAre_bind {x : Outcome ε α} {f : α → Outcome ε β} :
    (x >>= f).ErrorsAre P ↔ x.ErrorsAre P ∧ ∀ a, x = .ok a → (f a).ErrorsAre P := by
  cases x <;> simp [ErrorsAre]

@[simp] theorem errorsAre_map {f : α → β} {x : Outcome ε α} :
    (f <$> x).ErrorsAre P ↔ x.ErrorsAre P := by
  simp [ErrorsAre, map_eq_error]

@[simp] theorem errorsAre_require {p : Prop} [Decidable p] {e : ε} :
    (require p e).ErrorsAre P ↔ (¬p → P e) := by
  simp only [ErrorsAre, require_eq_error]
  exact ⟨fun h hp => h e ⟨hp, rfl⟩, fun h e' ⟨hp, he⟩ => he ▸ h hp⟩

@[simp] theorem errorsAre_ofOption {e : ε} {x : Option α} :
    (ofOption e x).ErrorsAre P ↔ (x = none → P e) := by
  simp only [ErrorsAre, ofOption_eq_error]
  exact ⟨fun h hx => h e ⟨hx, rfl⟩, fun h e' ⟨hx, he⟩ => he ▸ h hx⟩

@[simp] theorem errorsAre_ofChecked (x : Checked α) : (ofChecked x : Outcome ε α).ErrorsAre P := by
  simp [ErrorsAre]

@[simp] theorem errorsAre_mapError {P' : ε' → Prop} {f : ε → ε'} {x : Outcome ε α} :
    (x.mapError f).ErrorsAre P' ↔ x.ErrorsAre fun e => P' (f e) := by
  simp [ErrorsAre]

@[simp] theorem errorsAre_true (x : Outcome ε α) : x.ErrorsAre fun _ => True := fun _ _ => trivial

/-- The steps for the items end in an error of one of them. -/
theorem errorsAre_mapM {step : α → Outcome ε β} {items : List α}
    (h : ∀ item ∈ items, (step item).ErrorsAre P) : (items.mapM step).ErrorsAre P := by
  intro e he
  obtain ⟨before, item, after, rfl, -, hitem⟩ := mapM_eq_error.1 he
  exact h item (by simp) e hitem

end

/-! ## Whether a computation faults -/

/-- The computation is abandoned. -/
def Faults (x : Outcome ε α) : Prop := ∃ t, x = .fault t

@[simp] theorem not_faults_ok (a : α) : ¬(Outcome.ok a : Outcome ε α).Faults := nofun

@[simp] theorem not_faults_error (e : ε) : ¬(Outcome.error e : Outcome ε α).Faults := nofun

@[simp] theorem faults_fault (t : Fault) : (Outcome.fault t : Outcome ε α).Faults := ⟨t, rfl⟩

/-- A sequence is abandoned in its first step, or in the second on what the first yields. -/
@[simp] theorem faults_bind {x : Outcome ε α} {f : α → Outcome ε β} :
    (x >>= f).Faults ↔ x.Faults ∨ ∃ a, x = .ok a ∧ (f a).Faults := by
  cases x <;> simp

theorem not_faults_of_ne_fault {x : Outcome ε α} (h : ∀ t, x ≠ .fault t) : ¬x.Faults :=
  fun ⟨t, ht⟩ => h t ht

/-- A computation that neither yields a value nor is abandoned ends in an error. -/
theorem exists_eq_error {x : Outcome ε α} (hok : ∀ a, x ≠ .ok a) (hfault : ¬x.Faults) :
    ∃ e, x = .error e := by
  cases x with
  | ok a => exact absurd rfl (hok a)
  | error e => exact ⟨e, rfl⟩
  | fault t => exact absurd (faults_fault t) hfault

/-! ## What faults can be -/

/-- Whichever fault abandons the computation has the property. -/
def FaultsAre (P : Fault → Prop) (x : Outcome ε α) : Prop := ∀ t, x = .fault t → P t

section

variable {P : Fault → Prop}

@[simp] theorem faultsAre_ok (a : α) : (Outcome.ok a : Outcome ε α).FaultsAre P := nofun

@[simp] theorem faultsAre_error (e : ε) : (Outcome.error e : Outcome ε α).FaultsAre P := nofun

/-- A sequence is abandoned by a fault of its first step, or of the second on what the first
    yields. -/
@[simp] theorem faultsAre_bind {x : Outcome ε α} {f : α → Outcome ε β} :
    (x >>= f).FaultsAre P ↔ x.FaultsAre P ∧ ∀ a, x = .ok a → (f a).FaultsAre P := by
  cases x <;> simp [FaultsAre]

/-- A computation that never faults. -/
theorem faultsAre_of_ne_fault {x : Outcome ε α} (h : ∀ t, x ≠ .fault t) : x.FaultsAre P :=
  fun t ht => absurd ht (h t)

@[simp] theorem faultsAre_require {p : Prop} [Decidable p] {e : ε} :
    (require p e).FaultsAre P :=
  faultsAre_of_ne_fault fun _ => require_ne_fault

@[simp] theorem faultsAre_ofChecked {x : Checked α} :
    (ofChecked x : Outcome ε α).FaultsAre P ↔ ∀ t, x = .error t → P t := by
  simp [FaultsAre]

/-- The steps for the items are abandoned by a fault of one of them. -/
theorem faultsAre_mapM {step : α → Outcome ε β} {items : List α}
    (h : ∀ item ∈ items, (step item).FaultsAre P) : (items.mapM step).FaultsAre P := by
  induction items with
  | nil => exact faultsAre_ok []
  | cons item items ih =>
      obtain ⟨hitem, hrest⟩ := List.forall_mem_cons.1 h
      rw [List.mapM_cons, faultsAre_bind]
      refine ⟨hitem, fun value _ => ?_⟩
      rw [faultsAre_bind]
      exact ⟨ih hrest, fun values _ => faultsAre_ok _⟩

/-- Steps none of which is abandoned are not abandoned together. -/
theorem mapM_ne_fault {step : α → Outcome ε β} {items : List α} {t : Fault}
    (h : ∀ item ∈ items, ∀ t, step item ≠ .fault t) : items.mapM step ≠ .fault t :=
  faultsAre_mapM (P := fun _ => False) (fun item hitem t ht => h item hitem t ht) t

end

end Outcome

end TensorLowering
