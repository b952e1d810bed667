import TensorLowering.Graph
import TensorLowering.Memory
import TensorLowering.Outcome
import TensorLowering.Record
import TensorLowering.Rule.Error

set_option autoImplicit false

/-! # What rules can see

A rule sees the values of the graph and the ranges of the oracle through two look-ups, and nothing
else: no other node, and no value but those it asks for. -/

namespace TensorLowering

/-- The look-ups that rules work with. -/
structure Context where
  value? : ValueId → Option Value
  range? : Oracle

/-- The look-ups of a graph and an oracle. -/
def Graph.context (graph : Graph) (oracle : Oracle) : Context where
  value? := graph.value?
  range? := oracle

/-- A lowering rule: the record for an operator, or why there is none. -/
abbrev Rule := Operator → Context → Outcome RuleError Record

namespace Context

variable (context : Context)

/-- The range of a value. -/
def range (id : ValueId) : Outcome RuleError MemoryRange :=
  Outcome.ofOption (.unresolvedAllocation id) (context.range? id)

/-- What the graph knows of a value. -/
def value (id : ValueId) : Outcome RuleError Value :=
  Outcome.ofOption (.unknownValue id) (context.value? id)

/-- The shape of a value. -/
def shape (id : ValueId) : Outcome RuleError Shape := Value.shape <$> context.value id

/-- What the graph knows of a value whose elements have to be of a given type. -/
def typedValue (id : ValueId) (expected : ElementType) : Outcome RuleError Value := do
  let value ← context.value id
  Outcome.require (value.elementType = expected) (.unsupportedType id value.elementType)
  return value

/-- What rules can tell about a value: its shape and the type of its elements. -/
def signature? (id : ValueId) : Option (Shape × ElementType) :=
  (context.value? id).map fun value => (value.shape, value.elementType)

/-- Rules that ask for none but the given values cannot tell the two contexts apart. -/
def AgreeOn (ids : List ValueId) (a b : Context) : Prop :=
  ∀ id ∈ ids, a.signature? id = b.signature? id ∧ a.range? id = b.range? id

/-- What is known in the context is known alike in the later one. -/
structure Extends (context later : Context) : Prop where
  value?_eq : ∀ id value, context.value? id = some value → later.value? id = some value
  range?_eq : ∀ id range, context.range? id = some range → later.range? id = some range

variable {context}

@[simp] theorem range_eq_ok {id : ValueId} {range : MemoryRange} :
    context.range id = .ok range ↔ context.range? id = some range := by
  simp [Context.range]

@[simp] theorem range_eq_error {id : ValueId} {e : RuleError} :
    context.range id = .error e ↔
      context.range? id = none ∧ RuleError.unresolvedAllocation id = e := by
  simp [Context.range]

@[simp] theorem range_ne_fault {id : ValueId} {t : Fault} : context.range id ≠ .fault t := by
  simp [Context.range]

/-- The ranges of values, where each has one. -/
theorem mapM_range_eq_ok {ids : List ValueId} {ranges : List MemoryRange} :
    ids.mapM context.range = .ok ranges ↔ ids.map context.range? = ranges.map some := by
  rw [Outcome.mapM_eq_ok]
  induction ids generalizing ranges with
  | nil => cases ranges <;> simp
  | cons id ids ih => cases ranges with
    | nil => simp
    | cons range ranges =>
        rw [List.map_cons, List.map_cons, List.cons.injEq, range_eq_ok, ih, List.map_cons,
          List.map_cons, List.cons.injEq]

@[simp] theorem value_eq_ok {id : ValueId} {value : Value} :
    context.value id = .ok value ↔ context.value? id = some value := by
  simp [Context.value]

@[simp] theorem value_eq_error {id : ValueId} {e : RuleError} :
    context.value id = .error e ↔ context.value? id = none ∧ RuleError.unknownValue id = e := by
  simp [Context.value]

@[simp] theorem value_ne_fault {id : ValueId} {t : Fault} : context.value id ≠ .fault t := by
  simp [Context.value]

@[simp] theorem shape_eq_ok {id : ValueId} {shape : Shape} :
    context.shape id = .ok shape ↔
      ∃ value, context.value? id = some value ∧ value.shape = shape := by
  simp [Context.shape, Outcome.map_eq_ok]

theorem shape_eq_ok_iff_map {id : ValueId} {shape : Shape} :
    context.shape id = .ok shape ↔ (context.value? id).map Value.shape = some shape := by
  rw [shape_eq_ok, Option.map_eq_some_iff]

@[simp] theorem shape_eq_error {id : ValueId} {e : RuleError} :
    context.shape id = .error e ↔ context.value? id = none ∧ RuleError.unknownValue id = e := by
  unfold Context.shape Context.value
  cases context.value? id <;> simp [Outcome.ofOption]

@[simp] theorem typedValue_eq_ok {id : ValueId} {expected : ElementType} {value : Value} :
    context.typedValue id expected = .ok value ↔
      context.value? id = some value ∧ value.elementType = expected := by
  simp only [typedValue, Outcome.bind_eq_ok, value_eq_ok, Outcome.require_eq_ok,
    Outcome.pure_eq_ok, Outcome.ok.injEq]
  constructor
  · rintro ⟨_, hvalue, _, htype, rfl⟩
    exact ⟨hvalue, htype⟩
  · rintro ⟨hvalue, htype⟩
    exact ⟨value, hvalue, (), htype, rfl⟩

theorem isSome_value?_of_shape {id : ValueId} {shape : Shape} (h : context.shape id = .ok shape) :
    (context.value? id).isSome := by
  obtain ⟨value, hvalue, -⟩ := shape_eq_ok.1 h
  exact Option.isSome_of_eq_some hvalue

theorem isSome_value?_of_elementType {id : ValueId} {elementType : ElementType}
    (h : (context.value? id).map Value.elementType = some elementType) :
    (context.value? id).isSome := by
  rw [← Option.isSome_map, h]
  rfl

/-- The shape of a value is part of its signature. -/
theorem shape_eq_signature (id : ValueId) :
    context.shape id =
      Outcome.ofOption (.unknownValue id) ((context.signature? id).map Prod.fst) := by
  unfold Context.shape Context.value signature?
  cases context.value? id <;> rfl

/-- A context agrees with a later one on values of which it knows everything. -/
theorem Extends.agreeOn {ids : List ValueId} {later : Context} (h : context.Extends later)
    (hvalues : ∀ id ∈ ids, (context.value? id).isSome)
    (hranges : ∀ id ∈ ids, (context.range? id).isSome) : AgreeOn ids context later := by
  intro id hid
  obtain ⟨value, hvalue⟩ := Option.isSome_iff_exists.1 (hvalues id hid)
  obtain ⟨range, hrange⟩ := Option.isSome_iff_exists.1 (hranges id hid)
  rw [signature?, signature?, hvalue, hrange, h.value?_eq id value hvalue,
    h.range?_eq id range hrange]
  exact ⟨rfl, rfl⟩

section

variable {ids : List ValueId} {a b : Context} (h : AgreeOn ids a b) {id : ValueId} (hid : id ∈ ids)

include h hid

theorem AgreeOn.range_eq : a.range id = b.range id := by
  rw [Context.range, Context.range, (h id hid).2]

theorem AgreeOn.shape_eq : a.shape id = b.shape id := by
  rw [shape_eq_signature, shape_eq_signature, (h id hid).1]

/-- What is done with a value ends alike if it uses no more than the signature of the value. -/
theorem AgreeOn.value_bind {α : Type} {f g : Value → Outcome RuleError α}
    (hfg : ∀ v w : Value, v.shape = w.shape → v.elementType = w.elementType → f v = g w) :
    (a.value id >>= f) = (b.value id >>= g) := by
  have hsignature := (h id hid).1
  unfold signature? at hsignature
  unfold Context.value
  cases hv : a.value? id with
  | none =>
      rw [hv, Option.map_none, eq_comm, Option.map_eq_none_iff] at hsignature
      rw [hsignature]
      rfl
  | some v =>
      rw [hv, Option.map_some, eq_comm, Option.map_eq_some_iff] at hsignature
      obtain ⟨w, hw, hvw⟩ := hsignature
      rw [hw]
      obtain ⟨hshape, htype⟩ := Prod.mk.inj hvw
      exact hfg v w hshape.symm htype.symm

theorem AgreeOn.typedValue_bind {α : Type} {expected : ElementType}
    {f g : Value → Outcome RuleError α}
    (hfg : ∀ v w : Value, v.shape = w.shape → v.elementType = w.elementType → f v = g w) :
    (a.typedValue id expected >>= f) = (b.typedValue id expected >>= g) := by
  simp only [typedValue, bind_assoc, pure_bind]
  refine h.value_bind hid fun v w hshape htype => ?_
  rw [htype, hfg v w hshape htype]

end

@[simp] theorem shape_ne_fault {id : ValueId} {t : Fault} : context.shape id ≠ .fault t := by
  unfold Context.shape Context.value
  cases context.value? id <;> simp [Outcome.ofOption]

end Context

end TensorLowering
