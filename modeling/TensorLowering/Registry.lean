import TensorLowering.Rule.Pointwise
import TensorLowering.Rule.Product
import TensorLowering.Rule.Rearrange
import TensorLowering.Rule.Reduction
import TensorLowering.Rule.Spatial

set_option autoImplicit false

/-! # Which kinds are lowered, and how

A registry says for each kind of operator whether its nodes become records by a rule, are elided, or
are not supported. The library has a rule for every computed kind; the standard registry uses them
and elides the other kinds, which takes thirteen changes to the empty registry
(`Registry.change_standardChanges`). -/

namespace TensorLowering

/-- The rule of the operator's own kind, if the library has one. -/
def Operator.lower? : Operator → Option (Context → Outcome RuleError Record)
  | .binary op => some op.lower
  | .concat op => some op.lower
  | .constant _ => none
  | .conv2d op => some op.lower
  | .dequantize op => some op.lowerDequantize
  | .input _ => none
  | .matMul op => some op.lower
  | .output _ => none
  | .quantize op => some op.lowerQuantize
  | .reduce op => some op.lower
  | .reduceWindow2d op => some op.lower
  | .softmax op => some op.lower
  | .transpose op => some op.lower

/-- The rule for a kind. It refuses operators of other kinds. -/
def Rule.ofKind (kind : Operator.Kind) : Rule := fun op context =>
  match op.lower? with
  | some lower => if op.kind = kind then lower context else .error (.kindMismatch kind op.kind)
  | none => .error (.kindMismatch kind op.kind)

/-- The rule of the library for a kind, if there is one. -/
def Rule.builtin? (kind : Operator.Kind) : Option Rule :=
  if kind.isComputed then some (Rule.ofKind kind) else none

/-- What happens to the nodes of a kind. -/
inductive Handler where
  /-- The rule makes a record of each. -/
  | rule (rule : Rule)
  /-- They make no record. -/
  | elided

/-- What happens to the nodes of each kind; nodes of a kind without entry are not supported. -/
structure Registry where
  handler? : Operator.Kind → Option Handler

namespace Registry

/-- The registry that supports nothing. -/
def empty : Registry := ⟨fun _ => none⟩

/-- The registry in which a kind has another entry. -/
def set (registry : Registry) (kind : Operator.Kind) (handler : Handler) : Registry :=
  ⟨fun other => if other = kind then some handler else registry.handler? other⟩

/-- Lower a kind by a rule. -/
def register (registry : Registry) (kind : Operator.Kind) (rule : Rule) : Registry :=
  registry.set kind (.rule rule)

/-- Elide a kind. -/
def elide (registry : Registry) (kind : Operator.Kind) : Registry := registry.set kind .elided

/-- The kinds that have an entry, in order. -/
def kinds (registry : Registry) : List Operator.Kind :=
  Operator.Kind.all.filter fun kind => (registry.handler? kind).isSome

/-- The registry with the rules of the library, in which the kinds without a rule are elided. -/
def standard : Registry :=
  ⟨fun kind => some (match Rule.builtin? kind with
    | some rule => .rule rule
    | none => .elided)⟩

/-- A step in setting up a registry. -/
inductive Change where
  /-- Lower a kind by a rule. -/
  | register (kind : Operator.Kind) (rule : Rule)
  /-- Elide a kind. -/
  | elide (kind : Operator.Kind)

/-- The kind whose entry a change sets. -/
def Change.kind : Change → Operator.Kind
  | .register kind _ => kind
  | .elide kind => kind

/-- The entry that a change sets. -/
def Change.handler : Change → Handler
  | .register _ rule => .rule rule
  | .elide _ => .elided

/-- The registry after some changes, of which later ones win. -/
def change (registry : Registry) (changes : List Change) : Registry :=
  changes.foldl (fun registry step => registry.set step.kind step.handler) registry

/-- The changes that make the standard registry of the empty one. -/
def standardChanges : List Change :=
  [.register .binary (Rule.ofKind .binary), .register .concat (Rule.ofKind .concat),
    .register .conv2d (Rule.ofKind .conv2d), .register .dequantize (Rule.ofKind .dequantize),
    .register .matMul (Rule.ofKind .matMul), .register .quantize (Rule.ofKind .quantize),
    .register .reduce (Rule.ofKind .reduce),
    .register .reduceWindow2d (Rule.ofKind .reduceWindow2d),
    .register .softmax (Rule.ofKind .softmax), .register .transpose (Rule.ofKind .transpose),
    .elide .input, .elide .output, .elide .constant]

/-- Every rule in the registry is one of the library, though perhaps not under its own kind. -/
def IsBuiltin (registry : Registry) : Prop :=
  ∀ kind rule, registry.handler? kind = some (.rule rule) →
    ∃ other, Rule.builtin? other = some rule

/-! ## Entries -/

@[simp] theorem handler?_set (registry : Registry) (kind other : Operator.Kind)
    (handler : Handler) :
    (registry.set kind handler).handler? other =
      if other = kind then some handler else registry.handler? other := rfl

@[simp] theorem handler?_register (registry : Registry) (kind other : Operator.Kind) (rule : Rule) :
    (registry.register kind rule).handler? other =
      if other = kind then some (.rule rule) else registry.handler? other := rfl

@[simp] theorem handler?_elide (registry : Registry) (kind other : Operator.Kind) :
    (registry.elide kind).handler? other =
      if other = kind then some .elided else registry.handler? other := rfl

/-- The last change to a kind decides its entry. -/
theorem handler?_change (registry : Registry) (changes : List Change) (kind : Operator.Kind) :
    (registry.change changes).handler? kind =
      match changes.reverse.find? (·.kind = kind) with
      | some step => some step.handler
      | none => registry.handler? kind := by
  unfold change
  induction changes generalizing registry with
  | nil => rfl
  | cons step changes ih =>
      rw [List.foldl_cons, ih, List.reverse_cons, List.find?_append]
      cases changes.reverse.find? (·.kind = kind) with
      | some later => rfl
      | none => by_cases h : kind = step.kind <;> simp [h, eq_comm]

/-- Eliding kinds sets the entries of these and of no others. -/
theorem handler?_change_elide (registry : Registry) (kinds : List Operator.Kind)
    (kind : Operator.Kind) :
    (registry.change (kinds.map .elide)).handler? kind =
      if kind ∈ kinds then some .elided else registry.handler? kind := by
  unfold change
  induction kinds generalizing registry with
  | nil => rfl
  | cons first kinds ih =>
      rw [List.map_cons, List.foldl_cons, ih]
      by_cases hrest : kind ∈ kinds
      · simp [hrest]
      · by_cases hfirst : kind = first <;> simp [hrest, hfirst, Change.kind, Change.handler]

theorem mem_kinds {registry : Registry} {kind : Operator.Kind} :
    kind ∈ registry.kinds ↔ (registry.handler? kind).isSome := by
  simp [kinds, Operator.Kind.mem_all]

/-- The standard registry lowers the computed kinds by their rules and elides the others. -/
theorem handler?_standard (kind : Operator.Kind) :
    standard.handler? kind =
      some (if kind.isComputed then .rule (Rule.ofKind kind) else .elided) := by
  cases h : kind.isComputed <;> simp [standard, Rule.builtin?, h]

/-- Rule by rule and kind by kind, the changes to the empty registry leave the standard one. -/
theorem change_standardChanges : empty.change standardChanges = standard := by
  have hentries : (empty.change standardChanges).handler? = standard.handler? := by
    funext kind
    cases kind <;> rfl
  exact congrArg Registry.mk hentries

theorem isBuiltin_standard : standard.IsBuiltin := by
  intro kind rule h
  simp only [standard, Option.some.injEq] at h
  split at h
  · next own hown =>
      cases h
      exact ⟨kind, hown⟩
  · cases h

/-- The standard registry supports every kind. -/
theorem kinds_standard : standard.kinds = Operator.Kind.all := by
  simp [kinds, standard]

end Registry

/-- On an operator of its own kind the rule for a computed kind is that operator's rule. -/
theorem Rule.ofKind_kind {op : Operator} {lower : Context → Outcome RuleError Record}
    (h : op.lower? = some lower) (context : Context) :
    Rule.ofKind op.kind op context = lower context := by
  simp [Rule.ofKind, h]

/-- Where a rule of the library makes a record, the operator's own rule does. -/
theorem Rule.ofKind_eq_ok {kind : Operator.Kind} {op : Operator} {context : Context}
    {record : Record} :
    Rule.ofKind kind op context = .ok record ↔
      op.kind = kind ∧ ∃ lower, op.lower? = some lower ∧ lower context = .ok record := by
  unfold Rule.ofKind
  cases op.lower? with
  | none => simp
  | some lower => by_cases h : op.kind = kind <;> simp [h]

theorem Rule.eq_ofKind_of_builtin? {kind : Operator.Kind} {rule : Rule}
    (h : Rule.builtin? kind = some rule) : rule = Rule.ofKind kind := by
  unfold Rule.builtin? at h
  split at h
  · exact (Option.some.inj h).symm
  · cases h

/-- Exactly the computed operators have a rule of their own. -/
theorem Operator.isSome_lower? (op : Operator) : op.lower?.isSome = op.kind.isComputed := by
  cases op <;> rfl

theorem Operator.isComputed_of_lower? {op : Operator}
    {lower : Context → Outcome RuleError Record} (h : op.lower? = some lower) :
    op.kind.isComputed = true := by
  rw [← op.isSome_lower?, h]
  rfl

end TensorLowering
