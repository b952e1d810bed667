import TensorLowering.Graph
import TensorLowering.Rule.Error

set_option autoImplicit false

/-! # Diagnostics

A diagnostic says which scheduled node could not be lowered and why. Its category is what a caller
acts on: a registry without the kind, an operator at odds with itself, an allocation that does not
cover the graph, or a graph that refers to what it does not hold. -/

namespace TensorLowering

/-- Why a schedule could not be lowered. -/
inductive Diagnostic where
  /-- The graph has no such node. -/
  | invalidNode (node : NodeId)
  /-- The registry has no entry for the node's kind. -/
  | unsupported (node : NodeId) (name : Option String) (kind : Operator.Kind)
  /-- The rule refused the node's operator, or a value of an elided node has no range. -/
  | refused (node : NodeId) (name : Option String) (kind : Operator.Kind) (cause : RuleError)
deriving DecidableEq

/-- What a diagnostic is about. -/
inductive DiagnosticCategory where
  | unsupportedOperator
  | malformedAttributes
  | unresolvedAllocation
  | invalidGraph
deriving DecidableEq, Repr

namespace Diagnostic

/-- The diagnostic of a node whose kind has no entry. -/
def ofUnsupported (id : NodeId) (node : Node) : Diagnostic := .unsupported id node.name node.kind

/-- The diagnostic of a node whose operator was refused. -/
def ofRefused (id : NodeId) (node : Node) (cause : RuleError) : Diagnostic :=
  .refused id node.name node.kind cause

/-- The node that could not be lowered. -/
def node : Diagnostic → NodeId
  | .invalidNode node => node
  | .unsupported node .. => node
  | .refused node .. => node

/-- Its name, if it exists and has one. -/
def nodeName? : Diagnostic → Option String
  | .invalidNode _ => none
  | .unsupported _ name _ => name
  | .refused _ name .. => name

/-- Its kind, if it exists. -/
def kind? : Diagnostic → Option Operator.Kind
  | .invalidNode _ => none
  | .unsupported _ _ kind => some kind
  | .refused _ _ kind _ => some kind

/-- Why the operator was refused, if that is the reason. -/
def cause? : Diagnostic → Option RuleError
  | .refused _ _ _ cause => some cause
  | _ => none

/-- The category of a refusal. A rule that is registered for another kind than its own makes that
    kind unsupported. -/
def categoryOf : RuleError → DiagnosticCategory
  | .unresolvedAllocation _ => .unresolvedAllocation
  | .unknownValue _ => .invalidGraph
  | .kindMismatch .. => .unsupportedOperator
  | .invalidAttribute .. | .incompatibleShapes _ | .unsupportedType .. => .malformedAttributes

/-- What the diagnostic is about. -/
def category : Diagnostic → DiagnosticCategory
  | .invalidNode _ => .invalidGraph
  | .unsupported .. => .unsupportedOperator
  | .refused _ _ _ cause => categoryOf cause

/-- A node as diagnostics show it. -/
def describe (node : NodeId) (name : Option String) (kind : Operator.Kind) : String :=
  "node " ++ node.text ++ " (" ++ kind.name ++ Node.nameSuffix name ++ ")"

/-- The text of a diagnostic. -/
def message : Diagnostic → String
  | .invalidNode node => s!"node ID {node.text} is invalid"
  | .unsupported node name kind =>
      "unsupported operator: " ++ describe node name kind ++ " has no lowering rule"
  | .refused node name kind cause =>
      describe node name kind ++ " failed to lower: " ++ cause.message

end Diagnostic

end TensorLowering
