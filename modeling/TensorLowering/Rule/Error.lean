import TensorLowering.Binary32.Decimal
import TensorLowering.Id
import TensorLowering.Operator.Attribute
import TensorLowering.Operator.Kind
import TensorLowering.Value

set_option autoImplicit false

/-! # Why a rule refuses an operator

Each cause is a value that carries what its message shows; the wording is in the `message` functions
alone. Rules that are not part of the library may give a text of their own (`other`). -/

namespace TensorLowering

/-- The attributes that an error can be about. -/
inductive AttributeName where
  | a
  | activation
  | axes
  | axis
  | b
  | bias
  | dilation (spatial : SpatialAxis)
  | filter (spatial : SpatialAxis)
  | groups
  | input
  | inputs
  | padding (spatial : SpatialAxis)
  | perm
  | stride (spatial : SpatialAxis)
  | weights
  /-- An attribute of a rule outside the library. -/
  | other (name : String)
deriving DecidableEq, Repr

namespace AttributeName

/-- How the name of an attribute ends that there is for each spatial axis. -/
def spatialSuffix : SpatialAxis → String
  | .height => "_h"
  | .width => "_w"

/-- The attribute as messages show it. -/
def text : AttributeName → String
  | .a => "a"
  | .activation => "fused_activation"
  | .axes => "axes"
  | .axis => "axis"
  | .b => "b"
  | .bias => "bias"
  | .dilation spatial => "dilation" ++ spatialSuffix spatial
  | .filter spatial => "filter" ++ spatialSuffix spatial
  | .groups => "groups"
  | .input => "input"
  | .inputs => "inputs"
  | .padding spatial => "padding" ++ spatialSuffix spatial
  | .perm => "perm"
  | .stride spatial => "stride" ++ spatialSuffix spatial
  | .weights => "weights"
  | .other name => name

end AttributeName

/-- What is wrong with an attribute. -/
inductive AttributeCause where
  /-- The value does not fit its record field. -/
  | tooLarge
  /-- The value is zero where at least one is needed. -/
  | zero
  /-- A list of values is empty. -/
  | noInputs
  /-- The value does not fit the shapes that it is used with. -/
  | shape (error : ShapeError)
  /-- The weights of a convolution do not have the four dimensions of a kernel. -/
  | notKernel
  /-- The channels cannot be divided into groups. -/
  | unevenGroups
  /-- A constant has another number of elements than the operator needs. -/
  | valueCount (expected found : Nat)
  /-- No window fits into the padded axis. -/
  | windowTooLarge (padded extent : Int)
  /-- The interval of a clamping is empty or has an end that is no number. -/
  | clampRange (low high : Binary32)
  /-- A cause of a rule outside the library. -/
  | other (text : String)
deriving DecidableEq, Repr

/-- The text of what is wrong with an attribute. -/
def AttributeCause.message : AttributeCause → String
  | .tooLarge => "value too large"
  | .zero => "must be at least 1"
  | .noInputs => "at least one input is required"
  | .shape error => error.message
  | .notKernel => "must have 4 dims"
  | .unevenGroups => "must divide input and output channel counts"
  | .valueCount expected found => s!"expected {expected} values, found {found}"
  | .windowTooLarge padded extent =>
      s!"padded input size {decimal padded} is smaller than window size {decimal extent}"
  | .clampRange low high => s!"invalid clamp range [{low.text}, {high.text}]"
  | .other text => text

/-- What an output shape is compared with. -/
inductive ExpectedShape where
  | computed
  | broadcast
  | reduced
  | input
  | permutedInput
deriving DecidableEq, Repr

/-- The words before an expected shape. -/
def ExpectedShape.text : ExpectedShape → String
  | .computed => ""
  | .broadcast => "broadcast shape "
  | .reduced => "reduced shape "
  | .input => "input shape "
  | .permutedInput => "permuted input shape "

/-- What is wrong with the shapes of an operator's values. -/
inductive ShapeMismatch where
  /-- A shape cannot be brought into the form that a record holds. -/
  | shape (error : ShapeError)
  /-- The operands do not broadcast. -/
  | notBroadcastable (a b : Shape)
  /-- The output has another shape than the operator makes. -/
  | output (found : Shape) (role : ExpectedShape) (expected : Shape)
  /-- An input of a concatenation differs from the output on another axis. -/
  | concatInput (part whole : Shape) (axis : Nat)
  /-- The inputs of a concatenation do not add up to the output. -/
  | concatTotal (sizes : List Nat) (axis total : Nat)
  /-- The input does not have the four dimensions of a batch of images. -/
  | notImages (input : Shape)
  /-- The weights are for another number of channels than the input has. -/
  | channels (perGroup input groups : Nat)
  /-- An operand is not a matrix. -/
  | notMatrix (operand : ValueId) (found : Shape)
  /-- The columns of the first matrix are not as many as the rows of the second. -/
  | innerSizes (columns rows : Nat)
  /-- A cause of a rule outside the library. -/
  | other (text : String)
deriving DecidableEq

/-- The text of what is wrong with shapes. -/
def ShapeMismatch.message : ShapeMismatch → String
  | .shape error => error.message
  | .notBroadcastable a b => s!"cannot broadcast {a.text} with {b.text}"
  | .output found role expected =>
      s!"output shape {found.text} does not match {role.text}{expected.text}"
  | .concatInput part whole axis =>
      s!"input shape {part.text} does not match output shape {whole.text} outside axis {axis}"
  | .concatTotal sizes axis total =>
      s!"input sizes {listingOfNats sizes} along axis {axis} do not sum to output size {total}"
  | .notImages input => s!"input must have 4 dims but has shape {input.text}"
  | .channels perGroup input groups =>
      s!"weights expect {perGroup} input channels per group " ++
        s!"but input has {input} channels in {groups} groups"
  | .notMatrix operand found =>
      s!"matmul operand {operand.text} must have 2 dims but has shape {found.text}"
  | .innerSizes columns rows => s!"columns of A ({columns}) do not match rows of B ({rows})"
  | .other text => text

/-- Why a rule refuses an operator. -/
inductive RuleError where
  | invalidAttribute (name : AttributeName) (cause : AttributeCause)
  | incompatibleShapes (cause : ShapeMismatch)
  /-- The oracle has no range for the value. -/
  | unresolvedAllocation (value : ValueId)
  /-- The graph has no such value. -/
  | unknownValue (value : ValueId)
  /-- The value has elements of a type that the operator does not take. -/
  | unsupportedType (value : ValueId) (found : ElementType)
  /-- The rule is for another kind of operator. -/
  | kindMismatch (expected actual : Operator.Kind)
deriving DecidableEq

namespace RuleError

/-- The text of a rule error. -/
def message : RuleError → String
  | .invalidAttribute name cause =>
      "error in attribute \"" ++ name.text ++ "\": " ++ cause.message
  | .incompatibleShapes cause => "incompatible shapes: " ++ cause.message
  | .unresolvedAllocation value => s!"no memory range allocated for value {value.text}"
  | .unknownValue value => s!"value {value.text} not found in graph"
  | .unsupportedType value found => s!"value {value.text} has unsupported type {found.text}"
  | .kindMismatch expected actual =>
      s!"rule for {expected.name} invoked with {actual.name} operator"

/-- A shape error that is not about an attribute. -/
def ofShape (error : ShapeError) : RuleError := .incompatibleShapes (.shape error)

/-- A shape error that is about an attribute. -/
def ofAttribute (name : AttributeName) (error : ShapeError) : RuleError :=
  .invalidAttribute name (.shape error)

end RuleError

end TensorLowering
