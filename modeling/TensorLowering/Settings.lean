import TensorLowering.Log

set_option autoImplicit false

/-! # Settings

Two flags govern a run. They are read from text, where the usual spellings of true and false are
accepted; any other text counts as false and is reported. -/

namespace TensorLowering

/-- The flags of a run. -/
structure Settings where
  /-- Report how many nodes were lowered. -/
  verbose : Bool := false
  /-- Lower the nodes of a schedule on workers. -/
  parallel : Bool := false
deriving DecidableEq, Repr

/-- The spellings of true. -/
def trueSpellings : List String := ["1", "true", "t", "yes", "y"]

/-- The spellings of false. -/
def falseSpellings : List String := ["0", "false", "f", "no", "n"]

/-- The truth value that a text spells. -/
def flagOfText? (text : String) : Option Bool :=
  if text ∈ trueSpellings then some true
  else if text ∈ falseSpellings then some false
  else none

/-- The value of a flag that may be set to a text, and what there is to report about it. -/
def flagSetting : Option String → Bool × List LogEvent
  | none => (false, [])
  | some text =>
      match flagOfText? text with
      | some value => (value, [])
      | none => (false, [.unrecognizedFlag text])

/-- The settings given by the texts of the two flags, and what there is to report. -/
def Settings.ofTexts (verbose parallel : Option String) : Settings × List LogEvent :=
  let (verbose, verboseEvents) := flagSetting verbose
  let (parallel, parallelEvents) := flagSetting parallel
  ({ verbose, parallel }, verboseEvents ++ parallelEvents)

end TensorLowering
