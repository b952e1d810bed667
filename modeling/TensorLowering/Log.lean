import TensorLowering.Graph
import TensorLowering.Record

set_option autoImplicit false

/-! # Log events

What a run reports about itself. An event holds what happened; its level and its text are computed
from that. The clock belongs to the outer layer, which hands the elapsed time to the text. -/

namespace TensorLowering

/-- How much an event matters. -/
inductive LogLevel where
  | trace
  | debug
  | info
  | warn
deriving DecidableEq, Repr

/-- The name of a level. -/
def LogLevel.name : LogLevel → String
  | .trace => "TRACE"
  | .debug => "DEBUG"
  | .info => "INFO"
  | .warn => "WARN"

/-- What happened. -/
inductive LogEvent where
  /-- A node was elided. -/
  | elided (id : NodeId) (node : Node)
  /-- A node became a record. -/
  | lowered (id : NodeId) (node : Node) (record : Record)
  /-- A whole schedule was lowered. -/
  | finished (scheduled emitted : Nat) (onWorkers : Bool)
  /-- The text of a flag is neither true nor false. -/
  | unrecognizedFlag (text : String)

namespace LogEvent

/-- How much the event matters. -/
def level : LogEvent → LogLevel
  | .elided .. => .trace
  | .lowered .. => .debug
  | .finished .. => .info
  | .unrecognizedFlag _ => .warn

/-- The text of an event, where `elapsed` shows the milliseconds since the run began. -/
def message (elapsed : String) : LogEvent → String
  | .elided id node => s!"Elided node {id.text} {node.text}"
  | .lowered id node record => s!"Lowered node {id.text} {node.text} to {record.text}"
  | .finished scheduled emitted onWorkers =>
      s!"Lowered {scheduled} nodes to {emitted} instructions in {elapsed}ms" ++
        (if onWorkers then " (parallel)" else "")
  | .unrecognizedFlag text => "Unrecognized boolean value \"" ++ text ++ "\""

/-- The event as a log shows it. -/
def line (elapsed : String) (event : LogEvent) : String :=
  event.level.name ++ " " ++ event.message elapsed

end LogEvent

end TensorLowering
