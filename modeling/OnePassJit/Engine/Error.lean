import OnePassJit.Config
import OnePassJit.Exit
import OnePassJit.Amd64.Machine.Step

/-!
Engine settings and the ways running a module can fail.

A trap carries the function indices of the frames that were active, innermost first;
a trap found while instantiating has none. Compile errors pass through unchanged.
-/

namespace OnePassJit

/-- Engine settings. -/
structure EngineConfig where
  /-- Initial value stack length in slots. -/
  initialStackSlots : Nat := 1024
  /-- Stacks longer than this many slots are not grown any further. -/
  callStackCeiling : Nat := 5000000
  compiler : CompilerConfig := {}
  deriving Inhabited

/-- Failure while instantiating or running a module. -/
inductive ExecutionError where
  | trap (kind : TrapKind) (frames : List Nat)
  | stackOverflow
  | moduleClosed (exitCode : UInt32)
  | compile (e : CompileError)
  | invalidArguments (reason : String)
  | unknownFunction (index : UInt32)
  | unsupported (reason : String)
  /-- The running function is not one of the instance's. -/
  | foreignFunction (ref : UInt64)
  /-- The machine stopped on something generated code never does. -/
  | fault (f : Amd64.Fault)
  deriving Inhabited

namespace ExecutionError

def kind : ExecutionError → String
  | .trap .. => "Trap"
  | .stackOverflow => "StackOverflow"
  | .moduleClosed _ => "ModuleClosed"
  | .compile e => e.kind
  | .invalidArguments _ => "InvalidArguments"
  | .unknownFunction _ => "UnknownFunction"
  | .unsupported _ | .foreignFunction _ => "Unsupported"
  | .fault _ => "Crash"

def message : ExecutionError → String
  | .trap k _ => k.message
  | .stackOverflow => "stack overflow"
  | .moduleClosed c => s!"module closed with exit code {c}"
  | .compile e => e.message
  | .invalidArguments r => s!"Invalid arguments: {r}"
  | .unknownFunction i => s!"Unknown function {i}"
  | .unsupported r => s!"Unsupported: {r}"
  | .foreignFunction f => s!"Unsupported: foreign function {hexDigits f.toNat}"
  | .fault (.divide) => "signal 8"
  | .fault (.trapInstruction) => "signal 4"
  | .fault (.outOfSteps) => "timeout"
  | .fault _ => "signal 11"

end ExecutionError

end OnePassJit
