/-!
Why generated code hands control back to the host.

Before returning to the host, generated code writes a status into its call context: a
normal return, a request to run a host function or a builtin routine, or the trap it
detected. Raw values outside the known range decode to nothing.
-/

namespace OnePassJit

/-- Failure detected by generated code. -/
inductive TrapKind where
  | unreachable
  | invalidConversion
  | memoryOutOfBounds
  | invalidTableAccess
  | indirectCallTypeMismatch
  | integerOverflow
  | integerDivisionByZero
  deriving DecidableEq, Repr, Inhabited

namespace TrapKind

def name : TrapKind → String
  | .unreachable => "Unreachable"
  | .invalidConversion => "InvalidFloatToIntConversion"
  | .memoryOutOfBounds => "MemoryOutOfBounds"
  | .invalidTableAccess => "InvalidTableAccess"
  | .indirectCallTypeMismatch => "TypeMismatchOnIndirectCall"
  | .integerOverflow => "IntegerOverflow"
  | .integerDivisionByZero => "IntegerDivisionByZero"

def message : TrapKind → String
  | .unreachable => "unreachable"
  | .invalidConversion => "invalid conversion to integer"
  | .memoryOutOfBounds => "out of bounds memory access"
  | .invalidTableAccess => "invalid table access"
  | .indirectCallTypeMismatch => "indirect call type mismatch"
  | .integerOverflow => "integer overflow"
  | .integerDivisionByZero => "integer divide by zero"

end TrapKind

/-- Status written by generated code before it exits. -/
inductive Status where
  | returned
  | callHost
  | callBuiltin
  | trap (kind : TrapKind)
  | moduleClosed
  deriving DecidableEq, Repr, Inhabited

namespace Status

def code : Status → UInt32
  | .returned => 0
  | .callHost => 1
  | .callBuiltin => 2
  | .trap .unreachable => 3
  | .trap .invalidConversion => 4
  | .trap .memoryOutOfBounds => 5
  | .trap .invalidTableAccess => 6
  | .trap .indirectCallTypeMismatch => 7
  | .trap .integerOverflow => 8
  | .trap .integerDivisionByZero => 9
  | .moduleClosed => 10

def all : List Status :=
  [.returned, .callHost, .callBuiltin, .trap .unreachable, .trap .invalidConversion,
    .trap .memoryOutOfBounds, .trap .invalidTableAccess, .trap .indirectCallTypeMismatch,
    .trap .integerOverflow, .trap .integerDivisionByZero, .moduleClosed]

def ofCode? (raw : UInt32) : Option Status := all.find? (·.code == raw)

def name : Status → String
  | .returned => "Returned"
  | .callHost => "CallHostFunction"
  | .callBuiltin => "CallBuiltinFunction"
  | .trap k => k.name
  | .moduleClosed => "ModuleClosed"

def trapKind? : Status → Option TrapKind
  | .trap k => some k
  | _ => none

theorem ofCode?_code (s : Status) : ofCode? s.code = some s := by
  rcases s with _ | _ | _ | k | _ <;> try rfl
  cases k <;> rfl

end Status

/-- Host routines generated code reaches through the builtin exit. -/
inductive Builtin where
  | memoryGrow
  | growStack
  | tableGrow
  | listenerBefore
  | listenerAfter
  | checkExitCode
  deriving DecidableEq, Repr, Inhabited

namespace Builtin

def code : Builtin → UInt32
  | .memoryGrow => 0
  | .growStack => 1
  | .tableGrow => 2
  | .listenerBefore => 3
  | .listenerAfter => 4
  | .checkExitCode => 5

def all : List Builtin :=
  [.memoryGrow, .growStack, .tableGrow, .listenerBefore, .listenerAfter, .checkExitCode]

def ofCode? (raw : UInt32) : Option Builtin := all.find? (·.code == raw)

def name : Builtin → String
  | .memoryGrow => "MemoryGrow"
  | .growStack => "GrowStack"
  | .tableGrow => "TableGrow"
  | .listenerBefore => "FunctionListenerBefore"
  | .listenerAfter => "FunctionListenerAfter"
  | .checkExitCode => "CheckExitCode"

theorem ofCode?_code (b : Builtin) : ofCode? b.code = some b := by
  cases b <;> rfl

end Builtin

end OnePassJit
