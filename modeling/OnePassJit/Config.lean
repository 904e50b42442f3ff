import OnePassJit.Error

/-!
Compiler configuration: the target instruction set and optional lowering features.
-/

namespace OnePassJit

/-- Target instruction set. -/
inductive Arch where
  | amd64
  | arm64
  deriving DecidableEq, Repr, Inhabited

def Arch.name : Arch → String
  | .amd64 => "amd64"
  | .arm64 => "arm64"

/-- Optional amd64 extensions the backend can use. -/
structure Features where
  sse41 : Bool := true
  popcnt : Bool := true
  lzcnt : Bool := false
  tzcnt : Bool := false
  deriving DecidableEq, Repr, Inhabited

/-- Fails when an extension amd64 code cannot do without is missing; SSE4.1 is
checked first. -/
def Features.checkRequired (f : Features) : Except CompileError Unit :=
  if !f.sse41 then .error (.unsupportedFeature "sse4.1")
  else if !f.popcnt then .error (.unsupportedFeature "popcnt")
  else .ok ()

/-- Compiler configuration. -/
structure CompilerConfig where
  arch : Arch := .amd64
  /-- Call the listener builtins before and after every function body. -/
  listener : Bool := false
  /-- Check the module exit code at every loop header. -/
  ensureTermination : Bool := false
  /-- Worker count of a module compilation; it never changes the outcome. -/
  parallelism : Nat := 1
  features : Features := {}
  deriving DecidableEq, Repr, Inhabited

end OnePassJit
