import OnePassJit.Ir.Module
import OnePassJit.Config

/-!
What an instruction set backend provides, and the one-pass compilation of a function
through it.

A function body is lowered in a single pass over its operations. Binding a label that
no branch reaches makes the operations after it, up to the next label, dead: they are
skipped and not counted. With termination checks on, every loop header that is
reached first checks the module's exit status.
-/

namespace OnePassJit

/-- A backend, over the state `σ` it keeps while compiling one function; `α` is what it
keeps of a finished function besides its bytes. -/
structure Backend (σ α : Type) where
  start : FunctionIr → CompilerConfig → Except CompileError σ
  /-- Entry sequence of a function with a body. -/
  preamble : StateT σ (Except CompileError) Unit
  /-- Whole body of a host function. -/
  host : StateT σ (Except CompileError) Unit
  /-- Bind a label; answers whether no branch reaches it. -/
  bindLabel : Label → StateT σ (Except CompileError) Bool
  checkExitCode : StateT σ (Except CompileError) Unit
  lower : Operation → StateT σ (Except CompileError) Unit
  spills : σ → Nat
  /-- The machine code, the stack ceiling in slots and the listing. -/
  finish : σ → Except CompileError (ByteArray × Nat × α)

/-- Machine code of one compiled function, with the backend's listing of it. -/
structure CompiledCode (α : Type) where
  code : ByteArray
  /-- Deepest value stack the function needs, in slots. -/
  ceil : Nat
  spills : Nat
  /-- Operations lowered, labels and dead code not counted. -/
  lowered : Nat
  listing : α

namespace Backend

variable {σ α : Type}

def lowerBody (b : Backend σ α) (ensureTermination : Bool) (ops : List Operation) :
    StateT σ (Except CompileError) Nat := do
  let mut skip := false
  let mut lowered := 0
  for op in ops do
    match op with
    | .label l =>
      skip ← b.bindLabel l
      if !skip && ensureTermination && l.kind == .header then b.checkExitCode
    | op =>
      if !skip then
        b.lower op
        lowered := lowered + 1
  pure lowered

def compileFunction (b : Backend σ α) (ir : FunctionIr) (cfg : CompilerConfig) :
    Except CompileError (CompiledCode α) := do
  let s ← b.start ir cfg
  let body : StateT σ (Except CompileError) Nat :=
    if ir.isHost then do
      b.host
      pure 0
    else do
      b.preamble
      b.lowerBody cfg.ensureTermination ir.operations
  let (lowered, s) ← body.run s
  let spills := b.spills s
  let (code, ceil, listing) ← b.finish s
  if code.isEmpty then throw (.codeGeneration .noCode)
  pure { code, ceil, spills, lowered, listing }

end Backend

end OnePassJit
