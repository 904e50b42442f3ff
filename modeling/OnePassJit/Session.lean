import OnePassJit.Amd64.Lower
import OnePassJit.Arm64.Lower

/-!
Compiling all functions of a module, with statistics.

A session compiles a module on as many workers as its parallelism asks for, at most
one per function. A single worker compiles the functions in order and stops at the
first failure. Several workers each take a run of `⌈n / workers⌉` consecutive
functions and do the same with it; the answer is the first failure of a worker in
worker order, or all code in order. Every function compiled is counted in the
session's statistics under a lock, which the workers take in an order nobody fixes.
-/

namespace OnePassJit

/-- What is kept of a compiled function besides its bytes: for amd64 the laid out
instructions, which the engine executes. -/
inductive Listing where
  | amd64 (placed : Array Amd64.Placed)
  | arm64
  deriving Inhabited

abbrev Compiled := CompiledCode Listing

/-- Totals over the functions compiled in a session. -/
structure SessionStats where
  functionsCompiled : Nat := 0
  hostTrampolines : Nat := 0
  totalCodeSize : Nat := 0
  operationsLowered : Nat := 0
  registerSpills : Nat := 0
  maxStackCeil : Nat := 0
  deriving DecidableEq, Repr, Inhabited

namespace SessionStats

def record (s : SessionStats) (isHost : Bool) (c : Compiled) : SessionStats :=
  { s with
    functionsCompiled := s.functionsCompiled + (if isHost then 0 else 1)
    hostTrampolines := s.hostTrampolines + (if isHost then 1 else 0)
    totalCodeSize := s.totalCodeSize + c.code.size
    operationsLowered := s.operationsLowered + c.lowered
    registerSpills := s.registerSpills + c.spills
    maxStackCeil := max s.maxStackCeil c.ceil }

def render (s : SessionStats) : String :=
  "Compilation Session Statistics:\n" ++
  s!"  Functions compiled: {s.functionsCompiled}\n" ++
  s!"  Host trampolines: {s.hostTrampolines}\n" ++
  s!"  Operations lowered: {s.operationsLowered}\n" ++
  s!"  Total code size: {s.totalCodeSize} bytes\n" ++
  s!"  Register spills: {s.registerSpills}\n" ++
  s!"  Max stack ceiling: {s.maxStackCeil} slots\n"

end SessionStats

def compileFunction (cfg : CompilerConfig) (ir : FunctionIr) : Except CompileError Compiled :=
  match cfg.arch with
  | .amd64 => do
    let c ← Amd64.backend.compileFunction ir cfg
    pure { c with listing := .amd64 c.listing }
  | .arm64 => do
    let c ← Arm64.backend.compileFunction ir cfg
    pure { c with listing := .arm64 }

/-! Workers. -/

/-- Consecutive runs of `size` elements, the last one possibly shorter; a zero size keeps
the list whole. -/
def chunksOf {α : Type} (size : Nat) (xs : List α) : List (List α) :=
  match size, xs with
  | _, [] => []
  | 0, xs => [xs]
  | n + 1, x :: xs => (x :: xs.take n) :: chunksOf (n + 1) (xs.drop n)
termination_by xs.length

/-- Workers of a module of `n` functions: the parallelism, at most one per function and
at least one. -/
def workerCount (parallelism n : Nat) : Nat := max (min parallelism n) 1

/-- The functions each worker compiles, in order: all of them for a single worker, runs
of `⌈n / workers⌉` otherwise. -/
def workerRuns (parallelism : Nat) (irs : List FunctionIr) : List (List FunctionIr) :=
  let workers := workerCount parallelism irs.length
  if workers = 1 then [irs] else chunksOf ((irs.length + workers - 1) / workers) irs

/-- One worker's run: compile the functions in order, counting each one compiled (whether
it is a host trampoline, and its code), and stop at the first failure; the counts made
before it stay. Answers the outcome and the counts. -/
def compileRun (cfg : CompilerConfig) :
    List FunctionIr → Except CompileError (List Compiled) × List (Bool × Compiled)
  | [] => (.ok [], [])
  | ir :: run =>
    match compileFunction cfg ir with
    | .error e => (.error e, [])
    | .ok c =>
      let (r, counts) := compileRun cfg run
      (r.map (c :: ·), (ir.isHost, c) :: counts)

/-- What a module compilation gives: the code of every function in order or the first
failure of a worker, and the counts of each worker in its own order. -/
structure ModuleRun where
  result : Except CompileError (List Compiled)
  counted : List (List (Bool × Compiled))

def compileModuleRun (cfg : CompilerConfig) (irs : List FunctionIr) : ModuleRun :=
  let runs := (workerRuns cfg.parallelism irs).map (compileRun cfg)
  { result := List.flatten <$> runs.mapM Prod.fst
    counted := runs.map Prod.snd }

/-- The orders in which the statistics lock may take the workers' counts: each worker's
counts in its own order, interleaved in any way. -/
inductive Interleaving {α : Type} : List (List α) → List α → Prop
  | done {logs : List (List α)} : (∀ l ∈ logs, l = []) → Interleaving logs []
  | take {pre post : List (List α)} {x : α} {rest order : List α} :
      Interleaving (pre ++ rest :: post) order →
      Interleaving (pre ++ (x :: rest) :: post) (x :: order)

namespace SessionStats

def recordAll (s : SessionStats) (counts : List (Bool × Compiled)) : SessionStats :=
  counts.foldl (fun s hc => s.record hc.1 hc.2) s

end SessionStats

/-- Compile every function of a module, with the statistics of a fresh session; the
lock is taken here by one worker after the other. -/
def compileModule (cfg : CompilerConfig) (irs : List FunctionIr) :
    Except CompileError (List Compiled × SessionStats) :=
  let r := compileModuleRun cfg irs
  r.result.map fun cs => (cs, ({} : SessionStats).recordAll r.counted.flatten)

end OnePassJit
