import OnePassJit.Error
import OnePassJit.Ir.Operation

/-!
The value stack: a greedy single-pass register allocator.

Every live IR slot has a `Location`. The stack records which registers are in use and a
ceiling, the deepest stack seen on any path, which sizes the native value stack the
function needs. Allocation takes the first free register of the wanted class from a
fixed pool; when none is free, the bottom-most live value holding a register of that
class is the victim to spill.

The operations run in `StackM`, a state monad whose failures keep the state reached so
far: popping a vector pops both halves before it checks their types, and marking a
vector's low half changes it before the high half is looked up.

Main statements: `pushLoc_sp` (a push adds one slot), `le_ceil_pushLoc` (the ceiling
covers the stack after a push), `truncate_sp`.
-/

namespace OnePassJit

/-- Slots of a call frame: return address, caller's stack base, caller's function. -/
def frameSlotCount : Nat := 3

/-- The three slot indices of a call frame. -/
structure FrameSlots where
  returnAddress : Nat
  callerBase : Nat
  callerFunction : Nat
  deriving DecidableEq, Repr

def FrameSlots.at (first : Nat) : FrameSlots := ⟨first, first + 1, first + 2⟩

/-- A memory slot copy planned by a drop. -/
structure SlotMove where
  src : Nat
  dst : Nat
  deriving DecidableEq, Repr

/-- Locations of the live slots, registers in use, and the ceiling. -/
structure ValueStack where
  slots : Array Location := #[]
  used : RegSet := {}
  ceil : Nat := 0
  gpPool : List Reg
  vecPool : List Reg
  deriving Inhabited

/-- Stack operations: failures keep the state reached so far. -/
abbrev StackM := EStateM StackFault ValueStack

namespace ValueStack

def new (gp vec : List Reg) : ValueStack := { gpPool := gp, vecPool := vec }

def sp (s : ValueStack) : Nat := s.slots.size

def locAt (s : ValueStack) (i : Nat) : Except StackFault Location :=
  match s.slots[i]? with
  | some l => .ok l
  | none => .error (.beyond i s.sp)

/-- Push one slot; its register becomes used and the ceiling follows the stack. -/
def pushLoc (s : ValueStack) (t : SlotType) (reg : Option Reg) (flag : Option Flag) :
    ValueStack :=
  let slots := s.slots.push { type := t, reg, flag, slot := s.sp }
  { s with
    slots
    used := match reg with
      | some r => s.used.insert r
      | none => s.used
    ceil := max s.ceil slots.size }

theorem pushLoc_sp (s : ValueStack) (t : SlotType) (r : Option Reg) (f : Option Flag) :
    (s.pushLoc t r f).sp = s.sp + 1 := by
  simp [pushLoc, sp]

theorem le_ceil_pushLoc (s : ValueStack) (t : SlotType) (r : Option Reg) (f : Option Flag) :
    (s.pushLoc t r f).sp ≤ (s.pushLoc t r f).ceil :=
  Nat.le_max_right _ _

def truncate (s : ValueStack) (n : Nat) : ValueStack :=
  let gone := s.slots.extract n s.slots.size
  { s with
    slots := s.slots.extract 0 n
    used := gone.foldl (fun u l => match l.reg with
      | some r => u.erase r
      | none => u) s.used }

theorem truncate_sp (s : ValueStack) (n : Nat) (h : n ≤ s.sp) : (s.truncate n).sp = n := by
  simp [truncate, sp] at *
  omega

def isUsed (s : ValueStack) (r : Reg) : Bool := s.used.contains r

def pool (s : ValueStack) : RegKind → List Reg
  | .gp => s.gpPool
  | .vector => s.vecPool

def takeFree (s : ValueStack) (kind : RegKind) (exclude : RegSet := {}) : Option Reg :=
  (s.pool kind).find? fun r => !s.used.contains r && !exclude.contains r

/-- Index of the bottom-most value holding a register of `kind` outside `exclude`;
a vector's high half never counts, its low half does. -/
def stealTarget (s : ValueStack) (kind : RegKind) (exclude : RegSet) : Option Nat :=
  s.slots.findIdx? fun l =>
    l.type != .v128hi &&
      match l.reg with
      | some r => r.kind == kind && !exclude.contains r
      | none => false

def registerOwner (s : ValueStack) (r : Reg) : Option Nat :=
  s.slots.findIdx? fun l => l.reg == some r && l.type != .v128hi

def nonMemoryResident (s : ValueStack) : List Nat :=
  (List.range s.sp).filter fun i =>
    match s.slots[i]? with
    | some l => !l.onStack && l.type != .v128hi
    | none => false

def frameLocations (sig : Signature) : FrameSlots := FrameSlots.at sig.frameOffset

/-- Take over `incoming` as the current stack, keeping the larger ceiling. -/
def adopt (s incoming : ValueStack) : ValueStack :=
  { incoming with ceil := max incoming.ceil s.ceil }

end ValueStack

namespace StackM

def push (t : SlotType) (reg : Option Reg := none) (flag : Option Flag := none) :
    StackM Nat :=
  modifyGet fun s => (s.sp, s.pushLoc t reg flag)

def pushOnRegister (r : Reg) (t : SlotType) : StackM Nat := push t (some r)

def pushOnStack (t : SlotType) : StackM Nat := push t

def pushOnFlag (f : Flag) : StackM Nat := push .i32 none (some f)

/-- A vector takes two slots and one register; the answer is the low slot. -/
def pushV128OnRegister (r : Reg) : StackM Nat := do
  let lo ← push .v128lo (some r)
  let _ ← push .v128hi (some r)
  pure lo

def pushV128OnStack : StackM Nat := do
  let lo ← push .v128lo
  let _ ← push .v128hi
  pure lo

def pushValue (t : ValueType) : StackM Nat :=
  match t with
  | .v128 => pushV128OnStack
  | t => pushOnStack (SlotType.ofValue t)

def pop : StackM Location := fun s =>
  match s.slots.back? with
  | some l => .ok l { s with slots := s.slots.pop }
  | none => .error .popEmpty s

/-- Pop a vector, answering its low half, which carries the location. Both halves are
popped before their types are checked. -/
def popV128 : StackM Location := do
  let hi ← pop
  let lo ← pop
  if hi.type != .v128hi || lo.type != .v128lo then
    throw (.notVector lo.type hi.type)
  pure lo

def peek : StackM Location := fun s =>
  match s.slots.back? with
  | some l => .ok l s
  | none => .error .peekEmpty s

def get (i : Nat) : StackM Location := fun s =>
  match s.locAt i with
  | .ok l => .ok l s
  | .error e => .error e s

def sp : StackM Nat := fun s => .ok s.sp s

def markUsed (r : Reg) : StackM Unit := modify fun s => { s with used := s.used.insert r }

def markUnused (r : Reg) : StackM Unit := modify fun s => { s with used := s.used.erase r }

def modifyAt (i : Nat) (f : Location → Location) : StackM Unit := fun s =>
  if i < s.sp then .ok () { s with slots := s.slots.modify i f }
  else .error (.beyond i s.sp) s

/-- Record that the value at `i` now lives in its memory slot (the store is emitted by
the caller), releasing its register. -/
def markOnStack (i : Nat) : StackM Unit := do
  let l ← get i
  modifyAt i Location.setOnStack
  if l.type == .v128lo then modifyAt (i + 1) Location.setOnStack
  match l.reg with
  | some r => markUnused r
  | none => pure ()

def setRegister (i : Nat) (r : Reg) : StackM Unit := do
  let l ← get i
  modifyAt i (·.setRegister r)
  if l.type == .v128lo then modifyAt (i + 1) (·.setRegister r)
  markUsed r

/-- Shrink the stack to `n` slots; past the stack pointer there are no slots to drain, and
the drain fails. -/
def truncate (n : Nat) : StackM Unit := fun s =>
  if n ≤ s.sp then .ok () (s.truncate n)
  else .error (.beyond n s.sp) s

theorem truncate_of_le {s : ValueStack} {n : Nat} (h : n ≤ s.sp) :
    truncate n s = .ok () (s.truncate n) := if_pos h

/-- Layout at function entry: parameters, reserved result slots, then the call frame.
The ceiling is kept. -/
def init (sig : Signature) : StackM Unit := do
  modify fun s => { s with slots := #[], used := {} }
  for t in sig.params do
    let _ ← pushValue t
  for _ in [sig.paramSlots:sig.resultSlots] do
    let _ ← pushOnStack .none
  for _ in [0:frameSlotCount] do
    let _ ← pushOnStack .i64

/-- Reserve the callee's extra result slots and push its call frame above the
arguments. -/
def pushCallFrame (callee : Signature) : StackM FrameSlots := do
  for _ in [callee.paramSlots:callee.resultSlots] do
    let _ ← pushOnStack .none
  let first ← sp
  for _ in [0:frameSlotCount] do
    let _ ← pushOnStack .i64
  pure (FrameSlots.at first)

/-- Drop the slots of `r` (counted from the top) and slide the values above it down.
Answers the memory slot copies to emit, in order; values in registers or flags move
without a copy. -/
def dropRange (r : DropRange) : StackM (List SlotMove) := fun s =>
  let sp := s.sp
  if r.start > r.stop || r.stop.toNat ≥ sp then
    .error (.badDropRange r.start r.stop sp) s
  else
    let liveStart := sp - r.start.toNat
    let dropStart := sp - 1 - r.stop.toNat
    let live := (s.slots.extract liveStart sp).toList
    let kept := ({ s with slots := s.slots.extract 0 liveStart } : ValueStack).truncate dropStart
    let (moves, s') := live.foldl (fun (acc : List SlotMove × ValueStack) l =>
      let (moves, t) := acc
      let dst := t.sp
      let moves := if l.onStack then moves ++ [⟨l.slot, dst⟩] else moves
      let used := match l.reg with
        | some r => t.used.insert r
        | none => t.used
      (moves, { t with slots := t.slots.push { l with slot := dst }, used })) ([], kept)
    .ok moves s'

end StackM

end OnePassJit
