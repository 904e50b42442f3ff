import OnePassJit.ValueStack

/-!
Scripts over a value stack.

A script is a list of commands applied in order to one value stack; after each command
the answer and the stack as it then stands are recorded. `fork` saves a copy of the
stack and `adopt` takes the latest copy back through `ValueStack.adopt`.
-/

namespace OnePassJit

/-- One command of a value stack script. -/
inductive StackCommand where
  | pushReg (r : Reg) (t : SlotType)
  | pushStack (t : SlotType)
  | pushFlag (f : Flag)
  | pushV128Reg (r : Reg)
  | pushV128Stack
  | pushValue (t : ValueType)
  | pop
  | popV128
  | peek
  | get (i : Nat)
  | markUsed (r : Reg)
  | markUnused (r : Reg)
  | isUsed (r : Reg)
  | takeFree (kind : RegKind) (exclude : List Reg)
  | stealTarget (kind : RegKind) (exclude : List Reg)
  | registerOwner (r : Reg)
  | markOnStack (i : Nat)
  | setRegister (i : Nat) (r : Reg)
  | nonMemoryResident
  | init (sig : Signature)
  | frameLocations (sig : Signature)
  | pushCallFrame (sig : Signature)
  | truncate (n : Nat)
  | dropRange (start stop : UInt32)
  | invert (f : Flag)
  | locInfo (i : Nat)
  | regSet (a b : List Reg)
  | fork
  | adopt

/-- Facts about one location. -/
structure LocationFacts where
  onRegister : Bool
  onFlag : Bool
  onStack : Bool
  kind : RegKind
  is32 : Bool

/-- What a register set built from `a`, then joined with `b`, reports. -/
structure RegSetFacts where
  wasEmpty : Bool
  isEmpty : Bool
  members : List Reg
  counts : List Nat
  contains : List Bool
  /-- Per register of `a`: its class, whether it is a vector register, and its text. -/
  kinds : List (Reg × RegKind)

/-- Answer of one command. -/
inductive StackAnswer where
  | unit
  | index (n : Nat)
  | location (l : Location)
  | bool (b : Bool)
  | reg? (r : Option Reg)
  | index? (n : Option Nat)
  | indices (ns : List Nat)
  | frame (f : FrameSlots)
  | moves (ms : List SlotMove)
  | flag (f : Flag)
  | facts (f : LocationFacts)
  | regSet (f : RegSetFacts)

/-- A value stack with the copies saved by `fork`. -/
structure StackSession where
  stack : ValueStack
  saved : List ValueStack := []

/-- Why a script cannot go on. -/
inductive ScriptFault where
  | truncateAbove (n sp : Nat)
  | adoptWithoutFork

def ScriptFault.message : ScriptFault → String
  | .truncateAbove _ _ => "truncate beyond stack pointer"
  | .adoptWithoutFork => "adopt without snapshot"

namespace StackSession

def lift {α : Type} (s : StackSession) (op : StackM α) (k : α → StackAnswer) :
    Except CompileError StackAnswer × StackSession :=
  match op.run s.stack with
  | .ok a st => (.ok (k a), { s with stack := st })
  | .error e st => (.error (.invalidStack e), { s with stack := st })

def read (s : StackSession) (a : StackAnswer) : Except CompileError StackAnswer × StackSession :=
  (.ok a, s)

def regSetFacts (a b : List Reg) : RegSetFacts :=
  let sa := RegSet.ofList a
  let u := sa.union (RegSet.ofList b)
  { wasEmpty := sa.isEmpty
    isEmpty := u.isEmpty
    members := u.toList
    counts := [0, 1, 2].map fun k => u.countInBank (UInt8.ofNat k)
    contains := a.map u.contains
    kinds := a.map fun r => (r, r.kind) }

def step (s : StackSession) :
    StackCommand → Except ScriptFault (Except CompileError StackAnswer × StackSession)
  | .pushReg r t => .ok <| s.lift (StackM.pushOnRegister r t) .index
  | .pushStack t => .ok <| s.lift (StackM.pushOnStack t) .index
  | .pushFlag f => .ok <| s.lift (StackM.pushOnFlag f) .index
  | .pushV128Reg r => .ok <| s.lift (StackM.pushV128OnRegister r) .index
  | .pushV128Stack => .ok <| s.lift StackM.pushV128OnStack .index
  | .pushValue t => .ok <| s.lift (StackM.pushValue t) .index
  | .pop => .ok <| s.lift StackM.pop .location
  | .popV128 => .ok <| s.lift StackM.popV128 .location
  | .peek => .ok <| s.lift StackM.peek .location
  | .get i => .ok <| s.lift (StackM.get i) .location
  | .markUsed r => .ok <| s.lift (StackM.markUsed r) fun _ => .unit
  | .markUnused r => .ok <| s.lift (StackM.markUnused r) fun _ => .unit
  | .isUsed r => .ok <| s.read (.bool (s.stack.isUsed r))
  | .takeFree k ex => .ok <| s.read (.reg? (s.stack.takeFree k (RegSet.ofList ex)))
  | .stealTarget k ex => .ok <| s.read (.index? (s.stack.stealTarget k (RegSet.ofList ex)))
  | .registerOwner r => .ok <| s.read (.index? (s.stack.registerOwner r))
  | .markOnStack i => .ok <| s.lift (StackM.markOnStack i) fun _ => .unit
  | .setRegister i r => .ok <| s.lift (StackM.setRegister i r) fun _ => .unit
  | .nonMemoryResident => .ok <| s.read (.indices s.stack.nonMemoryResident)
  | .init sig => .ok <| s.lift (StackM.init sig) fun _ => .unit
  | .frameLocations sig => .ok <| s.read (.frame (ValueStack.frameLocations sig))
  | .pushCallFrame sig => .ok <| s.lift (StackM.pushCallFrame sig) .frame
  | .truncate n =>
    if n ≤ s.stack.sp then .ok <| s.lift (StackM.truncate n) fun _ => .unit
    else .error (.truncateAbove n s.stack.sp)
  | .dropRange a b => .ok <| s.lift (StackM.dropRange ⟨a, b⟩) .moves
  | .invert f => .ok <| s.read (.flag f.invert)
  | .locInfo i => .ok <| s.lift (StackM.get i) fun l =>
      .facts ⟨l.onRegister, l.onFlag, l.onStack, l.regKind, l.type.is32⟩
  | .regSet a b => .ok <| s.read (.regSet (regSetFacts a b))
  | .fork => .ok (.ok .unit, { s with saved := s.stack :: s.saved })
  | .adopt =>
    match s.saved with
    | c :: rest => .ok (.ok .unit, { stack := s.stack.adopt c, saved := rest })
    | [] => .error .adoptWithoutFork

/-- Run a script: every command's answer with the stack after it, or the fault that
stopped the script. -/
def run (s : StackSession) :
    List StackCommand → Except ScriptFault (List (Except CompileError StackAnswer × ValueStack))
  | [] => .ok []
  | c :: cs => do
    let (a, s') ← s.step c
    let rest ← s'.run cs
    pure ((a, s'.stack) :: rest)

end StackSession

end OnePassJit
