import OnePassJit.Amd64.Layout
import OnePassJit.Error

/-!
The amd64 assembler: instructions appended one by one, labels, jump tables and
immediates patched after layout.

Every emitter checks its register operands first, naming the instruction in the error:
a general register must be one of bank 0 below 16, an xmm register one of bank 1 below
16, and memory operands are checked as `mem`. Labels are numbered from 1 and bind to the
next instruction; two labels never share one, a `nop` separates them. Binding a label
twice is an error. A jump table is zeroed data whose entries are filled in after layout
with the distance from the table to each target.
-/

namespace OnePassJit.Amd64

/-- A memory operand over allocator registers, checked when emitted. -/
structure MemRef where
  base : Reg
  index : Option (Reg × Scale) := none
  disp : Int := 0

def MemRef.at (base : Reg) (disp : Int) : MemRef := { base, disp }

def MemRef.indexed (base index : Reg) (scale : Scale) (disp : Int) : MemRef :=
  { base, index := some (index, scale), disp }

/-- A jump table: its label and the label of each entry's target. -/
structure JumpTable where
  table : Nat
  targets : Array Nat

/-- An assembler for one function. -/
structure Assembler where
  instrs : Array (Instr Nat) := #[]
  /-- Instruction index of every bound label. -/
  bound : List (Nat × Nat) := []
  /-- Labels created so far; the next one gets this number plus one. -/
  labels : Nat := 0
  /-- Instruction count when a label was last bound. -/
  lastLabelAt : Option Nat := none
  tables : Array JumpTable := #[]
  /-- Labels right after an instruction whose trailing 32-bit immediate is rewritten. -/
  patches : List (Nat × UInt32) := []
  deriving Inhabited

abbrev AsmM := StateT Assembler (Except EncodeError)

def AluOp.name : AluOp → String
  | .add => "add"
  | .or => "or"
  | .and => "and"
  | .sub => "sub"
  | .xor => "xor"
  | .cmp => "cmp"

def BitOp.name : BitOp → String
  | .lzcnt => "lzcnt"
  | .tzcnt => "tzcnt"
  | .bsr => "bsr"
  | .bsf => "bsf"
  | .popcnt => "popcnt"

def ShiftOp.name : ShiftOp → String
  | .rol => "rol"
  | .ror => "ror"
  | .shl => "shl"
  | .shr => "shr"
  | .sar => "sar"

def VecOp.name : VecOp → String
  | .movdqa => "movdqa"
  | .movsd => "movsd_2"
  | .pand => "pand"
  | .por => "por"
  | .pxor => "pxor"
  | .pcmpeqd => "pcmpeqd"
  | .ptest => "ptest"
  | .paddb => "paddb"
  | .paddw => "paddw"
  | .paddd => "paddd"
  | .paddq => "paddq"
  | .psubb => "psubb"
  | .psubw => "psubw"
  | .psubd => "psubd"
  | .psubq => "psubq"
  | .addps => "addps"
  | .addpd => "addpd"
  | .subps => "subps"
  | .subpd => "subpd"
  | .pshufb => "pshufb"
  | .punpcklqdq => "punpcklqdq"
  | .movlhps => "movlhps"
  | .movhlps => "movhlps"
  | .cvtss2sd => "cvtss2sd"
  | .cvtsd2ss => "cvtsd2ss"

def ScalarOp.name : ScalarOp → String
  | .add => "fadd"
  | .sub => "fsub"
  | .mul => "fmul"
  | .div => "fdiv"
  | .sqrt => "fsqrt"
  | .min => "fmin"
  | .max => "fmax"
  | .ucomis => "ucomis"
  | .and => "fand"
  | .or => "f_or"
  | .xor => "fxor"
  | .andn => "fandn"

def ShuffleOp.name : ShuffleOp → String
  | .pshufd => "pshufd"
  | .pshuflw => "pshuflw"
  | .shufps => "shufps"
  | .insertps => "insertps"

namespace Asm

def fail {α : Type} (e : EncodeError) : AsmM α := fun _ => .error e

def gp (op : String) (r : Reg) : AsmM Gpr :=
  if h : r.bank = 0 ∧ r.id.toNat < 16 then pure ⟨r.id.toNat, h.2⟩
  else fail (.invalidRegister op r)

def xmm (op : String) (r : Reg) : AsmM Xmm :=
  if h : r.bank = 1 ∧ r.id.toNat < 16 then pure ⟨r.id.toNat, h.2⟩
  else fail (.invalidRegister op r)

/-- A memory operand; its registers are checked as `mem`. -/
def mem (m : MemRef) : AsmM Mem := do
  let base ← gp "mem" m.base
  match m.index with
  | none => pure { base, disp := m.disp }
  | some (i, s) => pure { base, index := some (← gp "mem" i, s), disp := m.disp }

/-- An 8-bit immediate operand accepts every signed and every unsigned byte. -/
def imm8 (v : Int) : AsmM Nat :=
  if -128 ≤ v ∧ v ≤ 255 then pure (v % 256).toNat
  else fail (.assembly "Invalid signed immediate")

def add (i : Instr Nat) : AsmM Unit := modify fun a => { a with instrs := a.instrs.push i }

def createLabel : AsmM Nat := modifyGet fun a => (a.labels + 1, { a with labels := a.labels + 1 })

def bind (l : Nat) : AsmM Unit := do
  let a ← get
  if a.lastLabelAt == some a.instrs.size then add .nop
  let a ← get
  if a.bound.any (·.1 == l) then
    fail (.assembly "Labels can't be re-used and can only be set once.")
  set { a with bound := (l, a.instrs.size) :: a.bound, lastLabelAt := some a.instrs.size }

def bindNew : AsmM Nat := do
  let l ← createLabel
  bind l
  pure l

def zeroWords (n : Nat) : List (Instr Nat) :=
  (List.range ((n + 3) / 4)).map fun i => .data (List.replicate (min 4 (n - 4 * i)) 0)

/-- Place a jump table of `len` zero entries at `table`; answers its number. -/
def jumpTable (table len : Nat) : AsmM Nat := do
  bind table
  for i in zeroWords len do add i
  let mut targets := #[]
  for _ in [0:len] do
    targets := targets.push (← createLabel)
  modifyGet fun a => (a.tables.size, { a with tables := a.tables.push ⟨table, targets⟩ })

def bindTableTarget (t index : Nat) : AsmM Unit := do
  let a ← get
  match (a.tables[t]?).bind (·.targets[index]?) with
  | some l => bind l
  | none => fail (.assembly s!"no jump table entry {t}:{index}")

/-- Patch the 32-bit immediate that ends right before label `after` with `v`. -/
def patchImm32Before (after : Nat) (v : UInt32) : AsmM Unit :=
  modify fun a => { a with patches := a.patches ++ [(after, v)] }

/-! Instruction emitters. -/

def movRR (w : Width) (d s : Reg) : AsmM Unit := do
  add (.movRR w (← gp "mov" d) (← gp "mov" s))

def aluRR (op : AluOp) (w : Width) (d s : Reg) : AsmM Unit := do
  add (.aluRR op w (← gp op.name d) (← gp op.name s))

def testRR (w : Width) (a b : Reg) : AsmM Unit := do
  add (.testRR w (← gp "test" a) (← gp "test" b))

def imulRR (w : Width) (d s : Reg) : AsmM Unit := do
  add (.imulRR w (← gp "imul_2" d) (← gp "imul_2" s))

def bitRR (op : BitOp) (w : Width) (d s : Reg) : AsmM Unit := do
  add (.bitRR op w (← gp op.name d) (← gp op.name s))

def cmovRR (c : Cond) (w : Width) (d s : Reg) : AsmM Unit := do
  let name := match c with
    | .e => "cmove"
    | .ne => "cmovne"
    | _ => "cmovae"
  add (.cmovRR c w (← gp name d) (← gp name s))

def aluRI (op : AluOp) (w : Width) (d : Reg) (imm : Int) : AsmM Unit := do
  add (.aluRI op w (← gp op.name d) imm)

def shiftRI (op : ShiftOp) (w : Width) (d : Reg) (imm : Int) : AsmM Unit := do
  let d ← gp op.name d
  add (.shiftRI op w d (← imm8 imm))

def shiftCL (op : ShiftOp) (w : Width) (d : Reg) : AsmM Unit := do
  add (.shiftCL op w (← gp op.name d))

def movRI32 (d : Reg) (imm : UInt32) : AsmM Unit := do
  add (.movRI32 (← gp "mov" d) imm)

def movRI64 (d : Reg) (imm : UInt64) : AsmM Unit := do
  if imm.toNat < Nat.pow 2 32 then movRI32 d imm.toUInt32
  else add (.movRI64 (← gp "mov" d) imm)

def load (k : LoadKind) (d : Reg) (src : MemRef) : AsmM Unit := do
  let m ← mem src
  let name := match k with
    | .u8To32 | .u16To32 => "movzx"
    | .s8To32 | .s8To64 | .s16To32 | .s16To64 => "movsx"
    | .u32 | .u64 => "mov"
    | .s32To64 => "movsxd"
  add (.load k (← gp name d) m)

def load64 (d : Reg) (src : MemRef) : AsmM Unit := load .u64 d src

def store (bytes : Nat) (dst : MemRef) (s : Reg) : AsmM Unit := do
  let m ← mem dst
  add (.store bytes m (← gp "mov" s))

def store64 (dst : MemRef) (s : Reg) : AsmM Unit := store 8 dst s

def storeImm32 (dst : MemRef) (imm : UInt32) : AsmM Unit := do
  add (.storeImm32 (← mem dst) imm)

def storeImm64 (dst : MemRef) (imm : Int) : AsmM Unit := do
  add (.storeImm64 (← mem dst) imm)

def addRM (d : Reg) (src : MemRef) : AsmM Unit := do
  let m ← mem src
  add (.addRM (← gp "add" d) m)

def subRM (d : Reg) (src : MemRef) : AsmM Unit := do
  let m ← mem src
  add (.subRM (← gp "sub" d) m)

def cmpRM (w : Width) (d : Reg) (src : MemRef) : AsmM Unit := do
  let m ← mem src
  add (.cmpRM w (← gp "cmp" d) m)

def cmpMR (dst : MemRef) (s : Reg) : AsmM Unit := do
  let m ← mem dst
  add (.cmpMR m (← gp "cmp" s))

def lea (d : Reg) (src : MemRef) : AsmM Unit := do
  let m ← mem src
  add (.lea (← gp "lea" d) m)

def leaLabel (d : Reg) (l : Nat) : AsmM Unit := do
  add (.leaRip (← gp "lea" d) l)

def copyQword (dst src : MemRef) : AsmM Unit := do
  let d ← mem dst
  let s ← mem src
  add (.pushM s)
  add (.popM d)

def movsxRR (w : Width) (fromBits : Nat) (d s : Reg) : AsmM Unit := do
  let name := if fromBits == 32 then "movsxd" else "movsx"
  if fromBits == 8 || fromBits == 16 || (fromBits == 32 && w == .w64) then
    add (.movsxRR w fromBits (← gp name d) (← gp name s))
  else fail (.immediateOutOfRange "movsx width" fromBits)

def movzx8RR (d s : Reg) : AsmM Unit := do
  add (.movzx8RR (← gp "movzx" d) (← gp "movzx" s))

def setcc (c : Cond) (d : Reg) : AsmM Unit := do
  add (.setcc c (← gp "setcc" d))

def div (w : Width) (signed : Bool) (s : Reg) : AsmM Unit := do
  add (.div w signed (← gp (if signed then "idiv" else "div") s))

def signExtendAcc (w : Width) : AsmM Unit := add (.signExtendAcc w)

def jmp (l : Nat) : AsmM Unit := add (.jmp l)

def jcc (c : Cond) (l : Nat) : AsmM Unit := add (.jcc c l)

def jmpR (r : Reg) : AsmM Unit := do add (.jmpR (← gp "jmp" r))

def jmpM (m : MemRef) : AsmM Unit := do add (.jmpM (← mem m))

def ret : AsmM Unit := add .ret

def ud2 : AsmM Unit := add .ud2

def vec (op : VecOp) (d s : Reg) : AsmM Unit := do
  add (.vec op (← xmm op.name d) (← xmm op.name s))

def scalar (op : ScalarOp) (is32 : Bool) (d s : Reg) : AsmM Unit := do
  add (.scalar op is32 (← xmm op.name d) (← xmm op.name s))

def movGpToXmm (w : Width) (d s : Reg) : AsmM Unit := do
  let x ← xmm "movq" d
  add (.movGpToXmm w x (← gp (if w == .w32 then "movd" else "movq") s))

def movXmmToGp (w : Width) (d s : Reg) : AsmM Unit := do
  let x ← xmm "movq" s
  add (.movXmmToGp w (← gp (if w == .w32 then "movd" else "movq") d) x)

def loadXmm (bytes : Nat) (d : Reg) (src : MemRef) : AsmM Unit := do
  let x ← xmm "load" d
  add (.loadXmm bytes x (← mem src))

def storeXmm (bytes : Nat) (dst : MemRef) (s : Reg) : AsmM Unit := do
  let x ← xmm "store" s
  add (.storeXmm bytes (← mem dst) x)

def round (is32 : Bool) (mode : Nat) (d s : Reg) : AsmM Unit := do
  let d ← xmm "round" d
  let s ← xmm "round" s
  add (.round is32 mode d s)

def cvtt (src32 : Bool) (w : Width) (d s : Reg) : AsmM Unit := do
  let x ← xmm "cvtt" s
  add (.cvtt src32 w (← gp (if src32 then "cvttss2si" else "cvttsd2si") d) x)

def cvtFromInt (dst32 : Bool) (w : Width) (d s : Reg) : AsmM Unit := do
  let x ← xmm "cvtsi2s" d
  add (.cvtFromInt dst32 w x (← gp (if dst32 then "cvtsi2ss" else "cvtsi2sd") s))

def shuffle (op : ShuffleOp) (d s : Reg) (imm : Int) : AsmM Unit := do
  let d ← xmm op.name d
  let s ← xmm op.name s
  add (.shuffle op d s (← imm8 imm))

def laneName (base : String) : Nat → String
  | 1 => base ++ "b"
  | 2 => base ++ "w"
  | 4 => base ++ "d"
  | _ => base ++ "q"

def pextr (bytes : Nat) (d s : Reg) (lane : Nat) : AsmM Unit := do
  let x ← xmm "pextr" s
  let g ← gp (laneName "pextr" bytes) d
  add (.pextr bytes g x (← imm8 lane))

def pinsr (bytes : Nat) (d s : Reg) (lane : Nat) : AsmM Unit := do
  let x ← xmm "pinsr" d
  let g ← gp (laneName "pinsr" bytes) s
  add (.pinsr bytes x g (← imm8 lane))

end Asm

namespace Assembler

def labelAt (a : Assembler) (l : Nat) : Option Nat := (a.bound.find? (·.1 == l)).map (·.2)

def writeU32 (code : ByteArray) (pos : Nat) (v : UInt32) : ByteArray :=
  (List.range 4).foldl (fun c i => c.set! (pos + i) (v.toNat / Nat.pow 2 (8 * i) % 256).toUInt8) code

def signedImm32 (v : UInt32) : Int := if v.toNat < Nat.pow 2 31 then v.toNat else (v.toNat : Int) - Nat.pow 2 32

/-- Give the immediate operand ending at `stop` the patched value `v`, in the
instruction list as in the bytes. -/
def patchPlaced (placed : Array Placed) (stop : Nat) (v : UInt32) : Array Placed :=
  placed.map fun p =>
    if p.offset + p.bytes.length != stop then p else
    match p.instr with
    | .aluRI op w d _ => { p with instr := .aluRI op w d (signedImm32 v) }
    | _ => p

/-- The finished function: instructions placed, jump tables and patches filled in. -/
def finish (a : Assembler) : Except EncodeError (Array Placed × ByteArray) := do
  let a := if a.lastLabelAt == some a.instrs.size then
      { a with instrs := a.instrs.push .int3 } else a
  let placed := layout a.instrs a.labelAt
  let code := ByteArray.mk (placed.toList.flatMap (·.bytes)).toArray
  let ipOf (l : Nat) : Except EncodeError Nat :=
    match a.labelAt l with
    | some j => .ok ((placed[j]?.map (·.offset)).getD code.size)
    | none => .error (.assembly "Invalid label")
  let mut code := code
  let mut placed := placed
  for t in a.tables do
    let base ← ipOf t.table
    for i in [0:t.targets.size] do
      let ip ← ipOf (t.targets.getD i 0)
      code := writeU32 code (base + 4 * i) (UInt32.ofInt ((ip : Int) - base))
  for (after, v) in a.patches do
    let stop ← ipOf after
    if stop < 4 then throw (.assembly "imm32 patch before code start")
    code := writeU32 code (stop - 4) v
    placed := patchPlaced placed stop v
  pure (placed, code)

end Assembler

end OnePassJit.Amd64
