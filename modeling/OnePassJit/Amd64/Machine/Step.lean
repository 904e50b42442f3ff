import OnePassJit.Amd64.Machine.AddressSpace
import OnePassJit.Amd64.Machine.Sse

/-!
Executing laid out amd64 instructions.

A program maps each code address to the instruction placed there, its branch targets
resolved to addresses, and the address of the instruction after it. One step executes
the instruction at `rip`. Memory operands go through the address space, the native
stack through `rsp`. A fault stops the machine: a fetch outside the code, an access
outside every region, a division that traps, or an instruction that always traps.
-/

namespace OnePassJit.Amd64

/-- Instructions by code address. -/
structure Program where
  base : UInt64
  /-- For each code offset that starts an instruction: the instruction and its length. -/
  slots : Array (Option (Instr UInt64 × Nat))
  deriving Inhabited

namespace Program

def fetch (p : Program) (addr : UInt64) : Option (Instr UInt64 × UInt64) :=
  if addr < p.base then none
  else
    match (p.slots[(addr - p.base).toNat]?).bind id with
    | some (i, len) => some (i, addr + len.toUInt64)
    | none => none

end Program

/-- Why the machine stopped other than by returning to the host. -/
inductive Fault where
  | fetch (addr : UInt64)
  | access (addr : UInt64)
  | divide
  | trapInstruction
  | outOfSteps
  deriving DecidableEq, Repr

/-- Registers and memory. -/
structure Machine where
  cpu : Cpu := {}
  mem : AddressSpace := {}
  deriving Inhabited

namespace Machine

abbrev StepM := Except Fault

def read (m : Machine) (addr : UInt64) (n : Nat) : StepM UInt64 :=
  match m.mem.read addr n with
  | some v => pure v
  | none => throw (.access addr)

def write (m : Machine) (addr : UInt64) (n : Nat) (v : UInt64) : StepM Machine :=
  match m.mem.write addr n v with
  | some mem => pure { m with mem }
  | none => throw (.access addr)

def read128 (m : Machine) (addr : UInt64) : StepM Vec128 := do
  pure ⟨← m.read addr 8, ← m.read (addr + 8) 8⟩

def write128 (m : Machine) (addr : UInt64) (v : Vec128) : StepM Machine := do
  (← m.write addr 8 v.lo).write (addr + 8) 8 v.hi

def withCpu (m : Machine) (f : Cpu → Cpu) : Machine := { m with cpu := f m.cpu }

def gp (m : Machine) (r : Gpr) : UInt64 := m.cpu.gp r

def setGpW (m : Machine) (w : Width) (r : Gpr) (v : UInt64) : Machine :=
  m.withCpu (·.setGpW w r v)

def setFlags (m : Machine) (f : Flags) : Machine := m.withCpu fun c => { c with flags := f }

def xr (m : Machine) (r : Xmm) : Vec128 := m.cpu.xr r

def setXr (m : Machine) (r : Xmm) (v : Vec128) : Machine := m.withCpu (·.setXr r v)

def addr (m : Machine) (mem : Mem) : UInt64 := m.cpu.address mem

def rsp : Gpr := ⟨4, by decide⟩

def rax : Gpr := ⟨0, by decide⟩

def rdx : Gpr := ⟨2, by decide⟩

def rcx : Gpr := ⟨1, by decide⟩

def r12 : Gpr := ⟨12, by decide⟩

def r13 : Gpr := ⟨13, by decide⟩

def signExtend (bits : Nat) (v : UInt64) : UInt64 :=
  let low := (1 <<< bits.toUInt64) - 1
  let v := v &&& low
  if v &&& (1 <<< (bits - 1).toUInt64) != 0 then v ||| ~~~low else v

def extendLoad (k : LoadKind) (v : UInt64) : UInt64 :=
  match k with
  | .u8To32 | .u16To32 | .u32 | .u64 => v
  | .s8To32 => signExtend 8 v &&& low32
  | .s8To64 => signExtend 8 v
  | .s16To32 => signExtend 16 v &&& low32
  | .s16To64 => signExtend 16 v
  | .s32To64 => signExtend 32 v

def loadBytes : LoadKind → Nat
  | .u8To32 | .s8To32 | .s8To64 => 1
  | .u16To32 | .s16To32 | .s16To64 => 2
  | .u32 | .s32To64 => 4
  | .u64 => 8

/-- `div`/`idiv`: quotient to `rax`, remainder to `rdx`, from `rdx:rax`. -/
def divide (m : Machine) (w : Width) (signed : Bool) (s : Gpr) : StepM Machine := do
  let bits := w.bits
  let hiW := m.gp rdx &&& w.mask
  let loW := m.gp rax &&& w.mask
  let wide : Nat := hiW.toNat * Nat.pow 2 bits + loW.toNat
  let d := m.gp s &&& w.mask
  if d == 0 then throw .divide
  let (q, r) : Int × Int :=
    if signed then
      let n : Int := if wide ≥ Nat.pow 2 (2 * bits - 1) then (wide : Int) - Nat.pow 2 (2 * bits) else wide
      let dv := w.signed d
      (n.tdiv dv, n.tmod dv)
    else (wide / d.toNat, wide % d.toNat)
  let fits := if signed then -(Nat.pow 2 (bits - 1) : Int) ≤ q && q < Nat.pow 2 (bits - 1) else q < Nat.pow 2 bits
  if !fits then throw .divide
  pure ((m.setGpW w rax (UInt64.ofInt q)).setGpW w rdx (UInt64.ofInt r))

def exec (m : Machine) (i : Instr UInt64) (next : UInt64) : StepM Machine := do
  let m := m.withCpu fun c => { c with rip := next }
  let f := m.cpu.flags
  match i with
  | .movRR w d s => pure (m.setGpW w d (m.gp s))
  | .aluRR op w d s =>
    let (r, f) := alu op w (m.gp d) (m.gp s) f
    let m := m.setFlags f
    pure (if op == .cmp then m else m.setGpW w d r)
  | .testRR w a b => pure (m.setFlags (aluLogic w (m.gp a &&& m.gp b) f).2)
  | .imulRR w d s =>
    let (r, f) := imul w (m.gp d) (m.gp s) f
    pure ((m.setFlags f).setGpW w d r)
  | .bitRR op w d s =>
    let (r, f) := bitOp op w (m.gp s) f
    let m := m.setFlags f
    pure (match r with
      | some r => m.setGpW w d r
      | none => m)
  | .cmovRR c w d s =>
    pure (m.setGpW w d (if c.holds f then m.gp s else m.gp d))
  | .aluRI op w d imm =>
    let (r, f) := alu op w (m.gp d) (UInt64.ofInt imm) f
    let m := m.setFlags f
    pure (if op == .cmp then m else m.setGpW w d r)
  | .shiftRI op w d imm =>
    let (r, f) := shift op w (m.gp d) imm.toUInt64 f
    pure ((m.setFlags f).setGpW w d r)
  | .shiftCL op w d =>
    let (r, f) := shift op w (m.gp d) (m.gp rcx &&& 0xFF) f
    pure ((m.setFlags f).setGpW w d r)
  | .movRI32 d imm => pure (m.setGpW .w32 d imm.toUInt64)
  | .movRI64 d imm => pure (m.setGpW .w64 d imm)
  | .load k d mem =>
    let v ← m.read (m.addr mem) (loadBytes k)
    let w : Width := match k with
      | .s8To64 | .s16To64 | .s32To64 | .u64 => .w64
      | _ => .w32
    pure (m.setGpW w d (extendLoad k v))
  | .store n mem s => m.write (m.addr mem) n (m.gp s)
  | .storeImm32 mem imm => m.write (m.addr mem) 4 imm.toUInt64
  | .storeImm64 mem imm => m.write (m.addr mem) 8 (UInt64.ofInt imm)
  | .addRM d mem =>
    let (r, f) := aluAdd .w64 (m.gp d) (← m.read (m.addr mem) 8) f
    pure ((m.setFlags f).setGpW .w64 d r)
  | .subRM d mem =>
    let (r, f) := aluSub .w64 (m.gp d) (← m.read (m.addr mem) 8) f
    pure ((m.setFlags f).setGpW .w64 d r)
  | .cmpRM w d mem =>
    let v ← m.read (m.addr mem) (if w == .w32 then 4 else 8)
    pure (m.setFlags (aluSub w (m.gp d) v f).2)
  | .cmpMR mem s =>
    let v ← m.read (m.addr mem) 8
    pure (m.setFlags (aluSub .w64 v (m.gp s) f).2)
  | .lea d mem => pure (m.setGpW .w64 d (m.addr mem))
  | .leaRip d t => pure (m.setGpW .w64 d t)
  | .pushM mem =>
    let v ← m.read (m.addr mem) 8
    let sp := m.gp rsp - 8
    let m := m.setGpW .w64 rsp sp
    m.write sp 8 v
  | .popM mem =>
    let sp := m.gp rsp
    let v ← m.read sp 8
    let m := m.setGpW .w64 rsp (sp + 8)
    m.write (m.addr mem) 8 v
  | .movsxRR w fromBits d s =>
    let k : LoadKind := match fromBits, w with
      | 8, .w32 => .s8To32
      | 8, .w64 => .s8To64
      | 16, .w32 => .s16To32
      | 16, .w64 => .s16To64
      | _, _ => .s32To64
    let v := m.gp s &&& ((1 <<< fromBits.toUInt64) - 1)
    pure (m.setGpW w d (extendLoad k v))
  | .movzx8RR d s => pure (m.setGpW .w32 d (m.gp s &&& 0xFF))
  | .setcc c d =>
    let b : UInt64 := if c.holds f then 1 else 0
    pure (m.setGpW .w64 d ((m.gp d &&& ~~~0xFF) ||| b))
  | .div w signed s => m.divide w signed s
  | .signExtendAcc w =>
    let neg := m.gp rax &&& w.signBit != 0
    pure (m.setGpW w rdx (if neg then w.mask else 0))
  | .jmp t => pure (m.withCpu fun c => { c with rip := t })
  | .jcc c t => pure (if c.holds f then m.withCpu fun c => { c with rip := t } else m)
  | .jmpR r => pure (m.withCpu fun c => { c with rip := m.gp r })
  | .jmpM mem =>
    let t ← m.read (m.addr mem) 8
    pure (m.withCpu fun c => { c with rip := t })
  | .ret =>
    let sp := m.gp rsp
    let t ← m.read sp 8
    pure ((m.setGpW .w64 rsp (sp + 8)).withCpu fun c => { c with rip := t })
  | .ud2 | .int3 | .data _ => throw .trapInstruction
  | .nop => pure m
  | .vec op d s =>
    if op == .ptest then pure (m.setFlags (ptestFlags (m.xr d) (m.xr s)))
    else pure (m.setXr d (op.apply (m.xr d) (m.xr s)))
  | .scalar op is32 d s =>
    if op == .ucomis then pure (m.setFlags (ucomisFlags is32 (m.xr d) (m.xr s)))
    else pure (m.setXr d (op.apply is32 (m.xr d) (m.xr s)))
  | .movGpToXmm w d s => pure (m.setXr d (.ofLow (m.gp s &&& w.mask)))
  | .movXmmToGp w d s => pure (m.setGpW w d (m.xr s).lo)
  | .loadXmm n d mem =>
    let a := m.addr mem
    if n == 16 then pure (m.setXr d (← m.read128 a))
    else pure (m.setXr d (.ofLow (← m.read a n)))
  | .storeXmm n mem s =>
    let a := m.addr mem
    if n == 16 then m.write128 a (m.xr s) else m.write a n (m.xr s).lo
  | .round is32 mode d s =>
    let f := if is32 then Ieee.Format.single else Ieee.Format.double
    pure (m.setXr d (scalarLane (if is32 then 32 else 64) (fun _ b => f.roundIntegral (roundModeOf mode) b)
      (m.xr d) (m.xr s)))
  | .cvtt src32 w d s =>
    let bits := if src32 then 32 else 64
    pure (m.setGpW w d (truncToInt src32 w ((m.xr s).lane bits 0)))
  | .cvtFromInt dst32 w d s =>
    let f := if dst32 then Ieee.Format.single else Ieee.Format.double
    let v := f.ofInt (w.signed (m.gp s))
    pure (m.setXr d ((m.xr d).setLane (if dst32 then 32 else 64) 0 v))
  | .shuffle op d s imm => pure (m.setXr d (op.apply imm (m.xr d) (m.xr s)))
  | .pextr n d s lane =>
    let bits := 8 * n
    let v := ((m.xr s).lane bits (lane % (16 / n))).toUInt64
    pure (m.setGpW (if n == 8 then .w64 else .w32) d v)
  | .pinsr n d s lane =>
    let bits := 8 * n
    pure (m.setXr d ((m.xr d).setLane bits (lane % (16 / n)) (m.gp s).toNat))

def step (p : Program) (m : Machine) : StepM Machine :=
  match p.fetch m.cpu.rip with
  | some (i, next) => m.exec i next
  | none => throw (.fetch m.cpu.rip)

def runUntil (p : Program) (stop : UInt64) : Nat → Machine → StepM Machine
  | 0, _ => throw .outOfSteps
  | fuel + 1, m =>
    if m.cpu.rip == stop then pure m
    else
      match m.step p with
      | .ok m => runUntil p stop fuel m
      | .error e => .error e

end Machine

end OnePassJit.Amd64
