import OnePassJit.Amd64.Instr

/-!
Machine code bytes of amd64 instructions.

An instruction is a mandatory prefix (`66`, `F2` or `F3`), a REX prefix when a 64-bit
operand, a register above 7 or one of the byte registers `spl`, `bpl`, `sil`, `dil`
asks for it, the opcode, a ModRM byte with its SIB byte and displacement, and an
immediate. A displacement is left out when it is zero (unless the base is `rbp` or
`r13`), one byte when it fits a signed byte, four bytes otherwise. An arithmetic
immediate on the accumulator always takes the short accumulator form with four bytes;
on any other register it is one sign-extended byte when it fits, four otherwise.

Branches come in a short form (8-bit displacement) and a near form (32-bit); which one
an instruction gets is decided when the function is laid out (`Layout`).
-/

namespace OnePassJit.Amd64

/-- The low `n` bytes of `v` in two's complement, least significant first. -/
def leBytes (n : Nat) (v : Int) : List UInt8 :=
  let u := (v % (Nat.pow 2 (8 * n) : Nat)).toNat
  (List.range n).map fun i => (u / Nat.pow 2 (8 * i) % 256).toUInt8

def fitsI8 (v : Int) : Bool := decide (-128 ≤ v ∧ v ≤ 127)

/-- The r/m operand of an instruction. -/
inductive Rm where
  | reg (n : Nat)
  | mem (m : Mem)
  | rip (disp : Int)

/-- ModRM byte, SIB byte and displacement, with the REX.X and REX.B bits they need. -/
def modrm (reg : Nat) : Rm → List UInt8 × Bool × Bool
  | .reg n => ([(0xC0 + (reg % 8) * 8 + n % 8).toUInt8], false, decide (n ≥ 8))
  | .rip disp => ([((reg % 8) * 8 + 5).toUInt8] ++ leBytes 4 disp, false, false)
  | .mem m =>
    let b := m.base.val
    let (md, disp) :=
      if m.disp == 0 && b % 8 != 5 then (0, [])
      else if fitsI8 m.disp then (1, leBytes 1 m.disp)
      else (2, leBytes 4 m.disp)
    match m.index with
    | none =>
      if b % 8 == 4 then
        ([(md * 64 + (reg % 8) * 8 + 4).toUInt8, (0x20 + b % 8).toUInt8] ++ disp,
          false, decide (b ≥ 8))
      else ([(md * 64 + (reg % 8) * 8 + b % 8).toUInt8] ++ disp, false, decide (b ≥ 8))
    | some (i, sc) =>
      ([(md * 64 + (reg % 8) * 8 + 4).toUInt8,
        (sc.log2 * 64 + (i.val % 8) * 8 + b % 8).toUInt8] ++ disp,
        decide (i.val ≥ 8), decide (b ≥ 8))

/-- One instruction with a ModRM operand: prefix, REX, opcode, ModRM and immediate. -/
def withModrm (pfx : List UInt8) (w : Bool) (op : List UInt8) (reg : Nat) (rm : Rm)
    (imm : List UInt8 := []) (forceRex : Bool := false) : List UInt8 :=
  let (mr, x, b) := modrm reg rm
  let r := decide (reg ≥ 8)
  let rex := if w || r || x || b || forceRex then
      [(0x40 + (if w then 8 else 0) + (if r then 4 else 0) + (if x then 2 else 0) +
        (if b then 1 else 0)).toUInt8]
    else []
  pfx ++ rex ++ op ++ mr ++ imm

/-- Whether a byte operand in register `n` is one of `spl`, `bpl`, `sil`, `dil`. -/
def needsByteRex (n : Nat) : Bool := decide (4 ≤ n ∧ n ≤ 7)

def Width.isW (w : Width) : Bool := w == .w64

def VecOp.opcode : VecOp → List UInt8 × List UInt8
  | .movdqa => ([0x66], [0x0F, 0x6F])
  | .movsd => ([0xF2], [0x0F, 0x10])
  | .pand => ([0x66], [0x0F, 0xDB])
  | .por => ([0x66], [0x0F, 0xEB])
  | .pxor => ([0x66], [0x0F, 0xEF])
  | .pcmpeqd => ([0x66], [0x0F, 0x76])
  | .ptest => ([0x66], [0x0F, 0x38, 0x17])
  | .paddb => ([0x66], [0x0F, 0xFC])
  | .paddw => ([0x66], [0x0F, 0xFD])
  | .paddd => ([0x66], [0x0F, 0xFE])
  | .paddq => ([0x66], [0x0F, 0xD4])
  | .psubb => ([0x66], [0x0F, 0xF8])
  | .psubw => ([0x66], [0x0F, 0xF9])
  | .psubd => ([0x66], [0x0F, 0xFA])
  | .psubq => ([0x66], [0x0F, 0xFB])
  | .addps => ([], [0x0F, 0x58])
  | .addpd => ([0x66], [0x0F, 0x58])
  | .subps => ([], [0x0F, 0x5C])
  | .subpd => ([0x66], [0x0F, 0x5C])
  | .pshufb => ([0x66], [0x0F, 0x38, 0x00])
  | .punpcklqdq => ([0x66], [0x0F, 0x6C])
  | .movlhps => ([], [0x0F, 0x16])
  | .movhlps => ([], [0x0F, 0x12])
  | .cvtss2sd => ([0xF3], [0x0F, 0x5A])
  | .cvtsd2ss => ([0xF2], [0x0F, 0x5A])

/-- Prefix and opcode of a scalar operation: arithmetic takes `F3`/`F2`, the bitwise
operations and `ucomis` nothing or `66`. -/
def ScalarOp.opcode (op : ScalarOp) (is32 : Bool) : List UInt8 × List UInt8 :=
  let arith (b : UInt8) := (if is32 then [0xF3] else [0xF2], [0x0F, b])
  let logic (b : UInt8) := (if is32 then [] else [0x66], [0x0F, b])
  match op with
  | .add => arith 0x58
  | .sub => arith 0x5C
  | .mul => arith 0x59
  | .div => arith 0x5E
  | .sqrt => arith 0x51
  | .min => arith 0x5D
  | .max => arith 0x5F
  | .ucomis => logic 0x2E
  | .and => logic 0x54
  | .or => logic 0x56
  | .xor => logic 0x57
  | .andn => logic 0x55

def LoadKind.opcode : LoadKind → Bool × List UInt8
  | .u8To32 => (false, [0x0F, 0xB6])
  | .s8To32 => (false, [0x0F, 0xBE])
  | .s8To64 => (true, [0x0F, 0xBE])
  | .u16To32 => (false, [0x0F, 0xB7])
  | .s16To32 => (false, [0x0F, 0xBF])
  | .s16To64 => (true, [0x0F, 0xBF])
  | .u32 => (false, [0x8B])
  | .s32To64 => (true, [0x63])
  | .u64 => (true, [0x8B])

def BitOp.opcode : BitOp → List UInt8 × List UInt8
  | .lzcnt => ([0xF3], [0x0F, 0xBD])
  | .tzcnt => ([0xF3], [0x0F, 0xBC])
  | .bsr => ([], [0x0F, 0xBD])
  | .bsf => ([], [0x0F, 0xBC])
  | .popcnt => ([0xF3], [0x0F, 0xB8])

def shortBranchSize : Nat := 2

def nearBranchSize {τ : Type} : Instr τ → Nat
  | .jcc .. => 6
  | _ => 5

def leaRipSize : Nat := 7

/-- Bytes of an instruction; a branch is encoded in its short form when `short` holds,
with `rel` the displacement from the instruction's end, and `lea` takes `rel` as its
rip-relative displacement. -/
def encode {τ : Type} (i : Instr τ) (short : Bool := false) (rel : Int := 0) : List UInt8 :=
  match i with
  | .movRR w d s => withModrm [] w.isW [0x89] s.val (.reg d.val)
  | .aluRR op w d s => withModrm [] w.isW [(op.ext * 8 + 1).toUInt8] s.val (.reg d.val)
  | .testRR w a b => withModrm [] w.isW [0x85] b.val (.reg a.val)
  | .imulRR w d s => withModrm [] w.isW [0x0F, 0xAF] d.val (.reg s.val)
  | .bitRR op w d s =>
    let (p, o) := op.opcode
    withModrm p w.isW o d.val (.reg s.val)
  | .cmovRR c w d s => withModrm [] w.isW [0x0F, (0x40 + c.code).toUInt8] d.val (.reg s.val)
  | .aluRI op w d imm =>
    if d.val == 0 then
      (if w.isW then [0x48] else []) ++ [(op.ext * 8 + 5).toUInt8] ++ leBytes 4 imm
    else if fitsI8 imm then withModrm [] w.isW [0x83] op.ext (.reg d.val) (leBytes 1 imm)
    else withModrm [] w.isW [0x81] op.ext (.reg d.val) (leBytes 4 imm)
  | .shiftRI op w d imm =>
    if imm == 1 then withModrm [] w.isW [0xD1] op.ext (.reg d.val)
    else withModrm [] w.isW [0xC1] op.ext (.reg d.val) (leBytes 1 imm)
  | .shiftCL op w d => withModrm [] w.isW [0xD3] op.ext (.reg d.val)
  | .movRI32 d imm =>
    (if d.val ≥ 8 then [0x41] else []) ++ [(0xB8 + d.val % 8).toUInt8] ++
      leBytes 4 imm.toNat
  | .movRI64 d imm =>
    [if d.val ≥ 8 then 0x49 else 0x48] ++ [(0xB8 + d.val % 8).toUInt8] ++ leBytes 8 imm.toNat
  | .load k d m =>
    let (w, o) := k.opcode
    withModrm [] w o d.val (.mem m)
  | .store bytes m s =>
    match bytes with
    | 1 => withModrm [] false [0x88] s.val (.mem m) [] (needsByteRex s.val)
    | 2 => withModrm [0x66] false [0x89] s.val (.mem m)
    | 4 => withModrm [] false [0x89] s.val (.mem m)
    | _ => withModrm [] true [0x89] s.val (.mem m)
  | .storeImm32 m imm => withModrm [] false [0xC7] 0 (.mem m) (leBytes 4 imm.toNat)
  | .storeImm64 m imm => withModrm [] true [0xC7] 0 (.mem m) (leBytes 4 imm)
  | .addRM d m => withModrm [] true [0x03] d.val (.mem m)
  | .subRM d m => withModrm [] true [0x2B] d.val (.mem m)
  | .cmpRM w d m => withModrm [] w.isW [0x3B] d.val (.mem m)
  | .cmpMR m s => withModrm [] true [0x39] s.val (.mem m)
  | .lea d m => withModrm [] true [0x8D] d.val (.mem m)
  | .leaRip d _ => withModrm [] true [0x8D] d.val (.rip rel)
  | .pushM m => withModrm [] false [0xFF] 6 (.mem m)
  | .popM m => withModrm [] false [0x8F] 0 (.mem m)
  | .movsxRR w bits d s =>
    match bits with
    | 8 => withModrm [] w.isW [0x0F, 0xBE] d.val (.reg s.val) [] (needsByteRex s.val)
    | 16 => withModrm [] w.isW [0x0F, 0xBF] d.val (.reg s.val)
    | _ => withModrm [] true [0x63] d.val (.reg s.val)
  | .movzx8RR d s => withModrm [] false [0x0F, 0xB6] d.val (.reg s.val) [] (needsByteRex s.val)
  | .setcc c d => withModrm [] false [0x0F, (0x90 + c.code).toUInt8] 0 (.reg d.val) []
      (needsByteRex d.val)
  | .div w signed s => withModrm [] w.isW [0xF7] (if signed then 7 else 6) (.reg s.val)
  | .signExtendAcc w => if w.isW then [0x48, 0x99] else [0x99]
  | .jmp _ => if short then [0xEB] ++ leBytes 1 rel else [0xE9] ++ leBytes 4 rel
  | .jcc c _ =>
    if short then [(0x70 + c.code).toUInt8] ++ leBytes 1 rel
    else [0x0F, (0x80 + c.code).toUInt8] ++ leBytes 4 rel
  | .jmpR r => withModrm [] false [0xFF] 4 (.reg r.val)
  | .jmpM m => withModrm [] false [0xFF] 4 (.mem m)
  | .ret => [0xC3]
  | .ud2 => [0x0F, 0x0B]
  | .nop => [0x90]
  | .int3 => [0xCC]
  | .vec op d s =>
    let (p, o) := op.opcode
    withModrm p false o d.val (.reg s.val)
  | .scalar op is32 d s =>
    let (p, o) := op.opcode is32
    withModrm p false o d.val (.reg s.val)
  | .movGpToXmm w d s => withModrm [0x66] w.isW [0x0F, 0x6E] d.val (.reg s.val)
  | .movXmmToGp w d s => withModrm [0x66] w.isW [0x0F, 0x7E] s.val (.reg d.val)
  | .loadXmm bytes d m =>
    match bytes with
    | 4 => withModrm [0xF3] false [0x0F, 0x10] d.val (.mem m)
    | 8 => withModrm [0xF2] false [0x0F, 0x10] d.val (.mem m)
    | _ => withModrm [0xF3] false [0x0F, 0x6F] d.val (.mem m)
  | .storeXmm bytes m s =>
    match bytes with
    | 4 => withModrm [0xF3] false [0x0F, 0x11] s.val (.mem m)
    | 8 => withModrm [0xF2] false [0x0F, 0x11] s.val (.mem m)
    | _ => withModrm [0xF3] false [0x0F, 0x7F] s.val (.mem m)
  | .round is32 mode d s =>
    withModrm [0x66] false [0x0F, 0x3A, if is32 then 0x0A else 0x0B] d.val (.reg s.val)
      (leBytes 1 mode)
  | .cvtt src32 w d s =>
    withModrm (if src32 then [0xF3] else [0xF2]) w.isW [0x0F, 0x2C] d.val (.reg s.val)
  | .cvtFromInt dst32 w d s =>
    withModrm (if dst32 then [0xF3] else [0xF2]) w.isW [0x0F, 0x2A] d.val (.reg s.val)
  | .shuffle op d s imm =>
    let (p, o) : List UInt8 × List UInt8 := match op with
      | .pshufd => ([0x66], [0x0F, 0x70])
      | .pshuflw => ([0xF2], [0x0F, 0x70])
      | .shufps => ([], [0x0F, 0xC6])
      | .insertps => ([0x66], [0x0F, 0x3A, 0x21])
    withModrm p false o d.val (.reg s.val) (leBytes 1 imm)
  | .pextr bytes d s lane =>
    match bytes with
    | 1 => withModrm [0x66] false [0x0F, 0x3A, 0x14] s.val (.reg d.val) (leBytes 1 lane)
    | 2 => withModrm [0x66] false [0x0F, 0xC5] d.val (.reg s.val) (leBytes 1 lane)
    | 4 => withModrm [0x66] false [0x0F, 0x3A, 0x16] s.val (.reg d.val) (leBytes 1 lane)
    | _ => withModrm [0x66] true [0x0F, 0x3A, 0x16] s.val (.reg d.val) (leBytes 1 lane)
  | .pinsr bytes d s lane =>
    match bytes with
    | 1 => withModrm [0x66] false [0x0F, 0x3A, 0x20] d.val (.reg s.val) (leBytes 1 lane)
    | 2 => withModrm [0x66] false [0x0F, 0xC4] d.val (.reg s.val) (leBytes 1 lane)
    | 4 => withModrm [0x66] false [0x0F, 0x3A, 0x22] d.val (.reg s.val) (leBytes 1 lane)
    | _ => withModrm [0x66] true [0x0F, 0x3A, 0x22] d.val (.reg s.val) (leBytes 1 lane)
  | .data ws => ws.flatMap fun w => leBytes 4 w.toNat

def Instr.byteSize {τ : Type} (i : Instr τ) : Nat := (encode i).length

end OnePassJit.Amd64
