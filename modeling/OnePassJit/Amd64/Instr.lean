/-!
The amd64 instructions generated code is made of.

Each constructor is one instruction form with register numbers already checked: a
general register or an xmm register is a number below 16. Branch and rip-relative
forms name their target by a value of `τ`: a label while a function is assembled, a
byte offset once it is laid out. `data` is a run of 32-bit words placed in the code
(jump tables).
-/

namespace OnePassJit.Amd64

/-- Operand width of a general purpose instruction. -/
inductive Width where
  | w32
  | w64
  deriving DecidableEq, Repr, Inhabited

def Width.of (is32 : Bool) : Width := if is32 then .w32 else .w64

def Width.bits : Width → Nat
  | .w32 => 32
  | .w64 => 64

/-- Condition codes, numbered as in the `jcc`, `setcc` and `cmovcc` opcodes. -/
inductive Cond where
  | o
  | no
  | b
  | ae
  | e
  | ne
  | be
  | a
  | s
  | ns
  | p
  | np
  | l
  | ge
  | le
  | g
  deriving DecidableEq, Repr, Inhabited

def Cond.code : Cond → Nat
  | .o => 0
  | .no => 1
  | .b => 2
  | .ae => 3
  | .e => 4
  | .ne => 5
  | .be => 6
  | .a => 7
  | .s => 8
  | .ns => 9
  | .p => 10
  | .np => 11
  | .l => 12
  | .ge => 13
  | .le => 14
  | .g => 15

abbrev Gpr := Fin 16

abbrev Xmm := Fin 16

/-- Index scale of a memory operand. -/
inductive Scale where
  | s1
  | s2
  | s4
  | s8
  deriving DecidableEq, Repr, Inhabited

def Scale.log2 : Scale → Nat
  | .s1 => 0
  | .s2 => 1
  | .s4 => 2
  | .s8 => 3

/-- Memory operand `[base + index · scale + disp]`. -/
structure Mem where
  base : Gpr
  index : Option (Gpr × Scale) := none
  disp : Int := 0
  deriving DecidableEq, Repr, Inhabited

def Mem.at (base : Gpr) (disp : Int) : Mem := { base, disp }

def Mem.indexed (base index : Gpr) (scale : Scale) (disp : Int) : Mem :=
  { base, index := some (index, scale), disp }

/-- Two-operand integer operations sharing the `op r/m, r` encodings. -/
inductive AluOp where
  | add
  | or
  | and
  | sub
  | xor
  | cmp
  deriving DecidableEq, Repr, Inhabited

def AluOp.ext : AluOp → Nat
  | .add => 0
  | .or => 1
  | .and => 4
  | .sub => 5
  | .xor => 6
  | .cmp => 7

/-- Bit scans and counts. -/
inductive BitOp where
  | lzcnt
  | tzcnt
  | bsr
  | bsf
  | popcnt
  deriving DecidableEq, Repr, Inhabited

/-- Shifts and rotates. -/
inductive ShiftOp where
  | rol
  | ror
  | shl
  | shr
  | sar
  deriving DecidableEq, Repr, Inhabited

def ShiftOp.ext : ShiftOp → Nat
  | .rol => 0
  | .ror => 1
  | .shl => 4
  | .shr => 5
  | .sar => 7

/-- Loads into a general register, with their extension. -/
inductive LoadKind where
  | u8To32
  | s8To32
  | s8To64
  | u16To32
  | s16To32
  | s16To64
  | u32
  | s32To64
  | u64
  deriving DecidableEq, Repr, Inhabited

/-- Two-register xmm operations. -/
inductive VecOp where
  | movdqa
  | movsd
  | pand
  | por
  | pxor
  | pcmpeqd
  | ptest
  | paddb
  | paddw
  | paddd
  | paddq
  | psubb
  | psubw
  | psubd
  | psubq
  | addps
  | addpd
  | subps
  | subpd
  | pshufb
  | punpcklqdq
  | movlhps
  | movhlps
  | cvtss2sd
  | cvtsd2ss
  deriving DecidableEq, Repr, Inhabited

/-- Scalar float operations, single or double precision. -/
inductive ScalarOp where
  | add
  | sub
  | mul
  | div
  | sqrt
  | min
  | max
  | ucomis
  | and
  | or
  | xor
  | andn
  deriving DecidableEq, Repr, Inhabited

/-- Shuffles with an immediate selector. -/
inductive ShuffleOp where
  | pshufd
  | pshuflw
  | shufps
  | insertps
  deriving DecidableEq, Repr, Inhabited

/-- One instruction; `τ` names branch targets. -/
inductive Instr (τ : Type) where
  | movRR (w : Width) (d s : Gpr)
  | aluRR (op : AluOp) (w : Width) (d s : Gpr)
  | testRR (w : Width) (a b : Gpr)
  | imulRR (w : Width) (d s : Gpr)
  | bitRR (op : BitOp) (w : Width) (d s : Gpr)
  | cmovRR (c : Cond) (w : Width) (d s : Gpr)
  /-- `op d, imm` with a 32-bit signed immediate. -/
  | aluRI (op : AluOp) (w : Width) (d : Gpr) (imm : Int)
  | shiftRI (op : ShiftOp) (w : Width) (d : Gpr) (imm : Nat)
  | shiftCL (op : ShiftOp) (w : Width) (d : Gpr)
  | movRI32 (d : Gpr) (imm : UInt32)
  | movRI64 (d : Gpr) (imm : UInt64)
  | load (k : LoadKind) (d : Gpr) (m : Mem)
  /-- Store the low 1, 2, 4 or 8 bytes of a register. -/
  | store (bytes : Nat) (m : Mem) (s : Gpr)
  | storeImm32 (m : Mem) (imm : UInt32)
  /-- `mov qword [m], imm32`, sign extended. -/
  | storeImm64 (m : Mem) (imm : Int)
  | addRM (d : Gpr) (m : Mem)
  | subRM (d : Gpr) (m : Mem)
  | cmpRM (w : Width) (d : Gpr) (m : Mem)
  | cmpMR (m : Mem) (s : Gpr)
  | lea (d : Gpr) (m : Mem)
  | leaRip (d : Gpr) (target : τ)
  | pushM (m : Mem)
  | popM (m : Mem)
  /-- Sign extend the low 8, 16 or 32 bits. -/
  | movsxRR (w : Width) (fromBits : Nat) (d s : Gpr)
  | movzx8RR (d s : Gpr)
  | setcc (c : Cond) (d : Gpr)
  | div (w : Width) (signed : Bool) (s : Gpr)
  /-- `cdq` or `cqo`. -/
  | signExtendAcc (w : Width)
  | jmp (target : τ)
  | jcc (c : Cond) (target : τ)
  | jmpR (r : Gpr)
  | jmpM (m : Mem)
  | ret
  | ud2
  | nop
  | int3
  | vec (op : VecOp) (d s : Xmm)
  | scalar (op : ScalarOp) (is32 : Bool) (d s : Xmm)
  | movGpToXmm (w : Width) (d : Xmm) (s : Gpr)
  | movXmmToGp (w : Width) (d : Gpr) (s : Xmm)
  /-- Load 4, 8 or 16 bytes into an xmm register. -/
  | loadXmm (bytes : Nat) (d : Xmm) (m : Mem)
  | storeXmm (bytes : Nat) (m : Mem) (s : Xmm)
  | round (is32 : Bool) (mode : Nat) (d s : Xmm)
  | cvtt (src32 : Bool) (w : Width) (d : Gpr) (s : Xmm)
  | cvtFromInt (dst32 : Bool) (w : Width) (d : Xmm) (s : Gpr)
  | shuffle (op : ShuffleOp) (d s : Xmm) (imm : Nat)
  /-- Extract a lane of 1, 2, 4 or 8 bytes. -/
  | pextr (bytes : Nat) (d : Gpr) (s : Xmm) (lane : Nat)
  | pinsr (bytes : Nat) (d : Xmm) (s : Gpr) (lane : Nat)
  | data (words : List UInt32)
  deriving Inhabited

namespace Instr

def mapTarget {τ σ : Type} (f : τ → σ) : Instr τ → Instr σ
  | .leaRip d t => .leaRip d (f t)
  | .jmp t => .jmp (f t)
  | .jcc c t => .jcc c (f t)
  | .movRR w d s => .movRR w d s
  | .aluRR op w d s => .aluRR op w d s
  | .testRR w a b => .testRR w a b
  | .imulRR w d s => .imulRR w d s
  | .bitRR op w d s => .bitRR op w d s
  | .cmovRR c w d s => .cmovRR c w d s
  | .aluRI op w d i => .aluRI op w d i
  | .shiftRI op w d i => .shiftRI op w d i
  | .shiftCL op w d => .shiftCL op w d
  | .movRI32 d i => .movRI32 d i
  | .movRI64 d i => .movRI64 d i
  | .load k d m => .load k d m
  | .store n m s => .store n m s
  | .storeImm32 m i => .storeImm32 m i
  | .storeImm64 m i => .storeImm64 m i
  | .addRM d m => .addRM d m
  | .subRM d m => .subRM d m
  | .cmpRM w d m => .cmpRM w d m
  | .cmpMR m s => .cmpMR m s
  | .lea d m => .lea d m
  | .pushM m => .pushM m
  | .popM m => .popM m
  | .movsxRR w b d s => .movsxRR w b d s
  | .movzx8RR d s => .movzx8RR d s
  | .setcc c d => .setcc c d
  | .div w sg s => .div w sg s
  | .signExtendAcc w => .signExtendAcc w
  | .jmpR r => .jmpR r
  | .jmpM m => .jmpM m
  | .ret => .ret
  | .ud2 => .ud2
  | .nop => .nop
  | .int3 => .int3
  | .vec op d s => .vec op d s
  | .scalar op b d s => .scalar op b d s
  | .movGpToXmm w d s => .movGpToXmm w d s
  | .movXmmToGp w d s => .movXmmToGp w d s
  | .loadXmm n d m => .loadXmm n d m
  | .storeXmm n m s => .storeXmm n m s
  | .round b md d s => .round b md d s
  | .cvtt b w d s => .cvtt b w d s
  | .cvtFromInt b w d s => .cvtFromInt b w d s
  | .shuffle op d s i => .shuffle op d s i
  | .pextr n d s l => .pextr n d s l
  | .pinsr n d s l => .pinsr n d s l
  | .data ws => .data ws

def target? {τ : Type} : Instr τ → Option τ
  | .leaRip _ t | .jmp t | .jcc _ t => some t
  | _ => none

end Instr

end OnePassJit.Amd64
