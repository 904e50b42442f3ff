import OnePassJit.Amd64.Instr

/-!
Registers of the machine: sixteen 64-bit general registers, sixteen 128-bit xmm
registers, the arithmetic flags and the instruction pointer.

Writing a 32-bit result to a general register clears its upper half.
-/

namespace OnePassJit.Amd64

/-- A 128-bit register value. -/
structure Vec128 where
  lo : UInt64 := 0
  hi : UInt64 := 0
  deriving DecidableEq, Repr, Inhabited

/-- The arithmetic flags. -/
structure Flags where
  cf : Bool := false
  zf : Bool := false
  sf : Bool := false
  of : Bool := false
  pf : Bool := false
  deriving DecidableEq, Repr, Inhabited

def Cond.holds (c : Cond) (f : Flags) : Bool :=
  match c with
  | .o => f.of
  | .no => !f.of
  | .b => f.cf
  | .ae => !f.cf
  | .e => f.zf
  | .ne => !f.zf
  | .be => f.cf || f.zf
  | .a => !f.cf && !f.zf
  | .s => f.sf
  | .ns => !f.sf
  | .p => f.pf
  | .np => !f.pf
  | .l => f.sf != f.of
  | .ge => f.sf == f.of
  | .le => f.zf || f.sf != f.of
  | .g => !f.zf && f.sf == f.of

/-- Register state. -/
structure Cpu where
  gpr : Array UInt64 := Array.replicate 16 0
  xmm : Array Vec128 := Array.replicate 16 {}
  flags : Flags := {}
  rip : UInt64 := 0
  deriving Inhabited

def low32 : UInt64 := 0xFFFFFFFF

namespace Cpu

def gp (c : Cpu) (r : Gpr) : UInt64 := c.gpr.getD r.val 0

def setGp (c : Cpu) (r : Gpr) (v : UInt64) : Cpu := { c with gpr := c.gpr.set! r.val v }

def setGpW (c : Cpu) (w : Width) (r : Gpr) (v : UInt64) : Cpu :=
  c.setGp r (if w == .w32 then v &&& low32 else v)

def xr (c : Cpu) (r : Xmm) : Vec128 := c.xmm.getD r.val {}

def setXr (c : Cpu) (r : Xmm) (v : Vec128) : Cpu := { c with xmm := c.xmm.set! r.val v }

def address (c : Cpu) (m : Mem) : UInt64 :=
  let idx := match m.index with
    | some (i, s) => c.gp i <<< s.log2.toUInt64
    | none => 0
  c.gp m.base + idx + UInt64.ofInt m.disp

end Cpu

end OnePassJit.Amd64
