import OnePassJit.Amd64.Emit

/-!
128-bit vector operations on amd64, with SSE4.1 as the baseline.

A vector takes two stack slots and one xmm register. Lanes are moved between the
general registers and a vector with `movd`/`movq`, `pextr` and `pinsr`; a splat of an
integer lane broadcasts it with a shuffle.
-/

namespace OnePassJit.Amd64.Lower

def v128Const (lo hi : UInt64) : LowerM Unit := do
  materializeTopFlag
  let r ← allocate .vector
  if lo == 0 && hi == 0 then
    asm (Asm.vec .pxor r r)
  else
    let tmp ← allocate .gp
    asm (Asm.movRI64 tmp lo)
    asm (Asm.movGpToXmm .w64 r tmp)
    asm (Asm.movRI64 tmp hi)
    asm (Asm.pinsr 8 r tmp 1)
    releaseReg tmp
  pushRegister r .v128lo

def LaneShape.addOp : LaneShape → VecOp
  | .i8x16 => .paddb
  | .i16x8 => .paddw
  | .i32x4 => .paddd
  | .i64x2 => .paddq
  | .f32x4 => .addps
  | .f64x2 => .addpd

def LaneShape.subOp : LaneShape → VecOp
  | .i8x16 => .psubb
  | .i16x8 => .psubw
  | .i32x4 => .psubd
  | .i64x2 => .psubq
  | .f32x4 => .subps
  | .f64x2 => .subpd

def v128Binary (op : VecOp) : LowerM Unit := do
  let x2 ← popToRegister
  let x1 ← popToRegister
  let r1 ← regOf x1
  let r2 ← regOf x2
  asm (Asm.vec op r1 r2)
  release x2
  pushRegister r1 .v128lo

def v128Not : LowerM Unit := do
  let r ← regOf (← popToRegister)
  let ones ← allocate .vector
  asm (Asm.vec .pcmpeqd ones ones)
  asm (Asm.vec .pxor r ones)
  releaseReg ones
  pushRegister r .v128lo

def v128Splat (shape : LaneShape) : LowerM Unit := do
  let x ← popToRegister
  let src ← regOf x
  let result ← match shape with
    | .f32x4 => do
      asm (Asm.shuffle .shufps src src 0)
      pure src
    | .f64x2 => do
      asm (Asm.vec .movlhps src src)
      pure src
    | _ => do
      let dst ← allocate .vector
      match shape with
      | .i8x16 =>
        asm (Asm.movGpToXmm .w32 dst src)
        -- An all-zero shuffle mask broadcasts byte 0.
        let zero ← allocate .vector
        asm (Asm.vec .pxor zero zero)
        asm (Asm.vec .pshufb dst zero)
        releaseReg zero
      | .i16x8 =>
        asm (Asm.movGpToXmm .w32 dst src)
        asm (Asm.shuffle .pshuflw dst dst 0)
        asm (Asm.shuffle .pshufd dst dst 0)
      | .i32x4 =>
        asm (Asm.movGpToXmm .w32 dst src)
        asm (Asm.shuffle .pshufd dst dst 0)
      | _ =>
        asm (Asm.movGpToXmm .w64 dst src)
        asm (Asm.vec .punpcklqdq dst dst)
      release x
      pure dst
  pushRegister result .v128lo

def v128ExtractLane (lane : UInt8) (signed : Bool) (shape : LaneShape) : LowerM Unit := do
  let x ← popToRegister
  let src ← regOf x
  match shape with
  | .f32x4 =>
    if lane != 0 then asm (Asm.shuffle .pshufd src src lane.toNat)
    pushRegister src .f32
  | .f64x2 =>
    if lane != 0 then asm (Asm.vec .movhlps src src)
    pushRegister src .f64
  | _ =>
    let dst ← allocate .gp
    let (bytes, t) : Nat × SlotType := match shape with
      | .i8x16 => (1, .i32)
      | .i16x8 => (2, .i32)
      | .i32x4 => (4, .i32)
      | _ => (8, .i64)
    asm (Asm.pextr bytes dst src lane.toNat)
    if signed && bytes < 4 then
      asm (Asm.movsxRR .w32 (bytes * 8) dst dst)
      -- Keep the upper half of the 64-bit register clear.
      asm (Asm.movRR .w32 dst dst)
    release x
    pushRegister dst t

def v128ReplaceLane (lane : UInt8) (shape : LaneShape) : LowerM Unit := do
  let scalar ← popToRegister
  let vector ← popToRegister
  let s ← regOf scalar
  let v ← regOf vector
  match shape with
  | .i8x16 => asm (Asm.pinsr 1 v s lane.toNat)
  | .i16x8 => asm (Asm.pinsr 2 v s lane.toNat)
  | .i32x4 => asm (Asm.pinsr 4 v s lane.toNat)
  | .i64x2 => asm (Asm.pinsr 8 v s lane.toNat)
  | .f32x4 => asm (Asm.shuffle .insertps v s (lane.toNat * 16))
  | .f64x2 => if lane == 0 then asm (Asm.vec .movsd v s) else asm (Asm.vec .movlhps v s)
  release scalar
  pushRegister v .v128lo

def v128AnyTrue : LowerM Unit := do
  let x ← popToRegister
  let r ← regOf x
  asm (Asm.vec .ptest r r)
  release x
  pushFlag .ne

end OnePassJit.Amd64.Lower
