import OnePassJit.Arm64.Emit

/-!
128-bit vector operations on arm64.

A float lane moved out of a vector stays in a vector register: scalar float operations
only look at lane 0, so the lane is broadcast there. Integer lanes move to general
registers, sign extended for narrow signed lanes. Any-true folds the four words
pairwise by unsigned maximum, which keeps every set bit in the low 64 bits.
-/

namespace OnePassJit.Arm64.Lower

def v128Const (lo hi : UInt64) : LowerM Unit := do
  materializeTopFlag
  let r ← allocate .vector
  -- The 64-bit move clears the upper half.
  if lo == 0 then asm (Enc.fmovFromGp .w64 r zr)
  else
    asm (Enc.movImm scratch0 lo)
    asm (Enc.fmovFromGp .w64 r scratch0)
  if hi != 0 then
    asm (Enc.movImm scratch0 hi)
    asm (Enc.insGp 8 r 1 scratch0)
  pushRegister r .v128lo

def v128AddSub (shape : LaneShape) (isAdd : Bool) : LowerM Unit := do
  let x2 ← popToRegister
  let x1 ← popToRegister
  let r1 ← regOf x1
  let r2 ← regOf x2
  match shape.isFloat, isAdd with
  | true, true => asm (Enc.vfadd (shape == .f32x4) r1 r1 r2)
  | true, false => asm (Enc.vfsub (shape == .f32x4) r1 r1 r2)
  | false, true => asm (Enc.vadd shape.laneBytes r1 r1 r2)
  | false, false => asm (Enc.vsub shape.laneBytes r1 r1 r2)
  release x2
  pushRegister r1 .v128lo

/-- Lane-wise `and`, `or` or `xor`. -/
inductive VectorLogic where
  | and
  | or
  | xor

def v128Bitwise (op : VectorLogic) : LowerM Unit := do
  let x2 ← popToRegister
  let x1 ← popToRegister
  let r1 ← regOf x1
  let r2 ← regOf x2
  match op with
  | .and => asm (Enc.vand r1 r1 r2)
  | .or => asm (Enc.vorr r1 r1 r2)
  | .xor => asm (Enc.veor r1 r1 r2)
  release x2
  pushRegister r1 .v128lo

def v128Not : LowerM Unit := do
  let x ← popToRegister
  let r ← regOf x
  asm (Enc.vnot r r)
  pushRegister r .v128lo

def v128Splat (shape : LaneShape) : LowerM Unit := do
  let x ← popToRegister
  let src ← regOf x
  let bytes := shape.laneBytes
  let result ← if shape.isFloat then do
      asm (Enc.dupLane bytes src src 0)
      pure src
    else do
      let dst ← allocate .vector
      asm (Enc.dupGp bytes dst src)
      release x
      pure dst
  pushRegister result .v128lo

def v128ExtractLane (lane : UInt8) (signed : Bool) (shape : LaneShape) : LowerM Unit := do
  let x ← popToRegister
  let src ← regOf x
  let bytes := shape.laneBytes
  if shape.isFloat then
    if lane != 0 then asm (Enc.dupLane bytes src src lane.toNat)
    pushRegister src (if shape == .f32x4 then .f32 else .f64)
  else
    let dst ← allocate .gp
    if signed && bytes < 4 then asm (Enc.smov bytes .w32 dst src lane.toNat)
    else asm (Enc.umov bytes dst src lane.toNat)
    release x
    pushRegister dst (if bytes == 8 then .i64 else .i32)

def v128ReplaceLane (lane : UInt8) (shape : LaneShape) : LowerM Unit := do
  let scalar ← popToRegister
  let vector ← popToRegister
  let s ← regOf scalar
  let v ← regOf vector
  let bytes := shape.laneBytes
  if shape.isFloat then asm (Enc.insLane bytes v lane.toNat s 0)
  else asm (Enc.insGp bytes v lane.toNat s)
  release scalar
  pushRegister v .v128lo

def v128AnyTrue : LowerM Unit := do
  let x ← popToRegister
  let r ← regOf x
  asm (Enc.umaxp4s vecScratch0 r r)
  asm (Enc.fmovToGp .w64 scratch0 vecScratch0)
  asm (Enc.cmpRI .w64 scratch0 0)
  release x
  pushFlag .ne

end OnePassJit.Arm64.Lower
