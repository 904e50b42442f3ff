import OnePassJit.Proofs.Ieee.Order
import OnePassJit.Proofs.Machine.Operands

/-!
Scalar float operations on the machine.

A float of type `t` sits in the low lane of an xmm register: a single in its low 32 bits, a
double in its low 64 (`Vec128.floatLane`), which is what `InReg` asks of a register holding
it (`inReg_float_iff`). A scalar operation replaces that lane by what its `Ieee` function
gives for the two lanes (`floatLane_scalarLane`), and bitwise `and` and `or` act on it bit by
bit. `ucomis` sets the zero, parity and carry flags from `Format.compare` of the two lanes
(`ucomisFlags_float`). `runs_ucomis` and `runs_scalar` run one such instruction.
-/

namespace OnePassJit

namespace FloatType

def format : FloatType → Ieee.Format
  | .f32 => .single
  | .f64 => .double

def bits : FloatType → Nat
  | .f32 => 32
  | .f64 => 64

def slotType : FloatType → SlotType
  | .f32 => .f32
  | .f64 => .f64

theorem format_of_is32 (t : FloatType) :
    (if t.is32 then Ieee.Format.single else Ieee.Format.double) = t.format := by
  cases t <;> rfl

theorem bits_of_is32 (t : FloatType) : (if t.is32 then 32 else 64) = t.bits := by
  cases t <;> rfl

theorem bits_le (t : FloatType) : t.bits ≤ 64 := by
  cases t <;> decide

theorem width_format (t : FloatType) : t.format.width = t.bits := by
  cases t <;> rfl

theorem slotType_ne (t : FloatType) : t.slotType ≠ .v128lo ∧ t.slotType ≠ .v128hi := by
  cases t <;> decide

theorem infMag_pos (t : FloatType) : 0 < t.format.infMag := by
  cases t <;> decide

end FloatType

namespace Amd64

namespace Vec128

theorem lane_zero (v : Vec128) {bits : Nat} (hb : bits ≤ 64) :
    v.lane bits 0 = v.lo.toNat % 2 ^ bits := by
  have hd : 2 ^ bits ∣ 2 ^ 64 := Nat.pow_dvd_pow 2 hb
  simp only [lane, toNat, Nat.pow_eq, Nat.mul_zero, Nat.pow_zero, Nat.div_one]
  rw [Nat.add_mod, Nat.mul_mod, Nat.mod_eq_zero_of_dvd hd, Nat.mul_zero, Nat.zero_mod,
    Nat.add_zero, Nat.mod_mod]

theorem toNat_lo_setLane (v : Vec128) {bits : Nat} (hb : bits ≤ 64) (n : Nat) :
    (v.setLane bits 0 n).lo.toNat % 2 ^ bits = n % 2 ^ bits := by
  have hd : 2 ^ bits ∣ 2 ^ 64 := Nat.pow_dvd_pow 2 hb
  simp only [setLane, ofNat, toNat, Nat.pow_eq, Nat.mul_zero, Nat.pow_zero, Nat.div_one,
    Nat.mul_one]
  rw [Nat.toUInt64_eq, UInt64.toNat_ofNat', Nat.mod_mod_of_dvd _ hd]
  generalize v.lo.toNat + v.hi.toNat * 2 ^ 64 = N
  have h := Nat.div_add_mod N (2 ^ bits)
  have : N - N % 2 ^ bits = 2 ^ bits * (N / 2 ^ bits) := by omega
  rw [this, Nat.mul_add_mod, Nat.mod_mod]

/-- The float of type `t` in the low lane. -/
def floatLane (x : Vec128) : FloatType → UInt64
  | .f32 => x.lo &&& low32
  | .f64 => x.lo

theorem toNat_floatLane (x : Vec128) (t : FloatType) :
    (x.floatLane t).toNat = x.lane t.bits 0 := by
  rw [lane_zero x t.bits_le]
  cases t
  · exact toNat_and_low32 x.lo
  · exact (Nat.mod_eq_of_lt x.lo.toNat_lt).symm

theorem toNat_floatLane_lt (x : Vec128) (t : FloatType) : (x.floatLane t).toNat < 2 ^ t.bits := by
  rw [toNat_floatLane, lane_zero x t.bits_le]
  exact Nat.mod_lt _ (Nat.two_pow_pos _)

theorem floatLane_setLane (x : Vec128) (t : FloatType) {n : Nat} (hn : n < 2 ^ t.bits) :
    (x.setLane t.bits 0 n).floatLane t = n.toUInt64 := by
  have h64 : n < 2 ^ 64 := lt_of_lt_of_le hn (Nat.pow_le_pow_right (by omega) t.bits_le)
  apply UInt64.toNat_inj.mp
  rw [toNat_floatLane, lane_zero _ t.bits_le, toNat_lo_setLane _ t.bits_le, Nat.mod_eq_of_lt hn,
    Nat.toUInt64_eq, UInt64.toNat_ofNat', Nat.mod_eq_of_lt h64]

/-- A scalar operation puts its result in the low lane. -/
theorem floatLane_scalarLane (d s : Vec128) (t : FloatType) {g : Nat → Nat → Nat}
    (hg : g (d.lane t.bits 0) (s.lane t.bits 0) < 2 ^ t.bits) :
    (scalarLane t.bits g d s).floatLane t =
      (g (d.floatLane t).toNat (s.floatLane t).toNat).toUInt64 := by
  rw [toNat_floatLane, toNat_floatLane]
  exact floatLane_setLane d t hg

theorem floatLane_or (x y : Vec128) (t : FloatType) :
    (x.or y).floatLane t = x.floatLane t ||| y.floatLane t := by
  cases t
  · show (x.lo ||| y.lo) &&& low32 = (x.lo &&& low32) ||| (y.lo &&& low32)
    simp [← UInt64.toBitVec_inj, BitVec.and_or_distrib_right]
  · rfl

theorem floatLane_and (x y : Vec128) (t : FloatType) :
    (x.and y).floatLane t = x.floatLane t &&& y.floatLane t := by
  cases t
  · show (x.lo &&& y.lo) &&& low32 = (x.lo &&& low32) &&& (y.lo &&& low32)
    rw [UInt64.and_assoc, UInt64.and_assoc, UInt64.and_comm low32, UInt64.and_assoc,
      UInt64.and_self]
  · rfl

end Vec128

open Vec128

variable {M M' : Machine} {fb cap : Nat}

/-- A register holds a float of type `t` when its low lane is that float. -/
theorem inReg_float_iff (t : FloatType) {r : Reg} {v : UInt64} :
    InReg M t.slotType r v ↔ r ∈ vecPool ∧ (M.xr r.xmm).floatLane t = v := by
  cases t <;> exact Iff.rfl

/-! `ucomis` and the flags it sets. -/

/-- `ucomis` of two lanes of type `t` sets the flags from how the floats in them compare. -/
theorem ucomisFlags_float (t : FloatType) (d s : Vec128) :
    ucomisFlags t.is32 d s =
      ucomisOf (t.format.compare (d.floatLane t).toNat (s.floatLane t).toNat) := by
  rw [toNat_floatLane, toNat_floatLane]
  cases t
  · rw [ucomisFlags, if_pos (show FloatType.f32.is32 = true from rfl)]
    rfl
  · rw [ucomisFlags, if_neg (by decide : ¬ FloatType.f64.is32 = true)]
    rfl

/-! Running one instruction. -/

namespace Asm

theorem scalar_eq {d s : Reg} (hd : d.IsXmm) (hs : s.IsXmm) (op : ScalarOp) (is32 : Bool)
    (a : Assembler) : scalar op is32 d s a = .ok ((), pushed a (.scalar op is32 d.xmm s.xmm)) := by
  rw [scalar, bind_ok (xmm_eq hd _ _), bind_ok (xmm_eq hs _ _)]
  rfl

theorem movGpToXmm_eq {d s : Reg} (hd : d.IsXmm) (hs : s.IsGp) (w : Width) (a : Assembler) :
    movGpToXmm w d s a = .ok ((), pushed a (.movGpToXmm w d.xmm s.gpr)) := by
  rw [movGpToXmm, bind_ok (xmm_eq hd _ _), bind_ok (gp_eq hs _ _)]
  rfl

end Asm

namespace Machine

variable {next : UInt64}

theorem exec_scalar (op : ScalarOp) (is32 : Bool) (d s : Xmm) :
    M.exec (.scalar op is32 d s) next =
      if op == .ucomis then .ok ((M.goto next).setFlags (ucomisFlags is32 (M.xr d) (M.xr s)))
      else .ok ((M.goto next).setXr d (op.apply is32 (M.xr d) (M.xr s))) := rfl

theorem exec_movGpToXmm (w : Width) (d : Xmm) (s : Gpr) :
    M.exec (.movGpToXmm w d s) next = .ok ((M.goto next).setXr d (.ofLow (M.gp s &&& w.mask))) :=
  rfl

end Machine

section Run

open Lower

variable {K : Code} {X : Machine → Prop} {c : Compiler}

/-- `ucomis d, s` sets the flags from the two registers and changes nothing else. -/
theorem runs_ucomis {d s : Reg} (hd : d.IsXmm) (hs : s.IsXmm) (is32 : Bool)
    {Q : Unit → Compiler → Machine → Prop}
    (hQ : ∀ M', Steady M M' fb ∅ → M'.cpu.flags = ucomisFlags is32 (M.xr d.xmm) (M.xr s.xmm) →
      Q () { c with asm := Asm.pushed c.asm (.scalar .ucomis is32 d.xmm s.xmm) } M') :
    Runs K X (asm (Asm.scalar .ucomis is32 d s)) Q c M :=
  Runs.step (Asm.scalar_eq hd hs _ _ _) rfl rfl (hQ _ (Steady.goto_setFlags _ _) rfl)

/-- Any other scalar operation writes its destination only. -/
theorem runs_scalar (henv : Env M fb cap) {d s : Reg} (hd : d.IsXmm) (hs : s.IsXmm)
    {op : ScalarOp} (hop : op ≠ .ucomis) (is32 : Bool) {Q : Unit → Compiler → Machine → Prop}
    (hQ : ∀ M', Keeps M M' fb {d} 0 → M'.xr d.xmm = op.apply is32 (M.xr d.xmm) (M.xr s.xmm) →
      Q () { c with asm := Asm.pushed c.asm (.scalar op is32 d.xmm s.xmm) } M') :
    Runs K X (asm (Asm.scalar op is32 d s)) Q c M := by
  have hex : M.exec (.scalar op is32 d.xmm s.xmm) (K.addr (c.asm.instrs.size + 1)) =
      .ok ((M.goto (K.addr (c.asm.instrs.size + 1))).setXr d.xmm
        (op.apply is32 (M.xr d.xmm) (M.xr s.xmm))) := by
    rw [Machine.exec_scalar, if_neg (by simpa using hop)]
  exact Runs.step (Asm.scalar_eq hd hs _ _ _) hex rfl
    (hQ _ (Keeps.goto_setXr henv.xmm_size hd _ _) (Machine.xr_goto_setXr_self henv.xmm_size _ _ _))

end Run

end Amd64

end OnePassJit
