import OnePassJit.Proofs.Machine.Guards

/-!
Integer values of a type and the machine's division.

A stack value of integer type `t` is a 64-bit word whose low `t.bits` bits stand for an
integer: read in two's complement when `t` is signed (`IntType.toInt`). Writing an integer
back wraps it to the width (`IntType.ofInt`), and an integer in the type's range reads back
unchanged (`toInt_ofInt`).

`div` and `idiv` divide `rdx:rax` by a register. After `cdq`/`cqo` (signed) or after `rdx`
is cleared (unsigned) the dividend is the value of `rax`, and the instruction leaves the
truncated quotient in `rax` and the remainder in `rdx` (`divide_signed`, `divide_unsigned`).
A signed quotient fits its width unless the least value is divided by -1 (`tdiv_mem_range`).
-/

namespace OnePassJit

namespace IntType

/-- Width in bits. -/
def bits (t : IntType) : Nat := if t.is32 then 32 else 64

/-- The integer a stack value of type `t` stands for: its low `t.bits` bits, in two's
complement when `t` is signed. -/
def toInt (t : IntType) (v : UInt64) : Int :=
  if t.isSigned = true ∧ 2 ^ (t.bits - 1) ≤ v.toNat % 2 ^ t.bits then
    ((v.toNat % 2 ^ t.bits : Nat) : Int) - 2 ^ t.bits
  else ((v.toNat % 2 ^ t.bits : Nat) : Int)

/-- The stack value of type `t` that stands for `z`, wrapped to the width. -/
def ofInt (t : IntType) (z : Int) : UInt64 := (z % 2 ^ t.bits).toNat.toUInt64

def lo (t : IntType) : Int := if t.isSigned then -2 ^ (t.bits - 1) else 0

def hi (t : IntType) : Int := if t.isSigned then 2 ^ (t.bits - 1) else 2 ^ t.bits

def slotType (t : IntType) : SlotType := if t.is32 then .i32 else .i64

theorem bits_eq (t : IntType) : t.bits = 32 ∨ t.bits = 64 := by
  cases t <;> simp [bits, is32]

theorem toInt_of_signed {t : IntType} (hs : t.isSigned = true) (v : UInt64) :
    t.toInt v = if 2 ^ (t.bits - 1) ≤ v.toNat % 2 ^ t.bits then
      ((v.toNat % 2 ^ t.bits : Nat) : Int) - 2 ^ t.bits
    else ((v.toNat % 2 ^ t.bits : Nat) : Int) := by
  simp only [toInt, hs, true_and]

theorem toInt_of_unsigned {t : IntType} (hs : t.isSigned = false) (v : UInt64) :
    t.toInt v = ((v.toNat % 2 ^ t.bits : Nat) : Int) := by
  simp only [toInt, hs, Bool.false_eq_true, false_and, if_false]

theorem toInt_mem_range (t : IntType) (v : UInt64) : t.lo ≤ t.toInt v ∧ t.toInt v < t.hi := by
  have := Nat.mod_lt v.toNat (Nat.two_pow_pos t.bits)
  cases t <;> simp only [toInt, lo, hi, bits, isSigned, is32] at * <;> simp at * <;>
    (try split) <;> omega

theorem toInt_eq_zero_iff {t : IntType} {v : UInt64} :
    t.toInt v = 0 ↔ v.toNat % 2 ^ t.bits = 0 := by
  have := Nat.mod_lt v.toNat (Nat.two_pow_pos t.bits)
  cases t <;> simp only [toInt, bits, isSigned, is32] at * <;> simp at * <;> omega

theorem toInt_eq_iff {t : IntType} (hs : t.isSigned = true) {z : Int}
    (hz : -2 ^ (t.bits - 1) ≤ z ∧ z < 2 ^ (t.bits - 1)) {v : UInt64} :
    t.toInt v = z ↔ v.toNat % 2 ^ t.bits = (z % 2 ^ t.bits).toNat := by
  have := Nat.mod_lt v.toNat (Nat.two_pow_pos t.bits)
  rw [toInt_of_signed hs]
  cases t <;> simp only [bits, isSigned, is32] at * <;> simp at * <;> split <;> omega

/-- An integer in the type's range reads back unchanged. -/
theorem toInt_ofInt {t : IntType} {z : Int} (hz : t.lo ≤ z ∧ z < t.hi) :
    t.toInt (t.ofInt z) = z := by
  rw [ofInt, toInt, Nat.toUInt64_eq, UInt64.toNat_ofNat']
  cases t <;> simp only [lo, hi, bits, isSigned, is32] at * <;> simp at * <;> (try split) <;>
    omega

end IntType

namespace Amd64

open IntType

/-! Words at the width of an integer type. -/

theorem bits_of (t : IntType) : (Width.of t.is32).bits = t.bits := by
  cases t <;> rfl

theorem and_two_pow_ne_zero {x : UInt64} {k : Nat} (hk : k < 64) :
    (x &&& (2 ^ k : Nat).toUInt64 != 0) = decide (2 ^ k ≤ x.toNat % 2 ^ (k + 1)) := by
  have hp : ((2 ^ k : Nat).toUInt64).toNat = 2 ^ k := by
    rw [Nat.toUInt64_eq, UInt64.toNat_ofNat']
    exact Nat.mod_eq_of_lt (Nat.pow_lt_pow_right (by decide) hk)
  rw [Bool.eq_iff_iff, bne_iff_ne, ne_eq, ← UInt64.toNat_inj, UInt64.toNat_and, hp,
    UInt64.toNat_zero, Nat.and_two_pow, Nat.testBit_eq_decide_div_mod_eq, decide_eq_true_iff,
    Nat.mod_pow_succ]
  have hlow := Nat.mod_lt x.toNat (Nat.two_pow_pos k)
  have hbit := Nat.mod_lt (x.toNat / 2 ^ k) (show 0 < 2 by decide)
  have hpos := Nat.two_pow_pos k
  generalize 2 ^ k = P at *
  generalize x.toNat / P % 2 = b at *
  rcases (show b = 0 ∨ b = 1 by omega) with rfl | rfl <;> simp <;> omega

theorem and_signBit_ne_zero (w : Width) (x : UInt64) :
    (x &&& w.signBit != 0) = decide (2 ^ (w.bits - 1) ≤ x.toNat % 2 ^ w.bits) := by
  cases w with
  | w32 => exact and_two_pow_ne_zero (k := 31) (by decide)
  | w64 => exact and_two_pow_ne_zero (k := 63) (by decide)

theorem signed_eq (w : Width) (v : UInt64) : w.signed v =
    if 2 ^ (w.bits - 1) ≤ v.toNat % 2 ^ w.bits then
      ((v.toNat % 2 ^ w.bits : Nat) : Int) - 2 ^ w.bits
    else ((v.toNat % 2 ^ w.bits : Nat) : Int) := by
  have h := and_signBit_ne_zero w (v &&& w.mask)
  rw [toNat_and_mask, Nat.mod_mod] at h
  simp only [Width.signed, h, toNat_and_mask, decide_eq_true_eq, Nat.pow_eq]
  rfl

theorem signed_eq_toInt {t : IntType} (hs : t.isSigned = true) (v : UInt64) :
    (Width.of t.is32).signed v = t.toInt v := by
  rw [signed_eq, bits_of, toInt_of_signed hs]

theorem toInt_and_mask {t : IntType} (v : UInt64) :
    t.toInt (v &&& (Width.of t.is32).mask) = t.toInt v := by
  simp only [toInt, toNat_and_mask, bits_of, Nat.mod_mod]

theorem toNat_ofInt (z : Int) : ((UInt64.ofInt z).toNat : Int) = z % 2 ^ 64 := by
  rw [UInt64.ofInt, UInt64.toNat_ofNat']
  have h1 : 0 ≤ z % 2 ^ 64 := Int.emod_nonneg _ (by decide)
  have h2 : z % 2 ^ 64 < 2 ^ 64 := Int.emod_lt_of_pos _ (by decide)
  omega

theorem toNat_ofInt_mod (t : IntType) (z : Int) :
    (UInt64.ofInt z).toNat % 2 ^ t.bits = (z % 2 ^ t.bits).toNat := by
  have h := toNat_ofInt z
  rcases bits_eq t with hb | hb <;> rw [hb] <;> omega

theorem toNat_widen (t : IntType) (x : UInt64) :
    (Machine.widen (Width.of t.is32) x).toNat = x.toNat % 2 ^ t.bits := by
  cases t
  case s32 | u32 => exact toNat_and_low32 x
  case s64 | u64 => exact (Nat.mod_eq_of_lt x.toNat_lt).symm

theorem widen_ofInt (t : IntType) (z : Int) :
    Machine.widen (Width.of t.is32) (UInt64.ofInt z) = t.ofInt z := by
  apply UInt64.toNat_inj.mp
  have h64 := toNat_ofInt z
  rw [toNat_widen, IntType.ofInt, Nat.toUInt64_eq, UInt64.toNat_ofNat']
  rcases bits_eq t with hb | hb <;> rw [hb] <;> omega

/-! The quotient and the remainder. -/

/-- A truncated quotient stays in `[-H, H)` unless `-H` is divided by `-1`. -/
theorem tdiv_mem_range {H x y : Int} (hx : -H ≤ x ∧ x < H) (hy : y ≠ 0)
    (hxy : ¬ (x = -H ∧ y = -1)) : -H ≤ x.tdiv y ∧ x.tdiv y < H := by
  have e := Int.natAbs_tdiv x y
  by_cases h1 : y.natAbs = 1
  · rcases (show y = 1 ∨ y = -1 by omega) with rfl | rfl
    · rw [Int.tdiv_one]
      omega
    · rw [Int.tdiv_neg, Int.tdiv_one]
      omega
  · have h2 : x.natAbs / y.natAbs ≤ x.natAbs / 2 := Nat.div_le_div_left (by omega) (by decide)
    change _ = x.natAbs / y.natAbs at e
    omega

theorem wide_signExtend (w : Width) (lo : Nat) (hlo : lo < 2 ^ w.bits) :
    (if (if 2 ^ (w.bits - 1) ≤ lo then 2 ^ w.bits - 1 else 0) * Nat.pow 2 w.bits + lo ≥
        Nat.pow 2 (2 * w.bits - 1) then
      (((if 2 ^ (w.bits - 1) ≤ lo then 2 ^ w.bits - 1 else 0) * Nat.pow 2 w.bits + lo : Nat) :
        Int) - (Nat.pow 2 (2 * w.bits) : Nat)
    else (((if 2 ^ (w.bits - 1) ≤ lo then 2 ^ w.bits - 1 else 0) * Nat.pow 2 w.bits + lo : Nat) :
        Int)) =
      if 2 ^ (w.bits - 1) ≤ lo then (lo : Int) - 2 ^ w.bits else lo := by
  have hw : (2 : Nat) ^ (w.bits - 1) * 2 = 2 ^ w.bits ∧ 0 < w.bits := by cases w <;> decide
  simp only [Nat.pow_eq]
  by_cases h : 2 ^ (w.bits - 1) ≤ lo
  · simp only [if_pos h]
    rw [if_pos]
    · cases w <;> simp only [Width.bits] at * <;> push_cast <;> omega
    · cases w <;> simp only [Width.bits] at * <;> omega
  · simp only [if_neg h]
    rw [if_neg]
    · cases w <;> simp only [Width.bits] at * <;> omega
    · cases w <;> simp only [Width.bits] at * <;> omega

/-- `idiv` after `cdq`/`cqo` at the width of a signed type: the truncated quotient goes to
`rax` and the remainder to `rdx`, unless the quotient does not fit. -/
theorem divide_signed {M : Machine} {t : IntType} (hs : t.isSigned = true) {s : Gpr}
    (hrdx : (M.gp Machine.rdx &&& (Width.of t.is32).mask).toNat =
      if 2 ^ (t.bits - 1) ≤ (M.gp Machine.rax).toNat % 2 ^ t.bits then 2 ^ t.bits - 1 else 0)
    (hd : t.toInt (M.gp s) ≠ 0)
    (hx : ¬ (t.toInt (M.gp Machine.rax) = -2 ^ (t.bits - 1) ∧ t.toInt (M.gp s) = -1)) :
    M.divide (Width.of t.is32) true s =
      .ok ((M.setGpW (Width.of t.is32) Machine.rax
          (UInt64.ofInt ((t.toInt (M.gp Machine.rax)).tdiv (t.toInt (M.gp s))))).setGpW
        (Width.of t.is32) Machine.rdx
          (UInt64.ofInt ((t.toInt (M.gp Machine.rax)).tmod (t.toInt (M.gp s))))) := by
  have h0 : (M.gp s &&& (Width.of t.is32).mask == 0) = false := by
    rw [beq_eq_false_iff_ne, ne_eq, ← UInt64.toNat_inj, toNat_and_mask, bits_of,
      UInt64.toNat_zero]
    exact fun h => hd (toInt_eq_zero_iff.mpr h)
  have hN := wide_signExtend (Width.of t.is32) ((M.gp Machine.rax).toNat % 2 ^ t.bits)
    (by rw [bits_of]; exact Nat.mod_lt _ (Nat.two_pow_pos _))
  rw [bits_of, ← toInt_of_signed hs] at hN
  have hdv : (Width.of t.is32).signed (M.gp s &&& (Width.of t.is32).mask) = t.toInt (M.gp s) := by
    rw [signed_eq_toInt hs, toInt_and_mask]
  have hrange := toInt_mem_range t (M.gp Machine.rax)
  simp only [IntType.lo, IntType.hi, hs, if_true] at hrange
  have hfit := tdiv_mem_range hrange hd hx
  unfold Machine.divide
  simp only [h0, hrdx, toNat_and_mask, bits_of, hdv, Bool.false_eq_true, if_false]
  rw [hN]
  simp only [↓reduceIte]
  rw [if_neg]
  · rfl
  · simp [hfit.1, hfit.2]

/-- `div` with `rdx` cleared, at the width of an unsigned type: the quotient goes to `rax`
and the remainder to `rdx`; an unsigned quotient always fits. -/
theorem divide_unsigned {M : Machine} {t : IntType} (hs : t.isSigned = false) {s : Gpr}
    (hrdx : M.gp Machine.rdx = 0) (hd : t.toInt (M.gp s) ≠ 0) :
    M.divide (Width.of t.is32) false s =
      .ok ((M.setGpW (Width.of t.is32) Machine.rax
          (UInt64.ofInt ((t.toInt (M.gp Machine.rax)).tdiv (t.toInt (M.gp s))))).setGpW
        (Width.of t.is32) Machine.rdx
          (UInt64.ofInt ((t.toInt (M.gp Machine.rax)).tmod (t.toInt (M.gp s))))) := by
  have h0 : (M.gp s &&& (Width.of t.is32).mask == 0) = false := by
    rw [beq_eq_false_iff_ne, ne_eq, ← UInt64.toNat_inj, toNat_and_mask, bits_of,
      UInt64.toNat_zero]
    exact fun h => hd (toInt_eq_zero_iff.mpr h)
  have hn : 0 ≤ t.toInt (M.gp Machine.rax) := by
    rw [toInt_of_unsigned hs]
    exact Int.natCast_nonneg _
  have hlt : t.toInt (M.gp Machine.rax) < 2 ^ t.bits := by
    rw [toInt_of_unsigned hs]
    exact_mod_cast Nat.mod_lt _ (Nat.two_pow_pos _)
  have hq : (t.toInt (M.gp Machine.rax)).tdiv (t.toInt (M.gp s)) < 2 ^ t.bits := by
    rw [Int.tdiv_eq_ediv_of_nonneg hn]
    exact lt_of_le_of_lt (Int.ediv_le_self _ hn) hlt
  unfold Machine.divide
  simp only [h0, hrdx, toNat_and_mask, bits_of, Bool.false_eq_true, UInt64.zero_and,
    UInt64.toNat_zero, zero_mul, zero_add, ↓reduceIte]
  rw [if_neg]
  · rw [toInt_of_unsigned hs, toInt_of_unsigned hs,
      Int.tdiv_eq_ediv_of_nonneg (Int.natCast_nonneg _),
      Int.tmod_eq_emod_of_nonneg (Int.natCast_nonneg _)]
    rfl
  · rw [toInt_of_unsigned hs, toInt_of_unsigned hs,
      Int.tdiv_eq_ediv_of_nonneg (Int.natCast_nonneg _)] at hq
    simpa using hq

end Amd64

end OnePassJit
