import OnePassJit.Proofs.Amd64.Numeric
import OnePassJit.Proofs.Ieee.Truncation
import OnePassJit.Proofs.Machine.Conversion
import OnePassJit.Proofs.Machine.IntegerDivision

/-!
Float to integer truncation as generated code runs it.

`FloatType.truncTo` is what the operation is to do: a NaN is an invalid conversion, a value
whose truncation toward zero leaves the range of the integer type overflows, and any other value
converts to that truncation; a saturating conversion answers 0 for a NaN and the nearer end of
the range for the rest.

`cvttss2si` and `cvttsd2si` truncate toward zero and answer the word with only the sign bit set
for every input they cannot convert (`truncToInt_eq`). The signed code converts first and checks
only when that word comes back (`cmp r, 1` overflows exactly there): it is then a NaN, a value
below the range (compared with the least value, or one below it where the input type has
fractions there), a value at or above zero (above the range, since the conversion failed), or
exactly the least value. The unsigned code checks first: at most `-1` is below, at least
`2 ^ bits` above, and what remains converts at 64 bits; a 64-bit input of `2 ^ 63` or more is
taken `2 ^ 63` down first, exactly (`Ieee.Format.sub_binade`), and the top bit put back.

`runs_truncFromFloat`: for every float and integer type, both modes, and every allocation of the
operand and of the values below it, the code either leaves to the host with the trap `truncTo`
gives or runs to its end, where the values below are kept and the answer is on top.
-/

namespace OnePassJit

open Ieee

namespace FloatType

/-- Truncation toward zero of the float `x` of type `t` into the integer type `o`: the trap it
raises, or its value. A saturating conversion answers 0 for a NaN and the nearer end of the
range for a value out of it. -/
def truncTo (t : FloatType) (o : IntType) (saturating : Bool) (x : UInt64) :
    Except TrapKind UInt64 :=
  if t.format.isNaN x.toNat then (if saturating then .ok 0 else .error .invalidConversion)
  else if t.format.truncBelow o.lo x.toNat then
    (if saturating then .ok (o.ofInt o.lo) else .error .integerOverflow)
  else if t.format.truncAtLeast o.hi x.toNat then
    (if saturating then .ok (o.ofInt (o.hi - 1)) else .error .integerOverflow)
  else .ok (o.ofInt (towardZero (t.format.toRat x.toNat)))

end FloatType

namespace Amd64

open Lower ValueStack Vec128 IntType

/-! What the spec answers on each path of the code. -/

section Answers

variable {t : FloatType} {o : IntType} {sat : Bool} {x : UInt64}

theorem truncTo_of_isNaN (h : t.format.isNaN x.toNat = true) :
    t.truncTo o sat x = if sat then .ok 0 else .error .invalidConversion := by
  rw [FloatType.truncTo, if_pos h]

theorem truncTo_of_below (hn : t.format.isNaN x.toNat = false)
    (h : t.format.truncBelow o.lo x.toNat = true) :
    t.truncTo o sat x = if sat then .ok (o.ofInt o.lo) else .error .integerOverflow := by
  rw [FloatType.truncTo, if_neg (by simp [hn]), if_pos h]

theorem truncTo_of_above (hn : t.format.isNaN x.toNat = false)
    (hb : t.format.truncBelow o.lo x.toNat = false) (h : t.format.truncAtLeast o.hi x.toNat = true) :
    t.truncTo o sat x = if sat then .ok (o.ofInt (o.hi - 1)) else .error .integerOverflow := by
  rw [FloatType.truncTo, if_neg (by simp [hn]), if_neg (by simp [hb]), if_pos h]

theorem truncTo_of_range (hn : t.format.isNaN x.toNat = false)
    (hb : t.format.truncBelow o.lo x.toNat = false) (ha : t.format.truncAtLeast o.hi x.toNat = false) :
    t.truncTo o sat x = .ok (o.ofInt (towardZero (t.format.toRat x.toNat))) := by
  rw [FloatType.truncTo, if_neg (by simp [hn]), if_neg (by simp [hb]), if_neg (by simp [ha])]

theorem mem_range_of_not_out {b : Nat} (hb : t.format.truncBelow o.lo b = false)
    (ha : t.format.truncAtLeast o.hi b = false) :
    t.format.isInfinite b = false ∧ o.lo ≤ towardZero (t.format.toRat b) ∧
      towardZero (t.format.toRat b) < o.hi := by
  unfold Format.truncBelow at hb
  unfold Format.truncAtLeast at ha
  cases hi : t.format.isInfinite b
  · rw [hi, if_neg Bool.false_ne_true] at hb ha
    exact ⟨rfl, by simpa using hb, by simpa using ha⟩
  · rw [hi, if_pos rfl] at hb ha
    rw [hb] at ha
    cases ha

theorem truncTo_of_mem (hn : t.format.isNaN x.toNat = false)
    (hi : t.format.isInfinite x.toNat = false)
    (hz : o.lo ≤ towardZero (t.format.toRat x.toNat) ∧ towardZero (t.format.toRat x.toNat) < o.hi) :
    t.truncTo o sat x = .ok (o.ofInt (towardZero (t.format.toRat x.toNat))) := by
  refine truncTo_of_range hn ?_ ?_
  · simp [Format.truncBelow, hi, hz.1]
  · simp [Format.truncAtLeast, hi, hz.2]

theorem ofInt_zero (o : IntType) : o.ofInt 0 = 0 := by
  cases o <;> rfl

end Answers

/-! The conversion instruction and the overflow check after it. -/

section Conversion

variable {o : IntType}

/-- `cvttss2si` and `cvttsd2si` at width `w`: a finite input whose truncation toward zero fits
the signed range of the width converts to it; every other input gives the sign bit alone. -/
theorem truncToInt_eq (t : FloatType) (w : Width) (b : Nat) :
    truncToInt t.is32 w b =
      if t.format.isNaN b = false ∧ t.format.isInfinite b = false ∧
          -(2 ^ (w.bits - 1) : Int) ≤ towardZero (t.format.toRat b) ∧
          towardZero (t.format.toRat b) < 2 ^ (w.bits - 1)
      then UInt64.ofInt (towardZero (t.format.toRat b)) &&& w.mask else w.signBit := by
  simp only [truncToInt, FloatType.format_of_is32, Format.truncate_eq_towardZero, Nat.pow_eq]
  by_cases hn : t.format.isNaN b <;> by_cases hi : t.format.isInfinite b <;> simp [hn, hi]

theorem ofInt_and_mask (o : IntType) (z : Int) :
    UInt64.ofInt z &&& (Width.of o.is32).mask = o.ofInt z := by
  apply UInt64.toNat_inj.mp
  rw [toNat_and_mask, bits_of, toNat_ofInt_mod, IntType.ofInt, Nat.toUInt64_eq,
    UInt64.toNat_ofNat']
  have := Int.emod_nonneg z (show (2 ^ o.bits : Int) ≠ 0 by positivity)
  have := Int.emod_lt_of_pos z (show (0 : Int) < 2 ^ o.bits by positivity)
  rcases bits_eq o with hb | hb <;> rw [hb] at * <;> omega

theorem ofInt_eq_of_mem {z : Int} (h0 : 0 ≤ z) (h : z < 2 ^ o.bits) :
    UInt64.ofInt z = o.ofInt z := by
  apply UInt64.toNat_inj.mp
  have h1 := toNat_ofInt z
  rw [IntType.ofInt, Nat.toUInt64_eq, UInt64.toNat_ofNat']
  rcases bits_eq o with hb | hb <;> rw [hb] at h ⊢ <;> omega

theorem signBit_eq_ofInt_lo (ho : o.isSigned = true) :
    (Width.of o.is32).signBit = o.ofInt o.lo := by
  cases o <;> simp only [IntType.isSigned, Bool.false_eq_true] at ho <;> decide

theorem truncToInt_signed (t : FloatType) (ho : o.isSigned = true) (b : Nat) :
    truncToInt t.is32 (Width.of o.is32) b =
      if t.format.isNaN b = false ∧ t.format.isInfinite b = false ∧
          o.lo ≤ towardZero (t.format.toRat b) ∧ towardZero (t.format.toRat b) < o.hi
      then o.ofInt (towardZero (t.format.toRat b)) else o.ofInt o.lo := by
  have hlo : o.lo = -(2 ^ ((Width.of o.is32).bits - 1) : Int) := by
    simp [IntType.lo, ho, bits_of]
  have hhi : o.hi = 2 ^ ((Width.of o.is32).bits - 1) := by simp [IntType.hi, ho, bits_of]
  rw [truncToInt_eq, ofInt_and_mask, signBit_eq_ofInt_lo ho, ← hlo, ← hhi]

theorem truncToInt_w64 (t : FloatType) {b : Nat} (hn : t.format.isNaN b = false)
    (hi : t.format.isInfinite b = false) (h0 : 0 ≤ towardZero (t.format.toRat b))
    (h : towardZero (t.format.toRat b) < 2 ^ 63) :
    truncToInt t.is32 .w64 b = UInt64.ofInt (towardZero (t.format.toRat b)) := by
  have hm := ofInt_and_mask .s64 (towardZero (t.format.toRat b))
  rw [truncToInt_eq, if_pos ⟨hn, hi, by simp only [Width.bits]; omega,
    by simpa only [Width.bits] using h⟩]
  exact hm.trans (ofInt_eq_of_mem h0 (by rw [show IntType.s64.bits = 64 from rfl]; omega)).symm

theorem widen_truncToInt (is32 : Bool) (w : Width) (b : Nat) :
    Machine.widen w (truncToInt is32 w b) = truncToInt is32 w b := by
  cases w
  · show truncToInt is32 .w32 b &&& low32 = _
    simp only [truncToInt]
    generalize (if is32 then Format.single else Format.double) = f
    split_ifs
    · decide
    · simp only [Width.mask, UInt64.and_assoc, UInt64.and_self]
    · decide
  · rfl

theorem testBit_of_lt {n k : Nat} (h : n < 2 ^ (k + 1)) : n.testBit k = decide (2 ^ k ≤ n) := by
  rw [Nat.testBit_eq_decide_div_mod_eq]
  have hp := Nat.two_pow_pos k
  have h2 : 2 ^ (k + 1) = 2 ^ k * 2 := Nat.pow_succ 2 k
  have hq : n / 2 ^ k < 2 := Nat.div_lt_of_lt_mul (by omega)
  by_cases hk : 2 ^ k ≤ n
  · have : 1 ≤ n / 2 ^ k := (Nat.le_div_iff_mul_le hp).mpr (by omega)
    simp [hk]
    omega
  · have : n / 2 ^ k = 0 := Nat.div_eq_of_lt (by omega)
    simp [hk, this]

theorem of_cmp_one (w : Width) (v : UInt64) (f : Flags) :
    (alu .cmp w v (UInt64.ofInt 1) f).2.of = decide (v.toNat % 2 ^ w.bits = 2 ^ (w.bits - 1)) := by
  show ((((v &&& w.mask) ^^^ (UInt64.ofInt 1 &&& w.mask)) &&&
      ((v &&& w.mask) ^^^ ((v &&& w.mask) - (UInt64.ofInt 1 &&& w.mask)) &&& w.mask)) &&&
      w.signBit != 0) = _
  have hw : 0 < w.bits - 1 ∧ w.bits = (w.bits - 1) + 1 := by cases w <;> decide
  have hone : (UInt64.ofInt 1 &&& w.mask).toNat = 1 := by cases w <;> decide
  have hr : ((v &&& w.mask) - (UInt64.ofInt 1 &&& w.mask) &&& w.mask).toNat =
      (v.toNat % 2 ^ w.bits + 2 ^ w.bits - 1) % 2 ^ w.bits := by
    rw [toNat_and_mask, UInt64.toNat_sub, hone, toNat_and_mask]
    cases w <;> simp only [Width.bits] <;> omega
  rw [and_signBit_ne_zero, UInt64.toNat_and, UInt64.toNat_xor, UInt64.toNat_xor, hone, hr,
    toNat_and_mask]
  generalize w.bits - 1 = k at hw ⊢
  rw [hw.2, ← testBit_of_lt (Nat.mod_lt _ (Nat.two_pow_pos _)), Nat.testBit_mod_two_pow]
  have hA := Nat.mod_lt v.toNat (Nat.two_pow_pos (k + 1))
  generalize v.toNat % 2 ^ (k + 1) = A at hA ⊢
  have hP : 2 ^ (k + 1) = 2 * 2 ^ k := by rw [Nat.pow_succ, Nat.mul_comm]
  have h1 : (1 : Nat).testBit k = false := by
    rw [testBit_of_lt (by omega), decide_eq_false_iff_not, not_le]
    exact Nat.one_lt_two_pow (by omega)
  rw [Nat.testBit_and, Nat.testBit_xor, Nat.testBit_xor, h1, Bool.xor_false, testBit_of_lt hA]
  have hk := Nat.two_pow_pos k
  by_cases h0 : A = 0
  · -- from zero the difference wraps to all ones, and the operand's bit is clear
    rw [h0, Nat.zero_add, Nat.mod_eq_of_lt (by omega)]
    simp
    omega
  · rw [show A + 2 ^ (k + 1) - 1 = A - 1 + 2 ^ (k + 1) by omega, Nat.add_mod_right,
      Nat.mod_eq_of_lt (by omega), testBit_of_lt (by omega)]
    by_cases h : 2 ^ k ≤ A <;> by_cases h' : 2 ^ k ≤ A - 1 <;> simp [h, h'] <;> omega

theorem ofInt_eq_signBit_iff (ho : o.isSigned = true) {z : Int} (hz : o.lo ≤ z ∧ z < o.hi) :
    (o.ofInt z).toNat % 2 ^ (Width.of o.is32).bits = 2 ^ ((Width.of o.is32).bits - 1) ↔
      z = o.lo := by
  rw [bits_of, IntType.ofInt, Nat.toUInt64_eq, UInt64.toNat_ofNat']
  cases o <;> simp only [IntType.isSigned, Bool.false_eq_true] at ho <;>
    simp only [IntType.lo, IntType.hi, IntType.bits, IntType.isSigned, IntType.is32] at hz ⊢ <;>
    simp at hz ⊢ <;> omega

theorem xor_two_pow_eq_add {a n : Nat} (h : a < 2 ^ n) : a ^^^ 2 ^ n = a + 2 ^ n := by
  rw [← Nat.or_two_pow_eq_add_of_lt h]
  apply Nat.eq_of_testBit_eq
  intro i
  rw [Nat.testBit_xor, Nat.testBit_or, Nat.testBit_two_pow]
  by_cases hi : n = i
  · subst hi
    simp [Nat.testBit_lt_two_pow h]
  · simp [hi]

theorem ofInt_xor_high {y : Int} (h0 : 0 ≤ y) (h : y < 2 ^ 63) :
    UInt64.ofInt y ^^^ 0x8000000000000000 = UInt64.ofInt (y + 2 ^ 63) := by
  apply UInt64.toNat_inj.mp
  have h1 := toNat_ofInt y
  have h2 := toNat_ofInt (y + 2 ^ 63)
  have ha : (UInt64.ofInt y).toNat < 2 ^ 63 := by omega
  rw [UInt64.toNat_xor, show (0x8000000000000000 : UInt64).toNat = 2 ^ 63 from rfl,
    xor_two_pow_eq_add ha]
  omega

theorem widen_xor (a b : UInt64) (f : Flags) :
    Machine.widen .w64 (alu .xor .w64 a b f).1 = a ^^^ b := by
  apply UInt64.toNat_inj.mp
  show ((a ^^^ b) &&& Width.w64.mask).toNat = _
  rw [toNat_and_mask]
  exact Nat.mod_eq_of_lt (UInt64.toNat_lt _)

end Conversion

/-! What the comparisons with the bounds find. -/

section Bounds

variable {f : Format} {b p : Nat}

theorem holds_b_ucomisOf (o : Ordering4) :
    Cond.b.holds (ucomisOf o) = decide (o = .less ∨ o = .unordered) := by
  cases o <;> rfl

theorem holds_be_ucomisOf (o : Ordering4) :
    Cond.be.holds (ucomisOf o) = decide (o = .less ∨ o = .equal ∨ o = .unordered) := by
  cases o <;> rfl

theorem holds_p_self (f : Format) (b : Nat) :
    Cond.p.holds (ucomisOf (f.compare b b)) = f.isNaN b := by
  rw [holds_p_ucomisOf, Bool.eq_iff_iff, decide_eq_true_iff, Format.compare_eq_unordered_iff,
    or_self]

theorem value_of_toRat {L : ℚ} (hpi : f.isInfinite p = false) (hp : f.toRat p = L) :
    f.value p = ((L : WithTop ℚ) : WithBot (WithTop ℚ)) := by
  rw [Format.value_eq_toRat hpi, hp]

theorem toRat_pattern {m : Nat} {q : ℤ} {s : Bool} (hs : f.sign p = s)
    (hsig : f.significand p = (m, q)) :
    f.toRat p = if s then -((m : ℚ) * 2 ^ q) else (m : ℚ) * 2 ^ q := by
  rw [Format.toRat_of_significand hsig, hs]

variable (hf : 0 < f.infMag) (hb : f.isNaN b = false) (hpn : f.isNaN p = false)
  (hpi : f.isInfinite p = false)
include hf hb hpn hpi

theorem holds_b_bound {L : ℤ} (hL : L ≤ -2 ^ f.fracBits) (hp : f.toRat p = L) :
    Cond.b.holds (ucomisOf (f.compare b p)) = f.truncBelow L b := by
  rw [Bool.eq_iff_iff, Format.truncBelow_iff_value_lt hL, ← value_of_toRat hpi hp,
    holds_b_ucomisOf, decide_eq_true_iff, Format.compare_eq_less_iff hf,
    Format.compare_eq_unordered_iff]
  simp [hb, hpn]

theorem holds_be_bound {L : ℤ} (hL : L ≤ 0) (hp : f.toRat p = ((L - 1 : ℤ) : ℚ)) :
    Cond.be.holds (ucomisOf (f.compare b p)) = f.truncBelow L b := by
  rw [Bool.eq_iff_iff, Format.truncBelow_iff_value_le hL, ← value_of_toRat hpi hp,
    holds_be_ucomisOf, decide_eq_true_iff, Format.compare_eq_less_iff hf,
    Format.compare_eq_equal_iff hf, Format.compare_eq_unordered_iff, le_iff_lt_or_eq]
  simp [hb, hpn]

theorem holds_ae_bound {H : ℤ} (hH : 0 < H) (hp : f.toRat p = H) :
    Cond.ae.holds (ucomisOf (f.compare b p)) = f.truncAtLeast H b := by
  rw [Bool.eq_iff_iff, Format.truncAtLeast_iff hH, ← value_of_toRat hpi hp,
    holds_ae_ucomisOf, decide_eq_true_iff, Format.compare_eq_greater_iff hf,
    Format.compare_eq_equal_iff hf, le_iff_lt_or_eq]
  simp [hb, hpn, eq_comm]

end Bounds

theorem holds_signedBound (t : FloatType) {o : IntType} (ho : o.isSigned = true) {b : Nat}
    (hb : t.format.isNaN b = false) :
    (signedBound t o.is32).2.holds (ucomisOf (t.format.compare b (signedBound t o.is32).1.toNat)) =
      t.format.truncBelow o.lo b := by
  have hf := t.infMag_pos
  cases t <;> cases o <;> simp only [IntType.isSigned, Bool.false_eq_true] at ho <;>
    dsimp only [signedBound, IntType.is32]
  case f32.s32 =>
    refine holds_b_bound hf hb (by decide) (by decide) (by decide) ?_
    rw [toRat_pattern (s := true) (by decide) (by decide : FloatType.f32.format.significand
      (0xCF000000 : UInt64).toNat = (2 ^ 23, 8))]
    norm_num [IntType.lo, IntType.bits, IntType.isSigned, IntType.is32]
  case f32.s64 =>
    refine holds_b_bound hf hb (by decide) (by decide) (by decide) ?_
    rw [toRat_pattern (s := true) (by decide) (by decide : FloatType.f32.format.significand
      (0xDF000000 : UInt64).toNat = (2 ^ 23, 40))]
    norm_num [IntType.lo, IntType.bits, IntType.isSigned, IntType.is32]
  case f64.s32 =>
    refine holds_be_bound hf hb (by decide) (by decide) (by decide) ?_
    rw [toRat_pattern (s := true) (by decide) (by decide : FloatType.f64.format.significand
      (0xC1E0000000200000 : UInt64).toNat = (2 ^ 52 + 2 ^ 21, -21))]
    norm_num [IntType.lo, IntType.bits, IntType.isSigned, IntType.is32]
  case f64.s64 =>
    refine holds_b_bound hf hb (by decide) (by decide) (by decide) ?_
    rw [toRat_pattern (s := true) (by decide) (by decide : FloatType.f64.format.significand
      (0xC3E0000000000000 : UInt64).toNat = (2 ^ 52, 11))]
    norm_num [IntType.lo, IntType.bits, IntType.isSigned, IntType.is32]

theorem holds_be_negOne (t : FloatType) {o : IntType} (ho : o.isSigned = false) {b : Nat}
    (hb : t.format.isNaN b = false) :
    Cond.be.holds (ucomisOf (t.format.compare b
      (if t.is32 then (0xBF800000 : UInt64) else 0xBFF0000000000000).toNat)) =
      t.format.truncBelow o.lo b := by
  have hlo : o.lo = 0 := by simp [IntType.lo, ho]
  rw [hlo]
  cases t
  case f32 =>
    simp only [FloatType.is32, ↓reduceIte]
    refine holds_be_bound FloatType.f32.infMag_pos hb (by decide) (by decide) le_rfl ?_
    rw [toRat_pattern (s := true) (by decide) (by decide : FloatType.f32.format.significand
      (0xBF800000 : UInt64).toNat = (2 ^ 23, -23))]
    norm_num
  case f64 =>
    simp only [FloatType.is32, Bool.false_eq_true, ↓reduceIte]
    refine holds_be_bound FloatType.f64.infMag_pos hb (by decide) (by decide) le_rfl ?_
    rw [toRat_pattern (s := true) (by decide) (by decide : FloatType.f64.format.significand
      (0xBFF0000000000000 : UInt64).toNat = (2 ^ 52, -52))]
    norm_num

theorem holds_unsignedLimit (t : FloatType) {o : IntType} (ho : o.isSigned = false) {b : Nat}
    (hb : t.format.isNaN b = false) :
    Cond.ae.holds (ucomisOf (t.format.compare b (unsignedLimit t o.is32).toNat)) =
      t.format.truncAtLeast o.hi b := by
  have hf := t.infMag_pos
  cases t <;> cases o <;> simp only [IntType.isSigned, Bool.true_eq_false] at ho <;>
    dsimp only [unsignedLimit, IntType.is32]
  case f32.u32 =>
    refine holds_ae_bound hf hb (by decide) (by decide) (by decide) ?_
    rw [toRat_pattern (s := false) (by decide) (by decide : FloatType.f32.format.significand
      (0x4F800000 : UInt64).toNat = (2 ^ 23, 9))]
    norm_num [IntType.hi, IntType.bits, IntType.isSigned, IntType.is32]
  case f32.u64 =>
    refine holds_ae_bound hf hb (by decide) (by decide) (by decide) ?_
    rw [toRat_pattern (s := false) (by decide) (by decide : FloatType.f32.format.significand
      (0x5F800000 : UInt64).toNat = (2 ^ 23, 41))]
    norm_num [IntType.hi, IntType.bits, IntType.isSigned, IntType.is32]
  case f64.u32 =>
    refine holds_ae_bound hf hb (by decide) (by decide) (by decide) ?_
    rw [toRat_pattern (s := false) (by decide) (by decide : FloatType.f64.format.significand
      (0x41F0000000000000 : UInt64).toNat = (2 ^ 52, -20))]
    norm_num [IntType.hi, IntType.bits, IntType.isSigned, IntType.is32]
  case f64.u64 =>
    refine holds_ae_bound hf hb (by decide) (by decide) (by decide) ?_
    rw [toRat_pattern (s := false) (by decide) (by decide : FloatType.f64.format.significand
      (0x43F0000000000000 : UInt64).toNat = (2 ^ 52, 12))]
    norm_num [IntType.hi, IntType.bits, IntType.isSigned, IntType.is32]


theorem holds_ae_pow63 (t : FloatType) {b : Nat} (hb : t.format.isNaN b = false) :
    Cond.ae.holds (ucomisOf (t.format.compare b
      (if t.is32 then (0x5F000000 : UInt64) else 0x43E0000000000000).toNat)) =
      t.format.truncAtLeast (2 ^ 63) b := by
  cases t
  case f32 =>
    simp only [FloatType.is32, ↓reduceIte]
    refine holds_ae_bound FloatType.f32.infMag_pos hb (by decide) (by decide) (by norm_num) ?_
    rw [toRat_pattern (s := false) (by decide) (by decide : FloatType.f32.format.significand
      (0x5F000000 : UInt64).toNat = (2 ^ 23, 40))]
    norm_num
  case f64 =>
    simp only [FloatType.is32, Bool.false_eq_true, ↓reduceIte]
    refine holds_ae_bound FloatType.f64.infMag_pos hb (by decide) (by decide) (by norm_num) ?_
    rw [toRat_pattern (s := false) (by decide) (by decide : FloatType.f64.format.significand
      (0x43E0000000000000 : UInt64).toNat = (2 ^ 52, 11))]
    norm_num

/-! The instructions. -/

theorem Asm.cvtt_eq {d s : Reg} (hd : d.IsGp) (hs : s.IsXmm) (src32 : Bool) (w : Width)
    (a : Assembler) :
    Asm.cvtt src32 w d s a = .ok ((), Asm.pushed a (.cvtt src32 w d.gpr s.xmm)) := by
  rw [Asm.cvtt, Asm.bind_ok (Asm.xmm_eq hs _ _), Asm.bind_ok (Asm.gp_eq hd _ _)]
  rfl

theorem AsmGrows.cvtt (src32 : Bool) (w : Width) (d s : Reg) :
    AsmGrows (Asm.cvtt src32 w d s) :=
  .bind (.xmm _ _) fun _ => .bind (.gp _ _) fun _ => .add _

theorem Machine.exec_cvtt {M : Machine} {next : UInt64} (src32 : Bool) (w : Width) (d : Gpr)
    (s : Xmm) :
    M.exec (.cvtt src32 w d s) next =
      .ok ((M.goto next).setGpW w d
        (truncToInt src32 w ((M.xr s).lane (if src32 then 32 else 64) 0))) := rfl

theorem floatLane_ofLow_mask (t : FloatType) {v : UInt64} (hv : v.toNat < 2 ^ t.bits) :
    (Vec128.ofLow (v &&& (Width.of t.is32).mask)).floatLane t = v := by
  cases t
  · show (v &&& low32) &&& low32 = v
    apply UInt64.toNat_inj.mp
    rw [toNat_and_low32, toNat_and_low32, Nat.mod_mod]
    exact Nat.mod_eq_of_lt hv
  · exact and_mask_w64 v

section Steps

variable {K : Code} {X : Machine → Prop} {c : Compiler} {M : Machine} {fb cap : Nat}

theorem runs_cvtt (henv : Env M fb cap) {d s : Reg} (hd : d.IsGp) (hs : s.IsXmm) (t : FloatType)
    (w : Width) {Q : Unit → Compiler → Machine → Prop}
    (hQ : ∀ M', Steady M M' fb {d} →
      M'.gp d.gpr = truncToInt t.is32 w ((M.xr s.xmm).floatLane t).toNat →
      Q () { c with asm := Asm.pushed c.asm (.cvtt t.is32 w d.gpr s.xmm) } M') :
    Runs K X (asm (Asm.cvtt t.is32 w d s)) Q c M :=
  Runs.step (Asm.cvtt_eq hd hs _ _ _) (Machine.exec_cvtt _ _ _ _) rfl
    (hQ _ (Steady.goto_setGpW henv.gpr_size hd _ _ _) (by
      rw [Machine.gp_goto_setGpW_self henv.gpr_size, widen_truncToInt, FloatType.bits_of_is32,
        toNat_floatLane]))

theorem runs_cmpOne {r : Reg} (hr : r.IsGp) (w : Width) {Q : Unit → Compiler → Machine → Prop}
    (hQ : ∀ M', Steady M M' fb ∅ →
      Cond.no.holds M'.cpu.flags = !decide ((M.gp r.gpr).toNat % 2 ^ w.bits = 2 ^ (w.bits - 1)) →
      Q () { c with asm := Asm.pushed c.asm (.aluRI .cmp w r.gpr 1) } M') :
    Runs K X (asm (Asm.aluRI .cmp w r 1)) Q c M :=
  Runs.step (Asm.aluRI_eq hr .cmp w 1 _) (Machine.exec_aluRI _ _ _ _) rfl
    (hQ _ (Steady.goto_setFlags _ _) (congrArg (!·) (of_cmp_one _ _ _)))

theorem runs_ucomisLanes {d s : Reg} (hd : d.IsXmm) (hs : s.IsXmm) (t : FloatType) {a b : UInt64}
    (ha : (M.xr d.xmm).floatLane t = a) (hb : (M.xr s.xmm).floatLane t = b)
    {Q : Unit → Compiler → Machine → Prop}
    (hQ : ∀ M', Steady M M' fb ∅ → M'.cpu.flags = ucomisOf (t.format.compare a.toNat b.toNat) →
      Q () { c with asm := Asm.pushed c.asm (.scalar .ucomis t.is32 d.xmm s.xmm) } M') :
    Runs K X (asm (Asm.scalar .ucomis t.is32 d s)) Q c M :=
  runs_ucomis hd hs t.is32 fun M' hs' hfl => hQ M' hs' (by rw [hfl, ucomisFlags_float, ha, hb])

theorem runs_clearVec (henv : Env M fb cap) {r : Reg} (hr : r.IsXmm)
    {Q : Unit → Compiler → Machine → Prop}
    (hQ : ∀ M', Steady M M' fb {r} → (∀ t, (M'.xr r.xmm).floatLane t = 0) →
      Q () { c with asm := Asm.pushed c.asm (.vec .pxor r.xmm r.xmm) } M') :
    Runs K X (asm (Asm.vec .pxor r r)) Q c M := by
  have hex : M.exec (.vec .pxor r.xmm r.xmm) (K.addr (c.asm.instrs.size + 1)) =
      .ok ((M.goto (K.addr (c.asm.instrs.size + 1))).setXr r.xmm
        (VecOp.apply .pxor (M.xr r.xmm) (M.xr r.xmm))) := by
    rw [Machine.exec_vec, if_neg (by decide)]
  refine Runs.step (Asm.vec_eq hr hr .pxor _) hex rfl
    (hQ _ (Steady.of_keeps (Keeps.goto_setXr henv.xmm_size hr _ _)) fun t => ?_)
  rw [Machine.xr_goto_setXr_self henv.xmm_size]
  cases t <;> simp [VecOp.apply, Vec128.xor, Vec128.floatLane]

theorem runs_setFloatBits (henv : Env M fb cap) {r : Reg} (hr : r.IsXmm) (t : FloatType)
    {bits : UInt64} (hbits : bits.toNat < 2 ^ t.bits) {β : Type} {k : Unit → LowerM β}
    (hk : ∀ x, Grows (k x)) {Q : β → Compiler → Machine → Prop}
    (hQ : ∀ c' M', c'.stack = c.stack → Steady M M' fb {r, scratchGp} →
      (M'.xr r.xmm).floatLane t = bits → Runs K X (k ()) Q c' M') :
    Runs K X (setFloatBits r t.is32 bits >>= k) Q c M := by
  unfold setFloatBits
  rw [bind_assoc]
  refine runs_movRI64 henv (r := scratchGp) (by decide) bits
    (fun _ => .bind (.asm' (.movGpToXmm _ _ _)) hk) fun c₁ M₁ hc₁ hk₁ hv₁ => ?_
  refine Runs.bind (runs_movGpToXmm (henv.of_keeps hk₁ (by simp [writable_scratchGp])) hr
    (by decide) _ fun M₂ hk₂ hv₂ => hQ _ M₂ (by rw [hc₁]) ?_ ?_) hk
  · refine ((Steady.of_keeps hk₁).trans (Steady.of_keeps hk₂)).mono fun w hw => ?_
    simp only [Finset.mem_union, Finset.mem_singleton] at hw
    simp only [Finset.mem_insert, Finset.mem_singleton]
    exact hw.symm
  · rw [hv₂, hv₁]
    exact floatLane_ofLow_mask t hbits

end Steps


/-! What the overflow check tells of a signed conversion. -/

section Check

variable {f : Format} {b : Nat} {L H : ℤ} {o : IntType}

theorem lo_lt_hi (o : IntType) : o.lo < o.hi := by
  cases o <;> decide

theorem truncToInt_of_no_overflow (t : FloatType) (ho : o.isSigned = true) {b : Nat}
    (h : ¬ (truncToInt t.is32 (Width.of o.is32) b).toNat % 2 ^ (Width.of o.is32).bits =
      2 ^ ((Width.of o.is32).bits - 1)) :
    (t.format.isNaN b = false ∧ t.format.isInfinite b = false ∧
      o.lo ≤ towardZero (t.format.toRat b) ∧ towardZero (t.format.toRat b) < o.hi) ∧
    truncToInt t.is32 (Width.of o.is32) b = o.ofInt (towardZero (t.format.toRat b)) := by
  rw [truncToInt_signed t ho] at h ⊢
  split_ifs at h ⊢ with hR
  · exact ⟨hR, rfl⟩
  · exact absurd ((ofInt_eq_signBit_iff ho ⟨le_rfl, lo_lt_hi o⟩).mpr rfl) h

theorem truncToInt_of_overflow (t : FloatType) (ho : o.isSigned = true) {b : Nat}
    (h : (truncToInt t.is32 (Width.of o.is32) b).toNat % 2 ^ (Width.of o.is32).bits =
      2 ^ ((Width.of o.is32).bits - 1)) :
    (t.format.isNaN b = false → t.format.isInfinite b = false →
      o.lo ≤ towardZero (t.format.toRat b) → towardZero (t.format.toRat b) < o.hi →
      towardZero (t.format.toRat b) = o.lo) ∧
    truncToInt t.is32 (Width.of o.is32) b = o.ofInt o.lo := by
  rw [truncToInt_signed t ho] at h ⊢
  split_ifs at h ⊢ with hR
  · have hz := (ofInt_eq_signBit_iff ho ⟨hR.2.2.1, hR.2.2.2⟩).mp h
    exact ⟨fun _ _ _ _ => hz, by rw [hz]⟩
  · exact ⟨fun hn hi hlo hhi => absurd ⟨hn, hi, hlo, hhi⟩ hR, rfl⟩

theorem truncAtLeast_of_nonneg (hfail : f.isInfinite b = false → L ≤ towardZero (f.toRat b) →
      towardZero (f.toRat b) < H → towardZero (f.toRat b) = L) (hL : L < 0)
    (h0 : (((0 : ℚ) : WithTop ℚ) : WithBot (WithTop ℚ)) ≤ f.value b) :
    f.truncAtLeast H b = true := by
  unfold Format.truncAtLeast
  cases hi : f.isInfinite b
  · rw [Format.value_eq_toRat hi, WithBot.coe_le_coe, WithTop.coe_le_coe] at h0
    have hz := towardZero_nonneg h0
    rw [if_neg Bool.false_ne_true, decide_eq_true_iff]
    by_contra hlt
    have := hfail hi (by omega) (by omega)
    omega
  · rw [Format.value_of_isInfinite hi] at h0
    rw [if_pos rfl]
    cases hs : f.sign b
    · rfl
    · rw [hs, if_pos rfl] at h0
      exact absurd h0 (not_le_of_gt (WithBot.bot_lt_coe _))

theorem eq_of_neg (hfail : f.isInfinite b = false → L ≤ towardZero (f.toRat b) →
      towardZero (f.toRat b) < H → towardZero (f.toRat b) = L) (hH : 0 < H)
    (hb : f.truncBelow L b = false)
    (h0 : f.value b < (((0 : ℚ) : WithTop ℚ) : WithBot (WithTop ℚ))) :
    f.isInfinite b = false ∧ towardZero (f.toRat b) = L := by
  unfold Format.truncBelow at hb
  cases hi : f.isInfinite b
  · rw [hi, if_neg Bool.false_ne_true, decide_eq_false_iff_not, not_lt] at hb
    rw [Format.value_eq_toRat hi, WithBot.coe_lt_coe, WithTop.coe_lt_coe] at h0
    have hz := towardZero_nonpos h0.le
    exact ⟨rfl, hfail hi hb (by omega)⟩
  · rw [Format.value_of_isInfinite hi] at h0
    rw [hi, if_pos rfl] at hb
    rw [hb, if_neg Bool.false_ne_true] at h0
    exact absurd h0 (not_lt_of_ge le_top)

theorem holds_ae_zero (t : FloatType) (hb : t.format.isNaN b = false) :
    Cond.ae.holds (ucomisOf (t.format.compare b 0)) =
      decide ((((0 : ℚ) : WithTop ℚ) : WithBot (WithTop ℚ)) ≤ t.format.value b) := by
  have hz := Format.isNaN_zero (f := t.format) (by cases t <;> decide)
  rw [← value_of_toRat hz.2 Format.toRat_zero, holds_ae_ucomisOf, Bool.eq_iff_iff,
    decide_eq_true_iff, decide_eq_true_iff, Format.compare_eq_greater_iff t.infMag_pos,
    Format.compare_eq_equal_iff t.infMag_pos, le_iff_lt_or_eq]
  simp [hb, hz.1, eq_comm]

end Check

/-! Above `2 ^ 63` an unsigned 64-bit truncation takes `2 ^ 63` off first. -/

section Large

variable {f : Format} {b p : Nat}

theorem finite_of_truncAtLeast {H H' : ℤ} (ha : f.truncAtLeast H b = true)
    (hb : f.truncAtLeast H' b = false) :
    f.isInfinite b = false ∧ H ≤ towardZero (f.toRat b) ∧ towardZero (f.toRat b) < H' := by
  unfold Format.truncAtLeast at ha hb
  cases hi : f.isInfinite b
  · rw [hi, if_neg Bool.false_ne_true] at ha hb
    exact ⟨rfl, by simpa using ha, by simpa using hb⟩
  · rw [hi, if_pos rfl] at ha hb
    rw [ha] at hb
    cases hb

theorem sub_pow63 (hx : 0 < f.expBits) (hk : f.minQuantum + 2 * f.fracBits ≤ 63)
    (hkmax : 63 ≤ f.maxQuantum + f.fracBits) (hpn : f.isNaN p = false)
    (hpi : f.isInfinite p = false) (hps : p < f.signMask)
    (hpsig : f.significand p = (2 ^ f.fracBits, (63 : ℤ) - f.fracBits)) (hn : f.isNaN b = false)
    (ha : f.truncAtLeast (2 ^ 63) b = true) (hb : f.truncAtLeast (2 ^ 64) b = false) :
    f.isNaN (f.sub b p) = false ∧ f.isInfinite (f.sub b p) = false ∧
      towardZero (f.toRat (f.sub b p)) = towardZero (f.toRat b) - 2 ^ 63 ∧
      f.sub b p < 2 ^ f.width := by
  obtain ⟨hi, hlo, hhi⟩ := finite_of_truncAtLeast ha hb
  have hlo' : ((2 ^ 63 : ℤ) : ℚ) ≤ f.toRat b := (le_towardZero_iff (by norm_num)).mp hlo
  have hhi' : f.toRat b < ((2 ^ 64 : ℤ) : ℚ) :=
    lt_of_not_ge fun h => absurd ((le_towardZero_iff (by norm_num)).mpr h) (not_le.mpr hhi)
  obtain ⟨hdn, hdi, hd, hlt⟩ := Format.sub_binade (k := 63) hx hk hkmax hn hi
    (by rw [show (2 : ℚ) ^ (63 : ℤ) = ((2 ^ 63 : ℤ) : ℚ) by norm_num]; exact hlo')
    (by rw [show (2 : ℚ) ^ ((63 : ℤ) + 1) = ((2 ^ 64 : ℤ) : ℚ) by norm_num]; exact hhi')
    hpn hpi hps hpsig
  refine ⟨hdn, hdi, ?_, hlt⟩
  rw [hd, show (2 : ℚ) ^ (63 : ℤ) = ((2 ^ 63 : ℤ) : ℚ) by norm_num,
    towardZero_sub_intCast hlo' (by norm_num)]

theorem pow63_pattern (t : FloatType) :
    let p := (if t.is32 then (0x5F000000 : UInt64) else 0x43E0000000000000).toNat
    0 < t.format.expBits ∧ t.format.minQuantum + 2 * t.format.fracBits ≤ 63 ∧
      63 ≤ t.format.maxQuantum + t.format.fracBits ∧ t.format.isNaN p = false ∧
      t.format.isInfinite p = false ∧ p < t.format.signMask ∧
      t.format.significand p = (2 ^ t.format.fracBits, (63 : ℤ) - t.format.fracBits) := by
  cases t <;> decide

theorem ScalarOp.apply_sub (t : FloatType) (d s : Vec128) :
    ScalarOp.sub.apply t.is32 d s = scalarLane t.bits t.format.sub d s := by
  cases t <;> rfl

theorem truncToInt_sub_pow63 (t : FloatType) {d s : Vec128}
    (hn : t.format.isNaN (d.floatLane t).toNat = false)
    (ha : t.format.truncAtLeast (2 ^ 63) (d.floatLane t).toNat = true)
    (hb : t.format.truncAtLeast (2 ^ 64) (d.floatLane t).toNat = false)
    (hs : s.floatLane t = if t.is32 then 0x5F000000 else 0x43E0000000000000) :
    truncToInt t.is32 .w64 ((ScalarOp.sub.apply t.is32 d s).floatLane t).toNat =
      UInt64.ofInt (towardZero (t.format.toRat (d.floatLane t).toNat) - 2 ^ 63) := by
  obtain ⟨hx, hk, hkmax, hpn, hpi, hps, hpsig⟩ := pow63_pattern t
  obtain ⟨-, hlo, hhi⟩ := finite_of_truncAtLeast ha hb
  obtain ⟨hdn, hdi, hd, hlt⟩ := sub_pow63 hx hk hkmax hpn hpi hps hpsig hn ha hb
  rw [FloatType.width_format] at hlt
  rw [ScalarOp.apply_sub, floatLane_scalarLane _ _ t
      (by rwa [← toNat_floatLane, ← toNat_floatLane, hs]), hs, FloatType.toNat_toUInt64 t hlt,
    truncToInt_w64 t hdn hdi (by omega) (by omega), hd]

end Large

/-- While a float truncates: `M₀` held the values `vs` of the stack `s` below the operand, whose
registers `T` are temporaries; `M` differs from `M₀` in the flags and in the registers `W`,
none of which holds a value, only. -/
structure Truncating (M₀ M : Machine) (fb cap : Nat) (s : ValueStack) (vs : List UInt64)
    (T W : Finset Reg) : Prop where
  rep : Rep M₀ fb cap s vs
  fit : Fit T s
  noFlags : s.NoFlags
  room : vs.length < cap
  writable : ∀ w ∈ W, Writable w
  free : ∀ w ∈ W, ¬ s.Holds w
  steady : Steady M₀ M fb W

namespace Truncating

variable {M₀ M M' : Machine} {fb cap : Nat} {s : ValueStack} {vs : List UInt64}
  {T W W' : Finset Reg}

theorem start (h : Rep M fb cap s vs) (hfit : Fit T s) (hnf : s.NoFlags) (hroom : vs.length < cap)
    (hW : ∀ w ∈ W, Writable w ∧ (w ∈ T ∨ w ∉ gpPool ∧ w ∉ vecPool)) :
    Truncating M M fb cap s vs T W where
  rep := h
  fit := hfit
  noFlags := hnf
  room := hroom
  writable w hw := (hW w hw).1
  free w hw := (hW w hw).2.elim (hfit.1.temp_free w) fun hp => h.not_holds hp.1 hp.2
  steady := (Keeps.refl M fb).mono (Finset.empty_subset _) le_rfl

theorem step (h : Truncating M₀ M fb cap s vs T W) (hs : Steady M M' fb W') (hW : W' ⊆ W) :
    Truncating M₀ M' fb cap s vs T W :=
  { h with steady := h.steady.step hs hW }

theorem goto (h : Truncating M₀ M fb cap s vs T W) (a : UInt64) :
    Truncating M₀ (M.goto a) fb cap s vs T W :=
  h.step (Steady.goto a) (Finset.empty_subset _)

theorem rep_now (h : Truncating M₀ M fb cap s vs T W) : Rep M fb cap s vs :=
  h.rep.of_steady h.fit.1 h.noFlags h.steady h.writable h.free

theorem env (h : Truncating M₀ M fb cap s vs T W) : Env M fb cap :=
  h.rep_now.env

theorem sp_eq (h : Truncating M₀ M fb cap s vs T W) : s.sp = vs.length :=
  h.rep.length_eq.symm

theorem release {r : Reg} (h : Truncating M₀ M fb cap s vs (insert r T) W) (hr : r ∉ T) :
    Truncating M₀ M fb cap { s with used := s.used.erase r } vs T W where
  rep := h.rep.congr_slots rfl
  fit := by
    have hlay := h.fit.1.erase_used (Finset.mem_insert_self r T)
    rw [Finset.erase_insert hr] at hlay
    exact ⟨hlay, h.fit.2⟩
  noFlags := h.noFlags
  room := h.room
  writable := h.writable
  free := h.free
  steady := h.steady

end Truncating


/-! Where a conversion fails, and where it ends. -/

section Blocks

variable {K : Code} {X : Machine → Prop} {c : Compiler} {M : Machine} {fb cap : Nat} {β : Type}
  {Q : β → Compiler → Machine → Prop} {sat : Bool} {st : Status} {answer : LowerM Unit}
  {done L : Nat} {rest : Unit → LowerM β}

theorem Runs.createLabel_bind {f : Nat → LowerM β}
    (h : ∀ L c', c'.stack = c.stack → Runs K X (f L) Q c' M) :
    Runs K X (asm Asm.createLabel >>= f) Q c M :=
  fun y c' hm hK hrip =>
    h (c.asm.labels + 1) { c with asm := { c.asm with labels := c.asm.labels + 1 } } rfl y c' hm hK hrip

theorem grows_setFloatBits (r : Reg) (is32 : Bool) (bits : UInt64) :
    Grows (setFloatBits r is32 bits) :=
  .bind (.asm' (.movRI64 _ _)) fun _ => .asm' (.movGpToXmm _ _ _)

theorem grows_saturateOrTrap (hans : Grows answer) : Grows (saturateOrTrap sat st answer done) :=
  .ite' (.bind hans fun _ => .asm' (.add _)) (grows_exit st)

theorem quiet_saturateOrTrap (hans : Quiet answer) : Quiet (saturateOrTrap sat st answer done) :=
  .ite' (.bind hans fun _ => .asm' _) (quiet_exit st)

theorem grows_failBlock (L : Nat) (sat : Bool) (st : Status) (hans : Grows answer) (done : Nat)
    (hrest : ∀ x, Grows (rest x)) :
    Grows (asm (Asm.bind L) >>= fun _ => saturateOrTrap sat st answer done >>= rest) :=
  .bind (.asm' (.bindLabel L)) fun _ => .bind (grows_saturateOrTrap hans) hrest

theorem runs_saturateOrTrap (henv : Env M fb cap) (hrest : ∀ x, Grows (rest x)) (hX : sat = false → ∀ M', Exited M' st c.stack.sp → X M')
    (hsat : sat = true → Runs K X answer (fun _ c₁ M₁ =>
      Skip K X done (rest ()) Q { c₁ with asm := Asm.pushed c₁.asm (.jmp done) }
        (M₁.goto (K.target done))) c M) :
    Runs K X (saturateOrTrap sat st answer done >>= rest) Q c M := by
  unfold saturateOrTrap
  cases sat
  · rw [if_neg Bool.false_ne_true]
    exact Runs.bind (runs_exit henv st (hX rfl)) hrest
  · rw [if_pos rfl, bind_assoc]
    exact Runs.bind ((hsat rfl).mono (fun _ h => h) fun _ _ _ h => Runs.jmp hrest h)
      fun _ => .bind (.asm' (.add _)) hrest

theorem skip_failBlock (henv : Env M fb cap) (hans : Grows answer) (hrest : ∀ x, Grows (rest x))
    (hX : sat = false → ∀ M', Exited M' st c.stack.sp → X M')
    (hsat : sat = true → ∀ a, Runs K X answer (fun _ c₁ M₁ =>
      Skip K X done (rest ()) Q { c₁ with asm := Asm.pushed c₁.asm (.jmp done) }
        (M₁.goto (K.target done))) { c with asm := a } M) :
    Skip K X L (asm (Asm.bind L) >>= fun _ => saturateOrTrap sat st answer done >>= rest) Q c M :=
  Skip.bindLabel (fun _ => .bind (grows_saturateOrTrap hans) hrest) fun a _ =>
    runs_saturateOrTrap (c := { c with asm := a }) henv hrest hX fun h => hsat h a

theorem Skip.pastQuiet {α : Type} {m : LowerM α} {f : α → LowerM β} (hq : Quiet m)
    (h : ∀ x c', c'.stack = c.stack → Skip K X L (f x) Q c' M) : Skip K X L (m >>= f) Q c M :=
  Skip.pass fun x c₁ h₁ => h x c₁ (Quiet.stack_eq hq h₁)

theorem quiet_setFloatBits (r : Reg) (is32 : Bool) (bits : UInt64) :
    Quiet (setFloatBits r is32 bits) :=
  .bind (.asm' _) fun _ => .asm' _

theorem skip_pastFailBlock {L' : Nat} (hans : Quiet answer)
    (h : ∀ c', c'.stack = c.stack → Skip K X L (rest ()) Q c' M) :
    Skip K X L (asm (Asm.bind L') >>= fun _ => saturateOrTrap sat st answer done >>= rest) Q c M :=
  Skip.asm' fun _ a => Skip.pass fun _ c₁ h₁ =>
    h c₁ (Quiet.stack_eq (c := { c with asm := a }) (quiet_saturateOrTrap hans) h₁)

theorem releaseReg_eq (r : Reg) (c : Compiler) :
    releaseReg r c = .ok ((), { c with stack := { c.stack with used := c.stack.used.erase r } }) :=
  rfl

theorem Skip.pastRelease {r : Reg} {s : ValueStack} (hc : c.stack = s)
    (h : ∀ c', c'.stack = { s with used := s.used.erase r } → Skip K X L (rest ()) Q c' M) :
    Skip K X L (releaseReg r >>= rest) Q c M :=
  Skip.pass fun _ c₁ h₁ => by
    rw [releaseReg_eq] at h₁
    cases h₁
    exact h _ (by rw [← hc])

end Blocks

section Join

variable {K : Code} {X : Machine → Prop} {c : Compiler} {M₀ M : Machine} {fb cap : Nat}
  {vs : List UInt64} {s : ValueStack} {W : Finset Reg} {src dst : Reg} {x : Location}
  {o : IntType} {Q : Unit → Compiler → Machine → Prop}

theorem grows_truncEnd (x : Location) (dst : Reg) (o : IntType) :
    Grows (do release x; pushRegister dst (if o.is32 then .i32 else .i64)) :=
  .bind (silent_release _).grows fun _ => (silent_pushRegister _ _).grows

theorem runs_truncEnd (hT : Truncating M₀ M fb cap s vs {dst, src} W) (hc : c.stack = s)
    (hx : x.reg = some src) (hne : dst ≠ src) {v : UInt64} (hv : InReg M o.slotType dst v)
    (hQ : ∀ c' M', Rep M' fb cap c'.stack (vs ++ [v]) → Q () c' M') :
    Runs K X (do release x; pushRegister dst (if o.is32 then .i32 else .i64)) Q c M := by
  have hR := hT.rep_now
  have hfit := hT.fit
  rw [← hc] at hR hfit
  rw [Finset.pair_comm] at hfit
  refine Runs.bind (runs_release hx hR hfit (by simpa using hne.symm) fun c₁ hfit₁ hR₁ => ?_)
    fun _ => (silent_pushRegister _ _).grows
  have hty : o.slotType ≠ .v128lo ∧ o.slotType ≠ .v128hi := by
    unfold IntType.slotType
    split <;> decide
  refine runs_pushRegister hR₁ hfit₁ (Finset.mem_singleton_self dst) hty.2 hv
    (fun h => absurd h hty.1 : o.slotType = .v128lo → InReg M .v128hi dst 0) ?_
    fun c₂ _ hR₂ => hQ c₂ M ?_
  · rw [if_neg hty.1, ← hR₁.length_eq]
    exact hT.room
  · rwa [if_neg hty.1] at hR₂

theorem skip_truncJoin (hT : Truncating M₀ M fb cap s vs {dst, src} W) (hc : c.stack = s)
    (hx : x.reg = some src) (hne : dst ≠ src) {v : UInt64} (hv : InReg M o.slotType dst v)
    (hQ : ∀ c' M', Rep M' fb cap c'.stack (vs ++ [v]) → Q () c' M') {done : Nat} :
    Skip K X done (do
      asm (Asm.bind done)
      release x
      pushRegister dst (if o.is32 then .i32 else .i64)) Q c M :=
  Skip.bindLabel (fun _ => grows_truncEnd _ _ _) fun a _ =>
    runs_truncEnd (c := { c with asm := a }) hT hc hx hne hv hQ

theorem skip_truncFail {t : FloatType} {sat : Bool} {v r : UInt64} {k : TrapKind}
    {answer : LowerM Unit} {rest : Unit → LowerM Unit} {L done : Nat} (henv : Env M fb cap)
    (hans : Grows answer) (hrest : ∀ x, Grows (rest x)) (hsp : c.stack.sp = vs.length)
    (hspec : t.truncTo o sat v = if sat then .ok r else .error k)
    (hsat : sat = true → ∀ a, Runs K
      (fun M' => ∃ k, t.truncTo o sat v = .error k ∧ Exited M' (.trap k) vs.length) answer
      (fun _ c₁ M₁ => Skip K
        (fun M' => ∃ k, t.truncTo o sat v = .error k ∧ Exited M' (.trap k) vs.length) done
        (rest ()) Q { c₁ with asm := Asm.pushed c₁.asm (.jmp done) } (M₁.goto (K.target done)))
      { c with asm := a } M) :
    Skip K (fun M' => ∃ k, t.truncTo o sat v = .error k ∧ Exited M' (.trap k) vs.length) L
      (asm (Asm.bind L) >>= fun _ => saturateOrTrap sat (.trap k) answer done >>= rest) Q c M :=
  skip_failBlock henv hans hrest (fun hs M' hE => ⟨k, by rw [hspec, hs]; rfl, hsp ▸ hE⟩) hsat

end Join


/-! The signed conversion. -/

section Signed

variable {K : Code} {c : Compiler} {M₀ M : Machine} {fb cap : Nat} {vs : List UInt64}
  {s : ValueStack} {src dst : Reg} {x : Location} {t : FloatType} {o : IntType} {v : UInt64}

theorem bound_lt (t : FloatType) (is32 : Bool) : (signedBound t is32).1.toNat < 2 ^ t.bits := by
  cases t <;> cases is32 <;> decide

theorem lo_neg (ho : o.isSigned = true) : o.lo < 0 := by
  cases o <;> simp only [IntType.isSigned, Bool.false_eq_true] at ho <;> decide

theorem hi_pos (o : IntType) : 0 < o.hi := by
  cases o <;> decide

theorem signedMax_eq (ho : o.isSigned = true) :
    (o.is32 = true → Machine.widen .w32 (0x7fffffff : UInt32).toUInt64 = o.ofInt (o.hi - 1)) ∧
    (o.is32 = false → (0x7fffffffffffffff : UInt64) = o.ofInt (o.hi - 1)) := by
  cases o <;> simp only [IntType.isSigned, Bool.false_eq_true] at ho <;> decide

theorem runs_truncSigned (ho : o.isSigned = true) (sat : Bool)
    (hT : Truncating M₀ M fb cap s vs {dst, src} {dst, scratchGp, scratchVec}) (hc : c.stack = s)
    (hx : x.reg = some src) (hne : dst ≠ src) (hdst : dst ∈ gpPool)
    (hsrc : InReg M₀ t.slotType src v) :
    Runs K (fun M' => ∃ k, t.truncTo o sat v = .error k ∧ Exited M' (.trap k) vs.length)
      (do
        truncSigned t o sat src dst
        release x
        pushRegister dst (if o.is32 then .i32 else .i64))
      (fun _ c' M' => ∃ r, t.truncTo o sat v = .ok r ∧ Rep M' fb cap c'.stack (vs ++ [r])) c M := by
  have hd := isGp_of_mem_gpPool hdst
  obtain ⟨hsx, -, -⟩ := InReg.of_float hsrc
  have hsW : src ∉ ({dst, scratchGp, scratchVec} : Finset Reg) := by
    have hv := hsrc.mem_pool
    simp only [Finset.mem_insert, Finset.mem_singleton, not_or]
    refine ⟨hne.symm, fun e => ?_, fun e => ?_⟩ <;> subst e <;> revert hv <;> decide
  have hlane : ∀ M', Steady M₀ M' fb {dst, scratchGp, scratchVec} →
      (M'.xr src.xmm).floatLane t = v :=
    fun M' hs => ((inReg_float_iff t).mp (hsrc.of_steady hs hsW)).2
  unfold truncSigned
  generalize hB : signedBound t o.is32 = B
  obtain ⟨bound, below⟩ := B
  dsimp only
  simp only [bind_assoc]
  refine Runs.createLabel_bind fun done c₁ h₁ => Runs.createLabel_bind fun nan c₂ h₂ =>
    Runs.createLabel_bind fun negative c₃ h₃ => Runs.createLabel_bind fun positive c₄ h₄ => ?_
  have hc₄ : c₄.stack = s := h₄.trans (h₃.trans (h₂.trans (h₁.trans hc)))
  clear h₁ h₂ h₃ h₄
  have gJ := fun _ : Unit => Grows.bind (m := asm (Asm.bind done)) (.asm' (.bindLabel _))
    fun _ => grows_truncEnd x dst o
  have gN := fun _ : Unit => grows_failBlock negative sat (.trap .integerOverflow) (.pure' ()) done gJ
  have gP := fun _ : Unit => grows_failBlock positive sat (.trap .integerOverflow)
    (.ite' (p := o.is32 = true) (.asm' (.movRI32 dst 0x7fffffff))
      (.asm' (.movRI64 dst 0x7fffffffffffffff))) done gN
  have gNaN := fun _ : Unit => grows_failBlock nan sat (.trap .invalidConversion)
    (.asm' (.aluRR .xor .w32 dst dst)) done gP
  have g₁₂ := fun _ : Unit => Grows.bind (m := asm (Asm.jmp done)) (.asm' (.add _)) gNaN
  have g₁₁ := fun _ : Unit => Grows.bind (m := asm (Asm.jcc .ae positive)) (.asm' (.add _)) g₁₂
  have g₁₀ := fun _ : Unit => Grows.bind (m := asm (Asm.scalar .ucomis t.is32 src scratchVec))
    (.asm' (.scalar _ _ _ _)) g₁₁
  have g₉ := fun _ : Unit => Grows.bind (m := asm (Asm.vec .pxor scratchVec scratchVec))
    (.asm' (.vec _ _ _)) g₁₀
  have g₈ := fun _ : Unit => Grows.bind (m := asm (Asm.jcc below negative)) (.asm' (.add _)) g₉
  have g₇ := fun _ : Unit => Grows.bind (m := asm (Asm.scalar .ucomis t.is32 src scratchVec))
    (.asm' (.scalar _ _ _ _)) g₈
  have g₆ := fun _ : Unit => Grows.bind (grows_setFloatBits scratchVec t.is32 bound) g₇
  have g₅ := fun _ : Unit => Grows.bind (m := asm (Asm.jcc .p nan)) (.asm' (.add _)) g₆
  have g₄ := fun _ : Unit => Grows.bind (m := asm (Asm.scalar .ucomis t.is32 src src))
    (.asm' (.scalar _ _ _ _)) g₅
  have g₃ := fun _ : Unit => Grows.bind (m := asm (Asm.jcc .no done)) (.asm' (.add _)) g₄
  have g₂ := fun _ : Unit => Grows.bind (m := asm (Asm.aluRI .cmp (Width.of o.is32) dst 1))
    (.asm' (.aluRI _ _ _ _)) g₃
  refine Runs.bind (runs_cvtt hT.env hd hsx t _ fun M₁ hs₁ hv₁ => ?_) g₂
  have hT₁ := hT.step hs₁ (by simp)
  rw [hlane M hT.steady] at hv₁
  refine Runs.bind (runs_cmpOne hd _ fun M₂ (hs₂ : Steady _ M₂ fb ∅) hno => ?_) g₃
  have hT₂ := hT₁.step hs₂ (Finset.empty_subset _)
  have hv₂ : M₂.gp dst.gpr = truncToInt t.is32 (Width.of o.is32) v.toNat :=
    (hs₂.gp _ (by simp)).trans hv₁
  rw [hv₁] at hno
  have hspOf : ∀ c' : Compiler, c'.stack = s → c'.stack.sp = vs.length := fun c' h =>
    h ▸ hT.sp_eq
  have hdW : dst ∉ ({scratchVec, scratchGp} : Finset Reg) := by
    simp only [Finset.mem_insert, Finset.mem_singleton, not_or]
    constructor <;> rintro rfl <;> revert hdst <;> decide
  refine Runs.jcc g₄ (fun hfast => ?_) fun hslow => ?_
  · -- no overflow: the answer is the truncation, and the checks are jumped over
    rw [hno] at hfast
    obtain ⟨hR, hval⟩ := truncToInt_of_no_overflow t ho (by simpa using hfast)
    have hok : t.truncTo o sat v = _ := truncTo_of_mem hR.1 hR.2.1 hR.2.2
    iterate 2 refine Skip.asm' fun _ _ => ?_
    refine Skip.pastQuiet (quiet_setFloatBits _ _ _) fun _ c₅ h₅ => ?_
    iterate 6 refine Skip.asm' fun _ _ => ?_
    refine skip_pastFailBlock (Quiet.asm' _) fun c₆ h₆ => ?_
    refine skip_pastFailBlock (Quiet.ite' (Quiet.asm' _) (Quiet.asm' _)) fun c₇ h₇ => ?_
    refine skip_pastFailBlock (Quiet.pure' _) fun c₈ h₈ => ?_
    exact skip_truncJoin (hT₂.goto _) (h₈.trans (h₇.trans (h₆.trans (h₅.trans hc₄)))) hx hne
      ((inReg_ofInt hdst (hv₂.trans hval)).goto _) fun _ _ hR' => ⟨_, hok, hR'⟩
  rw [hno] at hslow
  obtain ⟨hfail, hval⟩ := truncToInt_of_overflow t ho (by simpa using hslow)
  have hdv₂ : InReg M₂ o.slotType dst (o.ofInt o.lo) := inReg_ofInt hdst (hv₂.trans hval)
  refine Runs.bind (runs_ucomisLanes hsx hsx t (hlane _ (hT₂.goto _).steady)
    (hlane _ (hT₂.goto _).steady) fun M₃ (hs₃ : Steady _ M₃ fb ∅) hfl₃ => ?_) g₅
  have hT₃ := (hT₂.goto _).step hs₃ (Finset.empty_subset _)
  have hdv₃ := (hdv₂.goto _).of_steady hs₃ (Finset.notMem_empty _)
  refine Runs.jcc g₆ (fun hnan => ?_) fun hnum => ?_
  · -- a NaN
    have hn : t.format.isNaN v.toNat = true := by rwa [hfl₃, holds_p_self] at hnan
    refine Skip.pastQuiet (quiet_setFloatBits _ _ _) fun _ c₅ h₅ => ?_
    iterate 6 refine Skip.asm' fun _ _ => ?_
    refine skip_truncFail (hT₃.goto _).env (.asm' (.aluRR _ _ _ _)) gP (hspOf _ (h₅.trans hc₄))
      (truncTo_of_isNaN hn) fun hs a => ?_
    refine runs_clear (hT₃.goto _).env hd fun M₆ hs₆ hv₆ => ?_
    refine skip_pastFailBlock (Quiet.ite' (Quiet.asm' _) (Quiet.asm' _)) fun c₇ h₇ => ?_
    refine skip_pastFailBlock (Quiet.pure' _) fun c₈ h₈ => ?_
    refine skip_truncJoin (((hT₃.goto _).step hs₆ (by simp)).goto _)
      (h₈.trans (h₇.trans (h₅.trans hc₄))) hx hne
      ((inReg_ofInt hdst (hv₆.trans (ofInt_zero o).symm)).goto _) fun _ _ hR' => ⟨_, ?_, hR'⟩
    rw [truncTo_of_isNaN hn, hs, if_pos rfl, ofInt_zero]
  have hn : t.format.isNaN v.toNat = false := by rwa [hfl₃, holds_p_self] at hnum
  have hbl : bound.toNat < 2 ^ t.bits := by
    have := bound_lt t o.is32
    rwa [hB] at this
  refine runs_setFloatBits (hT₃.goto _).env (by decide) t hbl g₇ fun c₅ M₅ h₅ hs₅ hb₅ => ?_
  have hT₅ := (hT₃.goto _).step hs₅ (Finset.insert_subset_iff.mpr ⟨by simp, by simp⟩)
  have hdv₅ := (hdv₃.goto _).of_steady hs₅ hdW
  refine Runs.bind (runs_ucomisLanes hsx (by decide) t (hlane _ hT₅.steady) hb₅
    fun M₆ (hs₆ : Steady _ M₆ fb ∅) hfl₆ => ?_) g₈
  have hT₆ := hT₅.step hs₆ (Finset.empty_subset _)
  have hdv₆ := hdv₅.of_steady hs₆ (Finset.notMem_empty _)
  have hbelow := holds_signedBound t ho hn
  rw [hB] at hbelow
  refine Runs.jcc g₉ (fun hneg => ?_) fun hnneg => ?_
  · -- below the range: the conversion's answer, the least value, stands
    rw [hfl₆, hbelow] at hneg
    iterate 4 refine Skip.asm' fun _ _ => ?_
    refine skip_pastFailBlock (Quiet.asm' _) fun c₇ h₇ => ?_
    refine skip_pastFailBlock (Quiet.ite' (Quiet.asm' _) (Quiet.asm' _)) fun c₈ h₈ => ?_
    refine skip_truncFail (hT₆.goto _).env (.pure' ()) gJ
      (hspOf _ (h₈.trans (h₇.trans (h₅.trans hc₄)))) (truncTo_of_below hn hneg) fun hs a => ?_
    refine Runs.pure' ?_
    exact skip_truncJoin ((hT₆.goto _).goto _) (by exact h₈.trans (h₇.trans (h₅.trans hc₄))) hx hne
      ((hdv₆.goto _).goto _) fun _ _ hR' => ⟨_, by rw [truncTo_of_below hn hneg, hs, if_pos rfl], hR'⟩
  rw [hfl₆, hbelow] at hnneg
  refine Runs.bind (runs_clearVec (hT₆.goto _).env (by decide) fun M₇ hs₇ hz₇ => ?_) g₁₀
  have hT₇ := (hT₆.goto _).step hs₇ (by simp)
  have hdv₇ := (hdv₆.goto _).of_steady hs₇ fun h => hdW (by simp [Finset.mem_singleton.mp h])
  refine Runs.bind (runs_ucomisLanes hsx (by decide) t (hlane _ hT₇.steady) (hz₇ t)
    fun M₈ (hs₈ : Steady _ M₈ fb ∅) hfl₈ => ?_) g₁₁
  have hT₈ := hT₇.step hs₈ (Finset.empty_subset _)
  have hdv₈ := hdv₇.of_steady hs₈ (Finset.notMem_empty _)
  rw [UInt64.toNat_zero] at hfl₈
  refine Runs.jcc g₁₂ (fun hpos => ?_) fun hneg => ?_
  · -- not negative, so at or above the range
    rw [hfl₈, holds_ae_zero t hn, decide_eq_true_iff] at hpos
    have habove := truncAtLeast_of_nonneg (fun hi hlo hhi => hfail hn hi hlo hhi) (lo_neg ho) hpos
    refine Skip.asm' fun _ _ => ?_
    refine skip_pastFailBlock (Quiet.asm' _) fun c₉ h₉ => ?_
    refine skip_truncFail (hT₈.goto _).env
      (.ite' (.asm' (.movRI32 _ _)) (.asm' (.movRI64 _ _))) gN
      (hspOf _ (h₉.trans (h₅.trans hc₄))) (truncTo_of_above hn hnneg habove) fun hs a => ?_
    have hans : t.truncTo o sat v = .ok (o.ofInt (o.hi - 1)) := by
      rw [truncTo_of_above hn hnneg habove, hs, if_pos rfl]
    refine Runs.ite' (fun h32 => ?_) fun h64 => ?_
    · refine runs_movRI32 (hT₈.goto _).env hd _ fun M₁₀ hs₁₀ hv₁₀ => ?_
      refine skip_pastFailBlock (Quiet.pure' _) fun c₁₁ h₁₁ => ?_
      exact skip_truncJoin (((hT₈.goto _).step hs₁₀ (by simp)).goto _)
        (h₁₁.trans (h₉.trans (h₅.trans hc₄))) hx hne
        ((inReg_ofInt hdst (hv₁₀.trans ((signedMax_eq ho).1 h32))).goto _)
        fun _ _ hR' => ⟨_, hans, hR'⟩
    · refine runs_movImm64 (hT₈.goto _).env hd (by decide) fun M₁₀ hs₁₀ hv₁₀ => ?_
      refine skip_pastFailBlock (Quiet.pure' _) fun c₁₁ h₁₁ => ?_
      exact skip_truncJoin (((hT₈.goto _).step hs₁₀ (by simp)).goto _)
        (h₁₁.trans (h₉.trans (h₅.trans hc₄))) hx hne
        ((inReg_ofInt hdst (hv₁₀.trans ((signedMax_eq ho).2 (by simpa using h64)))).goto _)
        fun _ _ hR' => ⟨_, hans, hR'⟩
  rw [hfl₈, holds_ae_zero t hn, decide_eq_false_iff_not, not_le] at hneg
  obtain ⟨hi, hz⟩ := eq_of_neg (fun hi hlo hhi => hfail hn hi hlo hhi) (hi_pos o) hnneg hneg
  have hok : t.truncTo o sat v = .ok (o.ofInt o.lo) := by
    rw [← hz]
    exact truncTo_of_mem hn hi ⟨by rw [hz], by rw [hz]; exact lo_lt_hi o⟩
  refine Runs.jmp gNaN ?_
  refine skip_pastFailBlock (Quiet.asm' _) fun c₉ h₉ => ?_
  refine skip_pastFailBlock (Quiet.ite' (Quiet.asm' _) (Quiet.asm' _)) fun c₁₀ h₁₀ => ?_
  refine skip_pastFailBlock (Quiet.pure' _) fun c₁₁ h₁₁ => ?_
  exact skip_truncJoin (((hT₈.goto _).goto _).goto _)
    (h₁₁.trans (h₁₀.trans (h₉.trans (h₅.trans hc₄)))) hx hne (((hdv₈.goto _).goto _).goto _)
    fun _ _ hR' => ⟨_, hok, hR'⟩

end Signed


/-! Unsigned truncation checks NaN, then `-1` and below, then the end of the range, against bounds
in a vector register it takes; what passes converts within the range. -/

section Unsigned

variable {K : Code} {X : Machine → Prop} {c : Compiler} {M₀ M : Machine} {fb cap : Nat}
  {vs : List UInt64} {s : ValueStack} {T W : Finset Reg} {src dst limit : Reg} {x : Location}
  {t : FloatType} {o : IntType} {v : UInt64} {β : Type} {Q : β → Compiler → Machine → Prop}

theorem grows_truncUnsignedInRange (t : FloatType) (o : IntType) (src dst limit : Reg)
    (done : Nat) : Grows (truncUnsignedInRange t o src dst limit done) := by
  unfold truncUnsignedInRange
  split
  · exact .asm' (.cvtt _ _ _ _)
  · exact .bind Silent.createLabel.grows fun _ => .bind (grows_setFloatBits _ _ _) fun _ =>
      .bind (.asm' (.scalar _ _ _ _)) fun _ => .bind (.asm' (.add _)) fun _ =>
      .bind (.asm' (.cvtt _ _ _ _)) fun _ => .bind (.asm' (.add _)) fun _ =>
      .bind (.asm' (.bindLabel _)) fun _ => .bind (.asm' (.scalar _ _ _ _)) fun _ =>
      .bind (.asm' (.cvtt _ _ _ _)) fun _ => .bind (.asm' (.movRI64 _ _)) fun _ =>
      .asm' (.aluRR _ _ _ _)

theorem unsignedMax_eq (ho : o.isSigned = false) :
    (o.is32 = true → Machine.widen .w32 (0xffffffff : UInt32).toUInt64 = o.ofInt (o.hi - 1)) ∧
    (o.is32 = false → (0xffffffffffffffff : UInt64) = o.ofInt (o.hi - 1)) := by
  cases o <;> simp only [IntType.isSigned, Bool.true_eq_false] at ho <;> decide

theorem unsignedBounds_lt (t : FloatType) (is32 : Bool) :
    (if t.is32 then (0xBF800000 : UInt64) else 0xBFF0000000000000).toNat < 2 ^ t.bits ∧
      (unsignedLimit t is32).toNat < 2 ^ t.bits := by
  cases t <;> cases is32 <;> decide

theorem runs_truncUnsignedInRange (ho : o.isSigned = false) {done : Nat}
    (hT : Truncating M₀ M fb cap s vs T W) (hW : {dst, src, limit, scratchGp} ⊆ W)
    (hdst : dst ∈ gpPool) (hl : limit ∈ vecPool) (hsl : src ≠ limit)
    (hsrc : InReg M t.slotType src v) (hn : t.format.isNaN v.toNat = false)
    (hb : t.format.truncBelow o.lo v.toNat = false)
    (ha : t.format.truncAtLeast o.hi v.toNat = false) {k : Unit → LowerM β}
    (hk : ∀ x, Grows (k x))
    (hQ : ∀ c' M', c'.stack = c.stack → Truncating M₀ M' fb cap s vs T W →
      M'.gp dst.gpr = o.ofInt (towardZero (t.format.toRat v.toNat)) →
      Skip K X done (k ()) Q c' (M'.goto (K.target done))) :
    Runs K X (truncUnsignedInRange t o src dst limit done >>= fun _ => asm (Asm.jmp done) >>= k)
      Q c M := by
  have hd := isGp_of_mem_gpPool hdst
  have hlx := isXmm_of_mem_vecPool hl
  obtain ⟨hsx, hlane, -⟩ := InReg.of_float hsrc
  obtain ⟨hi, hlo, hhi⟩ := mem_range_of_not_out hb ha
  have hlo0 : o.lo = 0 := by simp [IntType.lo, ho]
  have hhi0 : o.hi = 2 ^ o.bits := by simp [IntType.hi, ho]
  rw [hlo0] at hlo
  rw [hhi0] at hhi ha
  have hmem : ∀ {r}, r ∈ ({dst, src, limit, scratchGp} : Finset Reg) → r ∈ W := fun h => hW h
  have hgJ : ∀ _ : Unit, Grows (asm (Asm.jmp done) >>= k) := fun _ => .bind (.asm' (.add _)) hk
  unfold truncUnsignedInRange
  dsimp only
  split
  · -- below `2 ^ 32` the conversion at width 64 is exact
    rename_i h32
    have hb32 : o.bits = 32 := by simp [IntType.bits, h32]
    rw [hb32] at hhi
    refine Runs.bind (runs_cvtt hT.env hd hsx t .w64 fun M₁ hs₁ hv₁ => ?_) hgJ
    rw [hlane, truncToInt_w64 t hn hi hlo (by omega),
      ofInt_eq_of_mem (o := o) hlo (by rw [hb32]; omega)] at hv₁
    exact Runs.jmp hk (hQ _ M₁ rfl (hT.step hs₁ (Finset.singleton_subset_iff.mpr (hmem (by simp))))
      hv₁)
  rename_i h64
  have hb64 : o.bits = 64 := by simp [IntType.bits, h64]
  rw [hb64] at hhi ha
  simp only [bind_assoc]
  refine Runs.createLabel_bind fun large c₁ h₁ => ?_
  have g₉ := fun _ : Unit => Grows.bind (m := asm (Asm.aluRR .xor .w64 dst scratchGp))
    (.asm' (.aluRR _ _ _ _)) hgJ
  have g₈ := fun _ : Unit => Grows.bind (m := asm (Asm.movRI64 scratchGp 0x8000000000000000))
    (.asm' (.movRI64 _ _)) g₉
  have g₇ := fun _ : Unit => Grows.bind (m := asm (Asm.cvtt t.is32 .w64 dst src))
    (.asm' (.cvtt _ _ _ _)) g₈
  have g₆ := fun _ : Unit => Grows.bind (m := asm (Asm.scalar .sub t.is32 src limit))
    (.asm' (.scalar _ _ _ _)) g₇
  have g₅ := fun _ : Unit => Grows.bind (m := asm (Asm.bind large)) (.asm' (.bindLabel _)) g₆
  have g₄ := fun _ : Unit => Grows.bind (m := asm (Asm.jmp done)) (.asm' (.add _)) g₅
  have g₃ := fun _ : Unit => Grows.bind (m := asm (Asm.cvtt t.is32 .w64 dst src))
    (.asm' (.cvtt _ _ _ _)) g₄
  have g₂ := fun _ : Unit => Grows.bind (m := asm (Asm.jcc .ae large)) (.asm' (.add _)) g₃
  have g₁ := fun _ : Unit => Grows.bind (m := asm (Asm.scalar .ucomis t.is32 src limit))
    (.asm' (.scalar _ _ _ _)) g₂
  refine runs_setFloatBits hT.env hlx t (by cases t <;> decide) g₁ fun c₂ M₂ h₂ hs₂ hb₂ => ?_
  have hT₂ := hT.step hs₂ (Finset.insert_subset_iff.mpr
    ⟨hmem (by simp), Finset.singleton_subset_iff.mpr (hmem (by simp))⟩)
  have hsW : src ∉ ({limit, scratchGp} : Finset Reg) := by
    have hv := hsrc.mem_pool
    simp only [Finset.mem_insert, Finset.mem_singleton, not_or]
    exact ⟨hsl, fun e => by subst e; revert hv; decide⟩
  have hsrc₂ := hsrc.of_steady hs₂ hsW
  have hlim₂ : InReg M₂ t.slotType limit _ := (inReg_float_iff t).mpr ⟨hl, hb₂⟩
  refine Runs.bind (runs_ucomisLanes hsx hlx t ((inReg_float_iff t).mp hsrc₂).2 hb₂
    fun M₃ (hs₃ : Steady _ M₃ fb ∅) hfl₃ => ?_) g₂
  have hT₃ := hT₂.step hs₃ (Finset.empty_subset _)
  have hsrc₃ := hsrc₂.of_steady hs₃ (Finset.notMem_empty _)
  have hlim₃ := hlim₂.of_steady hs₃ (Finset.notMem_empty _)
  refine Runs.jcc g₃ (fun hlarge => ?_) fun hsmall => ?_
  · -- from `2 ^ 63` up: take `2 ^ 63` off, convert, and set bit 63
    rw [hfl₃, holds_ae_pow63 t hn] at hlarge
    have hd₄ := ((inReg_float_iff t).mp (hsrc₃.goto (K.target large))).2
    have hp₄ := ((inReg_float_iff t).mp (hlim₃.goto (K.target large))).2
    refine Skip.asm' fun _ _ => Skip.asm' fun _ _ => Skip.bindLabel g₆ fun a _ => ?_
    have hT₄ := hT₃.goto (K.target large)
    refine Runs.bind (runs_scalar hT₄.env hsx hlx (by decide) t.is32 fun M₅ hk₅ hv₅ => ?_) g₇
    have hT₅ := hT₄.step (Steady.of_keeps hk₅) (Finset.singleton_subset_iff.mpr (hmem (by simp)))
    refine Runs.bind (runs_cvtt hT₅.env hd hsx t .w64 fun M₆ hs₆ hv₆ => ?_) g₈
    have hT₆ := hT₅.step hs₆ (Finset.singleton_subset_iff.mpr (hmem (by simp)))
    rw [hv₅, truncToInt_sub_pow63 t (by rwa [hd₄]) (by rwa [hd₄]) (by rwa [hd₄]) hp₄, hd₄] at hv₆
    have hlarge' := (finite_of_truncAtLeast hlarge ha).2
    refine Runs.bind (runs_movImm64 hT₆.env (r := scratchGp) (by decide) (by decide)
      fun M₇ hs₇ hv₇ => ?_) g₉
    have hT₇ := hT₆.step hs₇ (Finset.singleton_subset_iff.mpr (hmem (by simp)))
    refine Runs.bind (runs_aluRR hT₇.env hd (by decide) .xor (by decide) .w64
      fun M₈ hs₈ hv₈ => ?_) hgJ
    have hT₈ := hT₇.step hs₈ (Finset.singleton_subset_iff.mpr (hmem (by simp)))
    refine Runs.jmp hk (hQ _ M₈ (by exact h₂.trans h₁) hT₈ ?_)
    have hdg : dst ∉ ({scratchGp} : Finset Reg) := by
      rw [Finset.mem_singleton]
      rintro rfl
      revert hdst
      decide
    have hdst₇ := (hs₇.gp _ (gpr_ne_of_not_mem hd hdg)).trans hv₆
    rw [hv₈, widen_xor, hdst₇, hv₇, ofInt_xor_high (by omega) (by omega), sub_add_cancel,
      ofInt_eq_of_mem (o := o) hlo (by rw [hb64]; omega)]
  · -- below `2 ^ 63` the conversion at width 64 is exact; the large case is jumped over
    rw [hfl₃, holds_ae_pow63 t hn] at hsmall
    have h63 : towardZero (t.format.toRat v.toNat) < 2 ^ 63 := by
      simpa [Format.truncAtLeast, hi] using hsmall
    refine Runs.bind (runs_cvtt (hT₃.goto _).env hd hsx t .w64 fun M₄ hs₄ hv₄ => ?_) g₄
    have hT₄ := (hT₃.goto _).step hs₄ (Finset.singleton_subset_iff.mpr (hmem (by simp)))
    rw [((inReg_float_iff t).mp (hsrc₃.goto _)).2, truncToInt_w64 t hn hi hlo h63,
      ofInt_eq_of_mem (o := o) hlo (by rw [hb64]; omega)] at hv₄
    refine Runs.jmp g₅ ?_
    refine Skip.asm' fun _ _ => Skip.asm' fun _ _ => Skip.asm' fun _ _ => Skip.asm' fun _ _ =>
      Skip.asm' fun _ _ => Skip.asm' fun _ _ => ?_
    exact hQ _ M₄ (by exact h₂.trans h₁) hT₄ hv₄

theorem runs_truncUnsigned (ho : o.isSigned = false) (sat : Bool)
    (hT : Truncating M₀ M fb cap s vs {dst, src} W) (hc : c.stack = s)
    (hx : x.reg = some src) (hne : dst ≠ src) (hdst : dst ∈ gpPool)
    (hsrc : InReg M t.slotType src v) :
    Runs K (fun M' => ∃ k, t.truncTo o sat v = .error k ∧ Exited M' (.trap k) vs.length)
      (do truncUnsigned t o sat src dst; release x; pushRegister dst (if o.is32 then .i32 else .i64))
      (fun _ c' M' => ∃ r, t.truncTo o sat v = .ok r ∧ Rep M' fb cap c'.stack (vs ++ [r])) c M := by
  have hd := isGp_of_mem_gpPool hdst
  obtain ⟨hsx, -, -⟩ := InReg.of_float hsrc
  have hlo0 : o.lo = 0 := by simp [IntType.lo, ho]
  unfold truncUnsigned
  dsimp only
  simp only [bind_assoc]
  refine Runs.createLabel_bind fun done c₁ h₁ => Runs.createLabel_bind fun nan c₂ h₂ =>
    Runs.createLabel_bind fun negative c₃ h₃ => Runs.createLabel_bind fun positive c₄ h₄ => ?_
  have hc₄ : c₄.stack = s := h₄.trans (h₃.trans (h₂.trans (h₁.trans hc)))
  clear h₁ h₂ h₃ h₄
  have gJ := fun _ : Unit => Grows.bind (m := asm (Asm.bind done)) (.asm' (.bindLabel _))
    fun _ => grows_truncEnd x dst o
  have gP := fun _ : Unit => grows_failBlock positive sat (.trap .integerOverflow)
    (.ite' (p := o.is32 = true) (.asm' (.movRI32 dst 0xffffffff))
      (.asm' (.movRI64 dst 0xffffffffffffffff))) done gJ
  have gN := fun _ : Unit => grows_failBlock negative sat (.trap .integerOverflow)
    (.asm' (.aluRR .xor .w32 dst dst)) done gP
  have gNaN := fun _ : Unit => grows_failBlock nan sat (.trap .invalidConversion)
    (.asm' (.aluRR .xor .w32 dst dst)) done gN
  have gR := fun (l : Reg) (_ : Unit) => Grows.bind (silent_releaseReg l).grows gNaN
  have gJmp := fun (l : Reg) (_ : Unit) => Grows.bind (m := asm (Asm.jmp done)) (.asm' (.add _))
    (gR l)
  have gIn := fun (l : Reg) (_ : Unit) =>
    Grows.bind (grows_truncUnsignedInRange t o src dst l done) (gJmp l)
  have g₉ := fun (l : Reg) (_ : Unit) => Grows.bind (m := asm (Asm.jcc .ae positive))
    (.asm' (.add _)) (gIn l)
  have g₈ := fun (l : Reg) (_ : Unit) => Grows.bind (m := asm (Asm.scalar .ucomis t.is32 src l))
    (.asm' (.scalar _ _ _ _)) (g₉ l)
  have g₇ := fun (l : Reg) (_ : Unit) =>
    Grows.bind (grows_setFloatBits l t.is32 (unsignedLimit t o.is32)) (g₈ l)
  have g₆ := fun (l : Reg) (_ : Unit) => Grows.bind (m := asm (Asm.jcc .be negative))
    (.asm' (.add _)) (g₇ l)
  have g₅ := fun (l : Reg) (_ : Unit) => Grows.bind (m := asm (Asm.scalar .ucomis t.is32 src l))
    (.asm' (.scalar _ _ _ _)) (g₆ l)
  have g₄ := fun (l : Reg) (_ : Unit) => Grows.bind
    (grows_setFloatBits l t.is32 (if t.is32 then 0xBF800000 else 0xBFF0000000000000)) (g₅ l)
  have g₃ := fun (l : Reg) (_ : Unit) => Grows.bind (m := asm (Asm.jcc .p nan)) (.asm' (.add _))
    (g₄ l)
  have g₂ := fun l : Reg => Grows.bind (m := asm (Asm.scalar .ucomis t.is32 src src))
    (.asm' (.scalar _ _ _ _)) (g₃ l)
  refine Runs.bind (runs_allocateFresh (hc₄ ▸ hT.rep_now) (hc₄ ▸ hT.fit)
    (lt_of_le_of_lt Finset.card_le_two (by norm_num)) .vector
    fun limit c₅ M₅ hl hlT hfit₅ hsp₅ hR₅ hk₅ => ?_) g₂
  have hlx := isXmm_of_mem_vecPool hl
  have hsl : src ≠ limit := fun e => hlT (by simp [e])
  have hT₅ : Truncating M₅ M₅ fb cap c₅.stack vs {limit, dst, src} {dst, src, limit, scratchGp} :=
    Truncating.start hR₅ hfit₅ (hsp₅.moves.noFlags (hc₄ ▸ hT.noFlags)) hT.room (by
      simp only [Finset.mem_insert, Finset.mem_singleton]
      rintro w (rfl | rfl | rfl | rfl)
      · exact ⟨writable_of_mem_gpPool hdst, by simp⟩
      · exact ⟨writable_of_isXmm hsx, by simp⟩
      · exact ⟨writable_of_isXmm hlx, by simp⟩
      · exact ⟨writable_scratchGp, .inr ⟨by decide, by decide⟩⟩)
  have hsW : src ∉ ({limit, scratchGp} : Finset Reg) := by
    have hv := hsrc.mem_pool
    simp only [Finset.mem_insert, Finset.mem_singleton, not_or]
    exact ⟨hsl, fun e => by subst e; revert hv; decide⟩
  have hlW : ({limit, scratchGp} : Finset Reg) ⊆ {dst, src, limit, scratchGp} :=
    Finset.insert_subset_iff.mpr ⟨by simp, Finset.singleton_subset_iff.mpr (by simp)⟩
  have hspR : ∀ c' : Compiler,
      c'.stack = { c₅.stack with used := c₅.stack.used.erase limit } → c'.stack.sp = vs.length :=
    fun c' h => h ▸ (hT₅.release hlT).sp_eq
  have hsrc₅ := hsrc.of_keeps hk₅ (Finset.notMem_empty _)
  have hlane₅ := ((inReg_float_iff t).mp hsrc₅).2
  refine Runs.bind (runs_ucomisLanes hsx hsx t hlane₅ hlane₅
    fun M₆ (hs₆ : Steady _ M₆ fb ∅) hfl₆ => ?_) (g₃ limit)
  have hT₆ := hT₅.step hs₆ (Finset.empty_subset _)
  have hsrc₆ := hsrc₅.of_steady hs₆ (Finset.notMem_empty _)
  refine Runs.jcc (g₄ limit) (fun hnan => ?_) fun hnum => ?_
  · -- a NaN
    have hn : t.format.isNaN v.toNat = true := by rwa [hfl₆, holds_p_self] at hnan
    refine Skip.pastQuiet (quiet_setFloatBits _ _ _) fun _ c₇ h₇ => ?_
    refine Skip.asm' fun _ _ => Skip.asm' fun _ _ => ?_
    refine Skip.pastQuiet (quiet_setFloatBits _ _ _) fun _ c₈ h₈ => ?_
    refine Skip.asm' fun _ _ => Skip.asm' fun _ _ => ?_
    refine Skip.pastQuiet (quiet_truncUnsignedInRange _ _ _ _ _ _) fun _ c₉ h₉ => ?_
    refine Skip.asm' fun _ _ => Skip.pastRelease (s := c₅.stack) (by exact h₉.trans (h₈.trans h₇))
      fun c₁₀ hs₁₀ => ?_
    refine skip_truncFail (hT₆.goto _).env (.asm' (.aluRR _ _ _ _)) gN (hspR _ hs₁₀)
      (truncTo_of_isNaN hn) fun hs a => ?_
    refine runs_clear (hT₆.goto _).env hd fun M₁₁ hs₁₁ hv₁₁ => ?_
    refine skip_pastFailBlock (Quiet.asm' _) fun c₁₂ h₁₂ => ?_
    refine skip_pastFailBlock (Quiet.ite' (Quiet.asm' _) (Quiet.asm' _)) fun c₁₃ h₁₃ => ?_
    refine skip_truncJoin ((((hT₆.goto _).step hs₁₁ (by simp)).release hlT).goto _)
      (by exact h₁₃.trans (h₁₂.trans hs₁₀)) hx hne
      ((inReg_ofInt hdst (hv₁₁.trans (ofInt_zero o).symm)).goto _) fun _ _ hR' => ⟨_, ?_, hR'⟩
    rw [truncTo_of_isNaN hn, hs, if_pos rfl, ofInt_zero]
  have hn : t.format.isNaN v.toNat = false := by rwa [hfl₆, holds_p_self] at hnum
  refine runs_setFloatBits (hT₆.goto _).env hlx t (unsignedBounds_lt t o.is32).1 (g₅ limit)
    fun c₇ M₇ h₇ hs₇ hb₇ => ?_
  have hT₇ := (hT₆.goto _).step hs₇ hlW
  have hsrc₇ := (hsrc₆.goto _).of_steady hs₇ hsW
  refine Runs.bind (runs_ucomisLanes hsx hlx t ((inReg_float_iff t).mp hsrc₇).2 hb₇
    fun M₈ (hs₈ : Steady _ M₈ fb ∅) hfl₈ => ?_) (g₆ limit)
  have hT₈ := hT₇.step hs₈ (Finset.empty_subset _)
  have hsrc₈ := hsrc₇.of_steady hs₈ (Finset.notMem_empty _)
  refine Runs.jcc (g₇ limit) (fun hneg => ?_) fun hnneg => ?_
  · -- `-1` or below
    rw [hfl₈, holds_be_negOne t ho hn] at hneg
    refine Skip.pastQuiet (quiet_setFloatBits _ _ _) fun _ c₉ h₉ => ?_
    refine Skip.asm' fun _ _ => Skip.asm' fun _ _ => ?_
    refine Skip.pastQuiet (quiet_truncUnsignedInRange _ _ _ _ _ _) fun _ c₁₀ h₁₀ => ?_
    refine Skip.asm' fun _ _ => Skip.pastRelease (s := c₅.stack) (by exact h₁₀.trans (h₉.trans h₇))
      fun c₁₁ hs₁₁ => ?_
    refine skip_pastFailBlock (Quiet.asm' _) fun c₁₂ h₁₂ => ?_
    refine skip_truncFail (hT₈.goto _).env (.asm' (.aluRR _ _ _ _)) gP
      (hspR _ (h₁₂.trans hs₁₁)) (truncTo_of_below hn hneg) fun hs a => ?_
    refine runs_clear (hT₈.goto _).env hd fun M₁₃ hs₁₃ hv₁₃ => ?_
    refine skip_pastFailBlock (Quiet.ite' (Quiet.asm' _) (Quiet.asm' _)) fun c₁₄ h₁₄ => ?_
    refine skip_truncJoin ((((hT₈.goto _).step hs₁₃ (by simp)).release hlT).goto _)
      (by exact h₁₄.trans (h₁₂.trans hs₁₁)) hx hne
      ((inReg_ofInt hdst (hv₁₃.trans (by rw [hlo0, ofInt_zero] : (0 : UInt64) = o.ofInt o.lo))).goto _)
      fun _ _ hR' => ⟨_, by rw [truncTo_of_below hn hneg, hs, if_pos rfl], hR'⟩
  rw [hfl₈, holds_be_negOne t ho hn] at hnneg
  refine runs_setFloatBits (hT₈.goto _).env hlx t (unsignedBounds_lt t o.is32).2 (g₈ limit)
    fun c₉ M₉ h₉ hs₉ hb₉ => ?_
  have hT₉ := (hT₈.goto _).step hs₉ hlW
  have hsrc₉ := (hsrc₈.goto _).of_steady hs₉ hsW
  refine Runs.bind (runs_ucomisLanes hsx hlx t ((inReg_float_iff t).mp hsrc₉).2 hb₉
    fun M₁₀ (hs₁₀ : Steady _ M₁₀ fb ∅) hfl₁₀ => ?_) (g₉ limit)
  have hT₁₀ := hT₉.step hs₁₀ (Finset.empty_subset _)
  have hsrc₁₀ := hsrc₉.of_steady hs₁₀ (Finset.notMem_empty _)
  refine Runs.jcc (gIn limit) (fun hpos => ?_) fun hin => ?_
  · -- at or above the end of the range
    rw [hfl₁₀, holds_unsignedLimit t ho hn] at hpos
    refine Skip.pastQuiet (quiet_truncUnsignedInRange _ _ _ _ _ _) fun _ c₁₁ h₁₁ => ?_
    refine Skip.asm' fun _ _ => Skip.pastRelease (s := c₅.stack) (by exact h₁₁.trans (h₉.trans h₇))
      fun c₁₂ hs₁₂ => ?_
    refine skip_pastFailBlock (Quiet.asm' _) fun c₁₃ h₁₃ => ?_
    refine skip_pastFailBlock (Quiet.asm' _) fun c₁₄ h₁₄ => ?_
    refine skip_truncFail (hT₁₀.goto _).env
      (.ite' (.asm' (.movRI32 _ _)) (.asm' (.movRI64 _ _))) gJ
      (hspR _ (h₁₄.trans (h₁₃.trans hs₁₂))) (truncTo_of_above hn hnneg hpos) fun hs a => ?_
    have hans : t.truncTo o sat v = .ok (o.ofInt (o.hi - 1)) := by
      rw [truncTo_of_above hn hnneg hpos, hs, if_pos rfl]
    refine Runs.ite' (fun h32 => ?_) fun h64 => ?_
    · refine runs_movRI32 (hT₁₀.goto _).env hd _ fun M₁₅ hs₁₅ hv₁₅ => ?_
      exact skip_truncJoin ((((hT₁₀.goto _).step hs₁₅ (by simp)).release hlT).goto _)
        (by exact h₁₄.trans (h₁₃.trans hs₁₂)) hx hne
        ((inReg_ofInt hdst (hv₁₅.trans ((unsignedMax_eq ho).1 h32))).goto _)
        fun _ _ hR' => ⟨_, hans, hR'⟩
    · refine runs_movImm64 (hT₁₀.goto _).env hd (by decide) fun M₁₅ hs₁₅ hv₁₅ => ?_
      exact skip_truncJoin ((((hT₁₀.goto _).step hs₁₅ (by simp)).release hlT).goto _)
        (by exact h₁₄.trans (h₁₃.trans hs₁₂)) hx hne
        ((inReg_ofInt hdst (hv₁₅.trans ((unsignedMax_eq ho).2 (by simpa using h64)))).goto _)
        fun _ _ hR' => ⟨_, hans, hR'⟩
  rw [hfl₁₀, holds_unsignedLimit t ho hn] at hin
  have hok : t.truncTo o sat v = _ := truncTo_of_range hn hnneg hin
  refine runs_truncUnsignedInRange ho (hT₁₀.goto _) subset_rfl hdst hl hsl (hsrc₁₀.goto _) hn hnneg
    hin (gR limit) fun c₁₁ M₁₁ h₁₁ hT₁₁ hv₁₁ => ?_
  refine Skip.pastRelease (s := c₅.stack) (by exact h₁₁.trans (h₉.trans h₇)) fun c₁₂ hs₁₂ => ?_
  refine skip_pastFailBlock (Quiet.asm' _) fun c₁₃ h₁₃ => ?_
  refine skip_pastFailBlock (Quiet.asm' _) fun c₁₄ h₁₄ => ?_
  refine skip_pastFailBlock (Quiet.ite' (Quiet.asm' _) (Quiet.asm' _)) fun c₁₅ h₁₅ => ?_
  exact skip_truncJoin ((hT₁₁.release hlT).goto _) (by exact h₁₅.trans (h₁₄.trans (h₁₃.trans hs₁₂)))
    hx hne ((inReg_ofInt hdst hv₁₁).goto _) fun _ _ hR' => ⟨_, hok, hR'⟩

end Unsigned

/-! The operation. -/

section Operation

variable {K : Code} {X : Machine → Prop} {c : Compiler} {M : Machine} {fb cap : Nat}
  {vs : List UInt64}

theorem grows_truncSigned (t : FloatType) (o : IntType) (sat : Bool) (src dst : Reg) :
    Grows (truncSigned t o sat src dst) := by
  unfold truncSigned
  generalize signedBound t o.is32 = B
  obtain ⟨bound, below⟩ := B
  exact .bind Silent.createLabel.grows fun _ => .bind Silent.createLabel.grows fun _ =>
    .bind Silent.createLabel.grows fun _ => .bind Silent.createLabel.grows fun _ =>
    .bind (.asm' (.cvtt _ _ _ _)) fun _ => .bind (.asm' (.aluRI _ _ _ _)) fun _ =>
    .bind (.asm' (.add _)) fun _ => .bind (.asm' (.scalar _ _ _ _)) fun _ =>
    .bind (.asm' (.add _)) fun _ => .bind (grows_setFloatBits _ _ _) fun _ =>
    .bind (.asm' (.scalar _ _ _ _)) fun _ => .bind (.asm' (.add _)) fun _ =>
    .bind (.asm' (.vec _ _ _)) fun _ => .bind (.asm' (.scalar _ _ _ _)) fun _ =>
    .bind (.asm' (.add _)) fun _ => .bind (.asm' (.add _)) fun _ =>
    grows_failBlock _ _ _ (.asm' (.aluRR _ _ _ _)) _ fun _ =>
    grows_failBlock _ _ _ (.ite' (.asm' (.movRI32 _ _)) (.asm' (.movRI64 _ _))) _ fun _ =>
    grows_failBlock _ _ _ (.pure' _) _ fun _ => .asm' (.bindLabel _)

theorem grows_truncUnsigned (t : FloatType) (o : IntType) (sat : Bool) (src dst : Reg) :
    Grows (truncUnsigned t o sat src dst) := by
  unfold truncUnsigned
  exact .bind Silent.createLabel.grows fun _ => .bind Silent.createLabel.grows fun _ =>
    .bind Silent.createLabel.grows fun _ => .bind Silent.createLabel.grows fun _ =>
    .bind (grows_allocate _ _) fun _ =>
    .bind (.asm' (.scalar _ _ _ _)) fun _ => .bind (.asm' (.add _)) fun _ =>
    .bind (grows_setFloatBits _ _ _) fun _ => .bind (.asm' (.scalar _ _ _ _)) fun _ =>
    .bind (.asm' (.add _)) fun _ => .bind (grows_setFloatBits _ _ _) fun _ =>
    .bind (.asm' (.scalar _ _ _ _)) fun _ => .bind (.asm' (.add _)) fun _ =>
    .bind (grows_truncUnsignedInRange _ _ _ _ _ _) fun _ => .bind (.asm' (.add _)) fun _ =>
    .bind (silent_releaseReg _).grows fun _ =>
    grows_failBlock _ _ _ (.asm' (.aluRR _ _ _ _)) _ fun _ =>
    grows_failBlock _ _ _ (.asm' (.aluRR _ _ _ _)) _ fun _ =>
    grows_failBlock _ _ _ (.ite' (.asm' (.movRI32 _ _)) (.asm' (.movRI64 _ _))) _ fun _ =>
    .asm' (.bindLabel _)

theorem runs_truncOperands {t : FloatType} {v : UInt64} {β : Type}
    {Q : β → Compiler → Machine → Prop} (h : Rep M fb cap c.stack (vs ++ [v]))
    (hfit : Fit ∅ c.stack)
    (hty : ∀ ⦃j l⦄, c.stack.slots[j]? = some l → vs.length ≤ j → l.type = t.slotType)
    (hnf : ∀ ⦃j l⦄, c.stack.slots[j]? = some l → j < vs.length → l.flag = none)
    {k : Location → Reg → Reg → LowerM β} (hg : ∀ x r d, Grows (k x r d))
    (hk : ∀ x src dst c' M', x.reg = some src → dst ≠ src → dst ∈ gpPool →
      Truncating M' M' fb cap c'.stack vs {dst, src} {dst, scratchGp, scratchVec} →
      InReg M' t.slotType src v → Runs K X (k x src dst) Q c' M') :
    Runs K X (do
      let x ← popToRegister
      let src ← regOf x
      let dst ← allocate .gp
      k x src dst) Q c M := by
  have hroom : vs.length < cap := by
    have := h.sp_le
    rw [← h.length_eq] at this
    simp only [List.length_append, List.length_cons, List.length_nil] at this
    omega
  refine Runs.bind (runs_popToRegister (FloatType.slotType_ne t) h hfit (by simp) hty
    fun x src c₁ M₁ hx _ _ hfit₁ hR₁ hv₁ _ hmv => ?_) fun x =>
      .bind (silent_regOf x).grows fun r => .bind (grows_allocate _ _) (hg x r)
  rw [regOf_of_reg hx, pure_bind]
  refine Runs.bind (runs_allocateFresh hR₁ hfit₁ (by simp) .gp
    fun dst c₂ M₂ hdst hdT hfit₂ hsp₂ hR₂ hk₂ => hk x src dst c₂ M₂ hx (by simpa using hdT) hdst
      ?_ (hv₁.of_keeps hk₂ (Finset.notMem_empty _))) (hg x src)
  rw [LawfulSingleton.insert_empty_eq] at hfit₂
  refine Truncating.start hR₂ hfit₂ (hsp₂.moves.noFlags (hmv.noFlags_of_below hnf)) hroom ?_
  simp only [Finset.mem_insert, Finset.mem_singleton]
  rintro w (rfl | rfl | rfl)
  · exact ⟨writable_of_mem_gpPool hdst, by simp⟩
  · exact ⟨writable_scratchGp, .inr ⟨by decide, by decide⟩⟩
  · exact ⟨writable_of_isXmm (by decide), .inr ⟨by decide, by decide⟩⟩

/-- Every float type truncates to every integer type, trapping or saturating: from every
allocation of the operand and of the values below it, the code either leaves with the trap
`truncTo` names, or runs to its end with the values below kept and the answer of `truncTo` on
top. -/
theorem runs_truncFromFloat (t : FloatType) (o : IntType) (sat : Bool) {v : UInt64}
    (h : Rep M fb cap c.stack (vs ++ [v])) (hfit : Fit ∅ c.stack)
    (hty : ∀ ⦃j l⦄, c.stack.slots[j]? = some l → vs.length ≤ j → l.type = t.slotType)
    (hnf : ∀ ⦃j l⦄, c.stack.slots[j]? = some l → j < vs.length → l.flag = none) :
    Runs K (fun M' => ∃ k, t.truncTo o sat v = .error k ∧ Exited M' (.trap k) vs.length)
      (Lower.operation (.truncFromFloat t o sat))
      (fun _ c' M' => ∃ r, t.truncTo o sat v = .ok r ∧ Rep M' fb cap c'.stack (vs ++ [r])) c M := by
  show Runs K _ (Lower.truncToInt t o sat) _ c M
  unfold Lower.truncToInt
  refine runs_truncOperands h hfit hty hnf (fun x r d => ?_)
    fun x src dst c' M' hx hne hdst hT hv => ?_
  · exact .ite' (.bind (grows_truncSigned _ _ _ _ _) fun _ => grows_truncEnd x d o)
      (.bind (grows_truncUnsigned _ _ _ _ _) fun _ => grows_truncEnd x d o)
  cases ho : o.isSigned
  · simp only [Bool.false_eq_true, ↓reduceIte]
    exact runs_truncUnsigned ho sat hT rfl hx hne hdst hv
  · simp only [↓reduceIte]
    exact runs_truncSigned ho sat hT rfl hx hne hdst hv

/-- `-2 ^ 31` as an `f64`, in the memory slot of a frame entered from the host, truncated to
`s32`: the conversion answers the sign bit alone, so the code takes the checks, which find the
input within the range. -/
theorem runs_truncFromFloat_entry :
    Runs (Code.spaced {} (by decide))
      (fun M' => ∃ k, FloatType.f64.truncTo .s32 false 0xC1E0000000000000 = .error k ∧
        Exited M' (.trap k) ([] : List UInt64).length)
      (Lower.operation (.truncFromFloat .f64 .s32 false))
      (fun _ c' M' => ∃ r, FloatType.f64.truncTo .s32 false 0xC1E0000000000000 = .ok r ∧
        Rep M' 0 1 c'.stack ([] ++ [r]))
      { stack := memoryStack [.f64], listener := false, features := {}
        fn := FunctionIr.ofBody { params := [.f64], results := [.i32] } {}
          [.truncFromFloat .f64 .s32 false] }
      (entryMachine [0xC1E0000000000000]) := by
  have hrep : Rep (entryMachine [0xC1E0000000000000]) 0 1 (memoryStack [.f64])
      ([] ++ [0xC1E0000000000000]) := by
    refine rep_entryMachine rfl (by decide) fun i t v ht hv => ?_
    have : t = .f64 := by simpa using List.mem_of_getElem? ht
    subst this
    exact v.toNat_lt
  have hty : ∀ ⦃i : Nat⦄ ⦃l : Location⦄, (memoryStack [.f64]).slots[i]? = some l →
      ([] : List UInt64).length ≤ i → l.type = FloatType.f64.slotType := by
    intro i l hl _
    have := List.mem_of_getElem? (memoryStack_slot hl).1
    simpa [FloatType.slotType] using this
  have hnf : ∀ ⦃i : Nat⦄ ⦃l : Location⦄, (memoryStack [.f64]).slots[i]? = some l →
      i < ([] : List UInt64).length → l.flag = none :=
    fun i _ _ hi => absurd hi (Nat.not_lt_zero i)
  exact runs_truncFromFloat (K := Code.spaced {} (by decide))
    (c := { stack := memoryStack [.f64], listener := false, features := {}
            fn := FunctionIr.ofBody { params := [.f64], results := [.i32] } {}
              [.truncFromFloat .f64 .s32 false] })
    .f64 .s32 false hrep (fit_memoryStack (by decide)) hty hnf

end Operation

end Amd64

end OnePassJit
