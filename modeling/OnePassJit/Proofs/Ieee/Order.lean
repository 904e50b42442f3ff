import Mathlib
import OnePassJit.Ieee.Arith

/-!
The order of floating-point patterns.

A pattern that is no NaN stands for an extended rational (`value`): `±m · 2^q` for a finite
one, `⊥` or `⊤` for an infinity. `compare`, and with it `ucomis`, `minss` and `maxss`, orders
patterns by `orderKey`, the magnitude with the sign in front. Read as a number, the magnitude
grows with the value it stands for, from one binade to the next and up to the infinity
(`magValue_lt_succ`), so the key orders patterns exactly as their values do
(`orderKey_lt_iff`, `orderKey_eq_iff`) and `compare` answers the order of the values
(`compare_eq_less_iff`, `compare_eq_equal_iff`, `compare_eq_greater_iff`). Two patterns of one value are one pattern or the
two zeros (`eq_or_zeros_of_value_eq`).
-/

namespace OnePassJit.Ieee.Format

variable (f : Format)

def infMag : Nat := f.expMax * 2 ^ f.fracBits

def magValue (b : Nat) : ℚ := ((f.significand b).1 : ℚ) * 2 ^ (f.significand b).2

/-- The value of a pattern that is no NaN; the infinities are `⊥` and `⊤`. -/
def value (b : Nat) : WithBot (WithTop ℚ) :=
  if f.isInfinite b then (if f.sign b then ⊥ else ⊤)
  else (((if f.sign b then -f.magValue b else f.magValue b : ℚ) : WithTop ℚ) :
    WithBot (WithTop ℚ))

/-! The fields of a pattern. -/

variable {f}

theorem signMask_eq : f.signMask = 2 ^ (f.expBits + f.fracBits) := by
  simp only [signMask, width, Nat.pow_eq]
  congr 1
  omega

theorem expMax_lt : f.expMax < 2 ^ f.expBits := by
  simp only [expMax, Nat.pow_eq]
  have := Nat.one_le_two_pow (n := f.expBits)
  omega

theorem div_mod_fields {e r : Nat} (hr : r < 2 ^ f.fracBits) :
    (e * 2 ^ f.fracBits + r) / 2 ^ f.fracBits = e ∧ (e * 2 ^ f.fracBits + r) % 2 ^ f.fracBits = r := by
  have hp : 0 < 2 ^ f.fracBits := Nat.two_pow_pos _
  constructor
  · rw [Nat.add_comm, Nat.add_mul_div_right _ _ hp, Nat.div_eq_of_lt hr, Nat.zero_add]
  · rw [Nat.add_comm, Nat.add_mul_mod_self_right, Nat.mod_eq_of_lt hr]

theorem fields_inj {e e' r r' : Nat} (hr : r < 2 ^ f.fracBits) (hr' : r' < 2 ^ f.fracBits)
    (h : e * 2 ^ f.fracBits + r = e' * 2 ^ f.fracBits + r') : e = e' ∧ r = r' := by
  have h₁ := div_mod_fields (e := e) hr
  have h₂ := div_mod_fields (e := e') hr'
  rw [h] at h₁
  exact ⟨h₁.1.symm.trans h₂.1, h₁.2.symm.trans h₂.2⟩

theorem fields_of_lt {e r : Nat} (he : e < 2 ^ f.expBits) (hr : r < 2 ^ f.fracBits) :
    f.expField (e * 2 ^ f.fracBits + r) = e ∧ f.fracField (e * 2 ^ f.fracBits + r) = r := by
  obtain ⟨hdiv, hmod⟩ := div_mod_fields (e := e) hr
  constructor
  · show (e * 2 ^ f.fracBits + r) / 2 ^ f.fracBits % 2 ^ f.expBits = e
    rw [hdiv, Nat.mod_eq_of_lt he]
  · exact hmod

theorem fracField_lt (b : Nat) : f.fracField b < 2 ^ f.fracBits :=
  Nat.mod_lt _ (Nat.two_pow_pos _)

theorem expField_lt (b : Nat) : f.expField b < 2 ^ f.expBits :=
  Nat.mod_lt _ (Nat.two_pow_pos _)

theorem eq_fields {k : Nat} (hk : k < f.signMask) :
    k = f.expField k * 2 ^ f.fracBits + f.fracField k := by
  rw [signMask_eq, Nat.pow_add] at hk
  have hq : k / 2 ^ f.fracBits < 2 ^ f.expBits :=
    Nat.div_lt_of_lt_mul (by rwa [Nat.mul_comm])
  show k = k / 2 ^ f.fracBits % 2 ^ f.expBits * 2 ^ f.fracBits + k % 2 ^ f.fracBits
  rw [Nat.mod_eq_of_lt hq, Nat.mul_comm, Nat.div_add_mod]

theorem significand_of_fields {e r : Nat} (he : e < 2 ^ f.expBits) (hr : r < 2 ^ f.fracBits) :
    f.significand (e * 2 ^ f.fracBits + r) =
      if e = 0 then (r, f.minQuantum)
      else (r + 2 ^ f.fracBits, (e : Int) - f.bias - f.fracBits) := by
  obtain ⟨h₁, h₂⟩ := fields_of_lt he hr
  simp only [significand, h₁, h₂, beq_iff_eq, Nat.pow_eq]

theorem magValue_of_fields {e r : Nat} (he : e < 2 ^ f.expBits) (hr : r < 2 ^ f.fracBits) :
    f.magValue (e * 2 ^ f.fracBits + r) =
      if e = 0 then (r : ℚ) * 2 ^ f.minQuantum
      else ((r + 2 ^ f.fracBits : Nat) : ℚ) * 2 ^ ((e : Int) - f.bias - f.fracBits) := by
  unfold magValue
  rw [significand_of_fields he hr]
  split <;> rfl

/-! The magnitude grows with the value. -/

theorem minQuantum_eq : f.minQuantum = (1 : Int) - f.bias - f.fracBits := rfl

/-- The next magnitude stands for a larger value, within a binade (a larger significand)
and from one binade to the next (the largest significand of a binade is below the
smallest of the next one, whose unit is twice as large). -/
theorem magValue_lt_succ {k : Nat} (hk : k + 1 < f.infMag) :
    f.magValue k < f.magValue (k + 1) := by
  have hsm : k < f.signMask := by
    have : f.infMag ≤ f.signMask := by
      rw [infMag, signMask_eq, Nat.pow_add]
      exact Nat.mul_le_mul_right _ expMax_lt.le
    omega
  have hkf := eq_fields hsm
  set e := f.expField k
  set r := f.fracField k
  have hr : r < 2 ^ f.fracBits := fracField_lt k
  have hp : 0 < 2 ^ f.fracBits := Nat.two_pow_pos _
  have he : e < f.expMax := by
    by_contra h
    have : f.expMax * 2 ^ f.fracBits ≤ e * 2 ^ f.fracBits := Nat.mul_le_mul_right _ (by omega)
    rw [infMag] at hk
    omega
  have he' : e < 2 ^ f.expBits := he.trans expMax_lt
  have hq : (0 : ℚ) < 2 ^ f.minQuantum := by positivity
  rw [hkf]
  rcases Nat.lt_or_ge (r + 1) (2 ^ f.fracBits) with hr1 | hr1
  · -- within the binade
    rw [Nat.add_assoc, magValue_of_fields he' hr, magValue_of_fields he' hr1]
    split
    · push_cast
      nlinarith
    · have : (0 : ℚ) < 2 ^ ((e : Int) - f.bias - f.fracBits) := by positivity
      push_cast
      nlinarith
  · -- into the next binade
    have hr1 : r + 1 = 2 ^ f.fracBits := by omega
    have hnext : e * 2 ^ f.fracBits + r + 1 = (e + 1) * 2 ^ f.fracBits + 0 := by
      rw [Nat.add_assoc, hr1, Nat.succ_mul, Nat.add_zero]
    have he1 : e + 1 < 2 ^ f.expBits := lt_of_le_of_lt (Nat.succ_le_of_lt he) expMax_lt
    rw [hnext, magValue_of_fields he' hr, magValue_of_fields (e := e + 1) (r := 0) he1 hp,
      if_neg (Nat.succ_ne_zero e)]
    split
    · rename_i he0
      rw [he0, minQuantum_eq]
      have hu : (0 : ℚ) < 2 ^ ((1 : Int) - f.bias - f.fracBits) := by positivity
      have hr' : (r : ℚ) + 1 = 2 ^ f.fracBits := by exact_mod_cast hr1
      push_cast
      nlinarith
    · have hu : (0 : ℚ) < 2 ^ ((e : Int) - f.bias - f.fracBits) := by positivity
      have hsucc : ((e + 1 : Nat) : Int) - f.bias - f.fracBits =
          ((e : Int) - f.bias - f.fracBits) + 1 := by push_cast; ring
      have hr' : (r : ℚ) + 1 = 2 ^ f.fracBits := by exact_mod_cast hr1
      rw [hsucc, zpow_add_one₀ (by norm_num)]
      push_cast
      nlinarith

variable (f)

def magExt (k : Nat) : WithTop ℚ := if k = f.infMag then ⊤ else (f.magValue k : WithTop ℚ)

def negExt : WithTop ℚ → WithBot (WithTop ℚ)
  | ⊤ => ⊥
  | (x : ℚ) => (((-x : ℚ) : WithTop ℚ) : WithBot (WithTop ℚ))

def keyValue (k : Int) : WithBot (WithTop ℚ) :=
  if k < 0 then negExt (f.magExt (-k).toNat) else (f.magExt k.toNat : WithBot (WithTop ℚ))

variable {f}

theorem strictMonoOn_magExt : StrictMonoOn f.magExt (Set.Iic f.infMag) := by
  refine strictMonoOn_Iic_of_lt_succ fun k hk => ?_
  rw [Order.succ_eq_add_one]
  unfold magExt
  rw [if_neg hk.ne]
  split
  · exact WithTop.coe_lt_top _
  · exact WithTop.coe_lt_coe.mpr (magValue_lt_succ (by omega))

theorem negExt_lt_negExt {x y : WithTop ℚ} (h : x < y) : negExt y < negExt x := by
  cases y with
  | top =>
    cases x with
    | top => exact absurd h (lt_irrefl _)
    | coe x => exact WithBot.bot_lt_coe _
  | coe y =>
    cases x with
    | top => exact absurd h (not_lt_of_ge le_top)
    | coe x =>
      exact WithBot.coe_lt_coe.mpr (WithTop.coe_lt_coe.mpr (neg_lt_neg (WithTop.coe_lt_coe.mp h)))

theorem magValue_zero : f.magValue 0 = 0 := by
  simp [magValue, significand, expField, fracField]

theorem magValue_pos {k : Nat} (hk : 0 < k) (hk' : k < f.infMag) : 0 < f.magValue k := by
  induction k with
  | zero => omega
  | succ k ih =>
    rcases Nat.eq_zero_or_pos k with rfl | hk0
    · rw [← magValue_zero (f := f)]
      exact magValue_lt_succ hk'
    · exact (ih hk0 (by omega)).trans (magValue_lt_succ hk')

theorem strictMonoOn_keyValue :
    StrictMonoOn f.keyValue (Set.Icc (-(f.infMag : Int)) f.infMag) := by
  refine strictMonoOn_of_lt_succ Set.ordConnected_Icc fun k _ hk hk' => ?_
  rw [Order.succ_eq_add_one] at hk' ⊢
  obtain ⟨hk₁, -⟩ := hk
  obtain ⟨-, hk₂⟩ := hk'
  unfold keyValue
  rcases Int.lt_or_le k (-1) with h | h
  · -- two negative keys: the larger magnitude is the smaller value
    rw [if_pos (by omega), if_pos (by omega)]
    refine negExt_lt_negExt (strictMonoOn_magExt ?_ ?_ (by omega)) <;>
      simp only [Set.mem_Iic] <;> omega
  rcases Int.lt_or_le k 0 with h' | h'
  · -- from `-1` to `0`
    have hk1 : k = -1 := by omega
    subst hk1
    rw [if_pos (by omega), if_neg (by omega)]
    have hinf : 1 ≤ f.infMag := by omega
    unfold magExt
    rw [show (-(-1 : Int)).toNat = 1 by rfl, show ((-1 : Int) + 1).toNat = 0 by rfl]
    split
    · exact WithBot.bot_lt_coe _
    · rw [if_neg (by omega), magValue_zero]
      exact WithBot.coe_lt_coe.mpr (WithTop.coe_lt_coe.mpr
        (neg_lt_zero.mpr (magValue_pos (by omega) (by omega))))
  · -- two non-negative keys
    rw [if_neg (by omega), if_neg (by omega)]
    refine WithBot.coe_lt_coe.mpr (strictMonoOn_magExt ?_ ?_ (by omega)) <;>
      simp only [Set.mem_Iic] <;> omega

/-! Sign and magnitude. -/

theorem expField_magnitude (b : Nat) : f.expField (f.magnitude b) = f.expField b := by
  show b % f.signMask / 2 ^ f.fracBits % 2 ^ f.expBits = b / 2 ^ f.fracBits % 2 ^ f.expBits
  rw [signMask_eq, Nat.pow_add, Nat.mul_comm, Nat.mod_mul_right_div_self, Nat.mod_mod]

theorem fracField_magnitude (b : Nat) : f.fracField (f.magnitude b) = f.fracField b := by
  show b % f.signMask % 2 ^ f.fracBits = b % 2 ^ f.fracBits
  rw [signMask_eq, Nat.pow_add, Nat.mul_comm, Nat.mod_mul_right_mod]

theorem magnitude_lt (b : Nat) : f.magnitude b < f.signMask :=
  Nat.mod_lt _ (by rw [signMask_eq]; exact Nat.two_pow_pos _)

theorem magValue_magnitude (b : Nat) : f.magValue (f.magnitude b) = f.magValue b := by
  simp only [magValue, significand, expField_magnitude, fracField_magnitude]

theorem magnitude_eq_fields (b : Nat) :
    f.magnitude b = f.expField b * 2 ^ f.fracBits + f.fracField b := by
  rw [eq_fields (magnitude_lt b), expField_magnitude, fracField_magnitude]

theorem isInfinite_iff (b : Nat) : f.isInfinite b = true ↔ f.magnitude b = f.infMag := by
  rw [magnitude_eq_fields, infMag]
  simp only [isInfinite, Bool.and_eq_true, beq_iff_eq]
  constructor
  · rintro ⟨h₁, h₂⟩
    rw [h₁, h₂, Nat.add_zero]
  · intro h
    rw [← Nat.add_zero (f.expMax * _)] at h
    exact fields_inj (fracField_lt b) (Nat.two_pow_pos _) h
theorem isNaN_iff (b : Nat) : f.isNaN b = true ↔ f.infMag < f.magnitude b := by
  have he := expField_lt (f := f) b
  have hm := expMax_lt (f := f)
  have hr := fracField_lt (f := f) b
  rw [magnitude_eq_fields, infMag]
  simp only [isNaN, Bool.and_eq_true, beq_iff_eq, bne_iff_ne, ne_eq]
  have hsucc := Nat.succ_mul (f.expField b) (2 ^ f.fracBits)
  have hmono : ∀ {x y : Nat}, x ≤ y → x * 2 ^ f.fracBits ≤ y * 2 ^ f.fracBits :=
    fun h => Nat.mul_le_mul_right _ h
  constructor
  · rintro ⟨h₁, h₂⟩
    rw [h₁]
    omega
  · intro h
    rcases Nat.lt_or_ge (f.expField b) f.expMax with h' | h'
    · have := hmono (Nat.succ_le_of_lt h')
      omega
    · have he' : f.expField b = f.expMax := by
        have : f.expMax = 2 ^ f.expBits - 1 := by simp [expMax]
        omega
      rw [he'] at h ⊢
      omega

theorem isZero_iff (b : Nat) : f.isZero b = true ↔ f.magnitude b = 0 := by
  rw [magnitude_eq_fields]
  simp only [isZero, Bool.and_eq_true, beq_iff_eq]
  have hp : 0 < 2 ^ f.fracBits := Nat.two_pow_pos _
  constructor
  · rintro ⟨h₁, h₂⟩
    rw [h₁, h₂, Nat.zero_mul]
  · intro h
    have h₂ : f.fracField b = 0 := by omega
    refine ⟨?_, h₂⟩
    rw [h₂, Nat.add_zero] at h
    exact (Nat.mul_eq_zero.mp h).resolve_right hp.ne'

theorem magnitude_le (hn : f.isNaN b = false) : f.magnitude b ≤ f.infMag := by
  by_contra h
  rw [(isNaN_iff b).mpr (by omega)] at hn
  cases hn

theorem value_eq_keyValue (hf : 0 < f.infMag) (hn : f.isNaN b = false) :
    f.value b = f.keyValue (f.orderKey b) := by
  have hle := magnitude_le hn
  have hnot : ¬ ((f.magnitude b : Int) < 0) := by omega
  unfold value keyValue orderKey
  by_cases hi : f.magnitude b = f.infMag
  · -- an infinity
    have hpos : -(f.magnitude b : Int) < 0 := by omega
    rw [if_pos ((isInfinite_iff b).mpr hi)]
    cases f.sign b
    · rw [if_neg Bool.false_ne_true, if_neg Bool.false_ne_true, if_neg hnot, Int.toNat_natCast,
        magExt, if_pos hi]
      rfl
    · rw [if_pos rfl, if_pos rfl, if_pos hpos, Int.neg_neg, Int.toNat_natCast, magExt, if_pos hi]
      rfl
  · rw [if_neg (mt (isInfinite_iff b).mp hi), ← magValue_magnitude]
    cases f.sign b
    · rw [if_neg Bool.false_ne_true, if_neg Bool.false_ne_true, if_neg hnot, Int.toNat_natCast,
        magExt, if_neg hi]
    · rw [if_pos rfl, if_pos rfl]
      rcases Nat.eq_zero_or_pos (f.magnitude b) with h0 | h0
      · -- minus zero has the key of zero
        have hz : ¬ (0 = f.infMag) := by omega
        rw [h0, Int.natCast_zero, Int.neg_zero, if_neg (lt_irrefl 0), Int.toNat_zero, magExt,
          if_neg hz, magValue_zero, neg_zero]
      · have hpos : -(f.magnitude b : Int) < 0 := by omega
        rw [if_pos hpos, Int.neg_neg, Int.toNat_natCast, magExt, if_neg hi]
        rfl

theorem orderKey_mem (hn : f.isNaN b = false) :
    f.orderKey b ∈ Set.Icc (-(f.infMag : Int)) f.infMag := by
  have := magnitude_le hn
  unfold orderKey
  split <;> constructor <;> omega

/-- Keys order patterns as their values. -/
theorem orderKey_lt_iff (hf : 0 < f.infMag) (ha : f.isNaN a = false) (hb : f.isNaN b = false) :
    f.orderKey a < f.orderKey b ↔ f.value a < f.value b := by
  rw [value_eq_keyValue hf ha, value_eq_keyValue hf hb]
  exact (strictMonoOn_keyValue.lt_iff_lt (orderKey_mem ha) (orderKey_mem hb)).symm

theorem orderKey_eq_iff (hf : 0 < f.infMag) (ha : f.isNaN a = false) (hb : f.isNaN b = false) :
    f.orderKey a = f.orderKey b ↔ f.value a = f.value b := by
  rw [value_eq_keyValue hf ha, value_eq_keyValue hf hb]
  exact ⟨congrArg _, fun h => strictMonoOn_keyValue.injOn (orderKey_mem ha) (orderKey_mem hb) h⟩

/-! What `compare` answers. -/

theorem compare_eq_unordered_iff :
    f.compare a b = .unordered ↔ f.isNaN a = true ∨ f.isNaN b = true := by
  unfold compare
  by_cases h : (f.isNaN a || f.isNaN b) = true
  · rw [if_pos h]
    simpa only [Bool.or_eq_true, true_iff] using h
  · rw [if_neg h]
    rw [Bool.or_eq_true] at h
    simp only [h, iff_false]
    split
    · exact fun h' => nomatch h'
    · split <;> exact fun h' => nomatch h'

theorem compare_of_not_nan (hf : 0 < f.infMag) (ha : f.isNaN a = false)
    (hb : f.isNaN b = false) :
    f.compare a b =
      if f.value a < f.value b then .less else if f.value a = f.value b then .equal
      else .greater := by
  unfold compare
  rw [ha, hb, Bool.or_self, if_neg Bool.false_ne_true]
  simp only [orderKey_lt_iff hf ha hb, beq_iff_eq, orderKey_eq_iff hf ha hb]

theorem compare_eq_less_iff (hf : 0 < f.infMag) :
    f.compare a b = .less ↔ f.isNaN a = false ∧ f.isNaN b = false ∧ f.value a < f.value b := by
  cases ha : f.isNaN a <;> cases hb : f.isNaN b
  case false.false =>
    rw [compare_of_not_nan hf ha hb]
    by_cases hlt : f.value a < f.value b
    · simp [hlt]
    · by_cases heq : f.value a = f.value b <;> simp [hlt, heq]
  all_goals
    rw [compare_eq_unordered_iff.mpr (by simp [ha, hb])]
    simp

theorem compare_eq_equal_iff (hf : 0 < f.infMag) :
    f.compare a b = .equal ↔ f.isNaN a = false ∧ f.isNaN b = false ∧ f.value a = f.value b := by
  cases ha : f.isNaN a <;> cases hb : f.isNaN b
  case false.false =>
    rw [compare_of_not_nan hf ha hb]
    by_cases hlt : f.value a < f.value b
    · simp [hlt, hlt.ne]
    · by_cases heq : f.value a = f.value b <;> simp [hlt, heq]
  all_goals
    rw [compare_eq_unordered_iff.mpr (by simp [ha, hb])]
    simp

theorem compare_eq_greater_iff (hf : 0 < f.infMag) :
    f.compare a b = .greater ↔ f.isNaN a = false ∧ f.isNaN b = false ∧ f.value b < f.value a := by
  cases ha : f.isNaN a <;> cases hb : f.isNaN b
  case false.false =>
    rw [compare_of_not_nan hf ha hb]
    by_cases hlt : f.value a < f.value b
    · simp [hlt, not_lt_of_gt hlt]
    · by_cases heq : f.value a = f.value b
      · simp [heq]
      · simp [hlt, heq, lt_of_le_of_ne (not_lt.mp hlt) (Ne.symm heq)]
  all_goals
    rw [compare_eq_unordered_iff.mpr (by simp [ha, hb])]
    simp

/-! Patterns of one value. -/

theorem two_pow_width : 2 ^ f.width = 2 * f.signMask := by
  rw [signMask_eq, width, Nat.add_assoc, Nat.pow_add, Nat.pow_one]

theorem eq_sign_magnitude (hb : b < 2 ^ f.width) :
    b = (if f.sign b then f.signMask else 0) + f.magnitude b := by
  rw [two_pow_width] at hb
  have hq : b / f.signMask < 2 := Nat.div_lt_of_lt_mul (by rwa [Nat.mul_comm])
  have hb' := Nat.div_add_mod b f.signMask
  unfold sign magnitude
  generalize b / f.signMask = q at hq hb' ⊢
  obtain rfl | rfl : q = 0 ∨ q = 1 := by omega
  · simp only [Nat.zero_mod]
    simp at hb' ⊢
    omega
  · simp only [Nat.one_mod]
    simp at hb' ⊢
    omega

/-- Two patterns of one value are one pattern, or both are zeros. -/
theorem eq_or_zeros_of_value_eq (hf : 0 < f.infMag) (ha : a < 2 ^ f.width) (hb : b < 2 ^ f.width)
    (hna : f.isNaN a = false) (hnb : f.isNaN b = false) (h : f.value a = f.value b) :
    a = b ∨ (f.isZero a = true ∧ f.isZero b = true) := by
  have hk := (orderKey_eq_iff hf hna hnb).mpr h
  have ea := eq_sign_magnitude ha
  have eb := eq_sign_magnitude hb
  rw [isZero_iff, isZero_iff]
  unfold orderKey at hk
  cases hsa : f.sign a <;> cases hsb : f.sign b <;>
    simp only [hsa, hsb, Bool.false_eq_true, if_false, if_true] at hk ea eb <;> omega

theorem eq_of_isZero (hb : b < 2 ^ f.width) (hz : f.isZero b = true) :
    b = if f.sign b then f.signMask else 0 := by
  have e := eq_sign_magnitude hb
  rwa [(isZero_iff b).mp hz, Nat.add_zero] at e

theorem or_of_isZero (ha : a < 2 ^ f.width) (hb : b < 2 ^ f.width) (hza : f.isZero a = true)
    (hzb : f.isZero b = true) : a ||| b = if f.sign a then a else b := by
  have ea := eq_of_isZero ha hza
  have eb := eq_of_isZero hb hzb
  cases hsa : f.sign a <;> cases hsb : f.sign b <;>
    simp only [hsa, hsb, if_true, if_false, Bool.false_eq_true] at ea eb ⊢ <;>
    rw [ea, eb] <;> simp

theorem and_of_isZero (ha : a < 2 ^ f.width) (hb : b < 2 ^ f.width) (hza : f.isZero a = true)
    (hzb : f.isZero b = true) : a &&& b = if f.sign a then b else a := by
  have ea := eq_of_isZero ha hza
  have eb := eq_of_isZero hb hzb
  cases hsa : f.sign a <;> cases hsb : f.sign b <;>
    simp only [hsa, hsb, if_true, if_false, Bool.false_eq_true] at ea eb ⊢ <;>
    rw [ea, eb] <;> simp

theorem magnitude_add_sign (a b : Nat) :
    f.magnitude a + (if f.sign b then f.signMask else 0) = a % f.signMask ||| b &&& f.signMask := by
  unfold magnitude sign
  rw [signMask_eq, Nat.and_two_pow, Nat.testBit_eq_decide_div_mod_eq]
  by_cases h : b / 2 ^ (f.expBits + f.fracBits) % 2 = 1
  · simp [h, Nat.or_two_pow_eq_add_of_lt (Nat.mod_lt a (Nat.two_pow_pos _))]
  · simp [h]

theorem isNaN_quiet (hp : 0 < f.fracBits) (hn : f.isNaN b = true) : f.isNaN (f.quiet b) = true := by
  have hq : f.quietBit < 2 ^ f.fracBits := by
    simp only [quietBit, Nat.pow_eq]
    exact Nat.pow_lt_pow_right (by omega) (by omega)
  have he : f.expField (f.quiet b) = f.expField b := by
    show (b ||| f.quietBit) / 2 ^ f.fracBits % 2 ^ f.expBits = b / 2 ^ f.fracBits % 2 ^ f.expBits
    rw [Nat.or_div_two_pow, Nat.div_eq_of_lt hq, Nat.or_zero]
  have hr : f.fracField (f.quiet b) ≠ 0 := by
    show (b ||| f.quietBit) % 2 ^ f.fracBits ≠ 0
    rw [Nat.or_mod_two_pow, Nat.mod_eq_of_lt hq, Nat.lor_comm]
    have : 0 < f.quietBit := by simp only [quietBit, Nat.pow_eq]; exact Nat.two_pow_pos _
    have := Nat.left_le_or (n := f.quietBit) (m := b % 2 ^ f.fracBits)
    omega
  simp only [isNaN, Bool.and_eq_true, beq_iff_eq, bne_iff_ne, ne_eq] at hn ⊢
  exact ⟨he.trans hn.1, hr⟩

theorem isNaN_add (hp : 0 < f.fracBits) (hn : (f.isNaN a || f.isNaN b) = true) :
    f.isNaN (f.add a b) = true := by
  unfold add propagateNaN
  by_cases ha : f.isNaN a = true
  · rw [if_pos ha]
    exact isNaN_quiet hp ha
  · have hb : f.isNaN b = true := by simpa [ha] using hn
    rw [if_neg ha, if_pos hb]
    exact isNaN_quiet hp hb

theorem quiet_lt (hb : b < 2 ^ f.width) : f.quiet b < 2 ^ f.width := by
  have hq : f.quietBit < 2 ^ f.width := by
    simp only [quietBit, Nat.pow_eq]
    exact Nat.pow_lt_pow_right (by omega) (by unfold width; omega)
  exact Nat.or_lt_two_pow hb hq

theorem add_lt_of_isNaN (ha : a < 2 ^ f.width) (hb : b < 2 ^ f.width)
    (hn : (f.isNaN a || f.isNaN b) = true) : f.add a b < 2 ^ f.width := by
  unfold add propagateNaN
  by_cases h : f.isNaN a = true
  · rw [if_pos h]
    exact quiet_lt ha
  · have h' : f.isNaN b = true := by simpa [h] using hn
    rw [if_neg h, if_pos h']
    exact quiet_lt hb

end OnePassJit.Ieee.Format
