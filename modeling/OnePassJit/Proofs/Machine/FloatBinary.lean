import OnePassJit.Proofs.Machine.Scalar

/-!
Float comparisons, `min`, `max` and `copysign`, as generated code runs them.

`FloatBinop.Answers f op a b r` is what WebAssembly asks of the operation `op` on patterns of
the format `f`, said with the values the patterns stand for: a comparison is 1 when its
operands are numbers whose values stand in its relation and 0 otherwise, but for `ne`,
which is the negation of `eq`; `min` and `max` are a NaN when an operand is one, and
otherwise the operand of the smaller or larger value, of two zeros the negative one for
`min` and the positive one for `max`; `copysign` is the magnitude of the first operand
under the sign of the second.

The lemmas below read `Answers` through `Format.compare`: each comparison is a test of
outcomes of `compare`, and `min`, `max` are met by the three ways the code computes them.
The generated code is shown to meet `Answers` by `Amd64.runs_floatBinop`.
-/

namespace OnePassJit

namespace FloatType

def numType : FloatType → NumType
  | .f32 => .f32
  | .f64 => .f64

def cmpType : FloatType → CmpType
  | .f32 => .f32
  | .f64 => .f64

end FloatType

/-- Float operations of two operands with a result of one slot. -/
inductive FloatBinop where
  | eq
  | ne
  | lt
  | gt
  | le
  | ge
  | min
  | max
  | copysign
  deriving DecidableEq, Repr

namespace FloatBinop

def toOperation (t : FloatType) : FloatBinop → Operation
  | .eq => .eq t.numType
  | .ne => .ne t.numType
  | .lt => .lt t.cmpType
  | .gt => .gt t.cmpType
  | .le => .le t.cmpType
  | .ge => .ge t.cmpType
  | .min => .min t
  | .max => .max t
  | .copysign => .copysign t

open Ieee

/-- What the operation `op` answers for the patterns `a` and `b` of the format `f`. -/
def Answers (f : Format) : FloatBinop → Nat → Nat → Nat → Prop
  | .eq, a, b, r =>
    r = if f.isNaN a = false ∧ f.isNaN b = false ∧ f.value a = f.value b then 1 else 0
  | .ne, a, b, r =>
    r = if f.isNaN a = false ∧ f.isNaN b = false ∧ f.value a = f.value b then 0 else 1
  | .lt, a, b, r =>
    r = if f.isNaN a = false ∧ f.isNaN b = false ∧ f.value a < f.value b then 1 else 0
  | .gt, a, b, r =>
    r = if f.isNaN a = false ∧ f.isNaN b = false ∧ f.value b < f.value a then 1 else 0
  | .le, a, b, r =>
    r = if f.isNaN a = false ∧ f.isNaN b = false ∧ f.value a ≤ f.value b then 1 else 0
  | .ge, a, b, r =>
    r = if f.isNaN a = false ∧ f.isNaN b = false ∧ f.value b ≤ f.value a then 1 else 0
  | .min, a, b, r =>
    if f.isNaN a || f.isNaN b then f.isNaN r = true
    else r = if f.value a < f.value b then a else if f.value b < f.value a then b
      else if f.sign a then a else b
  | .max, a, b, r =>
    if f.isNaN a || f.isNaN b then f.isNaN r = true
    else r = if f.value b < f.value a then a else if f.value a < f.value b then b
      else if f.sign a then b else a
  | .copysign, a, b, r => r = f.magnitude a + if f.sign b then f.signMask else 0

instance (f : Format) (op : FloatBinop) (a b r : Nat) : Decidable (op.Answers f a b r) :=
  match op with
  | .eq | .ne | .lt | .gt | .le | .ge | .copysign => inferInstanceAs (Decidable (r = _))
  | .min | .max =>
    inferInstanceAs (Decidable (if f.isNaN a || f.isNaN b then f.isNaN r = true else r = _))

/-- `min` of -0 and +0 is -0 in both orders, `max` is +0, and a NaN operand gives a NaN. -/
example : FloatBinop.min.Answers Format.single 0x80000000 0 0x80000000 ∧
    FloatBinop.min.Answers Format.single 0 0x80000000 0x80000000 ∧
    FloatBinop.max.Answers Format.single 0x80000000 0 0 ∧
    FloatBinop.max.Answers Format.single 0 0x80000000 0 ∧
    FloatBinop.min.Answers Format.single 0x7FC00000 0x3F800000 0x7FC00000 := by
  decide +kernel

/-! What `compare` tells of the operations. -/

section Compare

variable {f : Format} {a b : Nat}

theorem answers_eq (hf : 0 < f.infMag) :
    FloatBinop.eq.Answers f a b (if f.compare a b = .equal then 1 else 0) := by
  simp only [Answers, Format.compare_eq_equal_iff hf]

theorem answers_ne (hf : 0 < f.infMag) :
    FloatBinop.ne.Answers f a b (if f.compare a b = .equal then 0 else 1) := by
  simp only [Answers, Format.compare_eq_equal_iff hf]

theorem answers_lt (hf : 0 < f.infMag) :
    FloatBinop.lt.Answers f a b (if f.compare b a = .greater then 1 else 0) := by
  have h : f.compare b a = .greater ↔
      f.isNaN a = false ∧ f.isNaN b = false ∧ f.value a < f.value b :=
    (Format.compare_eq_greater_iff hf).trans and_left_comm
  simp only [Answers, h]

theorem answers_gt (hf : 0 < f.infMag) :
    FloatBinop.gt.Answers f a b (if f.compare a b = .greater then 1 else 0) := by
  simp only [Answers, Format.compare_eq_greater_iff hf]

theorem le_iff_compare (hf : 0 < f.infMag) :
    (f.compare b a = .greater ∨ f.compare b a = .equal) ↔
      f.isNaN a = false ∧ f.isNaN b = false ∧ f.value a ≤ f.value b := by
  rw [Format.compare_eq_greater_iff hf, Format.compare_eq_equal_iff hf, le_iff_lt_or_eq]
  constructor
  · rintro (⟨hb, ha, h⟩ | ⟨hb, ha, h⟩)
    · exact ⟨ha, hb, .inl h⟩
    · exact ⟨ha, hb, .inr h.symm⟩
  · rintro ⟨ha, hb, h | h⟩
    · exact .inl ⟨hb, ha, h⟩
    · exact .inr ⟨hb, ha, h.symm⟩

theorem answers_le (hf : 0 < f.infMag) :
    FloatBinop.le.Answers f a b
      (if f.compare b a = .greater ∨ f.compare b a = .equal then 1 else 0) := by
  simp only [Answers, le_iff_compare hf]

theorem answers_ge (hf : 0 < f.infMag) :
    FloatBinop.ge.Answers f a b
      (if f.compare a b = .greater ∨ f.compare a b = .equal then 1 else 0) := by
  simp only [Answers, (le_iff_compare hf).trans and_left_comm]

end Compare

/-! `min` and `max` as the code computes them: operands that are unordered go through `add`,
operands of one value through `or` or `and`, the others through `minss` or `maxss`. -/

section MinMax

variable {f : Format} {a b : Nat}

theorem answers_min (hf : 0 < f.infMag) (hp : 0 < f.fracBits) (ha : a < 2 ^ f.width)
    (hb : b < 2 ^ f.width) :
    FloatBinop.min.Answers f a b (if f.compare a b = .unordered then f.add a b
      else if f.compare a b = .equal then a ||| b else f.minimum a b) := by
  rw [Answers]
  by_cases hn : (f.isNaN a || f.isNaN b) = true
  · rw [if_pos hn, if_pos (Format.compare_eq_unordered_iff.mpr (by simpa using hn))]
    exact Format.isNaN_add hp hn
  obtain ⟨hna, hnb⟩ : f.isNaN a = false ∧ f.isNaN b = false := by simpa using hn
  rw [if_neg hn, if_neg (by rw [Format.compare_eq_unordered_iff]; simp [hna, hnb])]
  rcases lt_trichotomy (f.value a) (f.value b) with hlt | heq | hgt
  · have hc := (Format.compare_eq_less_iff hf).mpr ⟨hna, hnb, hlt⟩
    rw [hc, if_pos hlt, Format.minimum, hc]
    rfl
  · rw [if_pos ((Format.compare_eq_equal_iff hf).mpr ⟨hna, hnb, heq⟩), if_neg heq.not_lt,
      if_neg heq.symm.not_lt]
    rcases Format.eq_or_zeros_of_value_eq hf ha hb hna hnb heq with rfl | ⟨hza, hzb⟩
    · simp
    · exact Format.or_of_isZero ha hb hza hzb
  · have hc := (Format.compare_eq_greater_iff hf).mpr ⟨hna, hnb, hgt⟩
    rw [hc, if_neg (lt_asymm hgt), if_pos hgt, Format.minimum, hc]
    rfl

theorem answers_max (hf : 0 < f.infMag) (hp : 0 < f.fracBits) (ha : a < 2 ^ f.width)
    (hb : b < 2 ^ f.width) :
    FloatBinop.max.Answers f a b (if f.compare a b = .unordered then f.add a b
      else if f.compare a b = .equal then a &&& b else f.maximum a b) := by
  rw [Answers]
  by_cases hn : (f.isNaN a || f.isNaN b) = true
  · rw [if_pos hn, if_pos (Format.compare_eq_unordered_iff.mpr (by simpa using hn))]
    exact Format.isNaN_add hp hn
  obtain ⟨hna, hnb⟩ : f.isNaN a = false ∧ f.isNaN b = false := by simpa using hn
  rw [if_neg hn, if_neg (by rw [Format.compare_eq_unordered_iff]; simp [hna, hnb])]
  rcases lt_trichotomy (f.value a) (f.value b) with hlt | heq | hgt
  · have hc := (Format.compare_eq_less_iff hf).mpr ⟨hna, hnb, hlt⟩
    rw [hc, if_neg (lt_asymm hlt), if_pos hlt, Format.maximum, hc]
    rfl
  · rw [if_pos ((Format.compare_eq_equal_iff hf).mpr ⟨hna, hnb, heq⟩), if_neg heq.symm.not_lt,
      if_neg heq.not_lt]
    rcases Format.eq_or_zeros_of_value_eq hf ha hb hna hnb heq with rfl | ⟨hza, hzb⟩
    · simp
    · exact Format.and_of_isZero ha hb hza hzb
  · have hc := (Format.compare_eq_greater_iff hf).mpr ⟨hna, hnb, hgt⟩
    rw [hc, if_pos hgt, Format.maximum, hc]
    rfl

end MinMax

theorem answers_copysign (f : Format) (a b : Nat) :
    FloatBinop.copysign.Answers f a b (a % f.signMask ||| b &&& f.signMask) :=
  (Format.magnitude_add_sign a b).symm

end FloatBinop

end OnePassJit
