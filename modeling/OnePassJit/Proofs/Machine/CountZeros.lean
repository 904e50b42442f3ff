import Mathlib.Data.List.Find
import OnePassJit.Proofs.Machine.IntegerDivision

/-!
Counting leading and trailing zero bits, as generated code runs it.

`countLeadingZeros n v` and `countTrailingZeros n v` count the zero bits of the low `n` bits
of `v` from the top and from the bottom down to the first set bit: `n` when all of them are
zero. Below `2 ^ n` and away from zero, the first is `n - 1 - log2 v`
(`countLeadingZeros_eq_log2`), and the second is the first index of a set bit
(`countTrailingZeros_eq_find`).

The code counts with `lzcnt` or `tzcnt` where the processor has them, and otherwise with
`bsr` or `bsf`, which leave their destination as it was for zero: zero is tested apart and
answered with the width, and `bsr`'s index of the highest set bit is turned into the count
by an `xor` with the width less one. `runs_countZeros`: with either set of features, from
every allocation of the operand and of the values below it, both counts run to their end
with the values below kept and the count on top.
-/

namespace OnePassJit

/-! The counts. -/

def countLeadingZeros : Nat → Nat → Nat
  | 0, _ => 0
  | n + 1, v => if v.testBit n then 0 else countLeadingZeros n v + 1

def countTrailingZeros : Nat → Nat → Nat
  | 0, _ => 0
  | n + 1, v => if v.testBit 0 then 0 else countTrailingZeros n (v / 2) + 1

example : countLeadingZeros 32 1 = 31 ∧ countLeadingZeros 64 0 = 64 ∧
    countTrailingZeros 32 0x80000000 = 31 ∧ countTrailingZeros 8 12 = 2 := by
  decide

@[simp] theorem countLeadingZeros_zero (n : Nat) : countLeadingZeros n 0 = n := by
  induction n with
  | zero => rfl
  | succ n ih => simp [countLeadingZeros, ih]

@[simp] theorem countTrailingZeros_zero (n : Nat) : countTrailingZeros n 0 = n := by
  induction n with
  | zero => rfl
  | succ n ih => simp [countTrailingZeros, ih]

theorem lt_two_pow_of_testBit_false {v n : Nat} (hv : v < 2 ^ (n + 1))
    (hb : v.testBit n = false) : v < 2 ^ n := by
  refine Nat.lt_pow_two_of_testBit v fun i hi => ?_
  rcases Nat.eq_or_lt_of_le hi with rfl | hi
  · exact hb
  · exact Nat.testBit_lt_two_pow (lt_of_lt_of_le hv (Nat.pow_le_pow_right (by decide) hi))

/-- Away from zero the leading zeros stand above the highest set bit, `log2 v`. -/
theorem countLeadingZeros_eq_log2 {n v : Nat} (hv : v < 2 ^ n) (h0 : v ≠ 0) :
    countLeadingZeros n v = n - 1 - v.log2 := by
  induction n with
  | zero => omega
  | succ n ih =>
    unfold countLeadingZeros
    cases hb : v.testBit n with
    | true =>
      have hge : 2 ^ n ≤ v := by
        by_contra hlt
        rw [Nat.testBit_lt_two_pow (by omega)] at hb
        cases hb
      have hlog : v.log2 = n := (Nat.log2_eq_iff h0).mpr ⟨hge, hv⟩
      simp [hlog]
    | false =>
      have hlt := lt_two_pow_of_testBit_false hv hb
      have hlog := (Nat.log2_lt h0).mpr hlt
      rw [if_neg (by simp), ih hlt]
      omega

/-- The trailing zeros stand below the first set bit, or are all `n` bits. -/
theorem countTrailingZeros_eq_find (n v : Nat) :
    countTrailingZeros n v = ((List.range n).find? v.testBit).getD n := by
  induction n generalizing v with
  | zero => rfl
  | succ n ih =>
    have hshift : (v.testBit ∘ Nat.succ) = (v / 2).testBit := by
      funext i
      simp [Nat.testBit_div_two]
    rw [countTrailingZeros, List.range_succ_eq_map, List.find?_cons, ih, List.find?_map, hshift]
    cases v.testBit 0 with
    | true => rfl
    | false => cases List.find? (v / 2).testBit (List.range n) <;> rfl

theorem find?_testBit_isSome {n v : Nat} (hv : v < 2 ^ n) (h0 : v ≠ 0) :
    ((List.range n).find? v.testBit).isSome := by
  rw [List.find?_isSome]
  exact ⟨v.log2, List.mem_range.mpr ((Nat.log2_lt h0).mpr hv), Nat.testBit_log2 h0⟩

theorem countLeadingZeros_le (n v : Nat) : countLeadingZeros n v ≤ n := by
  induction n with
  | zero => rfl
  | succ n ih =>
    unfold countLeadingZeros
    split <;> omega

theorem countTrailingZeros_le (n v : Nat) : countTrailingZeros n v ≤ n := by
  induction n generalizing v with
  | zero => rfl
  | succ n ih =>
    unfold countTrailingZeros
    have := ih (v / 2)
    split <;> omega

namespace IntWidth

def slotType : IntWidth → SlotType
  | .i32 => .i32
  | .i64 => .i64

theorem slotType_ne (t : IntWidth) : t.slotType ≠ .v128lo ∧ t.slotType ≠ .v128hi := by
  cases t <;> decide

end IntWidth

namespace Amd64

open Lower ValueStack

/-! One bit instruction. -/

namespace Asm

theorem bitRR_eq {d s : Reg} (hd : d.IsGp) (hs : s.IsGp) (op : BitOp) (w : Width)
    (a : Assembler) : bitRR op w d s a = .ok ((), pushed a (.bitRR op w d.gpr s.gpr)) := by
  rw [bitRR, bind_ok (gp_eq hd _ _), bind_ok (gp_eq hs _ _)]
  rfl

end Asm

namespace Machine

variable {M : Machine} {next : UInt64}

theorem exec_bitRR (op : BitOp) (w : Width) (d s : Gpr) :
    M.exec (.bitRR op w d s) next =
      .ok (match (bitOp op w (M.gp s) M.cpu.flags).1 with
        | some r => ((M.goto next).setFlags (bitOp op w (M.gp s) M.cpu.flags).2).setGpW w d r
        | none => (M.goto next).setFlags (bitOp op w (M.gp s) M.cpu.flags).2) := rfl

end Machine

namespace Width

theorem bits_le (w : Width) : w.bits ≤ 64 := by
  cases w <;> decide

theorem bits_lt_size (w : Width) : w.bits < UInt64.size := by
  cases w <;> decide

end Width

/-! What the bit instructions give. -/

theorem toNat_highestBit (v : UInt64) : (highestBit v).toNat = v.toNat.log2 := by
  rw [highestBit, Nat.toUInt64_eq,
    UInt64.toNat_ofNat_of_lt' (lt_of_le_of_lt (Nat.log2_le_self _) v.toNat_lt)]

theorem testBit_word (m : UInt64) {i : Nat} (hi : i < 64) :
    ((m >>> i.toUInt64) &&& 1 == 1) = m.toNat.testBit i := by
  have hi' : i.toUInt64.toNat % 64 = i := by
    rw [Nat.toUInt64_eq, UInt64.toNat_ofNat_of_lt' (by simp [UInt64.size]; omega),
      Nat.mod_eq_of_lt hi]
  rw [Nat.testBit_eq_decide_div_mod_eq, Bool.eq_iff_iff, beq_iff_eq, decide_eq_true_iff,
    ← UInt64.toNat_inj, UInt64.toNat_and, UInt64.toNat_shiftRight, hi',
    Nat.shiftRight_eq_div_pow]
  simp

theorem toNat_trailingZeros (w : Width) (v : UInt64) :
    (trailingZeros w v).toNat = countTrailingZeros w.bits (v.toNat % 2 ^ w.bits) := by
  have hm := toNat_and_mask w v
  have hlt : v.toNat % 2 ^ w.bits < 2 ^ w.bits := Nat.mod_lt _ (Nat.two_pow_pos _)
  unfold trailingZeros
  simp only
  split
  · rename_i h0
    rw [beq_iff_eq, ← UInt64.toNat_inj, hm, UInt64.toNat_zero] at h0
    rw [h0, countTrailingZeros_zero, Nat.toUInt64_eq, UInt64.toNat_ofNat_of_lt' w.bits_lt_size]
  · rename_i h0
    rw [beq_iff_eq, ← UInt64.toNat_inj, hm, UInt64.toNat_zero] at h0
    have hfind : (List.range w.bits).find? (fun i => ((v &&& w.mask) >>> i.toUInt64) &&& 1 == 1) =
        (List.range w.bits).find? (v.toNat % 2 ^ w.bits).testBit := by
      refine List.find?_congr fun i hi => ?_
      rw [testBit_word _ (lt_of_lt_of_le (List.mem_range.mp hi) w.bits_le), hm]
    rw [hfind, countTrailingZeros_eq_find]
    obtain ⟨j, hj⟩ := Option.isSome_iff_exists.mp (find?_testBit_isSome hlt h0)
    have hj' : j < w.bits := List.mem_range.mp (List.mem_of_find?_eq_some hj)
    rw [hj, Option.getD_some, Option.getD_some, Nat.toUInt64_eq,
      UInt64.toNat_ofNat_of_lt' (lt_trans hj' w.bits_lt_size)]

theorem and_mask_beq_zero (w : Width) (v : UInt64) :
    (v &&& w.mask == 0) = decide (v.toNat % 2 ^ w.bits = 0) := by
  rw [Bool.eq_iff_iff, beq_iff_eq, decide_eq_true_iff, ← UInt64.toNat_inj, toNat_and_mask,
    UInt64.toNat_zero]

theorem bitOp_lzcnt (w : Width) (v : UInt64) (f : Flags) :
    (bitOp .lzcnt w v f).1 = some (countLeadingZeros w.bits (v.toNat % 2 ^ w.bits)).toUInt64 := by
  have hlt : v.toNat % 2 ^ w.bits < 2 ^ w.bits := Nat.mod_lt _ (Nat.two_pow_pos _)
  simp only [bitOp, and_mask_beq_zero, Option.some.injEq]
  split
  · rename_i h0
    rw [of_decide_eq_true h0, countLeadingZeros_zero]
  · rename_i h0
    have h0 : v.toNat % 2 ^ w.bits ≠ 0 := of_decide_eq_false (by simpa using h0)
    have hlog := (Nat.log2_lt h0).mpr hlt
    have hb := w.bits_lt_size
    have hbits : (w.bits.toUInt64).toNat = w.bits := by
      rw [Nat.toUInt64_eq, UInt64.toNat_ofNat_of_lt' hb]
    have h₁ : 1 ≤ w.bits.toUInt64 := by
      rw [UInt64.le_iff_toNat_le, hbits, UInt64.toNat_one]
      omega
    have h₂ : highestBit (v &&& w.mask) ≤ w.bits.toUInt64 - 1 := by
      rw [UInt64.le_iff_toNat_le, UInt64.toNat_sub_of_le _ _ h₁, hbits, toNat_highestBit,
        toNat_and_mask, UInt64.toNat_one]
      omega
    apply UInt64.toNat_inj.mp
    rw [countLeadingZeros_eq_log2 hlt h0, Nat.toUInt64_eq, UInt64.toNat_ofNat_of_lt' (by omega),
      UInt64.toNat_sub_of_le _ _ h₂, UInt64.toNat_sub_of_le _ _ h₁, hbits, toNat_highestBit,
      toNat_and_mask, UInt64.toNat_one]

theorem bitOp_tzcnt (w : Width) (v : UInt64) (f : Flags) :
    (bitOp .tzcnt w v f).1 = some (countTrailingZeros w.bits (v.toNat % 2 ^ w.bits)).toUInt64 := by
  have hlt : countTrailingZeros w.bits (v.toNat % 2 ^ w.bits) < UInt64.size := by
    rw [← toNat_trailingZeros]
    exact UInt64.toNat_lt _
  simp only [bitOp, Option.some.injEq]
  apply UInt64.toNat_inj.mp
  rw [Nat.toUInt64_eq, UInt64.toNat_ofNat_of_lt' hlt, toNat_trailingZeros, toNat_and_mask,
    Nat.mod_mod]

theorem bitOp_bsr (w : Width) (v : UInt64) (f : Flags) :
    (bitOp .bsr w v f).1 =
      if v.toNat % 2 ^ w.bits = 0 then none else some (v.toNat % 2 ^ w.bits).log2.toUInt64 := by
  by_cases h0 : v.toNat % 2 ^ w.bits = 0
  · simp [bitOp, and_mask_beq_zero, h0]
  · simp only [bitOp, and_mask_beq_zero, h0, decide_false, Bool.false_eq_true, if_false,
      Option.some.injEq]
    apply UInt64.toNat_inj.mp
    rw [toNat_highestBit, toNat_and_mask, Nat.toUInt64_eq, UInt64.toNat_ofNat_of_lt'
      (lt_of_le_of_lt (Nat.log2_le_self _) (lt_of_le_of_lt (Nat.mod_le _ _) (UInt64.toNat_lt v)))]

theorem bitOp_bsf (w : Width) (v : UInt64) (f : Flags) :
    (bitOp .bsf w v f).1 = if v.toNat % 2 ^ w.bits = 0 then none
      else some (countTrailingZeros w.bits (v.toNat % 2 ^ w.bits)).toUInt64 := by
  have hlt : countTrailingZeros w.bits (v.toNat % 2 ^ w.bits) < UInt64.size := by
    rw [← toNat_trailingZeros]
    exact UInt64.toNat_lt _
  by_cases h0 : v.toNat % 2 ^ w.bits = 0
  · simp [bitOp, and_mask_beq_zero, h0]
  · simp only [bitOp, and_mask_beq_zero, h0, decide_false, Bool.false_eq_true, if_false,
      Option.some.injEq]
    apply UInt64.toNat_inj.mp
    rw [Nat.toUInt64_eq, UInt64.toNat_ofNat_of_lt' hlt, toNat_trailingZeros, toNat_and_mask,
      Nat.mod_mod]

theorem bits_width (t : IntWidth) : (Width.of t.is32).bits = bits t := by
  cases t <;> rfl

theorem bits_le (t : IntWidth) : bits t ≤ 64 := by
  cases t <;> decide

theorem InReg.of_intWidth {t : IntWidth} {r : Reg} {v : UInt64} (h : InReg M t.slotType r v) :
    r ∈ gpPool ∧ M.gp r.gpr = v ∧ v.toNat < 2 ^ bits t := by
  cases t with
  | i32 => exact h
  | i64 => exact ⟨h.1, h.2, v.toNat_lt⟩

theorem widen_small (w : Width) {k : Nat} (hk : k < 2 ^ 32) : Machine.widen w k.toUInt64 = k.toUInt64 := by
  have hlt : k.toUInt64.toNat = k := by
    rw [Nat.toUInt64_eq, UInt64.toNat_ofNat_of_lt' (by simp [UInt64.size]; omega)]
  cases w with
  | w32 =>
    show k.toUInt64 &&& low32 = k.toUInt64
    rw [← UInt64.toNat_inj, toNat_and_low32, hlt]
    exact Nat.mod_eq_of_lt hk
  | w64 => rfl

theorem countLeadingZeros_bits_lt (t : IntWidth) (v : Nat) :
    countLeadingZeros (bits t) v < 2 ^ 32 :=
  lt_of_le_of_lt (le_trans (countLeadingZeros_le _ _) (bits_le t)) (by decide)

theorem countTrailingZeros_bits_lt (t : IntWidth) (v : Nat) :
    countTrailingZeros (bits t) v < 2 ^ 32 :=
  lt_of_le_of_lt (le_trans (countTrailingZeros_le _ _) (bits_le t)) (by decide)

theorem inReg_small {t : IntWidth} {r : Reg} (hr : r ∈ gpPool) {k : Nat} (hk : k < 2 ^ 32)
    (h : M.gp r.gpr = k.toUInt64) : InReg M t.slotType r k.toUInt64 := by
  cases t with
  | i32 =>
    refine ⟨hr, h, ?_⟩
    rw [Nat.toUInt64_eq, UInt64.toNat_ofNat_of_lt' (by simp [UInt64.size]; omega)]
    exact hk
  | i64 => exact ⟨hr, h⟩

theorem xor_highestBit (t : IntWidth) : ∀ a < bits t,
    (Machine.widen (Width.of t.is32) a.toUInt64 ^^^ UInt64.ofInt ((bits t : Int) - 1)) &&&
      (Width.of t.is32).mask = (bits t - 1 - a).toUInt64 := by
  cases t <;> decide

theorem AsmGrows.bitRR (op : BitOp) (w : Width) (d s : Reg) : AsmGrows (Asm.bitRR op w d s) :=
  .bind (.gp _ _) fun _ => .bind (.gp _ _) fun _ => .add _

/-! Running a count. -/

/-- While a count runs: `M₀` held the values `vs` of the stack `s` below the operand, which
sits in `r`, and `M` differs from `M₀` in the flags and `r` only. -/
structure Counting (M₀ M : Machine) (fb cap : Nat) (s : ValueStack) (vs : List UInt64) (r : Reg) :
    Prop where
  rep : Rep M₀ fb cap s vs
  fit : Fit {r} s
  noFlags : s.NoFlags
  room : vs.length < cap
  pool : r ∈ gpPool
  steady : Steady M₀ M fb {r}

namespace Counting

variable {M₀ M M' : Machine} {fb cap : Nat} {s : ValueStack} {vs : List UInt64} {r : Reg}

theorem step {W : Finset Reg} (h : Counting M₀ M fb cap s vs r) (hs : Steady M M' fb W)
    (hW : W ⊆ {r}) : Counting M₀ M' fb cap s vs r :=
  { h with steady := (h.steady.step hs hW).mono (by simp) }

theorem goto (h : Counting M₀ M fb cap s vs r) (a : UInt64) : Counting M₀ (M.goto a) fb cap s vs r :=
  h.step (Steady.goto a) (Finset.empty_subset _)

theorem rep_of_steady (h : Counting M₀ M fb cap s vs r) (hs : Steady M₀ M' fb {r}) :
    Rep M' fb cap s vs :=
  h.rep.of_steady h.fit.1 h.noFlags hs (by simpa using writable_of_mem_gpPool h.pool)
    (by simpa using h.fit.1.temp_free r (by simp))

theorem env (h : Counting M₀ M fb cap s vs r) : Env M fb cap :=
  (h.rep_of_steady h.steady).env

theorem isGp (h : Counting M₀ M fb cap s vs r) : r.IsGp :=
  isGp_of_mem_gpPool h.pool

end Counting

section Run

variable {K : Code} {X : Machine → Prop} {c : Compiler} {M : Machine} {fb cap : Nat}
  {vs : List UInt64}

theorem runs_bitRR (henv : Env M fb cap) {r : Reg} (hr : r.IsGp) (op : BitOp) (w : Width)
    {Q : Unit → Compiler → Machine → Prop}
    (hQ : ∀ M', Steady M M' fb {r} →
      M'.gp r.gpr = ((bitOp op w (M.gp r.gpr) M.cpu.flags).1.map (Machine.widen w)).getD
        (M.gp r.gpr) →
      Q () { c with asm := Asm.pushed c.asm (.bitRR op w r.gpr r.gpr) } M') :
    Runs K X (asm (Asm.bitRR op w r r)) Q c M := by
  cases hb : (bitOp op w (M.gp r.gpr) M.cpu.flags).1 with
  | none =>
    have hex : M.exec (.bitRR op w r.gpr r.gpr) (K.addr (c.asm.instrs.size + 1)) =
        .ok ((M.goto (K.addr (c.asm.instrs.size + 1))).setFlags
          (bitOp op w (M.gp r.gpr) M.cpu.flags).2) := by
      rw [Machine.exec_bitRR, hb]
    exact Runs.step (Asm.bitRR_eq hr hr op w _) hex rfl
      (hQ _ ((Steady.goto_setFlags _ _).mono (Finset.empty_subset _)) (by rw [hb]; rfl))
  | some x =>
    have hM : ((M.goto (K.addr (c.asm.instrs.size + 1))).setFlags
        (bitOp op w (M.gp r.gpr) M.cpu.flags).2).cpu.gpr.size = 16 := henv.gpr_size
    have hex : M.exec (.bitRR op w r.gpr r.gpr) (K.addr (c.asm.instrs.size + 1)) =
        .ok (((M.goto (K.addr (c.asm.instrs.size + 1))).setFlags
          (bitOp op w (M.gp r.gpr) M.cpu.flags).2).setGpW w r.gpr x) := by
      rw [Machine.exec_bitRR, hb]
    refine Runs.step (Asm.bitRR_eq hr hr op w _) hex rfl
      (hQ _ ((Steady.goto_setFlags _ _).trans (Steady.of_keeps (Keeps.setGpW hM hr _ _))) ?_)
    rw [Machine.gp_setGpW hM, if_pos rfl, hb]
    rfl

theorem runs_movRI32 (henv : Env M fb cap) {r : Reg} (hr : r.IsGp) (imm : UInt32)
    {Q : Unit → Compiler → Machine → Prop}
    (hQ : ∀ M', Steady M M' fb {r} → M'.gp r.gpr = Machine.widen .w32 imm.toUInt64 →
      Q () { c with asm := Asm.pushed c.asm (.movRI32 r.gpr imm) } M') :
    Runs K X (asm (Asm.movRI32 r imm)) Q c M :=
  Runs.step (Asm.movRI32_eq hr imm _) (Machine.exec_movRI32 _ _) rfl
    (hQ _ (Steady.goto_setGpW henv.gpr_size hr _ _ _)
      (by rw [Machine.gp_setGpW (by exact henv.gpr_size), if_pos rfl]))

theorem runs_aluRI (henv : Env M fb cap) {r : Reg} (hr : r.IsGp) (op : AluOp) (hop : op ≠ .cmp)
    (w : Width) (imm : Int) {Q : Unit → Compiler → Machine → Prop}
    (hQ : ∀ M', Steady M M' fb {r} →
      M'.gp r.gpr = Machine.widen w (alu op w (M.gp r.gpr) (UInt64.ofInt imm) M.cpu.flags).1 →
      Q () { c with asm := Asm.pushed c.asm (.aluRI op w r.gpr imm) } M') :
    Runs K X (asm (Asm.aluRI op w r imm)) Q c M := by
  have hM : ((M.goto (K.addr (c.asm.instrs.size + 1))).setFlags
      (alu op w (M.gp r.gpr) (UInt64.ofInt imm) M.cpu.flags).2).cpu.gpr.size = 16 :=
    henv.gpr_size
  have hex : M.exec (.aluRI op w r.gpr imm) (K.addr (c.asm.instrs.size + 1)) =
      .ok (((M.goto (K.addr (c.asm.instrs.size + 1))).setFlags
        (alu op w (M.gp r.gpr) (UInt64.ofInt imm) M.cpu.flags).2).setGpW w r.gpr
          (alu op w (M.gp r.gpr) (UInt64.ofInt imm) M.cpu.flags).1) := by
    rw [Machine.exec_aluRI, if_neg (by simpa using hop)]
  refine Runs.step (Asm.aluRI_eq hr op w imm _) hex rfl
    (hQ _ ((Steady.goto_setFlags _ _).trans (Steady.of_keeps (Keeps.setGpW hM hr _ _))) ?_)
  rw [Machine.gp_setGpW hM, if_pos rfl]

theorem runs_countEnd {M₀ : Machine} {s : ValueStack} {r : Reg} {ty : SlotType} {n : UInt64}
    (hC : Counting M₀ M fb cap s vs r) (hc : c.stack = s) (hty : ty ≠ .v128lo ∧ ty ≠ .v128hi)
    (hn : InReg M ty r n) :
    Runs K X (pushRegister r ty) (fun _ c' M' => Rep M' fb cap c'.stack (vs ++ [n])) c M := by
  have hR := hC.rep_of_steady hC.steady
  rw [← hc] at hR
  have hsp : c.stack.sp + (if ty = .v128lo then 2 else 1) ≤ cap := by
    rw [if_neg hty.1, ← hR.length_eq]
    exact hC.room
  refine runs_pushRegister hR (hc ▸ hC.fit) (Finset.mem_singleton_self r) hty.2 hn
    (fun h => (absurd h hty.1 : InReg M .v128hi r 0)) hsp fun c' _ hR' => ?_
  rwa [if_neg hty.1] at hR'

theorem runs_countJoin {M₀ : Machine} {s : ValueStack} {r : Reg} {ty : SlotType} {n : UInt64}
    {done : Nat} (hC : Counting M₀ M fb cap s vs r) (hc : c.stack = s)
    (hty : ty ≠ .v128lo ∧ ty ≠ .v128hi) (hn : InReg M ty r n) :
    Runs K X (asm (Asm.bind done) >>= fun _ => pushRegister r ty)
      (fun _ c' M' => Rep M' fb cap c'.stack (vs ++ [n])) c M :=
  Runs.bind (Runs.bindLabel fun a _ _ =>
    runs_countEnd (c := { c with asm := a }) (hC.step (Steady.goto _) (Finset.empty_subset _)) hc hty
      (hn.of_steady (Steady.goto _ : Steady M _ fb ∅) (Finset.notMem_empty _)))
    fun _ => (silent_pushRegister r ty).grows

theorem skip_countJoin {M₀ : Machine} {s : ValueStack} {r : Reg} {ty : SlotType} {n : UInt64}
    {done : Nat} (hC : Counting M₀ M fb cap s vs r) (hc : c.stack = s)
    (hty : ty ≠ .v128lo ∧ ty ≠ .v128hi) (hn : InReg M ty r n) :
    Skip K X done (asm (Asm.bind done) >>= fun _ => pushRegister r ty)
      (fun _ c' M' => Rep M' fb cap c'.stack (vs ++ [n])) c M :=
  Skip.bindLabel (fun _ => (silent_pushRegister r ty).grows) fun a _ =>
    runs_countEnd (c := { c with asm := a }) hC hc hty hn

end Run

section Count

variable {K : Code} {X : Machine → Prop} {c : Compiler} {M : Machine} {fb cap : Nat}
  {vs : List UInt64} {t : IntWidth} {v : UInt64} {β : Type}

theorem runs_countOperand (h : Rep M fb cap c.stack (vs ++ [v])) (hfit : Fit ∅ c.stack)
    (hty : ∀ ⦃i l⦄, c.stack.slots[i]? = some l → vs.length ≤ i → l.type = t.slotType)
    (hnf : ∀ ⦃i l⦄, c.stack.slots[i]? = some l → i < vs.length → l.flag = none)
    {k : Location → LowerM β} {Q : β → Compiler → Machine → Prop} (hg : ∀ x, Grows (k x))
    (hk : ∀ x r c' M', x.reg = some r → x.type = t.slotType →
      Counting M' M' fb cap c'.stack vs r → M'.gp r.gpr = v → v.toNat < 2 ^ bits t →
      Runs K X (k x) Q c' M') :
    Runs K X (popToRegister >>= k) Q c M := by
  have hroom : vs.length < cap := by
    have := h.sp_le
    rw [← h.length_eq] at this
    simp only [List.length_append, List.length_cons, List.length_nil] at this
    omega
  refine Runs.bind (runs_popToRegister (IntWidth.slotType_ne t) h hfit (by simp) hty
    fun x r c₁ M₁ hx htx _ hfit₁ hR₁ hv₁ _ hmv => ?_) hg
  obtain ⟨hpool, hgp₁, hlt⟩ := InReg.of_intWidth hv₁
  exact hk x r c₁ M₁ hx htx ⟨hR₁, hfit₁, hmv.noFlags_of_below hnf, hroom, hpool,
    (Keeps.refl M₁ fb).mono (Finset.empty_subset _) le_rfl⟩ hgp₁ hlt

theorem runs_zeroTest {M₀ : Machine} {s : ValueStack} {r : Reg} {nonZero done : Nat}
    {rest : Unit → LowerM β} {Q : β → Compiler → Machine → Prop}
    (hC : Counting M₀ M fb cap s vs r) (hc : c.stack = s) (hv : M.gp r.gpr = v)
    (hlt : v.toNat < 2 ^ bits t) (hg : ∀ x, Grows (rest x))
    (hzero : v.toNat = 0 → ∀ c' M', Counting M₀ M' fb cap s vs r → c'.stack = s →
      M'.gp r.gpr = (bits t).toUInt64 → Skip K X done (rest ()) Q c' M')
    (hnz : v.toNat ≠ 0 → ∀ c' M', Counting M₀ M' fb cap s vs r → c'.stack = s →
      M'.gp r.gpr = v → Skip K X nonZero
        (asm (Asm.movRI32 r (bits t).toUInt32) >>= fun _ => asm (Asm.jmp done) >>= rest) Q c' M') :
    Runs K X (asm (Asm.testRR (Width.of t.is32) r r) >>= fun _ => asm (Asm.jcc .ne nonZero) >>=
      fun _ => asm (Asm.movRI32 r (bits t).toUInt32) >>= fun _ => asm (Asm.jmp done) >>= rest)
      Q c M := by
  have gmov : ∀ _ : Unit, Grows (asm (Asm.movRI32 r (bits t).toUInt32) >>= fun _ =>
      asm (Asm.jmp done) >>= rest) := fun _ => .bind (.asm' (.movRI32 _ _)) fun _ =>
    .bind (.asm' (.add _)) hg
  refine Runs.bind (runs_testSelf hC.isGp _ fun M₂ (hs₂ : Steady _ M₂ fb ∅) hz₂ => ?_)
    fun _ => .bind (.asm' (.add _)) gmov
  have hC₂ := hC.step hs₂ (Finset.empty_subset _)
  have hv₂ : M₂.gp r.gpr = v := (hs₂.gp r.gpr (by simp)).trans hv
  have hz : M₂.cpu.flags.zf = true ↔ v.toNat = 0 := by
    rw [hz₂, hv, bits_width, Nat.mod_eq_of_lt hlt]
  refine Runs.jcc gmov (fun htaken => ?_) fun hfall => ?_
  · exact hnz (fun h0 => by simp [Cond.holds, hz.mpr h0] at htaken) _ _ (hC₂.goto _) hc hv₂
  · -- zero: `r` takes the width, and the code jumps to `done`
    refine Runs.bind (runs_movRI32 (hC₂.goto _).env hC.isGp _ fun M₃ hs₃ hv₃ => ?_) fun _ =>
      .bind (.asm' (.add _)) hg
    refine Runs.jmp hg (hzero (hz.mp (by simpa [Cond.holds] using hfall)) _ _
      (((hC₂.goto _).step hs₃ subset_rfl).goto _) hc ?_)
    show M₃.gp r.gpr = _
    rw [hv₃]
    cases t <;> rfl

theorem grows_clzScan (t : IntWidth) (r : Reg) (ty : SlotType) (nonZero done : Nat) :
    Grows (do
      asm (Asm.bind nonZero)
      asm (Asm.bitRR .bsr (Width.of t.is32) r r)
      asm (Asm.aluRI .xor (Width.of t.is32) r (↑(bits t) - 1))
      asm (Asm.bind done)
      pushRegister r ty) :=
  .bind (.asm' (.bindLabel _)) fun _ => .bind (.asm' (.bitRR _ _ _ _)) fun _ =>
    .bind (.asm' (.aluRI _ _ _ _)) fun _ => .bind (.asm' (.bindLabel _)) fun _ =>
      (silent_pushRegister _ _).grows

theorem grows_clzBody (t : IntWidth) (x : Location) : Grows (do
    let r ← regOf x
    let w := Width.of t.is32
    if (← get).features.lzcnt then
      asm (Asm.bitRR .lzcnt w r r)
    else
      let nonZero ← asm Asm.createLabel
      let done ← asm Asm.createLabel
      asm (Asm.testRR w r r)
      asm (Asm.jcc .ne nonZero)
      asm (Asm.movRI32 r (bits t).toUInt32)
      asm (Asm.jmp done)
      asm (Asm.bind nonZero)
      asm (Asm.bitRR .bsr w r r)
      asm (Asm.aluRI .xor w r (bits t - 1))
      asm (Asm.bind done)
    pushRegister r x.type) :=
  .bind (silent_regOf x).grows fun r => .bind .get' fun _ =>
    .ite' (.bind (.asm' (.bitRR _ _ _ _)) fun _ => (silent_pushRegister _ _).grows)
      (.bind Silent.createLabel.grows fun _ => .bind Silent.createLabel.grows fun _ =>
        .bind (.asm' (.testRR _ _ _)) fun _ => .bind (.asm' (.add _)) fun _ =>
          .bind (.asm' (.movRI32 _ _)) fun _ => .bind (.asm' (.add _)) fun _ =>
            grows_clzScan t r _ _ _)

theorem runs_clz (h : Rep M fb cap c.stack (vs ++ [v])) (hfit : Fit ∅ c.stack)
    (hty : ∀ ⦃i l⦄, c.stack.slots[i]? = some l → vs.length ≤ i → l.type = t.slotType)
    (hnf : ∀ ⦃i l⦄, c.stack.slots[i]? = some l → i < vs.length → l.flag = none) :
    Runs K X (Lower.clz t) (fun _ c' M' =>
      Rep M' fb cap c'.stack (vs ++ [(countLeadingZeros (bits t) v.toNat).toUInt64])) c M := by
  unfold Lower.clz
  refine runs_countOperand h hfit hty hnf (grows_clzBody t) fun x r c₁ M₁ hx htx hC hgp₁ hlt => ?_
  rw [regOf_of_reg hx, pure_bind]
  have hmod : v.toNat % 2 ^ (Width.of t.is32).bits = v.toNat := by
    rw [bits_width]
    exact Nat.mod_eq_of_lt hlt
  have hxty := htx ▸ IntWidth.slotType_ne t
  have hcount := countLeadingZeros_bits_lt t v.toNat
  refine Runs.bind (Runs.get' (Runs.ite' (fun _ => ?_) fun _ => ?_)) fun _ => ?_
  · -- `lzcnt`
    refine Runs.bind (runs_bitRR hC.env hC.isGp .lzcnt _ fun M₂ hs₂ hv₂ => ?_) fun _ =>
      (silent_pushRegister _ _).grows
    refine runs_countEnd (hC.step hs₂ subset_rfl) rfl hxty (htx ▸ inReg_small hC.pool hcount ?_)
    rw [hv₂, bitOp_lzcnt, hgp₁, hmod, bits_width, Option.map_some, Option.getD_some,
      widen_small _ hcount]
  · -- `bsr`, with zero apart
    refine Runs.bind (Runs.silent Silent.createLabel fun _ c₂ h₂ => ?_) fun _ => ?_
    · cases h₂
      refine Runs.bind (Runs.silent Silent.createLabel fun _ c₃ h₃ => ?_) fun _ => ?_
      · cases h₃
        refine runs_zeroTest hC rfl hgp₁ hlt (fun _ => grows_clzScan t r _ _ _)
          (fun hv0 c' M' hC' hc' hv' => ?_) fun hv0 c' M' hC' hc' hv' => ?_
        · -- zero: the width is the count
          refine Skip.pass fun _ c₄ h₄ => Skip.pass fun _ c₅ h₅ => Skip.pass fun _ c₆ h₆ =>
            skip_countJoin hC' ?_ hxty (htx ▸ inReg_small hC.pool hcount ?_)
          · rw [Quiet.stack_eq (Quiet.asm' _) h₆, Quiet.stack_eq (Quiet.asm' _) h₅,
              Quiet.stack_eq (Quiet.asm' _) h₄]
            exact hc'
          · rw [hv', hv0, countLeadingZeros_zero]
        · -- not zero: `bsr` gives the highest set bit, and `xor` the zeros above it
          have hlog : v.toNat.log2 < bits t := (Nat.log2_lt hv0).mpr hlt
          refine Skip.pass fun _ c₄ h₄ => Skip.pass fun _ c₅ h₅ =>
            Skip.bindLabel (fun _ => ?_) fun a _ => ?_
          · exact .bind (.asm' (.bitRR _ _ _ _)) fun _ => .bind (.asm' (.aluRI _ _ _ _)) fun _ =>
              .bind (.asm' (.bindLabel _)) fun _ => (silent_pushRegister _ _).grows
          refine Runs.bind (runs_bitRR hC'.env hC.isGp .bsr _ fun M₃ hs₃ hv₃ => ?_) fun _ =>
            .bind (.asm' (.aluRI _ _ _ _)) fun _ => .bind (.asm' (.bindLabel _)) fun _ =>
              (silent_pushRegister _ _).grows
          have hC₃ := hC'.step hs₃ subset_rfl
          refine Runs.bind (runs_aluRI hC₃.env hC.isGp .xor (by decide) _ _
            fun M₄ hs₄ hv₄ => ?_) fun _ => .bind (.asm' (.bindLabel _)) fun _ =>
              (silent_pushRegister _ _).grows
          refine runs_countJoin (hC₃.step hs₄ subset_rfl) ?_ hxty
            (htx ▸ inReg_small hC.pool hcount ?_)
          · rw [show ({ c₅ with asm := a } : Compiler).stack = c₅.stack from rfl,
              Quiet.stack_eq (Quiet.asm' _) h₅, Quiet.stack_eq (Quiet.asm' _) h₄]
            exact hc'
          · rw [hv₄, hv₃]
            change Machine.widen _ ((((bitOp .bsr _ (M'.gp r.gpr) _).1.map _).getD _ ^^^ _)
              &&& _) = _
            rw [hv', bitOp_bsr, hmod, if_neg hv0, Option.map_some, Option.getD_some,
              xor_highestBit t _ hlog, countLeadingZeros_eq_log2 hlt hv0,
              widen_small _ (by have := bits_le t; omega)]
      · exact .bind (.asm' (.testRR _ _ _)) fun _ => .bind (.asm' (.add _)) fun _ =>
          .bind (.asm' (.movRI32 _ _)) fun _ => .bind (.asm' (.add _)) fun _ =>
            grows_clzScan t r _ _ _
    · exact .bind Silent.createLabel.grows fun _ => .bind (.asm' (.testRR _ _ _)) fun _ =>
        .bind (.asm' (.add _)) fun _ => .bind (.asm' (.movRI32 _ _)) fun _ =>
          .bind (.asm' (.add _)) fun _ => grows_clzScan t r _ _ _
  · exact .ite' (.bind (.asm' (.bitRR _ _ _ _)) fun _ => (silent_pushRegister _ _).grows)
      (.bind Silent.createLabel.grows fun _ => .bind Silent.createLabel.grows fun _ =>
        .bind (.asm' (.testRR _ _ _)) fun _ => .bind (.asm' (.add _)) fun _ =>
          .bind (.asm' (.movRI32 _ _)) fun _ => .bind (.asm' (.add _)) fun _ =>
            grows_clzScan t r _ _ _)

theorem grows_ctzScan (t : IntWidth) (r : Reg) (ty : SlotType) (nonZero done : Nat) :
    Grows (do
      asm (Asm.bind nonZero)
      asm (Asm.bitRR .bsf (Width.of t.is32) r r)
      asm (Asm.bind done)
      pushRegister r ty) :=
  .bind (.asm' (.bindLabel _)) fun _ => .bind (.asm' (.bitRR _ _ _ _)) fun _ =>
    .bind (.asm' (.bindLabel _)) fun _ => (silent_pushRegister _ _).grows

theorem grows_ctzBody (t : IntWidth) (x : Location) : Grows (do
    let r ← regOf x
    let w := Width.of t.is32
    if (← get).features.tzcnt then
      asm (Asm.bitRR .tzcnt w r r)
    else
      let nonZero ← asm Asm.createLabel
      let done ← asm Asm.createLabel
      asm (Asm.testRR w r r)
      asm (Asm.jcc .ne nonZero)
      asm (Asm.movRI32 r (bits t).toUInt32)
      asm (Asm.jmp done)
      asm (Asm.bind nonZero)
      asm (Asm.bitRR .bsf w r r)
      asm (Asm.bind done)
    pushRegister r x.type) :=
  .bind (silent_regOf x).grows fun r => .bind .get' fun _ =>
    .ite' (.bind (.asm' (.bitRR _ _ _ _)) fun _ => (silent_pushRegister _ _).grows)
      (.bind Silent.createLabel.grows fun _ => .bind Silent.createLabel.grows fun _ =>
        .bind (.asm' (.testRR _ _ _)) fun _ => .bind (.asm' (.add _)) fun _ =>
          .bind (.asm' (.movRI32 _ _)) fun _ => .bind (.asm' (.add _)) fun _ =>
            grows_ctzScan t r _ _ _)

theorem runs_ctz (h : Rep M fb cap c.stack (vs ++ [v])) (hfit : Fit ∅ c.stack)
    (hty : ∀ ⦃i l⦄, c.stack.slots[i]? = some l → vs.length ≤ i → l.type = t.slotType)
    (hnf : ∀ ⦃i l⦄, c.stack.slots[i]? = some l → i < vs.length → l.flag = none) :
    Runs K X (Lower.ctz t) (fun _ c' M' =>
      Rep M' fb cap c'.stack (vs ++ [(countTrailingZeros (bits t) v.toNat).toUInt64])) c M := by
  unfold Lower.ctz
  refine runs_countOperand h hfit hty hnf (grows_ctzBody t) fun x r c₁ M₁ hx htx hC hgp₁ hlt => ?_
  rw [regOf_of_reg hx, pure_bind]
  have hmod : v.toNat % 2 ^ (Width.of t.is32).bits = v.toNat := by
    rw [bits_width]
    exact Nat.mod_eq_of_lt hlt
  have hxty := htx ▸ IntWidth.slotType_ne t
  have hcount := countTrailingZeros_bits_lt t v.toNat
  refine Runs.bind (Runs.get' (Runs.ite' (fun _ => ?_) fun _ => ?_)) fun _ => ?_
  · -- `tzcnt`
    refine Runs.bind (runs_bitRR hC.env hC.isGp .tzcnt _ fun M₂ hs₂ hv₂ => ?_) fun _ =>
      (silent_pushRegister _ _).grows
    refine runs_countEnd (hC.step hs₂ subset_rfl) rfl hxty (htx ▸ inReg_small hC.pool hcount ?_)
    rw [hv₂, bitOp_tzcnt, hgp₁, hmod, bits_width, Option.map_some, Option.getD_some,
      widen_small _ hcount]
  · -- `bsf`, with zero apart
    refine Runs.bind (Runs.silent Silent.createLabel fun _ c₂ h₂ => ?_) fun _ => ?_
    · cases h₂
      refine Runs.bind (Runs.silent Silent.createLabel fun _ c₃ h₃ => ?_) fun _ => ?_
      · cases h₃
        refine runs_zeroTest hC rfl hgp₁ hlt (fun _ => grows_ctzScan t r _ _ _)
          (fun hv0 c' M' hC' hc' hv' => ?_) fun hv0 c' M' hC' hc' hv' => ?_
        · -- zero: the width is the count
          refine Skip.pass fun _ c₄ h₄ => Skip.pass fun _ c₅ h₅ =>
            skip_countJoin hC' ?_ hxty (htx ▸ inReg_small hC.pool hcount ?_)
          · rw [Quiet.stack_eq (Quiet.asm' _) h₅, Quiet.stack_eq (Quiet.asm' _) h₄]
            exact hc'
          · rw [hv', hv0, countTrailingZeros_zero]
        · -- not zero: `bsf` counts the trailing zeros
          refine Skip.pass fun _ c₄ h₄ => Skip.pass fun _ c₅ h₅ =>
            Skip.bindLabel (fun _ => ?_) fun a _ => ?_
          · exact .bind (.asm' (.bitRR _ _ _ _)) fun _ => .bind (.asm' (.bindLabel _)) fun _ =>
              (silent_pushRegister _ _).grows
          refine Runs.bind (runs_bitRR hC'.env hC.isGp .bsf _ fun M₃ hs₃ hv₃ => ?_) fun _ =>
            .bind (.asm' (.bindLabel _)) fun _ => (silent_pushRegister _ _).grows
          refine runs_countJoin (hC'.step hs₃ subset_rfl) ?_ hxty
            (htx ▸ inReg_small hC.pool hcount ?_)
          · rw [show ({ c₅ with asm := a } : Compiler).stack = c₅.stack from rfl,
              Quiet.stack_eq (Quiet.asm' _) h₅, Quiet.stack_eq (Quiet.asm' _) h₄]
            exact hc'
          · rw [hv₃, hv', bitOp_bsf, hmod, if_neg hv0, Option.map_some, Option.getD_some,
              bits_width, widen_small _ hcount]
      · exact .bind (.asm' (.testRR _ _ _)) fun _ => .bind (.asm' (.add _)) fun _ =>
          .bind (.asm' (.movRI32 _ _)) fun _ => .bind (.asm' (.add _)) fun _ =>
            grows_ctzScan t r _ _ _
    · exact .bind Silent.createLabel.grows fun _ => .bind (.asm' (.testRR _ _ _)) fun _ =>
        .bind (.asm' (.add _)) fun _ => .bind (.asm' (.movRI32 _ _)) fun _ =>
          .bind (.asm' (.add _)) fun _ => grows_ctzScan t r _ _ _
  · exact .ite' (.bind (.asm' (.bitRR _ _ _ _)) fun _ => (silent_pushRegister _ _).grows)
      (.bind Silent.createLabel.grows fun _ => .bind Silent.createLabel.grows fun _ =>
        .bind (.asm' (.testRR _ _ _)) fun _ => .bind (.asm' (.add _)) fun _ =>
          .bind (.asm' (.movRI32 _ _)) fun _ => .bind (.asm' (.add _)) fun _ =>
            grows_ctzScan t r _ _ _)

/-- `clz` and `ctz` count the leading and trailing zero bits of their operand, the width for
zero, with `lzcnt` and `tzcnt` or without them: whatever features the compiler has, from every
allocation of the operand and of the values below it, each runs to its end with the values
below kept and the count on top. -/
theorem runs_countZeros (h : Rep M fb cap c.stack (vs ++ [v])) (hfit : Fit ∅ c.stack)
    (hty : ∀ ⦃i l⦄, c.stack.slots[i]? = some l → vs.length ≤ i → l.type = t.slotType)
    (hnf : ∀ ⦃i l⦄, c.stack.slots[i]? = some l → i < vs.length → l.flag = none) :
    Runs K X (Lower.clz t) (fun _ c' M' =>
      Rep M' fb cap c'.stack (vs ++ [(countLeadingZeros (bits t) v.toNat).toUInt64])) c M ∧
    Runs K X (Lower.ctz t) (fun _ c' M' =>
      Rep M' fb cap c'.stack (vs ++ [(countTrailingZeros (bits t) v.toNat).toUInt64])) c M :=
  ⟨runs_clz h hfit hty hnf, runs_ctz h hfit hty hnf⟩

/-- The zeros around `0x00F00000`, an `i32` in the memory slot of a frame entered from the
host, counted by a compiler without `lzcnt` and `tzcnt`. -/
theorem runs_countZeros_entry :
    Runs (Code.spaced {} (by decide)) (fun _ => False) (Lower.clz .i32)
      (fun _ c' M' => Rep M' 0 1 c'.stack [(countLeadingZeros 32 0x00F00000).toUInt64])
      { stack := memoryStack [.i32], listener := false, features := {}
        fn := FunctionIr.ofBody { params := [.i32], results := [.i32] } {} [.clz .i32] }
      (entryMachine [0x00F00000]) ∧
    Runs (Code.spaced {} (by decide)) (fun _ => False) (Lower.ctz .i32)
      (fun _ c' M' => Rep M' 0 1 c'.stack [(countTrailingZeros 32 0x00F00000).toUInt64])
      { stack := memoryStack [.i32], listener := false, features := {}
        fn := FunctionIr.ofBody { params := [.i32], results := [.i32] } {} [.ctz .i32] }
      (entryMachine [0x00F00000]) := by
  have hrep : Rep (entryMachine [0x00F00000]) 0 1 (memoryStack [.i32]) ([] ++ [0x00F00000]) := by
    refine rep_entryMachine rfl (by decide) fun i t v ht hv => ?_
    have : t = .i32 := by simpa using List.mem_of_getElem? ht
    subst this
    have : v = 0x00F00000 := by simpa using List.mem_of_getElem? hv
    subst this
    decide
  have hty : ∀ ⦃i : Nat⦄ ⦃l : Location⦄, (memoryStack [.i32]).slots[i]? = some l →
      ([] : List UInt64).length ≤ i → l.type = IntWidth.i32.slotType := by
    intro i l hl _
    have := List.mem_of_getElem? (memoryStack_slot hl).1
    simpa [IntWidth.slotType] using this
  have hnf : ∀ ⦃i : Nat⦄ ⦃l : Location⦄, (memoryStack [.i32]).slots[i]? = some l →
      i < ([] : List UInt64).length → l.flag = none :=
    fun i _ _ hi => absurd hi (Nat.not_lt_zero i)
  refine ⟨(runs_countZeros (K := Code.spaced {} (by decide)) (X := fun _ => False) (t := .i32)
    (c := { stack := memoryStack [.i32], listener := false, features := {}
            fn := FunctionIr.ofBody { params := [.i32], results := [.i32] } {} [.clz .i32] })
    hrep (fit_memoryStack (by decide)) hty hnf).1, ?_⟩
  exact (runs_countZeros (K := Code.spaced {} (by decide)) (X := fun _ => False) (t := .i32)
    (c := { stack := memoryStack [.i32], listener := false, features := {}
            fn := FunctionIr.ofBody { params := [.i32], results := [.i32] } {} [.ctz .i32] })
    hrep (fit_memoryStack (by decide)) hty hnf).2

end Count

end Amd64

end OnePassJit
