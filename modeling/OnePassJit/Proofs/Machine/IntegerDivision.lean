import OnePassJit.Proofs.Machine.Division
import OnePassJit.Proofs.Machine.Entry
import OnePassJit.Proofs.Machine.Operands

/-!
Integer division as generated code runs it.

`IntType.divide t isRem n d` is what the operation is to do: trap on a zero divisor, trap
when a signed quotient overflows (the least value divided by -1), and otherwise give the
quotient truncated toward zero or the remainder, which has the sign of the dividend. The
two recombine to the dividend with a remainder smaller than the divisor
(`divide_quotient_remainder`).
-/

namespace OnePassJit

namespace IntType

def divide (t : IntType) (isRem : Bool) (n d : UInt64) : Except TrapKind UInt64 :=
  if t.toInt d = 0 then .error .integerDivisionByZero
  else if t.isSigned = true ∧ isRem = false ∧ t.toInt n = t.lo ∧ t.toInt d = -1 then
    .error .integerOverflow
  else .ok (t.ofInt (if isRem then (t.toInt n).tmod (t.toInt d) else (t.toInt n).tdiv (t.toInt d)))

example : IntType.s32.divide false 0xFFFFFFF9 2 = .ok 0xFFFFFFFD := by decide
example : IntType.s32.divide true 0xFFFFFFF9 2 = .ok 0xFFFFFFFF := by decide
example : IntType.s32.divide true 0x80000000 0xFFFFFFFF = .ok 0 := by decide
example : IntType.s64.divide false 0x8000000000000000 0xFFFFFFFFFFFFFFFF =
    .error .integerOverflow := by decide
example : IntType.u64.divide false 0xFFFFFFFFFFFFFFFF 0xFFFFFFFFFFFFFFFF = .ok 1 := by decide

variable {t : IntType} {n d : UInt64}

theorem tdiv_mem_range (hd : t.toInt d ≠ 0)
    (hx : ¬ (t.isSigned = true ∧ t.toInt n = t.lo ∧ t.toInt d = -1)) :
    t.lo ≤ (t.toInt n).tdiv (t.toInt d) ∧ (t.toInt n).tdiv (t.toInt d) < t.hi := by
  have hn := toInt_mem_range t n
  cases hs : t.isSigned
  · -- a quotient of naturals is at most the dividend
    have h0 : ∀ v, 0 ≤ t.toInt v := fun v => by
      rw [toInt_of_unsigned hs]
      exact Int.natCast_nonneg _
    simp only [lo, hi, hs, Bool.false_eq_true, if_false] at hn ⊢
    rw [Int.tdiv_eq_ediv_of_nonneg (h0 n)]
    exact ⟨Int.ediv_nonneg (h0 n) (h0 d), lt_of_le_of_lt (Int.ediv_le_self _ (h0 n)) hn.2⟩
  · simp only [lo, hi, hs, if_true, true_and] at hn hx ⊢
    exact Amd64.tdiv_mem_range hn hd hx

theorem tmod_mem_range :
    t.lo ≤ (t.toInt n).tmod (t.toInt d) ∧ (t.toInt n).tmod (t.toInt d) < t.hi := by
  have hn := toInt_mem_range t n
  have habs := Int.natAbs_tmod (t.toInt n) (t.toInt d)
  have hle := Nat.mod_le (t.toInt n).natAbs (t.toInt d).natAbs
  have hlo : t.lo ≤ 0 ∧ 0 < t.hi := by cases t <;> decide
  rcases le_or_gt 0 (t.toInt n) with h | h
  · have := Int.tmod_nonneg (t.toInt d) h
    omega
  · have := Int.tmod_nonneg (t.toInt d) (Int.neg_nonneg_of_nonpos h.le)
    rw [Int.neg_tmod] at this
    omega

theorem tmod_sign (a b : Int) : a.tmod b = 0 ∨ (a.tmod b < 0 ↔ a < 0) := by
  rcases le_or_gt 0 a with h | h
  · have := Int.tmod_nonneg b h
    omega
  · have := Int.tmod_nonneg b (Int.neg_nonneg_of_nonpos h.le)
    rw [Int.neg_tmod] at this
    omega

theorem toInt_of_divide {isRem : Bool} {v : UInt64} (h : t.divide isRem n d = .ok v) :
    t.toInt d ≠ 0 ∧ t.toInt v =
      if isRem then (t.toInt n).tmod (t.toInt d) else (t.toInt n).tdiv (t.toInt d) := by
  unfold divide at h
  split at h
  · cases h
  split at h
  · cases h
  rename_i hd hx
  cases h
  refine ⟨hd, toInt_ofInt ?_⟩
  cases isRem
  · exact tdiv_mem_range hd fun ⟨hs, hn, hm⟩ => hx ⟨hs, rfl, hn, hm⟩
  · exact tmod_mem_range

/-- Quotient and remainder recombine to the dividend; the remainder is smaller than the
divisor and has the dividend's sign. -/
theorem divide_quotient_remainder {q r : UInt64} (hq : t.divide false n d = .ok q)
    (hr : t.divide true n d = .ok r) :
    t.toInt q * t.toInt d + t.toInt r = t.toInt n ∧
      (t.toInt r).natAbs < (t.toInt d).natAbs ∧
      (t.toInt r = 0 ∨ (t.toInt r < 0 ↔ t.toInt n < 0)) := by
  obtain ⟨hd, eq⟩ := toInt_of_divide hq
  obtain ⟨-, er⟩ := toInt_of_divide hr
  simp only [Bool.false_eq_true, if_false, if_true] at eq er
  rw [eq, er]
  refine ⟨Int.tdiv_mul_add_tmod _ _, ?_, tmod_sign _ _⟩
  rw [Int.natAbs_tmod]
  exact Nat.mod_lt _ (Int.natAbs_pos.mpr hd)

theorem divide_rem_neg_one (h : t.toInt d = -1) : t.divide true n d = .ok 0 := by
  unfold divide
  rw [if_neg (by omega), if_neg (by simp), if_pos rfl, h, Int.tmod_neg, Int.tmod_one]
  rfl

theorem divide_of_zero {isRem : Bool} (h : t.toInt d = 0) :
    t.divide isRem n d = .error .integerDivisionByZero := by
  unfold divide
  rw [if_pos h]

theorem divide_of_overflow (hs : t.isSigned = true) (hn : t.toInt n = t.lo) (hd : t.toInt d = -1) :
    t.divide false n d = .error .integerOverflow := by
  unfold divide
  rw [if_neg (by omega), if_pos ⟨hs, rfl, hn, hd⟩]

theorem divide_of_ne {isRem : Bool} (hd : t.toInt d ≠ 0)
    (hx : ¬ (t.isSigned = true ∧ isRem = false ∧ t.toInt n = t.lo ∧ t.toInt d = -1)) :
    t.divide isRem n d = .ok (t.ofInt
      (if isRem then (t.toInt n).tmod (t.toInt d) else (t.toInt n).tdiv (t.toInt d))) := by
  unfold divide
  rw [if_neg hd, if_neg hx]

theorem lo_of_signed (hs : t.isSigned = true) : t.lo = -2 ^ (t.bits - 1) := by
  simp [lo, hs]

end IntType

namespace Amd64

open IntType Lower ValueStack

variable {M : Machine} {fb cap : Nat} {vs : List UInt64}

theorem slotType_ne (t : IntType) : t.slotType ≠ .v128lo ∧ t.slotType ≠ .v128hi := by
  cases t <;> decide

theorem regKind_slotType (t : IntType) : t.slotType.regKind = .gp := by
  cases t <;> rfl

section Operands

variable {K : Code} {X : Machine → Prop} {c : Compiler} {β : Type} {t : IntType} {n d : UInt64}

theorem runs_divisionOperands (h : Rep M fb cap c.stack (vs ++ [n, d])) (hfit : Fit ∅ c.stack)
    (hty : ∀ ⦃i l⦄, c.stack.slots[i]? = some l → vs.length ≤ i → l.type = t.slotType)
    (hnf : ∀ ⦃i l⦄, c.stack.slots[i]? = some l → i < vs.length → l.flag = none)
    {k : Location → LowerM β} {Q : β → Compiler → Machine → Prop} (hg : ∀ x, Grows (k x))
    (hk : ∀ x r c' M', x.reg = some r → r ≠ rax → r ≠ rdx → Fit {rdx, rax, r} c'.stack →
      c'.stack.NoFlags → Rep M' fb cap c'.stack vs → InReg M' t.slotType r d →
      InReg M' t.slotType rax n → Runs K X (k x) Q c' M') :
    Runs K X (do
      let divisor ← loadDetached (← popLocation) (RegSet.ofList [rax, rdx])
      let dividend ← popLocation
      let _ ← moveToFixed dividend rax
      evict rdx
      stk (StackM.markUsed rdx)
      k divisor) Q c M := by
  have g₄ : ∀ x, Grows (do evict rdx; stk (StackM.markUsed rdx); k x) := fun x =>
    .bind (grows_evict rdx) fun _ => .bind (.stk' _) fun _ => hg x
  have g₂ : ∀ x, Grows (do
      let dividend ← popLocation
      let _ ← moveToFixed dividend rax
      evict rdx
      stk (StackM.markUsed rdx)
      k x) := fun x =>
    .bind silent_popLocation.grows fun y => .bind (grows_moveToFixed y rax) fun _ => g₄ x
  refine Runs.bind (runs_popLocation hfit fun x₁ n₁ c₁ _ ht₁ hc₁ hfit₁ => ?_) fun x₁ =>
    .bind (grows_loadDetached x₁ _) g₂
  rw [show vs ++ [n, d] = (vs ++ [n]) ++ [d] by simp] at h
  obtain ⟨rfl, hty₁, ⟨dhi, hcd⟩, hR₁⟩ :=
    h.popTop (slotType_ne t).2 hfit.1 ht₁ fun i l hl hi => hty hl (by simp at hi; omega)
  have hsp : c.stack.sp = vs.length + 2 := by rw [← h.length_eq]; simp
  have hlen : (vs ++ [n]).length = vs.length + 1 := by simp
  rw [← hc₁] at hR₁
  have hE : ∀ r, (RegSet.ofList [rax, rdx]).contains r = true → r ∈ ({rax, rdx} : Finset Reg) :=
    fun r hr => by simpa using RegSet.mem_of_contains_ofList hr
  have hcard : (∅ ∪ x₁.reg.toFinset).card + ({rax, rdx} : Finset Reg).card < 9 := by
    have := Finset.card_le_two (a := rax) (b := rdx)
    have := card_union_reg ∅ x₁
    simp only [Finset.card_empty] at *
    omega
  have hT : ∀ q, x₁.reg = some q → q ∈ ∅ ∪ x₁.reg.toFinset :=
    fun q hq => Finset.mem_union_right _ (Option.mem_toFinset.mpr hq)
  refine Runs.bind (Runs.withEq (runs_loadDetached hR₁ hfit₁ hcd hE hcard hT
    (hfit.1.top_flagged ht₁) (fun _ _ => ?_) fun r c₂ M₂ hfit₂ _ hex hR₂ hcd₂ hk₂ he₂ => ?_)) g₂
  · rw [hfit.1.slot_eq ht₁.get, hc₁, sp_below _ (by omega), if_neg (hty₁ ▸ (slotType_ne t).1)]
    have := h.sp_le
    omega
  have hmv₂ : Moves (c.stack.below (vs ++ [n]).length) c₂.stack := by
    rw [← hc₁]
    exact ((wp_ok he₂).mp (wp_loadDetached (a := c₁.asm) (Q := fun _ c' => Spills c₁.stack c'.stack)
      hfit₁ hE hcard hT (hfit.1.top_flagged ht₁) fun _ _ _ _ _ hs _ => hs)).moves
  rw [show (∅ ∪ x₁.reg.toFinset) \ x₁.reg.toFinset = ∅ by simp, Finset.insert_empty] at hfit₂
  have hr : r ≠ rax ∧ r ≠ rdx := by
    constructor <;> rintro rfl <;> revert hex <;> decide
  have hd₂ : InReg M₂ t.slotType r d := hty₁ ▸ hcd₂.1
  refine Runs.bind (runs_popLocation hfit₂ fun x₂ n₂ c₃ _ ht₂ hc₃ hfit₃ => ?_) fun x₂ =>
    .bind (grows_moveToFixed x₂ rax) fun _ => g₄ _
  have hty₂ : ∀ ⦃i l⦄, c₂.stack.slots[i]? = some l → vs.length ≤ i → l.type = t.slotType := by
    intro i l hl hi
    obtain ⟨l₀, hl₀, -, ht, -⟩ := hmv₂.of_below hl
    exact ht.trans (hty hl₀ hi)
  obtain ⟨rfl, hty₂', ⟨nhi, hcn⟩, hR₃⟩ := hR₂.popTop (slotType_ne t).2 hfit₂.1 ht₂ hty₂
  rw [← hc₃] at hR₃
  have hsp₂ : c₂.stack.sp = vs.length + 1 := by rw [← hR₂.length_eq, hlen]
  have hT₂ : ∀ q, x₂.reg = some q → q ∈ {r} ∪ x₂.reg.toFinset :=
    fun q hq => Finset.mem_union_right _ (Option.mem_toFinset.mpr hq)
  have hpool : rax ∈ poolOf x₂.regKind := by
    rw [Location.regKind, hty₂', regKind_slotType]
    decide
  refine Runs.bind (Runs.withEq (runs_moveToFixed hR₃ hfit₃ hcn hT₂ (hfit₂.1.top_flagged ht₂)
    (fun _ _ => ?_) (by decide) hpool fun c₄ M₄ hfit₄ hR₄ hcn₄ hk₄ he₄ => ?_)) fun _ => g₄ _
  · rw [hfit₂.1.slot_eq ht₂.get, hc₃, sp_below _ (by omega), if_neg (hty₂' ▸ (slotType_ne t).1)]
    have := hR₂.sp_le
    omega
  have hmv₄ : Moves c₃.stack c₄.stack :=
    ((wp_ok he₄).mp (wp_moveToFixed (a := c₃.asm) (Q := fun _ c' => Spills c₃.stack c'.stack)
      hfit₃ hT₂ (hfit₂.1.top_flagged ht₂) (by decide) fun _ _ hs _ => hs)).moves
  have hdis : Disjoint {r} x₂.reg.toFinset := Finset.disjoint_left.mpr fun q hq hq' =>
    hfit₂.1.top_not_temp ht₂ (Option.mem_toFinset.mp hq') hq
  rw [Finset.union_sdiff_cancel_right hdis] at hfit₄
  have hnf₃ : c₃.stack.NoFlags := by
    intro i l hl
    rw [hc₃] at hl
    obtain ⟨l₂, hl₂, hi, -, hf⟩ := Moves.of_below (Moves.refl _) hl
    obtain ⟨l₀, hl₀, -, -, hf₂⟩ := hmv₂.of_below hl₂
    rw [hnf hl₀ hi, or_self] at hf₂
    rw [hf₂, or_self] at hf
    exact hf
  refine Runs.bind (runs_evict hR₄ hfit₄.1 rdx fun c₅ M₅ he₅ hR₅ hk₅ => ?_) fun _ =>
    .bind (.stk' _) fun _ => hg _
  obtain ⟨hfit₅, hfree, hmv₅⟩ : Fit {rax, r} c₅.stack ∧ ¬ c₅.stack.Holds rdx ∧
      Moves c₄.stack c₅.stack :=
    (wp_ok he₅).mp (wp_evict (a := c₄.asm) (Q := fun _ c' => Fit {rax, r} c'.stack ∧
      ¬ c'.stack.Holds rdx ∧ Moves c₄.stack c'.stack) hfit₄ rdx
      fun _ h₁ h₂ h₃ _ => ⟨h₁, h₂, h₃.moves⟩)
  refine Runs.bind (Runs.stk' fun _ s hm => ?_) fun _ => hg _
  rw [markUsed_eq] at hm
  cases hm
  have hn₄ : InReg M₄ t.slotType rax n := hty₂' ▸ hcn₄.1
  have hd₄ : InReg M₄ t.slotType r d := hd₂.of_keeps hk₄ (by simpa using hr.1)
  exact hk _ r _ M₅ rfl hr.1 hr.2 ⟨hfit₅.1.insert_used hfree (by decide), hfit₅.2⟩
    (hmv₅.noFlags (hmv₄.noFlags hnf₃)) (hR₅.congr_slots rfl)
    (hd₄.of_keeps hk₅ (Finset.notMem_empty _)) (hn₄.of_keeps hk₅ (Finset.notMem_empty _))

end Operands

/-! Between the operands and the result. -/

def divisionRegs : Finset Reg := {rax, rdx, scratchGp}

theorem writable_divisionRegs : ∀ w ∈ divisionRegs, Writable w := by
  simp only [divisionRegs, Finset.mem_insert, Finset.mem_singleton]
  rintro w (rfl | rfl | rfl)
  · exact writable_of_mem_gpPool (by decide)
  · exact writable_of_mem_gpPool (by decide)
  · exact writable_scratchGp

/-- While a division runs: `M₀` held the values `vs` of the stack `s` below the operands,
and `M` differs from it only in the flags and the registers the division writes; it holds
the divisor in `r` and the dividend in `rax`. -/
structure Dividing (M₀ M : Machine) (fb cap : Nat) (s : ValueStack) (vs : List UInt64)
    (t : IntType) (r : Reg) (n d : UInt64) : Prop where
  rep : Rep M₀ fb cap s vs
  fit : Fit {rdx, rax, r} s
  noFlags : s.NoFlags
  ne : r ≠ rax ∧ r ≠ rdx
  room : vs.length < cap
  steady : Steady M₀ M fb divisionRegs
  divisor : InReg M t.slotType r d
  dividend : InReg M t.slotType rax n

namespace Dividing

variable {M₀ M' : Machine} {s : ValueStack} {t : IntType} {r : Reg} {n d : UInt64}

theorem free (h : Dividing M₀ M fb cap s vs t r n d) : ∀ w ∈ divisionRegs, ¬ s.Holds w := by
  simp only [divisionRegs, Finset.mem_insert, Finset.mem_singleton]
  rintro w (rfl | rfl | rfl)
  · exact h.fit.1.temp_free _ (by simp)
  · exact h.fit.1.temp_free _ (by simp)
  · exact h.rep.not_holds (by decide) (by decide)

theorem rep_of_steady (h : Dividing M₀ M fb cap s vs t r n d)
    (hs : Steady M₀ M' fb divisionRegs) : Rep M' fb cap s vs :=
  h.rep.of_steady h.fit.1 h.noFlags hs writable_divisionRegs h.free

theorem env (h : Dividing M₀ M fb cap s vs t r n d) : Env M fb cap :=
  (h.rep_of_steady h.steady).env

theorem step (h : Dividing M₀ M fb cap s vs t r n d) {W : Finset Reg}
    (hs : Steady M M' fb W) (hW : W ⊆ {rdx, scratchGp}) : Dividing M₀ M' fb cap s vs t r n d := by
  have hr : r ∉ W := fun hm => by
    have := hW hm
    simp only [Finset.mem_insert, Finset.mem_singleton] at this
    rcases this with rfl | rfl
    · exact h.ne.2 rfl
    · exact absurd h.divisor.mem_pool (by decide)
  refine ⟨h.rep, h.fit, h.noFlags, h.ne, h.room, h.steady.step hs (hW.trans (by decide)),
    h.divisor.of_steady hs hr, h.dividend.of_steady hs fun hm => ?_⟩
  have := hW hm
  simp only [Finset.mem_insert, Finset.mem_singleton] at this
  rcases this with h' | h' <;> cases h'

end Dividing

section Result

variable {K : Code} {X : Machine → Prop} {c : Compiler} {s : ValueStack} {t : IntType} {r : Reg}

theorem runs_divisionTail (hR : Rep M fb cap s vs) (hc : c.stack = s) (hfit : Fit {rdx, rax, r} s)
    (hne : r ≠ rax ∧ r ≠ rdx) (hroom : vs.length < cap) {divisor : Location}
    (hx : divisor.reg = some r) {result other : Reg}
    (hro : (result = rax ∧ other = rdx) ∨ (result = rdx ∧ other = rax)) {v : UInt64}
    (hv : InReg M t.slotType result v) {Q : Unit → Compiler → Machine → Prop}
    (hQ : ∀ c', Rep M fb cap c'.stack (vs ++ [v]) → Q () c' M) :
    Runs K X (do release divisor; releaseReg other; pushRegister result t.slotType) Q c M := by
  subst hc
  have hrel : release divisor = releaseReg r := by
    unfold release
    rw [hx]
  rw [hrel]
  refine Runs.bind (Runs.stk' fun _ s₁ hm => ?_) fun _ =>
    .bind (.stk' _) fun _ => (silent_pushRegister _ _).grows
  rw [markUnused_eq] at hm
  cases hm
  refine Runs.bind (Runs.stk' fun _ s₂ hm => ?_) fun _ => (silent_pushRegister _ _).grows
  rw [markUnused_eq] at hm
  cases hm
  have hpair : (({rdx, rax, r} : Finset Reg).erase r).erase other = {result} := by
    have : rax ≠ rdx := by decide
    rcases hro with ⟨rfl, rfl⟩ | ⟨rfl, rfl⟩ <;> ext q <;> simp <;> grind
  have hlay := (hfit.1.erase_used (r := r) (by simp)).erase_used (r := other)
    (by rcases hro with ⟨-, rfl⟩ | ⟨-, rfl⟩ <;> simp [hne.1.symm, hne.2.symm])
  rw [hpair] at hlay
  have hsp : c.stack.sp < cap := by
    rw [← hR.length_eq]
    exact hroom
  apply runs_pushRegister (T := {result}) (hR.congr_slots ?slots) ?fit
    (Finset.mem_singleton_self result) (slotType_ne t).2 hv
    (fun h => absurd h (slotType_ne t).1 : t.slotType = .v128lo → InReg M .v128hi result 0)
    (by rw [if_neg (slotType_ne t).1]; exact hsp)
  case slots => rfl
  case fit => exact ⟨hlay, hfit.2⟩
  intro c' _ hR'
  rw [if_neg (slotType_ne t).1] at hR'
  exact hQ c' hR'

end Result

section Guard

variable {K : Code} {X : Machine → Prop} {c : Compiler} {M₀ : Machine} {s : ValueStack}
  {t : IntType} {r : Reg} {n d : UInt64} {β : Type}

theorem InReg.of_int {v : UInt64} (h : InReg M t.slotType r v) : r ∈ gpPool ∧ M.gp r.gpr = v := by
  unfold IntType.slotType at h
  split at h
  · exact ⟨h.1, h.2.1⟩
  · exact h

theorem Runs.ite' {p : Prop} [Decidable p] {m₁ m₂ : LowerM β} {Q : β → Compiler → Machine → Prop}
    (h₁ : p → Runs K X m₁ Q c M) (h₂ : ¬ p → Runs K X m₂ Q c M) :
    Runs K X (if p then m₁ else m₂) Q c M := by
  split
  · exact h₁ ‹_›
  · exact h₂ ‹_›

theorem grows_guard {cond : Cond} {L : Nat} {st : Status} {k : Unit → LowerM β}
    (hg : ∀ x, Grows (k x)) : Grows (do asm (Asm.jcc cond L); exit st; asm (Asm.bind L); k ()) :=
  .bind (.asm' (.add _)) fun _ =>
    .bind (grows_exit st) fun _ => .bind (.asm' (.bindLabel L)) hg

theorem runs_divisorGuard (hD : Dividing M₀ M fb cap s vs t r n d) (hc : c.stack = s)
    {Q : β → Compiler → Machine → Prop} {k : LowerM β} (hg : Grows k)
    (hX : t.toInt d = 0 → ∀ M', Exited M' (.trap .integerDivisionByZero) vs.length → X M')
    (hk : t.toInt d ≠ 0 → ∀ c' M', c'.stack = s → Dividing M₀ M' fb cap s vs t r n d →
      Runs K X k Q c' M') :
    Runs K X (do
      let nonZero ← asm Asm.createLabel
      asm (Asm.testRR (Width.of t.is32) r r)
      asm (Asm.jcc .ne nonZero)
      exit (.trap .integerDivisionByZero)
      asm (Asm.bind nonZero)
      k) Q c M := by
  obtain ⟨hpool, hd⟩ := hD.divisor.of_int
  have hr := isGp_of_mem_gpPool hpool
  refine Runs.bind (Runs.silent Silent.createLabel fun L c₁ h₁ => ?_) fun L =>
    .bind (.asm' (.testRR _ _ _)) fun _ => grows_guard fun _ => hg
  cases h₁
  refine Runs.bind (runs_testSelf hr (Width.of t.is32) fun M₁ (hs₁ : Steady M M₁ fb ∅) hz => ?_)
    fun _ => grows_guard fun _ => hg
  have hz' : M₁.cpu.flags.zf = true ↔ t.toInt d = 0 := by
    rw [hz, hd, bits_of, toInt_eq_zero_iff]
  have hD₁ := hD.step hs₁ (Finset.empty_subset _)
  have hsp : c.stack.sp = vs.length := by rw [hc, ← hD.rep.length_eq]
  refine runs_guard (k := fun _ => k) hD₁.env (fun _ => hg) (fun hne M' hM' => hX ?_ M' ?_) fun hne c' t' hc' => ?_
  · simpa [Cond.holds, hz'] using hne
  · simpa [hsp] using hM'
  · refine hk ?_ c' _ ?_ (hD₁.step (Steady.goto t') (Finset.empty_subset _))
    · intro h0
      simp [Cond.holds, hz'.mpr h0] at hne
    · rw [hc']
      exact hc

end Guard
section Divide

variable {K : Code} {X : Machine → Prop} {c : Compiler} {M₀ : Machine} {s : ValueStack}
  {t : IntType} {r : Reg} {n d : UInt64} {β : Type}

theorem rax_gpr : rax.gpr = Machine.rax := rfl

theorem rdx_gpr : rdx.gpr = Machine.rdx := rfl

theorem toNat_ofInt_lt (t : IntType) (z : Int) : (t.ofInt z).toNat < 2 ^ t.bits := by
  rw [IntType.ofInt, Nat.toUInt64_eq, UInt64.toNat_ofNat']
  rcases bits_eq t with hb | hb <;> rw [hb] <;> omega

theorem inReg_ofInt (hr : r ∈ gpPool) {z : Int} (h : M.gp r.gpr = t.ofInt z) :
    InReg M t.slotType r (t.ofInt z) := by
  have hlt := toNat_ofInt_lt t z
  unfold IntType.slotType
  split
  · rename_i h32
    have hb : t.bits = 32 := by simp [IntType.bits, h32]
    exact ⟨hr, h, hb ▸ hlt⟩
  · exact ⟨hr, h⟩

theorem signExtend_fill (w : Width) (x : UInt64) :
    (Machine.widen w (if x &&& w.signBit != 0 then w.mask else 0) &&& w.mask).toNat =
      if 2 ^ (w.bits - 1) ≤ x.toNat % 2 ^ w.bits then 2 ^ w.bits - 1 else 0 := by
  rw [and_signBit_ne_zero]
  by_cases h : 2 ^ (w.bits - 1) ≤ x.toNat % 2 ^ w.bits
  · rw [decide_eq_true h, if_pos rfl, if_pos h]
    cases w <;> decide
  · rw [decide_eq_false h, if_neg Bool.false_ne_true, if_neg h]
    cases w <;> decide

theorem runs_divInstr (hD : Dividing M₀ M fb cap s vs t r n d) {sg : Bool}
    (hdiv : ∀ a, (M.goto a).divide (Width.of t.is32) sg r.gpr =
      .ok (((M.goto a).setGpW (Width.of t.is32) Machine.rax
          (UInt64.ofInt ((t.toInt n).tdiv (t.toInt d)))).setGpW (Width.of t.is32) Machine.rdx
        (UInt64.ofInt ((t.toInt n).tmod (t.toInt d)))))
    {Q : Unit → Compiler → Machine → Prop}
    (hQ : ∀ M', Steady M₀ M' fb divisionRegs →
      InReg M' t.slotType rax (t.ofInt ((t.toInt n).tdiv (t.toInt d))) →
      InReg M' t.slotType rdx (t.ofInt ((t.toInt n).tmod (t.toInt d))) →
      Q () { c with asm := Asm.pushed c.asm (.div (Width.of t.is32) sg r.gpr) } M') :
    Runs K X (asm (Asm.div (Width.of t.is32) sg r)) Q c M := by
  have hr := isGp_of_mem_gpPool hD.divisor.of_int.1
  have hM := hD.env.gpr_size
  refine Runs.step (Asm.div_eq hr _ _ _) ((Machine.exec_div _ _ _).trans (hdiv _)) rfl
    (hQ _ ?_ ?_ ?_)
  · have k₁ : Keeps M _ fb {rax} 0 := Keeps.goto_setGpW hM (r := rax) (by decide)
      (K.addr (c.asm.instrs.size + 1)) (Width.of t.is32) (UInt64.ofInt ((t.toInt n).tdiv (t.toInt d)))
    have k₂ : Keeps _ _ fb {rdx} 0 := Keeps.setGpW (M := (M.goto (K.addr (c.asm.instrs.size + 1))).setGpW
      (Width.of t.is32) rax.gpr (UInt64.ofInt ((t.toInt n).tdiv (t.toInt d)))) (by simpa using hM)
      (r := rdx) (by decide) (Width.of t.is32) (UInt64.ofInt ((t.toInt n).tmod (t.toInt d)))
    exact (hD.steady.trans (Steady.of_keeps (k₁.trans k₂))).mono (by decide)
  · refine inReg_ofInt (by decide) ?_
    rw [Machine.gp_setGpW (by simpa using hM), if_neg (by decide),
      show rax.gpr = Machine.rax by decide, Machine.gp_goto_setGpW_self hM, widen_ofInt]
  · refine inReg_ofInt (by decide) ?_
    rw [Machine.gp_setGpW (by simpa using hM), if_pos (by decide), widen_ofInt]

theorem runs_signedDivide (hs : t.isSigned = true) (hD : Dividing M₀ M fb cap s vs t r n d)
    (hd0 : t.toInt d ≠ 0) (hx : ¬ (t.toInt n = -2 ^ (t.bits - 1) ∧ t.toInt d = -1))
    {k : Unit → LowerM β} (hg : ∀ x, Grows (k x)) {Q : β → Compiler → Machine → Prop}
    (hk : ∀ c' M', c' = { c with asm := c'.asm } → Steady M₀ M' fb divisionRegs →
      InReg M' t.slotType rax (t.ofInt ((t.toInt n).tdiv (t.toInt d))) →
      InReg M' t.slotType rdx (t.ofInt ((t.toInt n).tmod (t.toInt d))) →
      Runs K X (k ()) Q c' M') :
    Runs K X (do
      asm (Asm.signExtendAcc (Width.of t.is32))
      let x ← asm (Asm.div (Width.of t.is32) true r)
      k x) Q c M := by
  have hM := hD.env.gpr_size
  refine Runs.bind (Runs.step (Asm.add_eq _ _) (Machine.exec_signExtendAcc _) rfl ?_) fun _ =>
    .bind (.asm' (.div _ _ _)) hg
  have hD₁ := hD.step (Steady.goto_setGpW hM (r := rdx) (by decide)
    (K.addr (c.asm.instrs.size + 1)) (Width.of t.is32)
    (if M.gp Machine.rax &&& (Width.of t.is32).signBit != 0 then (Width.of t.is32).mask else 0))
    (by decide)
  refine Runs.bind (runs_divInstr hD₁ (fun a => ?_) fun M' hs' hq hr => hk _ _ rfl hs' hq hr) hg
  have hn := hD₁.dividend.of_int.2
  have hd := hD₁.divisor.of_int.2
  have hn₀ := hD.dividend.of_int.2
  rw [rax_gpr] at hn hn₀
  have hdiv := divide_signed (M := (((M.goto (K.addr (c.asm.instrs.size + 1))).setGpW
    (Width.of t.is32) rdx.gpr (if M.gp Machine.rax &&& (Width.of t.is32).signBit != 0 then
      (Width.of t.is32).mask else 0)).goto a)) (s := r.gpr) hs ?_ ?_ ?_
  · rw [Machine.gp_goto, Machine.gp_goto, hn, hd] at hdiv
    exact hdiv
  · rw [Machine.gp_goto, Machine.gp_goto, hn, ← hn₀, rdx_gpr, Machine.gp_goto_setGpW_self hM,
      signExtend_fill, bits_of]
  · rw [Machine.gp_goto, hd]
    exact hd0
  · rw [Machine.gp_goto, Machine.gp_goto, hn, hd]
    exact hx


theorem runs_unsignedDivide (hs : t.isSigned = false) (hD : Dividing M₀ M fb cap s vs t r n d)
    (hd0 : t.toInt d ≠ 0) {k : Unit → LowerM β} (hg : ∀ x, Grows (k x))
    {Q : β → Compiler → Machine → Prop}
    (hk : ∀ c' M', c' = { c with asm := c'.asm } → Steady M₀ M' fb divisionRegs →
      InReg M' t.slotType rax (t.ofInt ((t.toInt n).tdiv (t.toInt d))) →
      InReg M' t.slotType rdx (t.ofInt ((t.toInt n).tmod (t.toInt d))) →
      Runs K X (k ()) Q c' M') :
    Runs K X (do
      asm (Asm.aluRR .xor .w32 rdx rdx)
      let x ← asm (Asm.div (Width.of t.is32) false r)
      k x) Q c M := by
  refine Runs.bind (runs_clear hD.env (r := rdx) (by decide)
    fun M₁ (hs₁ : Steady M M₁ fb {rdx}) hz => ?_) fun _ => .bind (.asm' (.div _ _ _)) hg
  have hD₁ := hD.step hs₁ (by decide)
  refine Runs.bind (runs_divInstr hD₁ (fun a => ?_) fun M' hs' hq hr => hk _ _ rfl hs' hq hr) hg
  have hn := hD₁.dividend.of_int.2
  have hd := hD₁.divisor.of_int.2
  rw [rax_gpr] at hn
  have hdiv := divide_unsigned (M := M₁.goto a) (s := r.gpr) hs
    (by rw [Machine.gp_goto, ← rdx_gpr, hz]) (by rw [Machine.gp_goto, hd]; exact hd0)
  rw [Machine.gp_goto, Machine.gp_goto, hn, hd] at hdiv
  exact hdiv

end Divide
section Signed

variable {K : Code} {X : Machine → Prop} {c : Compiler} {M₀ : Machine} {s : ValueStack}
  {t : IntType} {r : Reg} {n d : UInt64} {β : Type}

theorem Quiet.stack_eq {m : LowerM α} (hq : Quiet m) {c' : Compiler} {x : α}
    (h : m c = .ok (x, c')) : c'.stack = c.stack := by
  rw [Quiet.ok hq h]

theorem eq_ofInt_iff (hs : t.isSigned = true) {z : Int}
    (hz : -2 ^ (t.bits - 1) ≤ z ∧ z < 2 ^ (t.bits - 1)) (x : UInt64) :
    x.toNat % 2 ^ t.bits = (UInt64.ofInt z).toNat % 2 ^ t.bits ↔ t.toInt x = z := by
  rw [toInt_eq_iff hs hz, toNat_ofInt_mod]

theorem neg_one_mem (t : IntType) : -2 ^ (t.bits - 1) ≤ (-1 : Int) ∧ (-1 : Int) < 2 ^ (t.bits - 1) := by
  rcases bits_eq t with hb | hb <;> rw [hb] <;> decide

theorem grows_signedDivision (t : IntType) (r : Reg) (done : Nat) (isRem : Bool)
    {J : Unit → LowerM Unit} (hgJ : ∀ u, Grows (J u)) :
    Grows (do
      let regular ← asm Asm.createLabel
      asm (Asm.aluRI .cmp (Width.of t.is32) r (-1))
      asm (Asm.jcc .ne regular)
      have jp := fun (_ : Unit) => do
        asm (Asm.bind regular)
        asm (Asm.signExtendAcc (Width.of t.is32))
        let x ← asm (Asm.div (Width.of t.is32) true r)
        J x
      if isRem then do
        asm (Asm.aluRR .xor .w32 rdx rdx)
        let x ← asm (Asm.jmp done)
        jp x
      else
        have jp₂ := fun (_ : Unit) => do
          asm (Asm.jcc .ne regular)
          let x ← exit (.trap .integerOverflow)
          jp x
        if t.is32 then do
          let x ← asm (Asm.aluRI .cmp (Width.of t.is32) rax (-2147483648))
          jp₂ x
        else do
          asm (Asm.movRI64 scratchGp 0x8000000000000000)
          let x ← asm (Asm.aluRR .cmp (Width.of t.is32) rax scratchGp)
          jp₂ x) :=
  have gjp : ∀ (L : Nat), Unit → Grows (do
      asm (Asm.bind L)
      asm (Asm.signExtendAcc (Width.of t.is32))
      let x ← asm (Asm.div (Width.of t.is32) true r)
      J x) := fun L _ =>
    .bind (.asm' (.bindLabel L)) fun _ => .bind (.asm' (.add _)) fun _ =>
      .bind (.asm' (.div _ _ _)) hgJ
  .bind Silent.createLabel.grows fun L => .bind (.asm' (.aluRI _ _ _ _)) fun _ =>
    .bind (.asm' (.add _)) fun _ =>
      .ite' (.bind (.asm' (.aluRR _ _ _ _)) fun _ => .bind (.asm' (.add _)) (gjp L))
        (.ite' (.bind (.asm' (.aluRI _ _ _ _)) fun _ => .bind (.asm' (.add _)) fun _ =>
            .bind (grows_exit _) (gjp L))
          (.bind (.asm' (.movRI64 _ _)) fun _ => .bind (.asm' (.aluRR _ _ _ _)) fun _ =>
            .bind (.asm' (.add _)) fun _ => .bind (grows_exit _) (gjp L)))

theorem runs_signedDivision (hs : t.isSigned = true) (hD : Dividing M₀ M fb cap s vs t r n d)
    (hc : c.stack = s) (hd0 : t.toInt d ≠ 0) {isRem : Bool} {done : Nat}
    {J : Unit → LowerM Unit} (hgJ : ∀ u, Grows (J u)) {Q : Unit → Compiler → Machine → Prop}
    (hX : isRem = false → t.toInt n = t.lo → t.toInt d = -1 →
      ∀ M', Exited M' (.trap .integerOverflow) vs.length → X M')
    (hJ : ¬ (isRem = false ∧ t.toInt n = t.lo ∧ t.toInt d = -1) → ∀ c' M', c'.stack = s →
      Steady M₀ M' fb divisionRegs →
      InReg M' t.slotType (if isRem then rdx else rax)
        (t.ofInt (if isRem then (t.toInt n).tmod (t.toInt d) else (t.toInt n).tdiv (t.toInt d))) →
      Runs K X (J ()) Q c' M')
    (hskip : isRem = true → ∀ c' M', c'.stack = s → Steady M₀ M' fb divisionRegs →
      InReg M' t.slotType rdx (t.ofInt ((t.toInt n).tmod (t.toInt d))) →
      Skip K X done (J ()) Q c' M') :
    Runs K X (do
      let regular ← asm Asm.createLabel
      asm (Asm.aluRI .cmp (Width.of t.is32) r (-1))
      asm (Asm.jcc .ne regular)
      have jp := fun (_ : Unit) => do
        asm (Asm.bind regular)
        asm (Asm.signExtendAcc (Width.of t.is32))
        let x ← asm (Asm.div (Width.of t.is32) true r)
        J x
      if isRem then do
        asm (Asm.aluRR .xor .w32 rdx rdx)
        let x ← asm (Asm.jmp done)
        jp x
      else
        have jp₂ := fun (_ : Unit) => do
          asm (Asm.jcc .ne regular)
          let x ← exit (.trap .integerOverflow)
          jp x
        if t.is32 then do
          let x ← asm (Asm.aluRI .cmp (Width.of t.is32) rax (-2147483648))
          jp₂ x
        else do
          asm (Asm.movRI64 scratchGp 0x8000000000000000)
          let x ← asm (Asm.aluRR .cmp (Width.of t.is32) rax scratchGp)
          jp₂ x) Q c M := by
  obtain ⟨hpool, hdr⟩ := hD.divisor.of_int
  have hr := isGp_of_mem_gpPool hpool
  have hlo := lo_of_signed hs
  have hsp : c.stack.sp = vs.length := by rw [hc, ← hD.rep.length_eq]
  have gjp : ∀ (L : Nat), Unit → Grows (do
      asm (Asm.bind L)
      asm (Asm.signExtendAcc (Width.of t.is32))
      let x ← asm (Asm.div (Width.of t.is32) true r)
      J x) := fun L _ =>
    .bind (.asm' (.bindLabel L)) fun _ => .bind (.asm' (.add _)) fun _ =>
      .bind (.asm' (.div _ _ _)) hgJ
  have gjp₂ : ∀ (L : Nat) (u : Unit), Grows (do
      asm (Asm.jcc .ne L)
      let x ← exit (.trap .integerOverflow)
      asm (Asm.bind L)
      asm (Asm.signExtendAcc (Width.of t.is32))
      let x ← asm (Asm.div (Width.of t.is32) true r)
      J x) := fun L u =>
    .bind (.asm' (.add _)) fun _ => .bind (grows_exit _) fun _ => gjp L u
  have grest : ∀ L : Nat, Grows (if isRem then do
        asm (Asm.aluRR .xor .w32 rdx rdx)
        let x ← asm (Asm.jmp done)
        asm (Asm.bind L)
        asm (Asm.signExtendAcc (Width.of t.is32))
        let x ← asm (Asm.div (Width.of t.is32) true r)
        J x
      else if t.is32 = true then do
        let x ← asm (Asm.aluRI .cmp (Width.of t.is32) rax (-2147483648))
        asm (Asm.jcc .ne L)
        let x ← exit (.trap .integerOverflow)
        asm (Asm.bind L)
        asm (Asm.signExtendAcc (Width.of t.is32))
        let x ← asm (Asm.div (Width.of t.is32) true r)
        J x
      else do
        asm (Asm.movRI64 scratchGp 0x8000000000000000)
        let x ← asm (Asm.aluRR .cmp (Width.of t.is32) rax scratchGp)
        asm (Asm.jcc .ne L)
        let x ← exit (.trap .integerOverflow)
        asm (Asm.bind L)
        asm (Asm.signExtendAcc (Width.of t.is32))
        let x ← asm (Asm.div (Width.of t.is32) true r)
        J x) := fun L =>
    .ite' (.bind (.asm' (.aluRR _ _ _ _)) fun _ => .bind (.asm' (.add _)) (gjp L))
      (.ite' (.bind (.asm' (.aluRI _ _ _ _)) (gjp₂ L))
        (.bind (.asm' (.movRI64 _ _)) fun _ => .bind (.asm' (.aluRR _ _ _ _)) (gjp₂ L)))
  have hdivide : ¬ (t.toInt n = t.lo ∧ t.toInt d = -1) → ∀ c' M', c'.stack = s →
      Dividing M₀ M' fb cap s vs t r n d → Runs K X (do
        asm (Asm.signExtendAcc (Width.of t.is32))
        let x ← asm (Asm.div (Width.of t.is32) true r)
        J x) Q c' M' := fun hok c' M' hc' hD' =>
    runs_signedDivide hs hD' hd0 (by rwa [← hlo]) hgJ fun c'' M'' hc'' hst hq hrem =>
      hJ (fun h => hok h.2) c'' M'' ((congrArg Compiler.stack hc'').trans hc') hst
        (by cases isRem <;> assumption)
  refine Runs.bind (Runs.silent Silent.createLabel fun regular c₁ h₁ => ?_) fun L =>
    .bind (.asm' (.aluRI _ _ _ _)) fun _ => .bind (.asm' (.add _)) fun _ => grest L
  cases h₁
  refine Runs.bind (runs_cmpImm hr (Width.of t.is32) (-1)
    fun M₁ (hs₁ : Steady M M₁ fb ∅) hz₁ => ?_) fun _ => .bind (.asm' (.add _)) fun _ => grest _
  have hD₁ := hD.step hs₁ (Finset.empty_subset _)
  have hz₁' : M₁.cpu.flags.zf = true ↔ t.toInt d = -1 := by
    rw [hz₁, hdr, bits_of, eq_ofInt_iff hs (neg_one_mem t)]
  have hD₂ : ∀ a, Dividing M₀ (M₁.goto a) fb cap s vs t r n d := fun a =>
    hD₁.step (Steady.goto a) (Finset.empty_subset _)
  refine Runs.jcc (fun _ => grest _) (fun htaken => ?_) fun hfall => ?_
  · -- a divisor other than -1 goes to `idiv`: what lies before `regular` is jumped over
    have hok : ¬ (t.toInt n = t.lo ∧ t.toInt d = -1) := fun h => by
      simp [Cond.holds, hz₁'.mpr h.2] at htaken
    refine Skip.ite' (fun _ => ?_) fun _ => Skip.ite' (fun _ => ?_) fun _ => ?_
    · refine Skip.pass fun _ c₂ h₂ => Skip.pass fun _ c₃ h₃ => Skip.bindLabel
        (fun _ => .bind (.asm' (.add _)) fun _ => .bind (.asm' (.div _ _ _)) hgJ)
        fun a _ => hdivide hok _ _ ?_ (hD₂ _)
      rw [show ({ c₃ with asm := a } : Compiler).stack = c₃.stack from rfl,
        Quiet.stack_eq (Quiet.asm' _) h₃, Quiet.stack_eq (Quiet.asm' _) h₂]
      exact hc
    · refine Skip.pass fun _ c₂ h₂ => Skip.pass fun _ c₃ h₃ => Skip.pass fun _ c₄ h₄ =>
        Skip.bindLabel (fun _ => .bind (.asm' (.add _)) fun _ => .bind (.asm' (.div _ _ _)) hgJ)
          fun a _ => hdivide hok _ _ ?_ (hD₂ _)
      rw [show ({ c₄ with asm := a } : Compiler).stack = c₄.stack from rfl,
        Quiet.stack_eq (quiet_exit _) h₄, Quiet.stack_eq (Quiet.asm' _) h₃,
        Quiet.stack_eq (Quiet.asm' _) h₂]
      exact hc
    · refine Skip.pass fun _ c₂ h₂ => Skip.pass fun _ c₃ h₃ => Skip.pass fun _ c₄ h₄ =>
        Skip.pass fun _ c₅ h₅ => Skip.bindLabel
          (fun _ => .bind (.asm' (.add _)) fun _ => .bind (.asm' (.div _ _ _)) hgJ)
          fun a _ => hdivide hok _ _ ?_ (hD₂ _)
      rw [show ({ c₅ with asm := a } : Compiler).stack = c₅.stack from rfl,
        Quiet.stack_eq (quiet_exit _) h₅, Quiet.stack_eq (Quiet.asm' _) h₄,
        Quiet.stack_eq (Quiet.asm' _) h₃, Quiet.stack_eq (Quiet.asm' _) h₂]
      exact hc
  · have hm1 : t.toInt d = -1 := hz₁'.mp (by simpa [Cond.holds] using hfall)
    refine Runs.ite' (fun hrem => ?_) fun hrem => ?_
    · -- the remainder by -1 is 0: `rdx` is cleared and the division jumped over
      refine Runs.bind (runs_clear (hD₂ _).env (r := rdx) (by decide)
        fun M₃ (hs₃ : Steady _ M₃ fb {rdx}) hz₃ => ?_) fun _ => .bind (.asm' (.add _)) (gjp _)
      have hst : Steady M₀ M₃ fb divisionRegs := (hD₂ _).steady.step hs₃ (by decide)
      refine Runs.jmp (gjp _) (Skip.pass fun _ c₂ h₂ => Skip.pass fun _ c₃ h₃ =>
        Skip.pass fun _ c₄ h₄ => hskip hrem c₄ _ ?_
          (hst.step (Steady.goto _) (Finset.empty_subset _)) ?_)
      · rw [Quiet.stack_eq (Quiet.asm' _) h₄, Quiet.stack_eq (Quiet.asm' _) h₃,
          Quiet.stack_eq (Quiet.asm' _) h₂]
        exact hc
      · rw [hm1, Int.tmod_neg, Int.tmod_one]
        refine inReg_ofInt (by decide) ?_
        rw [Machine.gp_goto, hz₃]
        rfl
    · -- the quotient by -1 overflows for the least value only
      have hrem' : isRem = false := by simpa using hrem
      have hguard : ∀ (c' : Compiler) (M' : Machine), c'.stack = c.stack →
          Dividing M₀ M' fb cap s vs t r n d → (M'.cpu.flags.zf = true ↔ t.toInt n = t.lo) →
          Runs K X (do
            asm (Asm.jcc .ne (c.asm.labels + 1))
            let x ← exit (.trap .integerOverflow)
            asm (Asm.bind (c.asm.labels + 1))
            asm (Asm.signExtendAcc (Width.of t.is32))
            let x ← asm (Asm.div (Width.of t.is32) true r)
            J x) Q c' M' := fun c' M' hc' hD' hz' =>
        runs_guard hD'.env (fun _ => .bind (.asm' (.add _)) fun _ => .bind (.asm' (.div _ _ _)) hgJ)
          (fun hne M'' hM'' => hX hrem' (hz'.mp (by simpa [Cond.holds] using hne)) hm1 M''
            (by rwa [hc', hsp] at hM''))
          fun hne c'' t' hc'' => hdivide (fun h => by simp [Cond.holds, hz'.mpr h.1] at hne) c''
            _ ((congrArg Compiler.stack hc'').trans (hc'.trans hc))
            (hD'.step (Steady.goto t') (by simp))
      refine Runs.ite' (fun h32 => ?_) fun h32 => ?_
      · -- a 32-bit least value fits the immediate
        have hb : t.bits = 32 := by simp [IntType.bits, h32]
        refine Runs.bind (runs_cmpImm (by decide : rax.IsGp) (Width.of t.is32) (-2147483648)
          fun M₃ (hs₃ : Steady _ M₃ fb ∅) hz₃ => ?_) fun u => gjp₂ _ u
        refine hguard _ _ rfl ((hD₂ _).step hs₃ (Finset.empty_subset _)) ?_
        rw [hz₃, (hD₂ _).dividend.of_int.2, bits_of, eq_ofInt_iff hs (by rw [hb]; decide), hlo, hb]
        rfl
      · -- a 64-bit one goes through the scratch register
        have hb : t.bits = 64 := by simp [IntType.bits, h32]
        refine Runs.bind (runs_movImm64 (hD₂ _).env (r := scratchGp) (by decide) (by decide)
          fun M₃ (hs₃ : Steady _ M₃ fb {scratchGp})
            (hv₃ : M₃.gp scratchGp.gpr = 0x8000000000000000) => ?_) fun _ =>
            .bind (.asm' (.aluRR _ _ _ _)) (gjp₂ _)
        have hD₃ := (hD₂ _).step hs₃ (by simp)
        refine Runs.bind (runs_cmpReg (by decide : rax.IsGp) (by decide : scratchGp.IsGp)
          (Width.of t.is32) fun M₄ (hs₄ : Steady _ M₄ fb ∅) hz₄ => ?_) fun u => gjp₂ _ u
        refine hguard _ _ rfl (hD₃.step hs₄ (Finset.empty_subset _)) ?_
        rw [hz₄, hD₃.dividend.of_int.2, hv₃, bits_of,
          show (0x8000000000000000 : UInt64) = UInt64.ofInt (-9223372036854775808) by decide,
          eq_ofInt_iff hs (by rw [hb]; decide), hlo, hb]
        rfl

end Signed

section Join

variable {K : Code} {X : Machine → Prop} {c : Compiler} {M₀ M₁ : Machine} {s : ValueStack}
  {t : IntType} {r : Reg} {n d : UInt64} {x : Location} {isRem : Bool} {v : UInt64}

theorem grows_divisionEnd (x : Location) (isRem : Bool) (ty : SlotType) :
    Grows (do
      release x
      match if isRem = true then (rdx, rax) else (rax, rdx) with
      | (result, other) => do
        releaseReg other
        pushRegister result ty) := by
  refine .bind ?_ fun _ => ?_
  · unfold release
    split
    · exact .stk' _
    · exact .pure' _
  · cases isRem <;> exact .bind (.stk' _) fun _ => (silent_pushRegister _ _).grows

theorem grows_divisionJoin (done : Nat) (x : Location) (isRem : Bool) (ty : SlotType) :
    Grows (do
      asm (Asm.bind done)
      release x
      match if isRem = true then (rdx, rax) else (rax, rdx) with
      | (result, other) => do
        releaseReg other
        pushRegister result ty) :=
  .bind (.asm' (.bindLabel done)) fun _ => grows_divisionEnd x isRem ty

theorem runs_divisionEnd (hD : Dividing M₀ M₁ fb cap s vs t r n d) (hx : x.reg = some r)
    (hst : Steady M₀ M fb divisionRegs) (hv : InReg M t.slotType (if isRem then rdx else rax) v)
    (hc : c.stack = s) {Q : Unit → Compiler → Machine → Prop}
    (hQ : ∀ c' M', Rep M' fb cap c'.stack (vs ++ [v]) → Q () c' M') :
    Runs K X (do
      release x
      match if isRem = true then (rdx, rax) else (rax, rdx) with
      | (result, other) => do
        releaseReg other
        pushRegister result (if t.is32 = true then SlotType.i32 else SlotType.i64)) Q c M := by
  have hR := hD.rep_of_steady hst
  cases isRem
  · exact runs_divisionTail hR hc hD.fit hD.ne hD.room hx (.inl ⟨rfl, rfl⟩) hv fun c' => hQ c' M
  · exact runs_divisionTail hR hc hD.fit hD.ne hD.room hx (.inr ⟨rfl, rfl⟩) hv fun c' => hQ c' M

theorem runs_divisionJoin {done : Nat} (hD : Dividing M₀ M₁ fb cap s vs t r n d)
    (hx : x.reg = some r) (hst : Steady M₀ M fb divisionRegs)
    (hv : InReg M t.slotType (if isRem then rdx else rax) v) (hc : c.stack = s)
    {Q : Unit → Compiler → Machine → Prop}
    (hQ : ∀ c' M', Rep M' fb cap c'.stack (vs ++ [v]) → Q () c' M') :
    Runs K X (do
      asm (Asm.bind done)
      release x
      match if isRem = true then (rdx, rax) else (rax, rdx) with
      | (result, other) => do
        releaseReg other
        pushRegister result (if t.is32 = true then SlotType.i32 else SlotType.i64)) Q c M :=
  Runs.bind (Runs.bindLabel fun a _ _ => runs_divisionEnd (c := { c with asm := a }) hD hx
    (hst.step (Steady.goto (K.addr a.instrs.size)) (Finset.empty_subset _))
    (hv.of_steady (Steady.goto _ : Steady M _ fb ∅) (Finset.notMem_empty _)) hc hQ) fun _ =>
      grows_divisionEnd _ _ _

theorem skip_divisionJoin (isRem : Bool) {done : Nat} (hD : Dividing M₀ M₁ fb cap s vs t r n d)
    (hx : x.reg = some r) (hst : Steady M₀ M fb divisionRegs)
    (hv : InReg M t.slotType (if isRem then rdx else rax) v) (hc : c.stack = s)
    {Q : Unit → Compiler → Machine → Prop}
    (hQ : ∀ c' M', Rep M' fb cap c'.stack (vs ++ [v]) → Q () c' M') :
    Skip K X done (do
      asm (Asm.bind done)
      release x
      match if isRem = true then (rdx, rax) else (rax, rdx) with
      | (result, other) => do
        releaseReg other
        pushRegister result (if t.is32 = true then SlotType.i32 else SlotType.i64)) Q c M :=
  Skip.bindLabel (fun _ => grows_divisionEnd _ _ _) fun a _ =>
    runs_divisionEnd (c := { c with asm := a }) hD hx hst hv hc hQ

end Join

section Run

theorem grows_divisionBranches (t : IntType) (isRem : Bool) (divisor : Location) (d : Reg)
    (done : Nat) :
    Grows (do
      let w := Width.of t.is32
      let resultType : SlotType := if t.is32 then .i32 else .i64
      if t.isSigned then
        let regular ← asm Asm.createLabel
        asm (Asm.aluRI .cmp w d (-1))
        asm (Asm.jcc .ne regular)
        if isRem then
          asm (Asm.aluRR .xor .w32 rdx rdx)
          asm (Asm.jmp done)
        else
          if t.is32 then
            asm (Asm.aluRI .cmp w rax (-2147483648))
          else
            asm (Asm.movRI64 scratchGp 0x8000000000000000)
            asm (Asm.aluRR .cmp w rax scratchGp)
          asm (Asm.jcc .ne regular)
          exit (.trap .integerOverflow)
        asm (Asm.bind regular)
        asm (Asm.signExtendAcc w)
        asm (Asm.div w true d)
      else
        asm (Asm.aluRR .xor .w32 rdx rdx)
        asm (Asm.div w false d)
      asm (Asm.bind done)
      release divisor
      let (result, other) := if isRem then (rdx, rax) else (rax, rdx)
      releaseReg other
      pushRegister result resultType) :=
  .ite' (grows_signedDivision _ _ _ _ fun _ => grows_divisionJoin _ _ _ _)
    (.bind (.asm' (.aluRR _ _ _ _)) fun _ => .bind (.asm' (.div _ _ _)) fun _ =>
      grows_divisionJoin _ _ _ _)

/-- The code of an integer division or remainder, for every type and from every allocation
of its operands and of the values below them, either leaves to the host with the trap that
`divide` gives, or ends with the values below kept and the quotient or remainder on top. -/
theorem runs_intDivision {isRem : Bool} (h : Rep M fb cap c.stack (vs ++ [n, d]))
    (hfit : Fit ∅ c.stack)
    (hty : ∀ ⦃i l⦄, c.stack.slots[i]? = some l → vs.length ≤ i → l.type = t.slotType)
    (hnf : ∀ ⦃i l⦄, c.stack.slots[i]? = some l → i < vs.length → l.flag = none) :
    Runs K (fun M' => ∃ k, t.divide isRem n d = .error k ∧ Exited M' (.trap k) vs.length)
      (Lower.intDivision t isRem)
      (fun _ c' M' => ∃ v, t.divide isRem n d = .ok v ∧ Rep M' fb cap c'.stack (vs ++ [v])) c M := by
  have hroom : vs.length < cap := by
    have := h.sp_le
    rw [← h.length_eq] at this
    simp only [List.length_append, List.length_cons, List.length_nil] at this
    omega
  unfold Lower.intDivision
  refine runs_divisionOperands h hfit hty hnf ?_ fun x r c₁ M₁ hx hra hrd hfit₁ hnf₁ hR₁ hd₁ hn₁ => ?_
  · exact fun x => .bind (silent_regOf x).grows fun d => .bind Silent.createLabel.grows fun _ =>
      .bind (.asm' (.testRR _ _ _)) fun _ => grows_guard fun _ =>
        .bind Silent.createLabel.grows (grows_divisionBranches t isRem x d)
  have hD : Dividing M₁ M₁ fb cap c₁.stack vs t r n d :=
    ⟨hR₁, hfit₁, hnf₁, ⟨hra, hrd⟩, hroom, (Keeps.refl M₁ fb).mono (Finset.empty_subset _) le_rfl,
      hd₁, hn₁⟩
  rw [show regOf x = pure r by unfold regOf; rw [hx], pure_bind]
  refine runs_divisorGuard hD rfl ?_ (fun h0 M' hM' => ⟨_, divide_of_zero h0, hM'⟩)
    fun hd0 c₂ M₂ hc₂ hD₂ => ?_
  · exact .bind Silent.createLabel.grows (grows_divisionBranches t isRem x r)
  refine Runs.bind (Runs.silent Silent.createLabel fun done c₃ h₃ => ?_) ?_
  · cases h₃
    refine Runs.ite' (fun hs => ?_) fun hs => ?_
    · refine runs_signedDivision hs hD₂ ?_ hd0 ?_ ?_ ?_ ?_
      · exact hc₂
      · exact fun _ => grows_divisionJoin _ _ _ _
      · intro hrem hn hd M' hM'
        subst hrem
        exact ⟨_, divide_of_overflow hs hn hd, hM'⟩
      · intro hok c₄ M₄ hc₄ hst hv
        refine runs_divisionJoin hD₂ hx hst hv ?_ ?_
        · exact hc₄
        · exact fun c' M' hR' => ⟨_, divide_of_ne hd0 fun h => hok ⟨h.2.1, h.2.2⟩, hR'⟩
      · intro hrem c₄ M₄ hc₄ hst hv
        subst hrem
        refine skip_divisionJoin true hD₂ hx hst hv ?_ ?_
        · exact hc₄
        · exact fun c' M' hR' => ⟨_, divide_of_ne hd0 (by simp), hR'⟩
    · -- unsigned
      have hs' : t.isSigned = false := by simpa using hs
      refine runs_unsignedDivide hs' hD₂ hd0 ?_ fun c₄ M₄ hc₄ hst hq hr => ?_
      · exact fun _ => grows_divisionJoin _ _ _ _
      · refine runs_divisionJoin (v := t.ofInt (if isRem then (t.toInt n).tmod (t.toInt d)
          else (t.toInt n).tdiv (t.toInt d))) hD₂ hx hst ?_ ((congrArg Compiler.stack hc₄).trans hc₂)
          fun c' M' hR' => ⟨_, divide_of_ne hd0 (by simp [hs']), hR'⟩
        cases isRem
        · exact hq
        · exact hr
  · exact grows_divisionBranches t isRem x r

/-- -7 divided by 2, both `i64` values in the memory slots of a frame entered from the host. -/
theorem runs_intDivision_entry :
    Runs (Code.spaced {} (by decide))
      (fun M' => ∃ k, IntType.s64.divide false 0xFFFFFFFFFFFFFFF9 2 = .error k ∧
        Exited M' (.trap k) 0)
      (Lower.intDivision .s64 false)
      (fun _ c' M' => ∃ v, IntType.s64.divide false 0xFFFFFFFFFFFFFFF9 2 = .ok v ∧
        Rep M' 0 2 c'.stack [v])
      { stack := memoryStack [.i64, .i64], listener := false, features := {}
        fn := FunctionIr.ofBody { params := [.i64, .i64], results := [.i64] } {} [.div .s64] }
      (entryMachine [0xFFFFFFFFFFFFFFF9, 2]) := by
  have hty : ∀ ⦃i : Nat⦄ ⦃l : Location⦄, (memoryStack [.i64, .i64]).slots[i]? = some l →
      l.type = .i64 := by
    intro i l hl
    have := List.mem_of_getElem? (memoryStack_slot hl).1
    simpa using this
  have hrep : Rep (entryMachine [0xFFFFFFFFFFFFFFF9, 2]) 0 2 (memoryStack [.i64, .i64])
      ([] ++ [0xFFFFFFFFFFFFFFF9, 2]) := by
    refine rep_entryMachine rfl (by decide) fun i t v ht _ => ?_
    have : t = .i64 := by simpa using List.mem_of_getElem? ht
    subst this
    exact v.toNat_lt
  show Runs _ (fun M' => ∃ k, _ ∧ Exited M' (.trap k) ([] : List UInt64).length) _
    (fun _ c' M' => ∃ v, _ ∧ Rep M' 0 2 c'.stack ([] ++ [v])) _ _
  refine runs_intDivision ?_ ?_ ?_ ?_
  · exact hrep
  · exact fit_memoryStack (by decide)
  · exact fun i l hl _ => hty hl
  · exact fun i l _ hi => absurd hi (Nat.not_lt_zero i)

end Run

end Amd64

end OnePassJit
