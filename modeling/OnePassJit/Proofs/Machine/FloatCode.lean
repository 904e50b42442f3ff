import OnePassJit.Proofs.Machine.CountZeros
import OnePassJit.Proofs.Machine.FloatBinary

/-!
Float comparisons, `min`, `max` and `copysign` as generated code runs them.

`ucomis` sets the zero, parity and carry flags from how its operands compare
(`ucomisFlags_float`), and each condition the code tests reads one outcome back
(`holds_a_ucomisOf` and its neighbours). An ordering leaves its result in the flags; an
equality materialises two conditions with `setcc` and combines them. `min` and `max` branch
three ways, on operands of one value, on unordered operands and on the rest; `copysign`
masks the sign bit in and out with a constant.

`runs_floatBinop`: for either float type and from every allocation of the two operands and
of the values below them, the code of each of these operations runs to its end, where the
values below are kept and the result answers the operation (`FloatBinop.Answers`).
-/

namespace OnePassJit.Amd64

open Lower ValueStack Vec128

/-! What the conditions read from `ucomis`. -/

section Conditions

variable (o : Ieee.Ordering4)

theorem holds_a_ucomisOf : Cond.a.holds (ucomisOf o) = decide (o = .greater) := by
  cases o <;> rfl

theorem holds_ae_ucomisOf :
    Cond.ae.holds (ucomisOf o) = decide (o = .greater ∨ o = .equal) := by
  cases o <;> rfl

theorem holds_e_ucomisOf : Cond.e.holds (ucomisOf o) = decide (o = .equal ∨ o = .unordered) := by
  cases o <;> rfl

theorem holds_ne_ucomisOf : Cond.ne.holds (ucomisOf o) = decide (o = .greater ∨ o = .less) := by
  cases o <;> rfl

theorem holds_p_ucomisOf : Cond.p.holds (ucomisOf o) = decide (o = .unordered) := by
  cases o <;> rfl

theorem holds_np_ucomisOf : Cond.np.holds (ucomisOf o) = !decide (o = .unordered) := by
  cases o <;> rfl

theorem holds_e_and_np_ucomisOf :
    (Cond.e.holds (ucomisOf o) && Cond.np.holds (ucomisOf o)) = decide (o = .equal) := by
  cases o <;> rfl

theorem holds_ne_or_p_ucomisOf :
    (Cond.ne.holds (ucomisOf o) || Cond.p.holds (ucomisOf o)) = !decide (o = .equal) := by
  cases o <;> rfl

end Conditions

/-! The flags of `ucomis` on the operands of a float type. -/

theorem InReg.goto {M : Machine} {ty : SlotType} {r : Reg} {v : UInt64} (h : InReg M ty r v)
    (a : UInt64) : InReg (M.goto a) ty r v :=
  h.of_steady (Steady.goto a : Steady M _ 0 ∅) (Finset.notMem_empty _)

theorem InReg.of_float {M : Machine} {t : FloatType} {r : Reg} {v : UInt64}
    (h : InReg M t.slotType r v) :
    r.IsXmm ∧ (M.xr r.xmm).floatLane t = v ∧ v.toNat < 2 ^ t.bits := by
  obtain ⟨hr, hv⟩ := (inReg_float_iff t).mp h
  exact ⟨isXmm_of_mem_vecPool hr, hv, hv ▸ toNat_floatLane_lt _ t⟩

theorem ucomisFlags_of_inReg {M : Machine} {t : FloatType} {d s : Reg} {a b : UInt64}
    (hd : InReg M t.slotType d a) (hs : InReg M t.slotType s b) :
    ucomisFlags t.is32 (M.xr d.xmm) (M.xr s.xmm) = ucomisOf (t.format.compare a.toNat b.toNat) := by
  rw [ucomisFlags_float, (InReg.of_float hd).2.1, (InReg.of_float hs).2.1]

theorem AsmGrows.scalar (op : ScalarOp) (is32 : Bool) (d s : Reg) :
    AsmGrows (Asm.scalar op is32 d s) :=
  .bind (.xmm _ _) fun _ => .bind (.xmm _ _) fun _ => .add _

theorem AsmGrows.movGpToXmm (w : Width) (d s : Reg) : AsmGrows (Asm.movGpToXmm w d s) :=
  .bind (.xmm _ _) fun _ => .bind (.gp _ _) fun _ => .add _

/-! Materialising two conditions of the flags into one register. -/

theorem setcc_and_movzx (x y : UInt64) (p q : Bool) :
    ((x &&& ~~~0xFF) ||| (if p then 1 else 0)) &&& ((y &&& ~~~0xFF) ||| (if q then 1 else 0)) &&&
      0xFF = if p && q then 1 else 0 := by
  have hq : (if q then 1 else 0 : UInt64) = 0xFF &&& (if q then 1 else 0) := by cases q <;> decide
  rw [UInt64.and_assoc, setcc_movzx, hq, ← UInt64.and_assoc, setcc_movzx]
  cases p <;> cases q <;> decide

theorem setcc_or_movzx (x y : UInt64) (p q : Bool) :
    ((x &&& ~~~0xFF) ||| (if p then 1 else 0) ||| ((y &&& ~~~0xFF) ||| (if q then 1 else 0))) &&&
      0xFF = if p || q then 1 else 0 := by
  have h : ((x &&& ~~~0xFF) ||| (if p then 1 else 0) ||| ((y &&& ~~~0xFF) ||| (if q then 1 else 0)))
      &&& 0xFF = (if p then 1 else 0) ||| (if q then 1 else 0) := by
    apply UInt64.toBitVec_inj.mp
    rw [UInt64.toBitVec_and, UInt64.toBitVec_or, BitVec.and_or_distrib_right, ← UInt64.toBitVec_and,
      ← UInt64.toBitVec_and, setcc_movzx, setcc_movzx, UInt64.toBitVec_or]
  rw [h]
  cases p <;> cases q <;> decide

theorem lowByte_low32 (z : UInt64) : (z &&& low32 &&& low32 &&& 0xFF) &&& low32 = z &&& 0xFF := by
  simp only [UInt64.and_assoc]
  rfl

theorem Rep.length_lt {M : Machine} {fb cap : Nat} {s : ValueStack} {vs ws : List UInt64}
    (h : Rep M fb cap s (vs ++ ws)) (hws : ws ≠ []) : vs.length < cap := by
  have := h.sp_le
  rw [← h.length_eq, List.length_append] at this
  have := List.length_pos_iff.mpr hws
  omega

section Operands

variable {K : Code} {X : Machine → Prop} {c : Compiler} {M : Machine} {fb cap : Nat}
  {vs : List UInt64} {β : Type}

theorem runs_floatOperands {t : FloatType} {a b : UInt64} (h : Rep M fb cap c.stack (vs ++ [a, b]))
    (hfit : Fit ∅ c.stack)
    (hty : ∀ ⦃i l⦄, c.stack.slots[i]? = some l → vs.length ≤ i → l.type = t.slotType)
    (hnf : ∀ ⦃i l⦄, c.stack.slots[i]? = some l → i < vs.length → l.flag = none)
    {f : Location × Location → LowerM β} {Q : β → Compiler → Machine → Prop}
    (hg : ∀ x, Grows (f x))
    (hf : ∀ x₁ x₂ r₁ r₂ c' M', x₁.reg = some r₁ → x₂.reg = some r₂ → x₁.type = t.slotType →
      r₁ ≠ r₂ → Fit {r₁, r₂} c'.stack → c'.stack.NoFlags → Rep M' fb cap c'.stack vs →
      vs.length < cap → InReg M' t.slotType r₁ a → InReg M' t.slotType r₂ b →
      Runs K X (f (x₁, x₂)) Q c' M') :
    Runs K X (popTwo >>= f) Q c M :=
  Runs.bind (runs_popTwo (FloatType.slotType_ne t) h hfit hty hnf
    fun x₁ x₂ r₁ r₂ c₁ M₁ hx₁ hx₂ htx hne hfit₁ hnf₁ hR₁ ha hb =>
      hf x₁ x₂ r₁ r₂ c₁ M₁ hx₁ hx₂ htx hne hfit₁ hnf₁ hR₁ (h.length_lt (by simp)) ha hb) hg

theorem grows_releasePush (x₁ x₂ : Location) (r : Reg) (ty : SlotType) :
    Grows (do release x₁; release x₂; pushRegister r ty) :=
  .bind (silent_release _).grows fun _ => .bind (silent_release _).grows fun _ =>
    (silent_pushRegister _ _).grows

theorem runs_releasePush {x₁ x₂ : Location} {r₁ r₂ r : Reg} (hx₁ : x₁.reg = some r₁)
    (hx₂ : x₂.reg = some r₂) (hne : r₁ ≠ r₂) (hr : r ∉ ({r₁, r₂} : Finset Reg))
    (h : Rep M fb cap c.stack vs) (hfit : Fit (insert r {r₁, r₂}) c.stack)
    (hroom : vs.length < cap) {ty : SlotType} (hty : ty ≠ .v128lo ∧ ty ≠ .v128hi) {v : UInt64}
    (hv : InReg M ty r v) :
    Runs K X (do release x₁; release x₂; pushRegister r ty)
      (fun _ c' M' => Rep M' fb cap c'.stack (vs ++ [v])) c M := by
  simp only [Finset.mem_insert, Finset.mem_singleton, not_or] at hr
  rw [Finset.insert_comm] at hfit
  refine Runs.bind (runs_release hx₁ h hfit (by simpa using ⟨Ne.symm hr.1, hne⟩)
    fun c₁ hfit₁ hR₁ => ?_) fun _ => .bind (silent_release _).grows fun _ =>
      (silent_pushRegister _ _).grows
  rw [Finset.pair_comm] at hfit₁
  refine Runs.bind (runs_release hx₂ hR₁ hfit₁ (by simpa using Ne.symm hr.2)
    fun c₂ hfit₂ hR₂ => ?_) fun _ => (silent_pushRegister _ _).grows
  refine runs_pushRegister hR₂ hfit₂ (Finset.mem_singleton_self r) hty.2 hv
    (fun h => (absurd h hty.1 : InReg M .v128hi r 0)) ?_ fun c₃ _ hR₃ => ?_
  · rw [if_neg hty.1, ← hR₂.length_eq]
    exact hroom
  · rwa [if_neg hty.1] at hR₃

end Operands

section Materialise

variable {K : Code} {X : Machine → Prop} {c : Compiler} {M : Machine} {fb cap : Nat}

theorem runs_setcc (henv : Env M fb cap) {r : Reg} (hr : r.IsGp) (cond : Cond)
    {Q : Unit → Compiler → Machine → Prop}
    (hQ : ∀ M', Keeps M M' fb {r} 0 →
      M'.gp r.gpr = (M.gp r.gpr &&& ~~~0xFF) ||| (if cond.holds M.cpu.flags then 1 else 0) →
      Q () { c with asm := Asm.pushed c.asm (.setcc cond r.gpr) } M') :
    Runs K X (asm (Asm.setcc cond r)) Q c M :=
  Runs.step (Asm.setcc_eq hr _ _) (Machine.exec_setcc _ _) rfl
    (hQ _ (Keeps.goto_setGpW henv.gpr_size hr _ _ _)
      (Machine.gp_goto_setGpW_self henv.gpr_size _ _ _ _))

theorem runs_movzx8 (henv : Env M fb cap) {d s : Reg} (hd : d.IsGp) (hs : s.IsGp)
    {Q : Unit → Compiler → Machine → Prop}
    (hQ : ∀ M', Keeps M M' fb {d} 0 → M'.gp d.gpr = M.gp s.gpr &&& 0xFF &&& low32 →
      Q () { c with asm := Asm.pushed c.asm (.movzx8RR d.gpr s.gpr) } M') :
    Runs K X (asm (Asm.movzx8RR d s)) Q c M :=
  Runs.step (Asm.movzx8RR_eq hd hs _) (Machine.exec_movzx8RR _ _) rfl
    (hQ _ (Keeps.goto_setGpW henv.gpr_size hd _ _ _)
      (Machine.gp_goto_setGpW_self henv.gpr_size _ _ _ _))

theorem runs_aluRR (henv : Env M fb cap) {d s : Reg} (hd : d.IsGp) (hs : s.IsGp) (op : AluOp)
    (hop : op ≠ .cmp) (w : Width) {Q : Unit → Compiler → Machine → Prop}
    (hQ : ∀ M', Steady M M' fb {d} →
      M'.gp d.gpr = Machine.widen w (alu op w (M.gp d.gpr) (M.gp s.gpr) M.cpu.flags).1 →
      Q () { c with asm := Asm.pushed c.asm (.aluRR op w d.gpr s.gpr) } M') :
    Runs K X (asm (Asm.aluRR op w d s)) Q c M := by
  have hM : ((M.goto (K.addr (c.asm.instrs.size + 1))).setFlags
      (alu op w (M.gp d.gpr) (M.gp s.gpr) M.cpu.flags).2).cpu.gpr.size = 16 := henv.gpr_size
  have hex : M.exec (.aluRR op w d.gpr s.gpr) (K.addr (c.asm.instrs.size + 1)) =
      .ok (((M.goto (K.addr (c.asm.instrs.size + 1))).setFlags
        (alu op w (M.gp d.gpr) (M.gp s.gpr) M.cpu.flags).2).setGpW w d.gpr
          (alu op w (M.gp d.gpr) (M.gp s.gpr) M.cpu.flags).1) := by
    rw [Machine.exec_aluRR, if_neg (by simpa using hop)]
  refine Runs.step (Asm.aluRR_eq hd hs op w _) hex rfl
    (hQ _ ((Steady.goto_setFlags _ _).trans (Steady.of_keeps (Keeps.setGpW hM hd _ _))) ?_)
  rw [Machine.gp_setGpW hM, if_pos rfl]

theorem grows_setFlagPair (c₁ c₂ : Cond) (op : AluOp) (r p : Reg) {β : Type}
    {k : Unit → LowerM β} (hk : ∀ x, Grows (k x)) :
    Grows (do
      asm (Asm.setcc c₁ r)
      asm (Asm.setcc c₂ p)
      asm (Asm.aluRR op .w32 r p)
      asm (Asm.movzx8RR r r)
      k ()) :=
  .bind (.asm' (.setcc _ _)) fun _ => .bind (.asm' (.setcc _ _)) fun _ =>
    .bind (.asm' (.aluRR _ _ _ _)) fun _ => .bind (.asm' (.movzx8RR _ _)) hk

theorem runs_setFlagPair (henv : Env M fb cap) {r p : Reg} (hr : r ∈ gpPool) (hp : p ∈ gpPool)
    (hne : r ≠ p) (c₁ c₂ : Cond) {op : AluOp} {g : Bool → Bool → Bool}
    (hop : op = .and ∧ g = Bool.and ∨ op = .or ∧ g = Bool.or) {β : Type}
    {k : Unit → LowerM β} (hk : ∀ x, Grows (k x)) {Q : β → Compiler → Machine → Prop}
    (hQ : ∀ c' M', c' = { c with asm := c'.asm } → Steady M M' fb {r, p} →
      InReg M' .i32 r (if g (c₁.holds M.cpu.flags) (c₂.holds M.cpu.flags) then 1 else 0) →
      Runs K X (k ()) Q c' M') :
    Runs K X (do
      asm (Asm.setcc c₁ r)
      asm (Asm.setcc c₂ p)
      asm (Asm.aluRR op .w32 r p)
      asm (Asm.movzx8RR r r)
      k ()) Q c M := by
  have hr' := isGp_of_mem_gpPool hr
  have hp' := isGp_of_mem_gpPool hp
  refine Runs.bind (runs_setcc henv hr' c₁ fun M₁ hk₁ hv₁ => ?_) fun _ =>
    .bind (.asm' (.setcc _ _)) fun _ => .bind (.asm' (.aluRR _ _ _ _)) fun _ =>
      .bind (.asm' (.movzx8RR _ _)) hk
  have henv₁ := henv.of_keeps hk₁ (by simpa using writable_of_mem_gpPool hr)
  refine Runs.bind (runs_setcc henv₁ hp' c₂ fun M₂ hk₂ hv₂ => ?_) fun _ =>
    .bind (.asm' (.aluRR _ _ _ _)) fun _ => .bind (.asm' (.movzx8RR _ _)) hk
  have henv₂ := henv₁.of_keeps hk₂ (by simpa using writable_of_mem_gpPool hp)
  have hop' : op ≠ .cmp := by rcases hop with ⟨rfl, -⟩ | ⟨rfl, -⟩ <;> decide
  refine Runs.bind (runs_aluRR henv₂ hr' hp' op hop' .w32 fun M₃ hs₃ hv₃ => ?_) fun _ =>
    .bind (.asm' (.movzx8RR _ _)) hk
  have henv₃ := henv₂.of_steady hs₃ (by simpa using writable_of_mem_gpPool hr)
  refine Runs.bind (runs_movzx8 henv₃ hr' hr' fun M₄ hk₄ hv₄ => ?_) hk
  have hs : Steady M M₄ fb {r, p} :=
    ((((Steady.of_keeps hk₁).trans (Steady.of_keeps hk₂)).trans hs₃).trans
      (Steady.of_keeps hk₄)).mono (by intro x; simp; tauto)
  refine hQ _ _ rfl hs ⟨hr, ?_, ?_⟩
  · -- each `setcc` leaves the other's register, and the flags, as they were
    have hr₂ : M₂.gp r.gpr = M₁.gp r.gpr :=
      hk₂.gp _ (gpr_ne_of_not_mem hr' (by simpa using hne))
    have hp₁ : M₁.gp p.gpr = M.gp p.gpr :=
      hk₁.gp _ (gpr_ne_of_not_mem hp' (by simpa using hne.symm))
    rw [hv₄, hv₃, hr₂, hv₂, hv₁, hp₁, hk₁.flags]
    rcases hop with ⟨rfl, rfl⟩ | ⟨rfl, rfl⟩
    · exact (lowByte_low32 _).trans (setcc_and_movzx _ _ _ _)
    · exact (lowByte_low32 _).trans (setcc_or_movzx _ _ _ _)
  · split <;> decide

end Materialise

section Order

variable {K : Code} {X : Machine → Prop} {c : Compiler} {M : Machine} {fb cap : Nat}
  {vs : List UInt64}

theorem grows_releasePushFlag (x₁ x₂ : Location) (f : Flag) :
    Grows (do release x₁; release x₂; pushFlag f) :=
  .bind (silent_release _).grows fun _ => .bind (silent_release _).grows
    fun _ => (silent_pushFlag _).grows

theorem runs_releasePushFlag {x₁ x₂ : Location} {r₁ r₂ : Reg} (hx₁ : x₁.reg = some r₁)
    (hx₂ : x₂.reg = some r₂) (hne : r₁ ≠ r₂) (h : Rep M fb cap c.stack vs)
    (hfit : Fit {r₁, r₂} c.stack) (hroom : vs.length < cap) (f : Flag) :
    Runs K X (do release x₁; release x₂; pushFlag f)
      (fun _ c' M' => Rep M' fb cap c'.stack
        (vs ++ [if (condOf f).holds M.cpu.flags then 1 else 0])) c M := by
  refine Runs.bind (runs_release hx₁ h hfit (by simpa using hne) fun c₁ hfit₁ hR₁ => ?_)
    fun _ => .bind (silent_release _).grows fun _ => (silent_pushFlag _).grows
  rw [← Finset.insert_empty] at hfit₁
  refine Runs.bind (runs_release hx₂ hR₁ hfit₁ (Finset.notMem_empty _) fun c₂ hfit₂ hR₂ => ?_)
    fun _ => (silent_pushFlag _).grows
  exact runs_pushFlag hR₂ hfit₂ (by rw [← hR₂.length_eq]; exact hroom) f fun _ _ _ hR' => hR'

theorem runs_ucomisPushFlag {x₁ x₂ : Location} {r₁ r₂ d s : Reg} (hx₁ : x₁.reg = some r₁)
    (hx₂ : x₂.reg = some r₂) (hne : r₁ ≠ r₂) (h : Rep M fb cap c.stack vs)
    (hfit : Fit {r₁, r₂} c.stack) (hnf : c.stack.NoFlags) (hroom : vs.length < cap)
    {t : FloatType} {a b : UInt64} (hd : InReg M t.slotType d a) (hs : InReg M t.slotType s b)
    (f : Flag) :
    Runs K X (do asm (Asm.scalar .ucomis t.is32 d s); release x₁; release x₂; pushFlag f)
      (fun _ c' M' => Rep M' fb cap c'.stack (vs ++
        [if (condOf f).holds (ucomisOf (t.format.compare a.toNat b.toNat)) then 1 else 0]))
      c M := by
  refine Runs.bind (runs_ucomis (InReg.of_float hd).1 (InReg.of_float hs).1 t.is32
    fun M₁ (hs₁ : Steady _ M₁ fb ∅) hfl => ?_) fun _ => grows_releasePushFlag _ _ _
  rw [← ucomisFlags_of_inReg hd hs, ← hfl]
  exact runs_releasePushFlag
    (c := { c with asm := Asm.pushed c.asm (.scalar .ucomis t.is32 d.xmm s.xmm) }) hx₁ hx₂ hne
    (h.of_steady hfit.1 hnf hs₁ (by simp) (by simp)) hfit hroom f

theorem runs_floatOrder (t : FloatType) {op : FloatBinop}
    (hop : op = .lt ∨ op = .gt ∨ op = .le ∨ op = .ge) {a b : UInt64}
    (h : Rep M fb cap c.stack (vs ++ [a, b])) (hfit : Fit ∅ c.stack)
    (hty : ∀ ⦃i l⦄, c.stack.slots[i]? = some l → vs.length ≤ i → l.type = t.slotType)
    (hnf : ∀ ⦃i l⦄, c.stack.slots[i]? = some l → i < vs.length → l.flag = none) :
    Runs K X (Lower.operation (op.toOperation t))
      (fun _ c' M' => ∃ r, op.Answers t.format a.toNat b.toNat r.toNat ∧
        Rep M' fb cap c'.stack (vs ++ [r])) c M := by
  have hinf := FloatType.infMag_pos t
  rcases hop with rfl | rfl | rfl | rfl <;>
  · show Runs K X (Lower.compare t.cmpType _) _ c M
    unfold Lower.compare
    refine runs_floatOperands h hfit hty hnf (fun _ => ?_)
      fun x₁ x₂ r₁ r₂ c₁ M₁ hx₁ hx₂ _ hne hfit₁ hnf₁ hR₁ hroom ha hb => ?_
    · refine .bind (silent_regOf _).grows fun r₁ => .bind (silent_regOf _).grows fun r₂ => ?_
      cases t <;> simp only [FloatType.cmpType, beq_self_eq_true, pure_bind] <;>
        exact .bind (.asm' (.scalar _ _ _ _)) fun _ => grows_releasePushFlag _ _ _
    dsimp only
    rw [regOf_of_reg hx₁, regOf_of_reg hx₂, pure_bind, pure_bind]
    have run := fun {d s a' b'} (hd : InReg M₁ t.slotType d a') (hs : InReg M₁ t.slotType s b') =>
      runs_ucomisPushFlag (K := K) (X := X) hx₁ hx₂ hne hR₁ hfit₁ hnf₁ hroom hd hs
    cases t <;> simp only [FloatType.cmpType, beq_self_eq_true, pure_bind] <;>
      (first
      | refine ((run ha hb) _).mono (fun _ h => h) fun _ _ _ hR => ⟨_, ?_, hR⟩
      | refine ((run hb ha) _).mono (fun _ h => h) fun _ _ _ hR => ⟨_, ?_, hR⟩) <;>
      simp only [apply_ite UInt64.toNat, UInt64.toNat_one, UInt64.toNat_zero, condOf,
        holds_a_ucomisOf, holds_ae_ucomisOf, decide_eq_true_eq] <;>
      first
      | exact FloatBinop.answers_lt hinf
      | exact FloatBinop.answers_gt hinf
      | exact FloatBinop.answers_le hinf
      | exact FloatBinop.answers_ge hinf

end Order

section Equality

variable {K : Code} {X : Machine → Prop} {c : Compiler} {M : Machine} {fb cap : Nat}
  {vs : List UInt64}

theorem grows_equalityEnd (p r : Reg) (x₁ x₂ : Location) :
    Grows (do releaseReg p; release x₁; release x₂; pushRegister r .i32) :=
  .bind (silent_releaseReg _).grows fun _ => grows_releasePush _ _ _ _

theorem runs_equalityEnd {x₁ x₂ : Location} {r₁ r₂ r p : Reg} (hx₁ : x₁.reg = some r₁)
    (hx₂ : x₂.reg = some r₂) (hne : r₁ ≠ r₂) (hr : r ∉ ({r₁, r₂} : Finset Reg))
    (hp : p ∉ insert r ({r₁, r₂} : Finset Reg)) (h : Rep M fb cap c.stack vs)
    (hfit : Fit (insert p (insert r {r₁, r₂})) c.stack) (hroom : vs.length < cap) {v : UInt64}
    (hv : InReg M .i32 r v) :
    Runs K X (do releaseReg p; release x₁; release x₂; pushRegister r .i32)
      (fun _ c' M' => Rep M' fb cap c'.stack (vs ++ [v])) c M :=
  Runs.bind (runs_releaseReg h hfit hp fun _ hfit₁ hR₁ =>
    runs_releasePush hx₁ hx₂ hne hr hR₁ hfit₁ hroom (by decide) hv)
    fun _ => grows_releasePush _ _ _ _

theorem grows_equalityFlags (isEq : Bool) (x₁ x₂ : Location) (result parity : Reg) : Grows (do
    if isEq then
      asm (Asm.setcc .e result)
      asm (Asm.setcc .np parity)
      asm (Asm.aluRR .and .w32 result parity)
    else
      asm (Asm.setcc .ne result)
      asm (Asm.setcc .p parity)
      asm (Asm.aluRR .or .w32 result parity)
    asm (Asm.movzx8RR result result)
    releaseReg parity
    release x₁
    release x₂
    pushRegister result .i32) :=
  .ite' (grows_setFlagPair _ _ _ _ _ fun _ => grows_equalityEnd _ _ _ _)
    (grows_setFlagPair _ _ _ _ _ fun _ => grows_equalityEnd _ _ _ _)

theorem runs_equalityBody {x₁ x₂ : Location} {r₁ r₂ : Reg} (hx₁ : x₁.reg = some r₁)
    (hx₂ : x₂.reg = some r₂) (hne : r₁ ≠ r₂) (h : Rep M fb cap c.stack vs)
    (hfit : Fit {r₁, r₂} c.stack) (hnf : c.stack.NoFlags) (hroom : vs.length < cap)
    {t : FloatType} {a b : UInt64} (ha : InReg M t.slotType r₁ a) (hb : InReg M t.slotType r₂ b)
    (isEq : Bool) :
    Runs K X (do
      asm (Asm.scalar .ucomis t.is32 r₁ r₂)
      let result ← allocate .gp
      let parity ← allocate .gp
      if isEq then
        asm (Asm.setcc .e result)
        asm (Asm.setcc .np parity)
        asm (Asm.aluRR .and .w32 result parity)
      else
        asm (Asm.setcc .ne result)
        asm (Asm.setcc .p parity)
        asm (Asm.aluRR .or .w32 result parity)
      asm (Asm.movzx8RR result result)
      releaseReg parity
      release x₁
      release x₂
      pushRegister result .i32)
      (fun _ c' M' => Rep M' fb cap c'.stack (vs ++
        [if decide (t.format.compare a.toNat b.toNat = .equal) = isEq then 1 else 0])) c M := by
  refine Runs.bind (runs_ucomis (InReg.of_float ha).1 (InReg.of_float hb).1 t.is32
    fun M₁ (hs₁ : Steady _ M₁ fb ∅) hfl => ?_) fun _ => ?_
  · rw [ucomisFlags_of_inReg ha hb] at hfl
    have hR₁ := h.of_steady hfit.1 hnf hs₁ (by simp) (by simp)
    refine Runs.bind (runs_allocateFresh
      (c := { c with asm := Asm.pushed c.asm (.scalar .ucomis t.is32 r₁.xmm r₂.xmm) })
      hR₁ hfit (Finset.card_le_two.trans_lt (by decide))
      .gp fun r c₂ M₂ hr hrT hfit₂ hsp₂ hR₂ hk₂ => ?_) fun _ => ?_
    · refine Runs.bind (runs_allocateFresh hR₂ hfit₂ ((Finset.card_insert_le _ _).trans_lt
        (Nat.succ_lt_succ (Finset.card_le_two.trans_lt (by decide)))) .gp
        fun p c₃ M₃ hp hpT hfit₃ hsp₃ hR₃ hk₃ => ?_) fun _ => ?_
      · have hflags : M₃.cpu.flags = ucomisOf (t.format.compare a.toNat b.toNat) :=
          hk₃.flags.trans (hk₂.flags.trans hfl)
        have hrp : r ≠ p := fun e => hpT (e ▸ Finset.mem_insert_self _ _)
        have hnf₃ : c₃.stack.NoFlags := hsp₃.moves.noFlags (hsp₂.moves.noFlags hnf)
        have hW : ∀ w ∈ ({r, p} : Finset Reg), Writable w := by
          simpa using ⟨writable_of_mem_gpPool hr, writable_of_mem_gpPool hp⟩
        have hfree : ∀ w ∈ ({r, p} : Finset Reg), ¬ c₃.stack.Holds w := fun w hw =>
          hfit₃.1.temp_free w
            (by simp only [Finset.mem_insert, Finset.mem_singleton] at hw ⊢; tauto)
        have hend : ∀ c₄ M₄ {v : UInt64}, c₄ = { c₃ with asm := c₄.asm } →
            Steady M₃ M₄ fb {r, p} → InReg M₄ .i32 r v →
            Runs K X (do releaseReg p; release x₁; release x₂; pushRegister r .i32)
              (fun _ c' M' => Rep M' fb cap c'.stack (vs ++ [v])) c₄ M₄ := by
          intro c₄ M₄ v hc₄ hs₄ hv₄
          rw [hc₄]
          exact runs_equalityEnd (c := { c₃ with asm := c₄.asm }) hx₁ hx₂ hne hrT hpT
            (hR₃.of_steady hfit₃.1 hnf₃ hs₄ hW hfree) hfit₃ hroom hv₄
        cases isEq
        · refine runs_setFlagPair hR₃.env hr hp hrp .ne .p (Or.inr ⟨rfl, rfl⟩)
            (fun _ => grows_equalityEnd _ _ _ _) fun c₄ M₄ hc₄ hs₄ hv₄ => hend c₄ M₄ hc₄ hs₄ ?_
          simpa only [hflags, holds_ne_or_p_ucomisOf, Bool.not_eq_true'] using hv₄
        · refine runs_setFlagPair hR₃.env hr hp hrp .e .np (Or.inl ⟨rfl, rfl⟩)
            (fun _ => grows_equalityEnd _ _ _ _) fun c₄ M₄ hc₄ hs₄ hv₄ => hend c₄ M₄ hc₄ hs₄ ?_
          rwa [hflags, holds_e_and_np_ucomisOf] at hv₄
      · exact grows_equalityFlags _ _ _ _ _
    · exact .bind (grows_allocate _ _) fun _ => grows_equalityFlags _ _ _ _ _
  · exact .bind (grows_allocate _ _) fun _ => .bind (grows_allocate _ _) fun _ =>
      grows_equalityFlags _ _ _ _ _

theorem runs_floatEquality (t : FloatType) {op : FloatBinop} (hop : op = .eq ∨ op = .ne)
    {a b : UInt64} (h : Rep M fb cap c.stack (vs ++ [a, b])) (hfit : Fit ∅ c.stack)
    (hty : ∀ ⦃i l⦄, c.stack.slots[i]? = some l → vs.length ≤ i → l.type = t.slotType)
    (hnf : ∀ ⦃i l⦄, c.stack.slots[i]? = some l → i < vs.length → l.flag = none) :
    Runs K X (Lower.operation (op.toOperation t))
      (fun _ c' M' => ∃ r, op.Answers t.format a.toNat b.toNat r.toNat ∧
        Rep M' fb cap c'.stack (vs ++ [r])) c M := by
  have hinf := FloatType.infMag_pos t
  rcases hop with rfl | rfl <;>
  · show Runs K X (Lower.eqOrNe t.numType _) _ c M
    unfold Lower.eqOrNe
    refine runs_floatOperands h hfit hty hnf (fun _ => ?_)
      fun x₁ x₂ r₁ r₂ c₁ M₁ hx₁ hx₂ _ hne hfit₁ hnf₁ hR₁ hroom ha hb => ?_
    · refine .bind (silent_regOf _).grows fun r₁ => .bind (silent_regOf _).grows fun r₂ => ?_
      cases t <;> exact .bind (.asm' (.scalar _ _ _ _)) fun _ => .bind (grows_allocate _ _)
        fun _ => .bind (grows_allocate _ _) fun _ => grows_equalityFlags _ _ _ _ _
    dsimp only
    rw [regOf_of_reg hx₁, regOf_of_reg hx₂, pure_bind, pure_bind]
    have run := runs_equalityBody (K := K) (X := X) hx₁ hx₂ hne hR₁ hfit₁ hnf₁ hroom ha hb
    cases t <;>
      refine (run _).mono (fun _ h => h) fun _ _ _ hR => ⟨_, ?_, hR⟩ <;>
      simp only [apply_ite UInt64.toNat, UInt64.toNat_one, UInt64.toNat_zero, decide_eq_true_eq,
        decide_eq_false_iff_not, ite_not] <;>
      first
      | exact FloatBinop.answers_eq hinf
      | exact FloatBinop.answers_ne hinf

end Equality

/-! `min` and `max`. -/

theorem Ieee.Format.minimum_lt {f : Ieee.Format} {a b n : Nat} (ha : a < n) (hb : b < n) :
    f.minimum a b < n := by
  unfold Ieee.Format.minimum
  split <;> assumption

theorem Ieee.Format.maximum_lt {f : Ieee.Format} {a b n : Nat} (ha : a < n) (hb : b < n) :
    f.maximum a b < n := by
  unfold Ieee.Format.maximum
  split <;> assumption

theorem FloatType.toNat_toUInt64 (t : FloatType) {n : Nat} (h : n < 2 ^ t.bits) :
    n.toUInt64.toNat = n :=
  UInt64.toNat_ofNat_of_lt' (lt_of_lt_of_le h (Nat.pow_le_pow_right (by omega) t.bits_le))

theorem FloatType.fracBits_pos (t : FloatType) : 0 < t.format.fracBits := by
  cases t <;> decide

namespace ScalarOp

variable (t : FloatType) (d s : Vec128)

theorem apply_add : ScalarOp.add.apply t.is32 d s = scalarLane t.bits t.format.add d s := by
  cases t <;> rfl

theorem apply_min : ScalarOp.min.apply t.is32 d s = scalarLane t.bits t.format.minimum d s := by
  cases t <;> rfl

theorem apply_max : ScalarOp.max.apply t.is32 d s = scalarLane t.bits t.format.maximum d s := by
  cases t <;> rfl

theorem apply_or (is32 : Bool) : ScalarOp.or.apply is32 d s = d.or s := rfl

theorem apply_and (is32 : Bool) : ScalarOp.and.apply is32 d s = d.and s := rfl

theorem apply_andn (is32 : Bool) : ScalarOp.andn.apply is32 d s = Vec128.andNot d s := rfl

end ScalarOp

section Lanes

variable {M M' : Machine} {t : FloatType} {r₁ r₂ : Reg} {a b : UInt64}

theorem InReg.scalarLane {op : ScalarOp} {g : Nat → Nat → Nat}
    (hop : ∀ d s, op.apply t.is32 d s = scalarLane t.bits g d s)
    (ha : InReg M t.slotType r₁ a) (hb : InReg M t.slotType r₂ b)
    (hg : g a.toNat b.toNat < 2 ^ t.bits)
    (hv : M'.xr r₁.xmm = op.apply t.is32 (M.xr r₁.xmm) (M.xr r₂.xmm)) :
    InReg M' t.slotType r₁ (g a.toNat b.toNat).toUInt64 := by
  obtain ⟨hr, ha'⟩ := (inReg_float_iff t).mp ha
  have hb' := ((inReg_float_iff t).mp hb).2
  refine (inReg_float_iff t).mpr ⟨hr, ?_⟩
  rw [hv, hop, floatLane_scalarLane _ _ t (by rwa [← toNat_floatLane, ← toNat_floatLane, ha', hb']),
    ha', hb']

theorem InReg.or (ha : InReg M t.slotType r₁ a) (hb : InReg M t.slotType r₂ b)
    (hv : M'.xr r₁.xmm = ScalarOp.or.apply t.is32 (M.xr r₁.xmm) (M.xr r₂.xmm)) :
    InReg M' t.slotType r₁ (a ||| b) := by
  obtain ⟨hr, ha'⟩ := (inReg_float_iff t).mp ha
  refine (inReg_float_iff t).mpr ⟨hr, ?_⟩
  rw [hv, ScalarOp.apply_or, floatLane_or, ha',
    ((inReg_float_iff t).mp hb).2]

theorem InReg.and (ha : InReg M t.slotType r₁ a) (hb : InReg M t.slotType r₂ b)
    (hv : M'.xr r₁.xmm = ScalarOp.and.apply t.is32 (M.xr r₁.xmm) (M.xr r₂.xmm)) :
    InReg M' t.slotType r₁ (a &&& b) := by
  obtain ⟨hr, ha'⟩ := (inReg_float_iff t).mp ha
  refine (inReg_float_iff t).mpr ⟨hr, ?_⟩
  rw [hv, ScalarOp.apply_and, floatLane_and, ha',
    ((inReg_float_iff t).mp hb).2]

end Lanes

/-- While `min` or `max` chooses: `M₀` held the values `vs` of the stack `s` below the
operands, which sit in `r₁` and `r₂`; `M` differs from `M₀` in the flags and `r₁` only, and
`r₂` still holds the second operand `b`. -/
structure Choosing (M₀ M : Machine) (fb cap : Nat) (s : ValueStack) (vs : List UInt64)
    (t : FloatType) (r₁ r₂ : Reg) (b : UInt64) : Prop where
  rep : Rep M₀ fb cap s vs
  fit : Fit {r₁, r₂} s
  noFlags : s.NoFlags
  ne : r₁ ≠ r₂
  room : vs.length < cap
  pool : r₁ ∈ vecPool
  steady : Steady M₀ M fb {r₁}
  second : InReg M t.slotType r₂ b

namespace Choosing

variable {M₀ M M' : Machine} {fb cap : Nat} {s : ValueStack} {vs : List UInt64} {t : FloatType}
  {r₁ r₂ : Reg} {b : UInt64}

theorem rep_of_steady (h : Choosing M₀ M fb cap s vs t r₁ r₂ b) (hs : Steady M₀ M' fb {r₁}) :
    Rep M' fb cap s vs :=
  h.rep.of_steady h.fit.1 h.noFlags hs
    (by simpa using writable_of_isXmm (isXmm_of_mem_vecPool h.pool))
    (by simpa using h.fit.1.temp_free r₁ (by simp))

theorem env (h : Choosing M₀ M fb cap s vs t r₁ r₂ b) : Env M fb cap :=
  (h.rep_of_steady h.steady).env

theorem step {W : Finset Reg} (h : Choosing M₀ M fb cap s vs t r₁ r₂ b) (hs : Steady M M' fb W)
    (hW : W ⊆ {r₁}) : Choosing M₀ M' fb cap s vs t r₁ r₂ b :=
  { h with
    steady := h.steady.step hs hW
    second := h.second.of_steady hs fun hm => h.ne (Finset.mem_singleton.mp (hW hm)).symm }

theorem goto (h : Choosing M₀ M fb cap s vs t r₁ r₂ b) (a : UInt64) :
    Choosing M₀ (M.goto a) fb cap s vs t r₁ r₂ b :=
  h.step (Steady.goto a) (Finset.empty_subset _)

end Choosing

theorem FloatBinop.answers_choice {f : Ieee.Format} {a b : Nat} (isMin : Bool) (hf : 0 < f.infMag)
    (hp : 0 < f.fracBits) (ha : a < 2 ^ f.width) (hb : b < 2 ^ f.width) :
    (if isMin then FloatBinop.min else .max).Answers f a b
      (if f.compare a b = .unordered then f.add a b
        else if f.compare a b = .equal then (if isMin then a ||| b else a &&& b)
        else if isMin then f.minimum a b else f.maximum a b) := by
  cases isMin
  · exact FloatBinop.answers_max hf hp ha hb
  · exact FloatBinop.answers_min hf hp ha hb

section Choice

variable {K : Code} {X : Machine → Prop} {c : Compiler} {M₀ M : Machine} {fb cap : Nat}
  {vs : List UInt64} {s : ValueStack} {t : FloatType} {r₁ r₂ : Reg} {b : UInt64}
  {Q : Unit → Compiler → Machine → Prop} {β : Type}

theorem Skip.asm' {m : AsmM α} {f : α → LowerM β} {L : Nat} {Q : β → Compiler → Machine → Prop}
    (h : ∀ x a, Skip K X L (f x) Q { c with asm := a } M) : Skip K X L (asm m >>= f) Q c M :=
  Skip.pass fun x c₁ h₁ => by
    rw [Quiet.ok (Quiet.asm' m) h₁]
    exact h x _

theorem runs_choiceEnd (hC : Choosing M₀ M fb cap s vs t r₁ r₂ b) (hc : c.stack = s)
    {x₁ x₂ : Location} (hx₂ : x₂.reg = some r₂) (htx : x₁.type = t.slotType) {v : UInt64}
    (hv : InReg M t.slotType r₁ v) (hQ : ∀ c' M', Rep M' fb cap c'.stack (vs ++ [v]) → Q () c' M') :
    Runs K X (do release x₂; pushRegister r₁ x₁.type) Q c M := by
  have hR := hC.rep_of_steady hC.steady
  have hfit := hC.fit
  rw [← hc] at hR hfit
  rw [Finset.pair_comm] at hfit
  refine Runs.bind (runs_release hx₂ hR hfit (by simpa using hC.ne.symm) fun c₁ hfit₁ hR₁ => ?_)
    fun _ => (silent_pushRegister _ _).grows
  have hty := FloatType.slotType_ne t
  rw [htx]
  refine runs_pushRegister hR₁ hfit₁ (Finset.mem_singleton_self r₁) hty.2 hv
    (fun h => (absurd h hty.1 : InReg M .v128hi r₁ 0)) ?_ fun c₂ _ hR₂ => hQ c₂ M ?_
  · rw [if_neg hty.1, ← hR₁.length_eq]
    exact hC.room
  · rwa [if_neg hty.1] at hR₂

theorem grows_choiceEnd (x₂ : Location) (r₁ : Reg) (ty : SlotType) :
    Grows (do release x₂; pushRegister r₁ ty) :=
  .bind (silent_release _).grows fun _ => (silent_pushRegister _ _).grows

theorem runs_choiceJoin (hC : Choosing M₀ M fb cap s vs t r₁ r₂ b) (hc : c.stack = s)
    {x₁ x₂ : Location} (hx₂ : x₂.reg = some r₂) (htx : x₁.type = t.slotType) {v : UInt64}
    (hv : InReg M t.slotType r₁ v) (hQ : ∀ c' M', Rep M' fb cap c'.stack (vs ++ [v]) → Q () c' M')
    {done : Nat} :
    Runs K X (do asm (Asm.bind done); release x₂; pushRegister r₁ x₁.type) Q c M :=
  Runs.bind (Runs.bindLabel fun a _ _ =>
    runs_choiceEnd (c := { c with asm := a }) (hC.goto _) hc hx₂ htx (hv.goto _) hQ)
    fun _ => grows_choiceEnd _ _ _

theorem skip_choiceJoin (hC : Choosing M₀ M fb cap s vs t r₁ r₂ b) (hc : c.stack = s)
    {x₁ x₂ : Location} (hx₂ : x₂.reg = some r₂) (htx : x₁.type = t.slotType) {v : UInt64}
    (hv : InReg M t.slotType r₁ v) (hQ : ∀ c' M', Rep M' fb cap c'.stack (vs ++ [v]) → Q () c' M')
    {done : Nat} :
    Skip K X done (do asm (Asm.bind done); release x₂; pushRegister r₁ x₁.type) Q c M :=
  Skip.bindLabel (fun _ => grows_choiceEnd _ _ _) fun a _ =>
    runs_choiceEnd (c := { c with asm := a }) hC hc hx₂ htx hv hQ

theorem grows_choiceBranch (isMin : Bool) (t : FloatType) (x₁ x₂ : Location) (r₁ r₂ : Reg)
    (done : Nat) : Grows (do
      if isMin then asm (Asm.scalar .min t.is32 r₁ r₂) else asm (Asm.scalar .max t.is32 r₁ r₂)
      asm (Asm.bind done)
      release x₂
      pushRegister r₁ x₁.type) :=
  .ite' (.bind (.asm' (.scalar _ _ _ _)) fun _ => .bind (.asm' (.bindLabel _)) fun _ =>
      grows_choiceEnd _ _ _)
    (.bind (.asm' (.scalar _ _ _ _)) fun _ => .bind (.asm' (.bindLabel _)) fun _ =>
      grows_choiceEnd _ _ _)

theorem grows_choiceDiffer (isMin : Bool) (t : FloatType) (x₁ x₂ : Location) (r₁ r₂ : Reg)
    (differ done : Nat) : Grows (do
      asm (Asm.bind differ)
      if isMin then asm (Asm.scalar .min t.is32 r₁ r₂) else asm (Asm.scalar .max t.is32 r₁ r₂)
      asm (Asm.bind done)
      release x₂
      pushRegister r₁ x₁.type) :=
  .bind (.asm' (.bindLabel _)) fun _ => grows_choiceBranch _ _ _ _ _ _ _

theorem skip_choiceDiffer (hC : Choosing M₀ M fb cap s vs t r₁ r₂ b) (hc : c.stack = s)
    {x₁ x₂ : Location} (hx₂ : x₂.reg = some r₂) (htx : x₁.type = t.slotType) {a : UInt64}
    (ha : InReg M t.slotType r₁ a) (isMin : Bool) {differ done : Nat}
    (hQ : ∀ c' M' (v : UInt64), v.toNat = (if isMin then t.format.minimum a.toNat b.toNat
      else t.format.maximum a.toNat b.toNat) → Rep M' fb cap c'.stack (vs ++ [v]) → Q () c' M') :
    Skip K X differ (do
      asm (Asm.bind differ)
      if isMin then asm (Asm.scalar .min t.is32 r₁ r₂) else asm (Asm.scalar .max t.is32 r₁ r₂)
      asm (Asm.bind done)
      release x₂
      pushRegister r₁ x₁.type) Q c M := by
  have hx₁ := isXmm_of_mem_vecPool hC.pool
  have hx₂' := (InReg.of_float hC.second).1
  have hlt := (InReg.of_float ha).2.2
  have hlt' := (InReg.of_float hC.second).2.2
  refine Skip.bindLabel (fun _ => grows_choiceBranch _ _ _ _ _ _ _) fun a' _ =>
    Runs.ite' (fun hmin => ?_) fun hmax => ?_
  · refine Runs.bind (runs_scalar hC.env hx₁ hx₂' (by decide) t.is32 fun M' hk hv => ?_) fun _ =>
      .bind (.asm' (.bindLabel _)) fun _ => grows_choiceEnd _ _ _
    refine runs_choiceJoin (hC.step (Steady.of_keeps hk) subset_rfl) (by exact hc) hx₂ htx
      (InReg.scalarLane (ScalarOp.apply_min t) ha hC.second
        (Ieee.Format.minimum_lt hlt hlt') hv) (hQ · · _ ?_)
    rw [FloatType.toNat_toUInt64 t (Ieee.Format.minimum_lt hlt hlt'), if_pos hmin]
  · refine Runs.bind (runs_scalar hC.env hx₁ hx₂' (by decide) t.is32 fun M' hk hv => ?_) fun _ =>
      .bind (.asm' (.bindLabel _)) fun _ => grows_choiceEnd _ _ _
    refine runs_choiceJoin (hC.step (Steady.of_keeps hk) subset_rfl) (by exact hc) hx₂ htx
      (InReg.scalarLane (ScalarOp.apply_max t) ha hC.second
        (Ieee.Format.maximum_lt hlt hlt') hv) (hQ · · _ ?_)
    rw [FloatType.toNat_toUInt64 t (Ieee.Format.maximum_lt hlt hlt'), if_neg hmax]

theorem skip_choiceOverDiffer (hC : Choosing M₀ M fb cap s vs t r₁ r₂ b) (hc : c.stack = s)
    {x₁ x₂ : Location} (hx₂ : x₂.reg = some r₂) (htx : x₁.type = t.slotType) {v : UInt64}
    (hv : InReg M t.slotType r₁ v) (isMin : Bool) {differ done : Nat}
    (hQ : ∀ c' M', Rep M' fb cap c'.stack (vs ++ [v]) → Q () c' M') :
    Skip K X done (do
      asm (Asm.bind differ)
      if isMin then asm (Asm.scalar .min t.is32 r₁ r₂) else asm (Asm.scalar .max t.is32 r₁ r₂)
      asm (Asm.bind done)
      release x₂
      pushRegister r₁ x₁.type) Q c M :=
  Skip.asm' fun _ _ => Skip.ite'
    (fun _ => Skip.asm' fun _ _ => skip_choiceJoin hC (by exact hc) hx₂ htx hv hQ)
    (fun _ => Skip.asm' fun _ _ => skip_choiceJoin hC (by exact hc) hx₂ htx hv hQ)

theorem grows_choiceNaN (isMin : Bool) (t : FloatType) (x₁ x₂ : Location) (r₁ r₂ : Reg)
    (differ nan done : Nat) : Grows (do
      asm (Asm.bind nan)
      asm (Asm.scalar .add t.is32 r₁ r₂)
      asm (Asm.jmp done)
      asm (Asm.bind differ)
      if isMin then asm (Asm.scalar .min t.is32 r₁ r₂) else asm (Asm.scalar .max t.is32 r₁ r₂)
      asm (Asm.bind done)
      release x₂
      pushRegister r₁ x₁.type) :=
  .bind (.asm' (.bindLabel _)) fun _ => .bind (.asm' (.scalar _ _ _ _)) fun _ =>
    .bind (.asm' (.add _)) fun _ => grows_choiceDiffer _ _ _ _ _ _ _ _

theorem skip_choiceNaN (hC : Choosing M₀ M fb cap s vs t r₁ r₂ b) (hc : c.stack = s)
    {x₁ x₂ : Location} (hx₂ : x₂.reg = some r₂) (htx : x₁.type = t.slotType) {a : UInt64}
    (ha : InReg M t.slotType r₁ a)
    (hnan : (t.format.isNaN a.toNat || t.format.isNaN b.toNat) = true) (isMin : Bool)
    {differ nan done : Nat}
    (hQ : ∀ c' M' (v : UInt64), v.toNat = t.format.add a.toNat b.toNat →
      Rep M' fb cap c'.stack (vs ++ [v]) → Q () c' M') :
    Skip K X nan (do
      asm (Asm.bind nan)
      asm (Asm.scalar .add t.is32 r₁ r₂)
      asm (Asm.jmp done)
      asm (Asm.bind differ)
      if isMin then asm (Asm.scalar .min t.is32 r₁ r₂) else asm (Asm.scalar .max t.is32 r₁ r₂)
      asm (Asm.bind done)
      release x₂
      pushRegister r₁ x₁.type) Q c M := by
  have hlt : t.format.add a.toNat b.toNat < 2 ^ t.bits := by
    have h := Ieee.Format.add_lt_of_isNaN (f := t.format)
      (by rw [FloatType.width_format]; exact (InReg.of_float ha).2.2)
      (by rw [FloatType.width_format]; exact (InReg.of_float hC.second).2.2) hnan
    rwa [FloatType.width_format] at h
  refine Skip.bindLabel (fun _ => ?_) fun a' _ => ?_
  · exact .bind (.asm' (.scalar _ _ _ _)) fun _ => .bind (.asm' (.add _)) fun _ =>
      grows_choiceDiffer _ _ _ _ _ _ _ _
  refine Runs.bind (runs_scalar hC.env (isXmm_of_mem_vecPool hC.pool)
    (InReg.of_float hC.second).1 (by decide) t.is32 fun M' hk hv => ?_) fun _ =>
      .bind (.asm' (.add _)) fun _ => grows_choiceDiffer _ _ _ _ _ _ _ _
  refine Runs.jmp (fun _ => grows_choiceDiffer _ _ _ _ _ _ _ _) ?_
  exact skip_choiceOverDiffer ((hC.step (Steady.of_keeps hk) subset_rfl).goto _) (by exact hc)
    hx₂ htx ((InReg.scalarLane (ScalarOp.apply_add t) ha hC.second hlt hv).goto _) isMin
      (hQ · · _ (FloatType.toNat_toUInt64 t hlt))

theorem skip_choiceOverNaN (hC : Choosing M₀ M fb cap s vs t r₁ r₂ b) (hc : c.stack = s)
    {x₁ x₂ : Location} (hx₂ : x₂.reg = some r₂) (htx : x₁.type = t.slotType) {v : UInt64}
    (hv : InReg M t.slotType r₁ v) (isMin : Bool) {differ nan done : Nat}
    (hQ : ∀ c' M', Rep M' fb cap c'.stack (vs ++ [v]) → Q () c' M') :
    Skip K X done (do
      asm (Asm.bind nan)
      asm (Asm.scalar .add t.is32 r₁ r₂)
      asm (Asm.jmp done)
      asm (Asm.bind differ)
      if isMin then asm (Asm.scalar .min t.is32 r₁ r₂) else asm (Asm.scalar .max t.is32 r₁ r₂)
      asm (Asm.bind done)
      release x₂
      pushRegister r₁ x₁.type) Q c M :=
  Skip.asm' fun _ _ => Skip.asm' fun _ _ => Skip.asm' fun _ _ =>
    skip_choiceOverDiffer hC (by exact hc) hx₂ htx hv isMin hQ

theorem grows_choiceEqual (isMin : Bool) (t : FloatType) (x₁ x₂ : Location) (r₁ r₂ : Reg)
    (differ nan done : Nat) : Grows (do
      if isMin then asm (Asm.scalar .or t.is32 r₁ r₂) else asm (Asm.scalar .and t.is32 r₁ r₂)
      asm (Asm.jmp done)
      asm (Asm.bind nan)
      asm (Asm.scalar .add t.is32 r₁ r₂)
      asm (Asm.jmp done)
      asm (Asm.bind differ)
      if isMin then asm (Asm.scalar .min t.is32 r₁ r₂) else asm (Asm.scalar .max t.is32 r₁ r₂)
      asm (Asm.bind done)
      release x₂
      pushRegister r₁ x₁.type) :=
  .ite' (.bind (.asm' (.scalar _ _ _ _)) fun _ => .bind (.asm' (.add _)) fun _ =>
      grows_choiceNaN _ _ _ _ _ _ _ _ _)
    (.bind (.asm' (.scalar _ _ _ _)) fun _ => .bind (.asm' (.add _)) fun _ =>
      grows_choiceNaN _ _ _ _ _ _ _ _ _)

theorem runs_choiceEqual (hC : Choosing M₀ M fb cap s vs t r₁ r₂ b) (hc : c.stack = s)
    {x₁ x₂ : Location} (hx₂ : x₂.reg = some r₂) (htx : x₁.type = t.slotType) {a : UInt64}
    (ha : InReg M t.slotType r₁ a) (isMin : Bool) {differ nan done : Nat}
    (hQ : ∀ c' M' (v : UInt64),
      v.toNat = (if isMin then a.toNat ||| b.toNat else a.toNat &&& b.toNat) →
      Rep M' fb cap c'.stack (vs ++ [v]) → Q () c' M') :
    Runs K X (do
      if isMin then asm (Asm.scalar .or t.is32 r₁ r₂) else asm (Asm.scalar .and t.is32 r₁ r₂)
      asm (Asm.jmp done)
      asm (Asm.bind nan)
      asm (Asm.scalar .add t.is32 r₁ r₂)
      asm (Asm.jmp done)
      asm (Asm.bind differ)
      if isMin then asm (Asm.scalar .min t.is32 r₁ r₂) else asm (Asm.scalar .max t.is32 r₁ r₂)
      asm (Asm.bind done)
      release x₂
      pushRegister r₁ x₁.type) Q c M := by
  have hx₁ := isXmm_of_mem_vecPool hC.pool
  have hx₂' := (InReg.of_float hC.second).1
  refine Runs.ite' (fun hmin => ?_) fun hmax => ?_
  · refine Runs.bind (runs_scalar hC.env hx₁ hx₂' (by decide) t.is32 fun M' hk hv => ?_) fun _ =>
      .bind (.asm' (.add _)) fun _ => grows_choiceNaN _ _ _ _ _ _ _ _ _
    exact Runs.jmp (fun _ => grows_choiceNaN _ _ _ _ _ _ _ _ _) <|
      skip_choiceOverNaN ((hC.step (Steady.of_keeps hk) subset_rfl).goto _) (by exact hc) hx₂ htx
        ((InReg.or ha hC.second hv).goto _) isMin
        (hQ · · _ (by rw [UInt64.toNat_or, if_pos hmin]))
  · refine Runs.bind (runs_scalar hC.env hx₁ hx₂' (by decide) t.is32 fun M' hk hv => ?_) fun _ =>
      .bind (.asm' (.add _)) fun _ => grows_choiceNaN _ _ _ _ _ _ _ _ _
    exact Runs.jmp (fun _ => grows_choiceNaN _ _ _ _ _ _ _ _ _) <|
      skip_choiceOverNaN ((hC.step (Steady.of_keeps hk) subset_rfl).goto _) (by exact hc) hx₂ htx
        ((InReg.and ha hC.second hv).goto _) isMin
        (hQ · · _ (by rw [UInt64.toNat_and, if_neg hmax]))

theorem runs_choice (t : FloatType) (isMin : Bool) {a b : UInt64}
    (h : Rep M fb cap c.stack (vs ++ [a, b])) (hfit : Fit ∅ c.stack)
    (hty : ∀ ⦃i l⦄, c.stack.slots[i]? = some l → vs.length ≤ i → l.type = t.slotType)
    (hnf : ∀ ⦃i l⦄, c.stack.slots[i]? = some l → i < vs.length → l.flag = none) :
    Runs K X (Lower.minMax t isMin) (fun _ c' M' => ∃ r : UInt64,
      (if isMin then FloatBinop.min else .max).Answers t.format a.toNat b.toNat r.toNat ∧
        Rep M' fb cap c'.stack (vs ++ [r])) c M := by
  unfold Lower.minMax
  refine runs_floatOperands h hfit hty hnf (fun _ => ?_)
    fun x₁ x₂ r₁ r₂ c₁ M₁ hx₁ hx₂ htx hne hfit₁ hnf₁ hR₁ hroom ha hb => ?_
  · exact .bind (silent_regOf _).grows fun _ => .bind (silent_regOf _).grows fun _ =>
      .bind Silent.createLabel.grows fun _ => .bind Silent.createLabel.grows fun _ =>
        .bind Silent.createLabel.grows fun _ => .bind (.asm' (.scalar _ _ _ _)) fun _ =>
          .bind (.asm' (.add _)) fun _ => .bind (.asm' (.add _)) fun _ =>
            grows_choiceEqual _ _ _ _ _ _ _ _ _
  dsimp only
  rw [regOf_of_reg hx₁, regOf_of_reg hx₂, pure_bind, pure_bind]
  have hans := FloatBinop.answers_choice isMin (FloatType.infMag_pos t) (FloatType.fracBits_pos t)
    (by rw [FloatType.width_format]; exact (InReg.of_float ha).2.2)
    (by rw [FloatType.width_format]; exact (InReg.of_float hb).2.2)
  refine Runs.bind (Runs.silent Silent.createLabel fun _ c₂ h₂ => ?_) fun _ =>
    .bind Silent.createLabel.grows fun _ => .bind Silent.createLabel.grows fun _ =>
      .bind (.asm' (.scalar _ _ _ _)) fun _ => .bind (.asm' (.add _)) fun _ =>
        .bind (.asm' (.add _)) fun _ => grows_choiceEqual _ _ _ _ _ _ _ _ _
  cases h₂
  refine Runs.bind (Runs.silent Silent.createLabel fun _ c₃ h₃ => ?_) fun _ =>
    .bind Silent.createLabel.grows fun _ => .bind (.asm' (.scalar _ _ _ _)) fun _ =>
      .bind (.asm' (.add _)) fun _ => .bind (.asm' (.add _)) fun _ =>
        grows_choiceEqual _ _ _ _ _ _ _ _ _
  cases h₃
  refine Runs.bind (Runs.silent Silent.createLabel fun _ c₄ h₄ => ?_) fun _ =>
    .bind (.asm' (.scalar _ _ _ _)) fun _ => .bind (.asm' (.add _)) fun _ =>
      .bind (.asm' (.add _)) fun _ => grows_choiceEqual _ _ _ _ _ _ _ _ _
  cases h₄
  refine Runs.bind (runs_ucomis (InReg.of_float ha).1 (InReg.of_float hb).1 t.is32
    fun M₂ (hs₂ : Steady _ M₂ fb ∅) hfl => ?_) fun _ =>
      .bind (.asm' (.add _)) fun _ => .bind (.asm' (.add _)) fun _ =>
        grows_choiceEqual _ _ _ _ _ _ _ _ _
  rw [ucomisFlags_of_inReg ha hb] at hfl
  have hC : Choosing M₁ M₂ fb cap c₁.stack vs t r₁ r₂ b :=
    ⟨hR₁, hfit₁, hnf₁, hne, hroom, ((inReg_float_iff t).mp ha).1, hs₂.mono (Finset.empty_subset _),
      hb.of_steady hs₂ (Finset.notMem_empty _)⟩
  have ha₂ := ha.of_steady hs₂ (Finset.notMem_empty _)
  refine Runs.jcc (fun _ => .bind (.asm' (.add _)) fun _ => grows_choiceEqual _ _ _ _ _ _ _ _ _)
    (fun hdiffer => ?_) fun hsame => ?_
  · -- ordered operands that differ: over to `differ`
    have ho : t.format.compare a.toNat b.toNat ≠ .unordered ∧
        t.format.compare a.toNat b.toNat ≠ .equal := by
      rw [hfl, holds_ne_ucomisOf, decide_eq_true_eq] at hdiffer
      rcases hdiffer with h' | h' <;> rw [h'] <;> decide
    refine Skip.asm' fun _ _ => Skip.ite' (fun _ => ?_) fun _ => ?_ <;>
      exact Skip.asm' fun _ _ => Skip.asm' fun _ _ => Skip.asm' fun _ _ => Skip.asm' fun _ _ =>
        Skip.asm' fun _ _ => skip_choiceDiffer (hC.goto _) (by rfl) hx₂ htx (ha₂.goto _) isMin
          fun c' M' v hv hR => ⟨v, by rw [hv]; rwa [if_neg ho.1, if_neg ho.2] at hans, hR⟩
  · refine Runs.jcc (fun _ => grows_choiceEqual _ _ _ _ _ _ _ _ _) (fun hnan => ?_) fun hord => ?_
    · -- unordered operands: over to `nan`
      replace hnan : Cond.p.holds M₂.cpu.flags = true := hnan
      rw [hfl, holds_p_ucomisOf, decide_eq_true_eq] at hnan
      have hn : (t.format.isNaN a.toNat || t.format.isNaN b.toNat) = true := by
        simpa using Ieee.Format.compare_eq_unordered_iff.mp hnan
      refine Skip.ite' (fun _ => ?_) fun _ => ?_ <;>
        exact Skip.asm' fun _ _ => Skip.asm' fun _ _ =>
          skip_choiceNaN ((hC.goto _).goto _) (by rfl) hx₂ htx ((ha₂.goto _).goto _) hn isMin
            fun c' M' v hv hR => ⟨v, by rw [hv]; rwa [if_pos hnan] at hans, hR⟩
    · -- operands that compare equal
      replace hord : Cond.p.holds M₂.cpu.flags = false := hord
      rw [hfl, holds_p_ucomisOf, decide_eq_false_iff_not] at hord
      rw [hfl, holds_ne_ucomisOf, decide_eq_false_iff_not] at hsame
      have heq : t.format.compare a.toNat b.toNat = .equal := by
        revert hord hsame
        cases t.format.compare a.toNat b.toNat <;> decide
      exact runs_choiceEqual ((hC.goto _).goto _) (by rfl) hx₂ htx ((ha₂.goto _).goto _) isMin
        fun c' M' v hv hR => ⟨v, by rw [hv]; rwa [if_neg hord, if_pos heq] at hans, hR⟩

theorem runs_floatChoice (t : FloatType) {op : FloatBinop} (hop : op = .min ∨ op = .max)
    {a b : UInt64} (h : Rep M fb cap c.stack (vs ++ [a, b])) (hfit : Fit ∅ c.stack)
    (hty : ∀ ⦃i l⦄, c.stack.slots[i]? = some l → vs.length ≤ i → l.type = t.slotType)
    (hnf : ∀ ⦃i l⦄, c.stack.slots[i]? = some l → i < vs.length → l.flag = none) :
    Runs K X (Lower.operation (op.toOperation t))
      (fun _ c' M' => ∃ r, op.Answers t.format a.toNat b.toNat r.toNat ∧
        Rep M' fb cap c'.stack (vs ++ [r])) c M := by
  rcases hop with rfl | rfl
  · exact runs_choice t true h hfit hty hnf
  · exact runs_choice t false h hfit hty hnf

end Choice

/-! `copysign`. -/

theorem toNat_copysign_f64 (A B : UInt64) :
    ((~~~f64Sign &&& A) ||| (B &&& f64Sign)).toNat = A.toNat % 2 ^ 63 ||| B.toNat &&& 2 ^ 63 := by
  rw [UInt64.toNat_or, UInt64.toNat_and, UInt64.toNat_and,
    show (~~~f64Sign).toNat = 2 ^ 63 - 1 by decide, show f64Sign.toNat = 2 ^ 63 by decide,
    Nat.and_comm, Nat.and_two_pow_sub_one_eq_mod]

theorem toNat_copysign_f32 (A B : UInt64) :
    (((~~~f32Sign &&& A) ||| (B &&& f32Sign)) &&& low32).toNat =
      (A &&& low32).toNat % 2 ^ 31 ||| (B &&& low32).toNat &&& 2 ^ 31 := by
  simp only [UInt64.toNat_or, UInt64.toNat_and,
    show (~~~f32Sign).toNat = 2 ^ 64 - 1 - 2 ^ 31 by decide,
    show f32Sign.toNat = 2 ^ 31 by decide, show low32.toNat = 2 ^ 32 - 1 by decide]
  rw [Nat.and_or_distrib_right, Nat.and_assoc, Nat.and_assoc, Nat.and_assoc,
    show (2 ^ 31 &&& 2 ^ 32 - 1 : Nat) = 2 ^ 31 by decide,
    show (2 ^ 32 - 1 &&& 2 ^ 31 : Nat) = 2 ^ 31 by decide, Nat.and_comm _ (A.toNat &&& _),
    Nat.and_assoc, show (2 ^ 32 - 1 &&& 2 ^ 64 - 1 - 2 ^ 31 : Nat) = 2 ^ 31 - 1 by decide,
    Nat.and_two_pow_sub_one_eq_mod, Nat.and_two_pow_sub_one_eq_mod,
    Nat.mod_mod_of_dvd _ (by decide)]

theorem toNat_floatLane_copysign (t : FloatType) (A B : Vec128) :
    (((Vec128.andNot (.ofLow ((if t.is32 then f32Sign else f64Sign) &&& (Width.of t.is32).mask))
      A).or (B.and (.ofLow ((if t.is32 then f32Sign else f64Sign) &&&
        (Width.of t.is32).mask)))).floatLane t).toNat =
      (A.floatLane t).toNat % t.format.signMask |||
        (B.floatLane t).toNat &&& t.format.signMask := by
  cases t
  · exact toNat_copysign_f32 A.lo B.lo
  · exact toNat_copysign_f64 A.lo B.lo

theorem widen_toUInt32 {imm : UInt64} (hl : imm.toNat < Nat.pow 2 32) :
    Machine.widen .w32 imm.toUInt32.toUInt64 = imm := by
  apply UInt64.toNat_inj.mp
  show (imm.toUInt32.toUInt64 &&& low32).toNat = imm.toNat
  rw [UInt64.toNat_and, UInt32.toNat_toUInt64, UInt64.toNat_toUInt32,
    show low32.toNat = 2 ^ 32 - 1 by decide, Nat.and_two_pow_sub_one_eq_mod, Nat.mod_mod,
    Nat.mod_eq_of_lt hl]

section Constant

variable {K : Code} {X : Machine → Prop} {c : Compiler} {M : Machine} {fb cap : Nat}
  {vs : List UInt64} {T : Finset Reg}

theorem runs_movRI64 (henv : Env M fb cap) {r : Reg} (hr : r.IsGp) (imm : UInt64) {β : Type}
    {k : Unit → LowerM β} (hk : ∀ x, Grows (k x)) {Q : β → Compiler → Machine → Prop}
    (hQ : ∀ c' M', c' = { c with asm := c'.asm } → Keeps M M' fb {r} 0 → M'.gp r.gpr = imm →
      Runs K X (k ()) Q c' M') :
    Runs K X (asm (Asm.movRI64 r imm) >>= k) Q c M := by
  by_cases hl : imm.toNat < Nat.pow 2 32
  · refine Runs.bind (Runs.step (Asm.movRI64_eq_short hr hl _) (Machine.exec_movRI32 _ _) rfl
      (hQ _ _ rfl (Keeps.goto_setGpW henv.gpr_size hr _ _ _) ?_)) hk
    rw [Machine.gp_goto_setGpW_self henv.gpr_size, widen_toUInt32 hl]
  · exact Runs.bind (Runs.step (Asm.movRI64_eq_long hr hl _) (Machine.exec_movRI64 _ _) rfl
      (hQ _ _ rfl (Keeps.goto_setGpW henv.gpr_size hr _ _ _)
        (Machine.gp_goto_setGpW_self henv.gpr_size _ _ _ _))) hk

theorem runs_movGpToXmm (henv : Env M fb cap) {d s : Reg} (hd : d.IsXmm) (hs : s.IsGp) (w : Width)
    {Q : Unit → Compiler → Machine → Prop}
    (hQ : ∀ M', Keeps M M' fb {d} 0 → M'.xr d.xmm = Vec128.ofLow (M.gp s.gpr &&& w.mask) →
      Q () { c with asm := Asm.pushed c.asm (.movGpToXmm w d.xmm s.gpr) } M') :
    Runs K X (asm (Asm.movGpToXmm w d s)) Q c M :=
  Runs.step (Asm.movGpToXmm_eq hd hs w _) (Machine.exec_movGpToXmm _ _ _) rfl
    (hQ _ (Keeps.goto_setXr henv.xmm_size hd _ _)
      (Machine.xr_goto_setXr_self henv.xmm_size _ _ _))

theorem grows_floatConst (is32 : Bool) (bits : UInt64) : Grows (floatConst is32 bits) :=
  .bind (grows_allocate _ _) fun _ => .ite' (.bind (.asm' (.vec _ _ _)) fun _ => .pure' _)
    (.bind (.asm' (.movRI64 _ _)) fun _ => .bind (.asm' (.movGpToXmm _ _ _)) fun _ => .pure' _)

theorem runs_floatConst (h : Rep M fb cap c.stack vs) (hfit : Fit T c.stack) (hcard : T.card < 9)
    (hnf : c.stack.NoFlags) (is32 : Bool) {bits : UInt64} (hbits : bits ≠ 0)
    {Q : Reg → Compiler → Machine → Prop}
    (hQ : ∀ r c' M', r ∈ vecPool → r ∉ T → Fit (insert r T) c'.stack → c'.stack.NoFlags →
      Rep M' fb cap c'.stack vs → Keeps M M' fb {r, scratchGp} c.stack.sp →
      M'.xr r.xmm = Vec128.ofLow (bits &&& (Width.of is32).mask) → Q r c' M') :
    Runs K X (floatConst is32 bits) Q c M := by
  unfold floatConst
  refine Runs.bind (runs_allocateFresh h hfit hcard .vector
    fun r c₁ M₁ hr hrT hfit₁ hsp₁ hR₁ hk₁ => ?_) fun _ => ?_
  · have hnf₁ := hsp₁.moves.noFlags hnf
    have hx := isXmm_of_mem_vecPool hr
    rw [if_neg (by simpa using hbits)]
    refine runs_movRI64 hR₁.env (r := scratchGp) (by decide) bits
      (fun _ => .bind (.asm' (.movGpToXmm _ _ _)) fun _ => .pure' _)
      fun c₂ M₂ hc₂ hk₂ hv₂ => ?_
    refine Runs.bind (runs_movGpToXmm ((hR₁.env).of_keeps hk₂ (by simpa using writable_scratchGp))
      hx (by decide) (Width.of is32) fun M₃ hk₃ hv₃ => ?_) fun _ => .pure' _
    have hk : Keeps M₁ M₃ fb {scratchGp, r} 0 := hk₂.trans hk₃
    refine Runs.pure' (hQ r _ M₃ hr hrT (by rw [hc₂]; exact hfit₁) (by rw [hc₂]; exact hnf₁) ?_
      ((hk₁.trans hk).mono (by simp [Finset.pair_comm]) (by simp)) (by rw [hv₃, hv₂]))
    rw [hc₂]
    refine hR₁.of_steady hfit₁.1 hnf₁ (Steady.of_keeps hk) ?_ ?_
    · simpa using ⟨writable_scratchGp, writable_of_isXmm hx⟩
    · simpa using ⟨hR₁.not_holds (by decide) (by decide),
        hfit₁.1.temp_free r (Finset.mem_insert_self r T)⟩
  · exact .ite' (.bind (.asm' (.vec _ _ _)) fun _ => .pure' _)
      (.bind (.asm' (.movRI64 _ _)) fun _ => .bind (.asm' (.movGpToXmm _ _ _)) fun _ => .pure' _)

theorem runs_copysignBody {x₁ x₂ : Location} {r₁ r₂ : Reg} (hx₁ : x₁.reg = some r₁)
    (hx₂ : x₂.reg = some r₂) (hne : r₁ ≠ r₂) (h : Rep M fb cap c.stack vs)
    (hfit : Fit {r₁, r₂} c.stack) (hnf : c.stack.NoFlags) (hroom : vs.length < cap)
    {t : FloatType} (htx : x₁.type = t.slotType) {a b : UInt64} (ha : InReg M t.slotType r₁ a)
    (hb : InReg M t.slotType r₂ b) :
    Runs K X (do
      let mask ← floatConst t.is32 (if t.is32 then f32Sign else f64Sign)
      asm (Asm.scalar .and t.is32 r₂ mask)
      asm (Asm.scalar .andn t.is32 mask r₁)
      asm (Asm.scalar .or t.is32 mask r₂)
      release x₁
      release x₂
      pushRegister mask x₁.type)
      (fun _ c' M' => ∃ r : UInt64,
        r.toNat = a.toNat % t.format.signMask ||| b.toNat &&& t.format.signMask ∧
        Rep M' fb cap c'.stack (vs ++ [r])) c M := by
  have hsign : (if t.is32 then f32Sign else f64Sign) ≠ 0 := by cases t <;> decide
  refine Runs.bind (runs_floatConst h hfit (Finset.card_le_two.trans_lt (by decide)) hnf t.is32
    hsign fun m c₂ M₂ hm hmT hfit₂ hnf₂ hR₂ hk₂ hv₂ => ?_) fun _ => ?_
  · have hxm₁ := (InReg.of_float ha).1
    have hxm₂ := (InReg.of_float hb).1
    have hmx := isXmm_of_mem_vecPool hm
    have hm₁ : m ≠ r₁ := fun e => hmT (by simp [e])
    have hm₂ : m ≠ r₂ := fun e => hmT (by simp [e])
    have hkept : ∀ {r : Reg}, r.IsXmm → r ≠ m → r ∉ ({m, scratchGp} : Finset Reg) :=
      fun hx hr hmem => by
        simp only [Finset.mem_insert, Finset.mem_singleton] at hmem
        rcases hmem with rfl | rfl
        · exact hr rfl
        · exact absurd hx (by decide)
    have ha₂ := ha.of_keeps hk₂ (hkept hxm₁ hm₁.symm)
    have hb₂ := hb.of_keeps hk₂ (hkept hxm₂ hm₂.symm)
    have henv₂ := hR₂.env
    refine Runs.bind (runs_scalar henv₂ hxm₂ hmx (by decide) t.is32 fun M₃ hk₃ hv₃ => ?_) fun _ =>
      .bind (.asm' (.scalar _ _ _ _)) fun _ => .bind (.asm' (.scalar _ _ _ _)) fun _ =>
        grows_releasePush _ _ _ _
    have henv₃ := henv₂.of_keeps hk₃ (by simpa using writable_of_isXmm hxm₂)
    refine Runs.bind (runs_scalar henv₃ hmx hxm₁ (by decide) t.is32 fun M₄ hk₄ hv₄ => ?_) fun _ =>
      .bind (.asm' (.scalar _ _ _ _)) fun _ => grows_releasePush _ _ _ _
    have henv₄ := henv₃.of_keeps hk₄ (by simpa using writable_of_isXmm hmx)
    refine Runs.bind (runs_scalar henv₄ hmx hxm₂ (by decide) t.is32 fun M₅ hk₅ hv₅ => ?_) fun _ =>
      grows_releasePush _ _ _ _
    have hv : M₅.xr m.xmm = (Vec128.andNot (M₂.xr m.xmm) (M₂.xr r₁.xmm)).or
        ((M₂.xr r₂.xmm).and (M₂.xr m.xmm)) := by
      rw [hv₅, hv₄, hk₄.xr _ (xmm_ne_of_not_mem hxm₂ (by simpa using hm₂.symm)), hv₃,
        hk₃.xr _ (xmm_ne_of_not_mem hmx (by simpa using hm₂)),
        hk₃.xr _ (xmm_ne_of_not_mem hxm₁ (by simpa using hne)), ScalarOp.apply_or,
        ScalarOp.apply_andn, ScalarOp.apply_and]
    have hval : ((M₅.xr m.xmm).floatLane t).toNat =
        a.toNat % t.format.signMask ||| b.toNat &&& t.format.signMask := by
      rw [hv, hv₂, toNat_floatLane_copysign, ((inReg_float_iff t).mp ha₂).2,
        ((inReg_float_iff t).mp hb₂).2]
    have hk : Keeps M₂ M₅ fb {r₂, m} 0 := (hk₃.trans (hk₄.trans hk₅)).mono (by simp) (by simp)
    have hR₅ : Rep M₅ fb cap c₂.stack vs := hR₂.of_steady hfit₂.1 hnf₂ (Steady.of_keeps hk)
      (by simpa using ⟨writable_of_isXmm hxm₂, writable_of_isXmm hmx⟩)
      (by simpa using ⟨hfit₂.1.temp_free r₂ (by simp), hfit₂.1.temp_free m (by simp)⟩)
    refine (runs_releasePush hx₁ hx₂ hne hmT (by exact hR₅) (by exact hfit₂) hroom
      (htx ▸ FloatType.slotType_ne t)
      (htx ▸ (inReg_float_iff t).mpr ⟨hm, rfl⟩)).mono (fun _ h => h)
        fun _ _ _ hR => ⟨_, hval, hR⟩
  · exact .bind (.asm' (.scalar _ _ _ _)) fun _ => .bind (.asm' (.scalar _ _ _ _)) fun _ =>
      .bind (.asm' (.scalar _ _ _ _)) fun _ => grows_releasePush _ _ _ _

theorem runs_floatCopysign (t : FloatType) {a b : UInt64}
    (h : Rep M fb cap c.stack (vs ++ [a, b])) (hfit : Fit ∅ c.stack)
    (hty : ∀ ⦃i l⦄, c.stack.slots[i]? = some l → vs.length ≤ i → l.type = t.slotType)
    (hnf : ∀ ⦃i l⦄, c.stack.slots[i]? = some l → i < vs.length → l.flag = none) :
    Runs K X (Lower.operation (FloatBinop.copysign.toOperation t))
      (fun _ c' M' => ∃ r, FloatBinop.copysign.Answers t.format a.toNat b.toNat r.toNat ∧
        Rep M' fb cap c'.stack (vs ++ [r])) c M := by
  show Runs K X (Lower.copysign t) _ c M
  unfold Lower.copysign
  refine runs_floatOperands h hfit hty hnf (fun _ => ?_)
    fun x₁ x₂ r₁ r₂ c₁ M₁ hx₁ hx₂ htx hne hfit₁ hnf₁ hR₁ hroom ha hb => ?_
  · exact .bind (silent_regOf _).grows fun _ => .bind (silent_regOf _).grows fun _ =>
      .bind (grows_floatConst _ _) fun _ => .bind (.asm' (.scalar _ _ _ _)) fun _ =>
        .bind (.asm' (.scalar _ _ _ _)) fun _ => .bind (.asm' (.scalar _ _ _ _)) fun _ =>
          grows_releasePush _ _ _ _
  dsimp only
  rw [regOf_of_reg hx₁, regOf_of_reg hx₂, pure_bind, pure_bind]
  refine (runs_copysignBody hx₁ hx₂ hne hR₁ hfit₁ hnf₁ hroom htx ha hb).mono (fun _ h => h) ?_
  rintro _ _ _ ⟨r, hr, hR⟩
  exact ⟨r, hr ▸ FloatBinop.answers_copysign _ _ _, hR⟩

end Constant

/-- Every float comparison, `min`, `max` and `copysign`, for either float type, from every
allocation of the two operands and of the values below them: the code runs to its end, where
the values below are kept and the result on top answers the operation. -/
theorem runs_floatBinop {K : Code} {X : Machine → Prop} {c : Compiler} {M : Machine}
    {fb cap : Nat} {vs : List UInt64} (op : FloatBinop) (t : FloatType) {a b : UInt64}
    (h : Rep M fb cap c.stack (vs ++ [a, b])) (hfit : Fit ∅ c.stack)
    (hty : ∀ ⦃i l⦄, c.stack.slots[i]? = some l → vs.length ≤ i → l.type = t.slotType)
    (hnf : ∀ ⦃i l⦄, c.stack.slots[i]? = some l → i < vs.length → l.flag = none) :
    Runs K X (Lower.operation (op.toOperation t))
      (fun _ c' M' => ∃ r, op.Answers t.format a.toNat b.toNat r.toNat ∧
        Rep M' fb cap c'.stack (vs ++ [r])) c M := by
  cases op with
  | eq => exact runs_floatEquality t (.inl rfl) h hfit hty hnf
  | ne => exact runs_floatEquality t (.inr rfl) h hfit hty hnf
  | lt => exact runs_floatOrder t (.inl rfl) h hfit hty hnf
  | gt => exact runs_floatOrder t (.inr (.inl rfl)) h hfit hty hnf
  | le => exact runs_floatOrder t (.inr (.inr (.inl rfl))) h hfit hty hnf
  | ge => exact runs_floatOrder t (.inr (.inr (.inr rfl))) h hfit hty hnf
  | min => exact runs_floatChoice t (.inl rfl) h hfit hty hnf
  | max => exact runs_floatChoice t (.inr rfl) h hfit hty hnf
  | copysign => exact runs_floatCopysign t h hfit hty hnf

/-- `min` of the negative and the positive zero, doubles in the memory slots of a frame
entered from the host. -/
theorem runs_floatBinop_entry :
    Runs (Code.spaced {} (by decide)) (fun _ => False)
      (Lower.operation (FloatBinop.min.toOperation .f64))
      (fun _ c' M' => ∃ r, FloatBinop.min.Answers FloatType.f64.format
        (0x8000000000000000 : UInt64).toNat (0 : UInt64).toNat r.toNat ∧
          Rep M' 0 2 c'.stack ([] ++ [r]))
      { stack := memoryStack [.f64, .f64], listener := false, features := {}
        fn := FunctionIr.ofBody { params := [.f64, .f64], results := [.f64] } {} [.min .f64] }
      (entryMachine [0x8000000000000000, 0]) := by
  have hrep : Rep (entryMachine [0x8000000000000000, 0]) 0 2 (memoryStack [.f64, .f64])
      ([] ++ [0x8000000000000000, 0]) := by
    refine rep_entryMachine rfl (by decide) fun i t v ht hv => ?_
    have : t = .f64 := by simpa using List.mem_of_getElem? ht
    subst this
    exact v.toNat_lt
  have hty : ∀ ⦃i : Nat⦄ ⦃l : Location⦄, (memoryStack [.f64, .f64]).slots[i]? = some l →
      ([] : List UInt64).length ≤ i → l.type = FloatType.f64.slotType := by
    intro i l hl _
    have := List.mem_of_getElem? (memoryStack_slot hl).1
    simpa [FloatType.slotType] using this
  have hnf : ∀ ⦃i : Nat⦄ ⦃l : Location⦄, (memoryStack [.f64, .f64]).slots[i]? = some l →
      i < ([] : List UInt64).length → l.flag = none :=
    fun i _ _ hi => absurd hi (Nat.not_lt_zero i)
  exact runs_floatBinop (K := Code.spaced {} (by decide)) (X := fun _ => False)
    (c := { stack := memoryStack [.f64, .f64], listener := false, features := {}
            fn := FunctionIr.ofBody { params := [.f64, .f64], results := [.f64] } {} [.min .f64] })
    .min .f64 hrep (fit_memoryStack (by decide)) hty hnf

end OnePassJit.Amd64
