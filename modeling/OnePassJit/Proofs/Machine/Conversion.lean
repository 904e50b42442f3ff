import OnePassJit.Proofs.Ieee.Rounding
import OnePassJit.Proofs.Machine.FloatCode

/-!
Integer to float conversion as generated code runs it.

`cvtsi2ss` and `cvtsi2sd` round the signed value of a 32- or 64-bit register to the nearest
float, ties to even (`runs_cvtFromInt`). A signed input converts at its own width; an unsigned
32-bit input, zero extended in its register, converts at 64 bits, where it reads as itself.
An unsigned 64-bit input below `2 ^ 63` converts as well; one at or above has no signed
reading, so the code halves it with the shifted-out bit or-ed back in, converts the half and
doubles it: the sticky bit makes the rounding of the half round as that of the whole would
(`Ieee.Format.add_self_round_halve`).

`runs_convertFromInt`: for every integer and float type and from every allocation of the
operand and of the values below it, the code runs to its end, where the values below are kept
and the integer the operand stands for, rounded to the float type, is on top.
-/

namespace OnePassJit.Amd64

open Lower ValueStack Vec128 IntType

/-! The instructions. -/

theorem Asm.shiftRI_one_eq {d : Reg} (hd : d.IsGp) (op : ShiftOp) (w : Width) (a : Assembler) :
    Asm.shiftRI op w d 1 a = .ok ((), Asm.pushed a (.shiftRI op w d.gpr 1)) := by
  rw [Asm.shiftRI, Asm.bind_ok (Asm.gp_eq hd _ _)]
  rfl

theorem Asm.cvtFromInt_eq {d s : Reg} (hd : d.IsXmm) (hs : s.IsGp) (dst32 : Bool) (w : Width)
    (a : Assembler) :
    Asm.cvtFromInt dst32 w d s a = .ok ((), Asm.pushed a (.cvtFromInt dst32 w d.xmm s.gpr)) := by
  rw [Asm.cvtFromInt, Asm.bind_ok (Asm.xmm_eq hd _ _), Asm.bind_ok (Asm.gp_eq hs _ _)]
  rfl

theorem AsmGrows.shiftRI (op : ShiftOp) (w : Width) (d : Reg) (imm : Int) :
    AsmGrows (Asm.shiftRI op w d imm) :=
  .bind (.gp _ _) fun _ => .bind (.ite' (.pure' _) (.fail' _)) fun _ => .add _

theorem AsmGrows.cvtFromInt (dst32 : Bool) (w : Width) (d s : Reg) :
    AsmGrows (Asm.cvtFromInt dst32 w d s) :=
  .bind (.xmm _ _) fun _ => .bind (.gp _ _) fun _ => .add _

namespace Machine

variable {M : Machine} {next : UInt64}

theorem exec_shiftRI (op : ShiftOp) (w : Width) (d : Gpr) (imm : Nat) :
    M.exec (.shiftRI op w d imm) next =
      .ok (((M.goto next).setFlags (shift op w (M.gp d) imm.toUInt64 M.cpu.flags).2).setGpW w d
        (shift op w (M.gp d) imm.toUInt64 M.cpu.flags).1) := rfl

theorem exec_cvtFromInt (dst32 : Bool) (w : Width) (d : Xmm) (s : Gpr) :
    M.exec (.cvtFromInt dst32 w d s) next =
      .ok ((M.goto next).setXr d ((M.xr d).setLane (if dst32 then 32 else 64) 0
        ((if dst32 then Ieee.Format.single else .double).ofInt (w.signed (M.gp s))))) := rfl

end Machine

theorem and_mask_w64 (v : UInt64) : v &&& Width.w64.mask = v :=
  UInt64.toNat_inj.mp (by rw [toNat_and_mask]; exact Nat.mod_eq_of_lt v.toNat_lt)

theorem shift_shr_one (v : UInt64) (f : Flags) :
    (shift .shr .w64 v (1 : Nat).toUInt64 f).1 = v >>> 1 := by
  simp only [shift, and_mask_w64]
  rfl

theorem widen_alu_and (a b : UInt64) (f : Flags) :
    Machine.widen .w64 (alu .and .w64 a b f).1 = a &&& b :=
  and_mask_w64 (a &&& b)

theorem widen_alu_or (a b : UInt64) (f : Flags) :
    Machine.widen .w64 (alu .or .w64 a b f).1 = a ||| b :=
  and_mask_w64 (a ||| b)

theorem sf_testSelf (v : UInt64) (f : Flags) :
    (aluLogic .w64 (v &&& v) f).2.sf = decide (2 ^ 63 ≤ v.toNat) := by
  show (v &&& v &&& Width.w64.mask &&& Width.w64.signBit != 0) = _
  rw [UInt64.and_self, and_signBit_ne_zero, toNat_and_mask, Nat.mod_mod]
  simp only [Width.bits, Nat.mod_eq_of_lt v.toNat_lt]

theorem signed_w64_of_lt {v : UInt64} (h : v.toNat < 2 ^ 63) : Width.w64.signed v = v.toNat := by
  rw [signed_eq, if_neg (by simp only [Width.bits]; omega)]
  simp only [Width.bits, Nat.mod_eq_of_lt v.toNat_lt]

theorem toNat_halve_or_low (v : UInt64) :
    ((v >>> 1) ||| (v &&& 1)).toNat = v.toNat / 2 ||| v.toNat % 2 := by
  rw [UInt64.toNat_or, UInt64.toNat_shiftRight, UInt64.toNat_and, UInt64.toNat_one]
  show v.toNat >>> 1 ||| v.toNat &&& 1 = _
  rw [Nat.shiftRight_one, Nat.and_one_is_mod]

theorem halve_or_low_lt (v : UInt64) : v.toNat / 2 ||| v.toNat % 2 < 2 ^ 63 := by
  have := v.toNat_lt
  exact Nat.or_lt_two_pow (by omega) (by
    have : v.toNat % 2 < 2 := Nat.mod_lt _ (by decide)
    omega)

section Steps

variable {K : Code} {X : Machine → Prop} {c : Compiler} {M : Machine} {fb cap : Nat}

theorem runs_movRR (henv : Env M fb cap) {d s : Reg} (hd : d.IsGp) (hs : s.IsGp)
    {Q : Unit → Compiler → Machine → Prop}
    (hQ : ∀ M', Keeps M M' fb {d} 0 → M'.gp d.gpr = M.gp s.gpr →
      Q () { c with asm := Asm.pushed c.asm (.movRR .w64 d.gpr s.gpr) } M') :
    Runs K X (asm (Asm.movRR .w64 d s)) Q c M :=
  Runs.step (Asm.movRR_eq hd hs _ _) (Machine.exec_movRR _ _ _) rfl
    (hQ _ (Keeps.goto_setGpW henv.gpr_size hd _ _ _)
      (Machine.gp_goto_setGpW_self henv.gpr_size _ _ _ _))

theorem runs_shiftRightOne (henv : Env M fb cap) {d : Reg} (hd : d.IsGp)
    {Q : Unit → Compiler → Machine → Prop}
    (hQ : ∀ M', Steady M M' fb {d} → M'.gp d.gpr = M.gp d.gpr >>> 1 →
      Q () { c with asm := Asm.pushed c.asm (.shiftRI .shr .w64 d.gpr 1) } M') :
    Runs K X (asm (Asm.shiftRI .shr .w64 d 1)) Q c M := by
  have hM : ((M.goto (K.addr (c.asm.instrs.size + 1))).setFlags
      (shift .shr .w64 (M.gp d.gpr) (1 : Nat).toUInt64 M.cpu.flags).2).cpu.gpr.size = 16 :=
    henv.gpr_size
  refine Runs.step (Asm.shiftRI_one_eq hd .shr .w64 _) (Machine.exec_shiftRI _ _ _ _) rfl
    (hQ _ ((Steady.goto_setFlags _ _).trans (Steady.of_keeps (Keeps.setGpW hM hd _ _))) ?_)
  rw [Machine.gp_setGpW hM, if_pos rfl]
  exact shift_shr_one _ _

theorem runs_testSign {r : Reg} (hr : r.IsGp) {Q : Unit → Compiler → Machine → Prop}
    (hQ : ∀ M', Steady M M' fb ∅ →
      Cond.s.holds M'.cpu.flags = decide (2 ^ 63 ≤ (M.gp r.gpr).toNat) →
      Q () { c with asm := Asm.pushed c.asm (.testRR .w64 r.gpr r.gpr) } M') :
    Runs K X (asm (Asm.testRR .w64 r r)) Q c M :=
  Runs.step (Asm.testRR_eq hr hr .w64 _) (Machine.exec_testRR _ _ _) rfl
    (hQ _ (Steady.goto_setFlags _ _) (sf_testSelf _ _))

/-- `cvtsi2ss` or `cvtsi2sd`: the low lane of `d` takes the signed value of `s` at the width,
rounded to the float type. -/
theorem runs_cvtFromInt (henv : Env M fb cap) {d s : Reg} (hd : d.IsXmm) (hs : s.IsGp)
    (t : FloatType) (w : Width) {Q : Unit → Compiler → Machine → Prop}
    (hQ : ∀ M', Keeps M M' fb {d} 0 →
      M'.xr d.xmm = (M.xr d.xmm).setLane t.bits 0 (t.format.ofInt (w.signed (M.gp s.gpr))) →
      Q () { c with asm := Asm.pushed c.asm (.cvtFromInt t.is32 w d.xmm s.gpr) } M') :
    Runs K X (asm (Asm.cvtFromInt t.is32 w d s)) Q c M :=
  Runs.step (Asm.cvtFromInt_eq hd hs _ _ _) (Machine.exec_cvtFromInt _ _ _ _) rfl
    (hQ _ (Keeps.goto_setXr henv.xmm_size hd _ _)
      (by rw [Machine.xr_goto_setXr_self henv.xmm_size, FloatType.bits_of_is32,
        FloatType.format_of_is32]))

end Steps

/-! Results. -/

theorem inReg_setLane {M : Machine} {t : FloatType} {r : Reg} (hr : r ∈ vecPool) {x : Vec128}
    {n : Nat} (hn : n < 2 ^ t.bits) (hx : M.xr r.xmm = x.setLane t.bits 0 n) :
    InReg M t.slotType r n.toUInt64 :=
  (inReg_float_iff t).mpr ⟨hr, by rw [hx, floatLane_setLane _ t hn]⟩

theorem FloatType.slotType_eq (t : FloatType) :
    (if t.is32 then SlotType.f32 else .f64) = t.slotType := by
  cases t <;> rfl

theorem FloatType.ofInt_lt (t : FloatType) {z : Int} (hz : z.natAbs < 2 ^ 64) :
    t.format.ofInt z < 2 ^ t.bits := by
  rw [← FloatType.width_format]
  exact Ieee.Format.ofInt_lt (by cases t <;> decide) (by cases t <;> decide)
    (by cases t <;> decide) hz

theorem FloatType.add_self_ofInt_halve (t : FloatType) {x : Nat} (hlo : 2 ^ 63 ≤ x)
    (hhi : x < 2 ^ 64) :
    t.format.add (t.format.ofInt ((x / 2 ||| x % 2 : Nat) : Int))
      (t.format.ofInt ((x / 2 ||| x % 2 : Nat) : Int)) = t.format.ofInt (x : Int) := by
  rw [Ieee.Format.ofInt_natCast, Ieee.Format.ofInt_natCast]
  exact Ieee.Format.add_self_round_halve (k := 62) (by cases t <;> decide) hlo hhi
    (by cases t <;> decide) (by cases t <;> decide) (by cases t <;> decide)

-- The sticky bit matters: `2 ^ 63 + 2 ^ 39 + 1` lies just above the midpoint of two `f32`
-- values, and its plain half `2 ^ 62 + 2 ^ 38` on one, which rounds down to even.
example : FloatType.f32.format.ofInt (2 ^ 63 + 2 ^ 39 + 1) = 0x5F000001 ∧
    FloatType.f32.format.ofInt (2 ^ 62 + 2 ^ 38) = 0x5E800000 := by decide

theorem natAbs_signed_lt (w : Width) (v : UInt64) : (w.signed v).natAbs < 2 ^ 64 := by
  have := Nat.mod_lt v.toNat (Nat.two_pow_pos w.bits)
  rw [signed_eq]
  cases w <;> simp only [Width.bits] at * <;> split_ifs <;> omega

/-! The code of a conversion. -/

/-- While an integer converts: `M₀` held the values `vs` of the stack `s` below the operand,
which sits in `src`, with `dst` taken for the result; `M` differs from `M₀` in the flags,
`src`, `dst` and the scratch register only. -/
structure Converting (M₀ M : Machine) (fb cap : Nat) (s : ValueStack) (vs : List UInt64)
    (src dst : Reg) : Prop where
  rep : Rep M₀ fb cap s vs
  fit : Fit {dst, src} s
  noFlags : s.NoFlags
  room : vs.length < cap
  src_pool : src ∈ gpPool
  dst_pool : dst ∈ vecPool
  steady : Steady M₀ M fb {src, dst, scratchGp}

namespace Converting

variable {M₀ M M' : Machine} {fb cap : Nat} {s : ValueStack} {vs : List UInt64} {src dst : Reg}

theorem step {W : Finset Reg} (h : Converting M₀ M fb cap s vs src dst) (hs : Steady M M' fb W)
    (hW : W ⊆ {src, dst, scratchGp}) : Converting M₀ M' fb cap s vs src dst :=
  { h with steady := h.steady.step hs hW }

theorem goto (h : Converting M₀ M fb cap s vs src dst) (a : UInt64) :
    Converting M₀ (M.goto a) fb cap s vs src dst :=
  h.step (Steady.goto a) (Finset.empty_subset _)

theorem src_gp (h : Converting M₀ M fb cap s vs src dst) : src.IsGp :=
  isGp_of_mem_gpPool h.src_pool

theorem dst_xmm (h : Converting M₀ M fb cap s vs src dst) : dst.IsXmm :=
  isXmm_of_mem_vecPool h.dst_pool

theorem ne (h : Converting M₀ M fb cap s vs src dst) : src ≠ dst := fun e => by
  have hg := h.src_gp.1
  have hx := h.dst_xmm.1
  rw [e] at hg
  rw [hg] at hx
  cases hx

theorem rep_of_steady (h : Converting M₀ M fb cap s vs src dst)
    (hs : Steady M₀ M' fb {src, dst, scratchGp}) : Rep M' fb cap s vs :=
  h.rep.of_steady h.fit.1 h.noFlags hs
    (by simpa using ⟨writable_of_mem_gpPool h.src_pool, writable_of_isXmm h.dst_xmm,
      writable_scratchGp⟩)
    (by simpa using ⟨h.fit.1.temp_free src (by simp), h.fit.1.temp_free dst (by simp),
      h.rep.not_holds (by decide) (by decide)⟩)

theorem env (h : Converting M₀ M fb cap s vs src dst) : Env M fb cap :=
  (h.rep_of_steady h.steady).env

end Converting

section Convert

variable {K : Code} {X : Machine → Prop} {c : Compiler} {M₀ M : Machine} {fb cap : Nat}
  {vs : List UInt64} {s : ValueStack} {src dst : Reg} {x : Location} {t : FloatType}

theorem grows_convertEnd (x : Location) (dst : Reg) (t : FloatType) :
    Grows (do release x; pushRegister dst (if t.is32 then .f32 else .f64)) :=
  .bind (silent_release _).grows fun _ => (silent_pushRegister _ _).grows

theorem runs_convertEnd (hC : Converting M₀ M fb cap s vs src dst) (hc : c.stack = s)
    (hx : x.reg = some src) {n : Nat} (hn : n < 2 ^ t.bits)
    (hr : InReg M t.slotType dst n.toUInt64) :
    Runs K X (do release x; pushRegister dst (if t.is32 then .f32 else .f64))
      (fun _ c' M' => ∃ r : UInt64, r.toNat = n ∧ Rep M' fb cap c'.stack (vs ++ [r])) c M := by
  have hR := hC.rep_of_steady hC.steady
  have hfit := hC.fit
  rw [← hc] at hR hfit
  rw [Finset.pair_comm] at hfit
  refine Runs.bind (runs_release hx hR hfit (by simpa using hC.ne) fun c₁ hfit₁ hR₁ => ?_)
    fun _ => (silent_pushRegister _ _).grows
  have hty := FloatType.slotType_ne t
  rw [FloatType.slotType_eq]
  refine runs_pushRegister hR₁ hfit₁ (Finset.mem_singleton_self dst) hty.2 hr
    (fun h => (absurd h hty.1 : InReg M .v128hi dst 0)) ?_ fun c₂ _ hR₂ => ?_
  · rw [if_neg hty.1, ← hR₁.length_eq]
    exact hC.room
  · rw [if_neg hty.1] at hR₂
    exact ⟨_, FloatType.toNat_toUInt64 t hn, hR₂⟩

theorem runs_convertJoin (hC : Converting M₀ M fb cap s vs src dst) (hc : c.stack = s)
    (hx : x.reg = some src) {n : Nat} (hn : n < 2 ^ t.bits)
    (hr : InReg M t.slotType dst n.toUInt64) {done : Nat} :
    Runs K X (do
      asm (Asm.bind done)
      release x
      pushRegister dst (if t.is32 then .f32 else .f64))
      (fun _ c' M' => ∃ r : UInt64, r.toNat = n ∧ Rep M' fb cap c'.stack (vs ++ [r])) c M :=
  Runs.bind (Runs.bindLabel fun a _ _ =>
    runs_convertEnd (c := { c with asm := a }) (hC.goto _) hc hx hn (hr.goto _))
    fun _ => grows_convertEnd _ _ _

theorem skip_convertJoin (hC : Converting M₀ M fb cap s vs src dst) (hc : c.stack = s)
    (hx : x.reg = some src) {n : Nat} (hn : n < 2 ^ t.bits)
    (hr : InReg M t.slotType dst n.toUInt64) {done : Nat} :
    Skip K X done (do
      asm (Asm.bind done)
      release x
      pushRegister dst (if t.is32 then .f32 else .f64))
      (fun _ c' M' => ∃ r : UInt64, r.toNat = n ∧ Rep M' fb cap c'.stack (vs ++ [r])) c M :=
  Skip.bindLabel (fun _ => grows_convertEnd _ _ _) fun a _ =>
    runs_convertEnd (c := { c with asm := a }) hC hc hx hn hr

theorem runs_convertDirect (hC : Converting M₀ M fb cap s vs src dst) (hc : c.stack = s)
    (hx : x.reg = some src) (t : FloatType) (w : Width) :
    Runs K X (do
      asm (Asm.cvtFromInt t.is32 w dst src)
      release x
      pushRegister dst (if t.is32 then .f32 else .f64))
      (fun _ c' M' => ∃ r : UInt64, r.toNat = t.format.ofInt (w.signed (M.gp src.gpr)) ∧
        Rep M' fb cap c'.stack (vs ++ [r])) c M := by
  have hlt := FloatType.ofInt_lt t (natAbs_signed_lt w (M.gp src.gpr))
  refine Runs.bind (runs_cvtFromInt hC.env hC.dst_xmm hC.src_gp t w fun M' hk hv => ?_)
    fun _ => grows_convertEnd _ _ _
  exact runs_convertEnd (hC.step (Steady.of_keeps hk) (by simp)) (by exact hc) hx hlt
    (inReg_setLane hC.dst_pool hlt hv)

theorem grows_convertLarge (t : FloatType) (x : Location) (src dst : Reg) (done : Nat) :
    Grows (do
      asm (Asm.movRR .w64 scratchGp src)
      asm (Asm.shiftRI .shr .w64 scratchGp 1)
      asm (Asm.aluRI .and .w64 src 1)
      asm (Asm.aluRR .or .w64 scratchGp src)
      asm (Asm.cvtFromInt t.is32 .w64 dst scratchGp)
      asm (Asm.scalar .add t.is32 dst dst)
      asm (Asm.bind done)
      release x
      pushRegister dst (if t.is32 then .f32 else .f64)) :=
  .bind (.asm' (.movRR _ _ _)) fun _ => .bind (.asm' (.shiftRI _ _ _ _)) fun _ =>
    .bind (.asm' (.aluRI _ _ _ _)) fun _ => .bind (.asm' (.aluRR _ _ _ _)) fun _ =>
      .bind (.asm' (.cvtFromInt _ _ _ _)) fun _ => .bind (.asm' (.scalar _ _ _ _)) fun _ =>
        .bind (.asm' (.bindLabel _)) fun _ => grows_convertEnd _ _ _

theorem runs_convertLarge (hC : Converting M₀ M fb cap s vs src dst) (hc : c.stack = s)
    (hx : x.reg = some src) (t : FloatType) {v : UInt64} (hv : M.gp src.gpr = v)
    (hlarge : 2 ^ 63 ≤ v.toNat) {done : Nat} :
    Runs K X (do
      asm (Asm.movRR .w64 scratchGp src)
      asm (Asm.shiftRI .shr .w64 scratchGp 1)
      asm (Asm.aluRI .and .w64 src 1)
      asm (Asm.aluRR .or .w64 scratchGp src)
      asm (Asm.cvtFromInt t.is32 .w64 dst scratchGp)
      asm (Asm.scalar .add t.is32 dst dst)
      asm (Asm.bind done)
      release x
      pushRegister dst (if t.is32 then .f32 else .f64))
      (fun _ c' M' => ∃ r : UInt64, r.toNat = t.format.ofInt v.toNat ∧
        Rep M' fb cap c'.stack (vs ++ [r])) c M := by
  have hsg : scratchGp.IsGp := by decide
  have hsrc : src ∉ ({scratchGp} : Finset Reg) := by
    simpa using fun e => absurd (e ▸ hC.src_pool) (by decide)
  have hscr : scratchGp ∉ ({src} : Finset Reg) := by
    simpa using fun e => absurd (e ▸ hC.src_pool) (by decide)
  refine Runs.bind (runs_movRR hC.env hsg hC.src_gp fun M₁ hk₁ hv₁ => ?_) fun _ =>
    .bind (.asm' (.shiftRI _ _ _ _)) fun _ => .bind (.asm' (.aluRI _ _ _ _)) fun _ =>
      .bind (.asm' (.aluRR _ _ _ _)) fun _ => .bind (.asm' (.cvtFromInt _ _ _ _)) fun _ =>
        .bind (.asm' (.scalar _ _ _ _)) fun _ => .bind (.asm' (.bindLabel _)) fun _ =>
          grows_convertEnd _ _ _
  have hC₁ := hC.step (Steady.of_keeps hk₁) (by simp)
  refine Runs.bind (runs_shiftRightOne hC₁.env hsg fun M₂ hs₂ hv₂ => ?_) fun _ =>
    .bind (.asm' (.aluRI _ _ _ _)) fun _ => .bind (.asm' (.aluRR _ _ _ _)) fun _ =>
      .bind (.asm' (.cvtFromInt _ _ _ _)) fun _ => .bind (.asm' (.scalar _ _ _ _)) fun _ =>
        .bind (.asm' (.bindLabel _)) fun _ => grows_convertEnd _ _ _
  have hC₂ := hC₁.step hs₂ (by simp)
  refine Runs.bind (runs_aluRI hC₂.env hC.src_gp .and (by decide) .w64 1
    fun M₃ hs₃ hv₃ => ?_)
    fun _ => .bind (.asm' (.aluRR _ _ _ _)) fun _ => .bind (.asm' (.cvtFromInt _ _ _ _)) fun _ =>
      .bind (.asm' (.scalar _ _ _ _)) fun _ => .bind (.asm' (.bindLabel _)) fun _ =>
        grows_convertEnd _ _ _
  have hC₃ := hC₂.step hs₃ (by simp)
  refine Runs.bind (runs_aluRR hC₃.env hsg hC.src_gp .or (by decide) .w64
    fun M₄ hs₄ hv₄ => ?_)
    fun _ => .bind (.asm' (.cvtFromInt _ _ _ _)) fun _ => .bind (.asm' (.scalar _ _ _ _)) fun _ =>
      .bind (.asm' (.bindLabel _)) fun _ => grows_convertEnd _ _ _
  have hC₄ := hC₃.step hs₄ (by simp)
  have hword : M₄.gp scratchGp.gpr = (v >>> 1) ||| (v &&& 1) := by
    have hsrc₂ : M₂.gp src.gpr = v :=
      ((hs₂.gp _ (gpr_ne_of_not_mem hC.src_gp hsrc)).trans
        (hk₁.gp _ (gpr_ne_of_not_mem hC.src_gp hsrc))).trans hv
    have hscr₃ : M₃.gp scratchGp.gpr = M₂.gp scratchGp.gpr :=
      hs₃.gp _ (gpr_ne_of_not_mem hsg hscr)
    rw [hv₄, widen_alu_or, hv₃, widen_alu_and, hscr₃, hv₂, hv₁, hsrc₂, hv]
    rfl
  refine Runs.bind (runs_cvtFromInt hC₄.env hC.dst_xmm hsg t .w64
    fun M₅ hk₅ hv₅ => ?_) fun _ =>
    .bind (.asm' (.scalar _ _ _ _)) fun _ => .bind (.asm' (.bindLabel _)) fun _ =>
      grows_convertEnd _ _ _
  have hC₅ := hC₄.step (Steady.of_keeps hk₅) (by simp)
  have hhalf := halve_or_low_lt v
  rw [hword, signed_w64_of_lt (by rw [toNat_halve_or_low]; exact hhalf),
    toNat_halve_or_low] at hv₅
  have hlt₁ := FloatType.ofInt_lt t (z := ((v.toNat / 2 ||| v.toNat % 2 : Nat) : Int))
    (by rw [Int.natAbs_natCast]; omega)
  have ha₅ := inReg_setLane hC.dst_pool hlt₁ hv₅
  have hsum :
      t.format.add (t.format.ofInt ((v.toNat / 2 ||| v.toNat % 2 : Nat) : Int)).toUInt64.toNat
        (t.format.ofInt ((v.toNat / 2 ||| v.toNat % 2 : Nat) : Int)).toUInt64.toNat =
          t.format.ofInt v.toNat := by
    rw [FloatType.toNat_toUInt64 t hlt₁]
    exact FloatType.add_self_ofInt_halve t hlarge v.toNat_lt
  have hlt := FloatType.ofInt_lt t (z := (v.toNat : Int))
    (by rw [Int.natAbs_natCast]; exact v.toNat_lt)
  refine Runs.bind (runs_scalar hC₅.env hC.dst_xmm hC.dst_xmm
    (by decide : ScalarOp.add ≠ .ucomis) t.is32
    fun M₆ hk₆ hv₆ => ?_) fun _ =>
      .bind (.asm' (.bindLabel _)) fun _ => grows_convertEnd _ _ _
  have ha₆ := InReg.scalarLane (ScalarOp.apply_add t) ha₅ ha₅ (by rw [hsum]; exact hlt) hv₆
  rw [hsum] at ha₆
  exact runs_convertJoin (hC₅.step (Steady.of_keeps hk₆) (by simp)) (by exact hc) hx hlt ha₆

theorem grows_convertUnsigned (t : FloatType) (x : Location) (src dst : Reg) (large done : Nat) :
    Grows (do
      asm (Asm.jcc .s large)
      asm (Asm.cvtFromInt t.is32 .w64 dst src)
      asm (Asm.jmp done)
      asm (Asm.bind large)
      asm (Asm.movRR .w64 scratchGp src)
      asm (Asm.shiftRI .shr .w64 scratchGp 1)
      asm (Asm.aluRI .and .w64 src 1)
      asm (Asm.aluRR .or .w64 scratchGp src)
      asm (Asm.cvtFromInt t.is32 .w64 dst scratchGp)
      asm (Asm.scalar .add t.is32 dst dst)
      asm (Asm.bind done)
      release x
      pushRegister dst (if t.is32 then .f32 else .f64)) :=
  .bind (.asm' (.add _)) fun _ => .bind (.asm' (.cvtFromInt _ _ _ _)) fun _ =>
    .bind (.asm' (.add _)) fun _ => .bind (.asm' (.bindLabel _)) fun _ =>
      grows_convertLarge t x src dst done

theorem runs_convertUnsigned (hC : Converting M₀ M fb cap s vs src dst) (hc : c.stack = s)
    (hx : x.reg = some src) (t : FloatType) {v : UInt64} (hv : M.gp src.gpr = v)
    {large done : Nat} :
    Runs K X (do
      asm (Asm.testRR .w64 src src)
      asm (Asm.jcc .s large)
      asm (Asm.cvtFromInt t.is32 .w64 dst src)
      asm (Asm.jmp done)
      asm (Asm.bind large)
      asm (Asm.movRR .w64 scratchGp src)
      asm (Asm.shiftRI .shr .w64 scratchGp 1)
      asm (Asm.aluRI .and .w64 src 1)
      asm (Asm.aluRR .or .w64 scratchGp src)
      asm (Asm.cvtFromInt t.is32 .w64 dst scratchGp)
      asm (Asm.scalar .add t.is32 dst dst)
      asm (Asm.bind done)
      release x
      pushRegister dst (if t.is32 then .f32 else .f64))
      (fun _ c' M' => ∃ r : UInt64, r.toNat = t.format.ofInt v.toNat ∧
        Rep M' fb cap c'.stack (vs ++ [r])) c M := by
  refine Runs.bind (runs_testSign hC.src_gp fun M₁ (hs₁ : Steady _ M₁ fb ∅) hsf => ?_)
    fun _ => grows_convertUnsigned t x src dst large done
  have hC₁ := hC.step hs₁ (Finset.empty_subset _)
  have hv₁ : M₁.gp src.gpr = v := (hs₁.gp _ (by simp)).trans hv
  rw [hv] at hsf
  refine Runs.jcc (fun _ => .bind (.asm' (.cvtFromInt _ _ _ _)) fun _ =>
      .bind (.asm' (.add _)) fun _ => .bind (.asm' (.bindLabel _)) fun _ =>
        grows_convertLarge t x src dst done) (fun htaken => ?_) fun hfall => ?_
  · -- the sign set: the direct conversion is jumped over
    rw [hsf, decide_eq_true_eq] at htaken
    exact Skip.asm' fun _ _ => Skip.asm' fun _ _ => Skip.bindLabel
      (fun _ => grows_convertLarge t x src dst done) fun a _ =>
        runs_convertLarge (c := { c with asm := a }) (hC₁.goto (K.target large)) (by exact hc)
          hx t hv₁ htaken
  · -- the sign clear: the word reads as itself, and the halving path is jumped over
    rw [hsf, decide_eq_false_iff_not, not_le] at hfall
    have hlt := FloatType.ofInt_lt t (z := (v.toNat : Int))
      (by rw [Int.natAbs_natCast]; exact v.toNat_lt)
    refine Runs.bind (runs_cvtFromInt (hC₁.goto _).env hC.dst_xmm hC.src_gp t .w64
      fun M₂ hk₂ hv₂ => ?_) fun _ => .bind (.asm' (.add _)) fun _ =>
        .bind (.asm' (.bindLabel _)) fun _ => grows_convertLarge t x src dst done
    rw [Machine.gp_goto, hv₁, signed_w64_of_lt hfall] at hv₂
    have hC₂ := (hC₁.goto _).step (Steady.of_keeps hk₂) (by simp)
    exact Runs.jmp
      (fun _ => .bind (.asm' (.bindLabel _)) fun _ => grows_convertLarge t x src dst done)
      (Skip.asm' fun _ _ => Skip.asm' fun _ _ => Skip.asm' fun _ _ => Skip.asm' fun _ _ =>
        Skip.asm' fun _ _ => Skip.asm' fun _ _ => Skip.asm' fun _ _ =>
          skip_convertJoin (hC₂.goto _) (by exact hc) hx hlt
            ((inReg_setLane hC.dst_pool hlt hv₂).goto _))

theorem runs_convertOperands {i : IntType} {v : UInt64} {β : Type}
    {Q : β → Compiler → Machine → Prop} (h : Rep M fb cap c.stack (vs ++ [v]))
    (hfit : Fit ∅ c.stack)
    (hty : ∀ ⦃j l⦄, c.stack.slots[j]? = some l → vs.length ≤ j → l.type = i.slotType)
    (hnf : ∀ ⦃j l⦄, c.stack.slots[j]? = some l → j < vs.length → l.flag = none)
    {k : Location → Reg → Reg → LowerM β} (hg : ∀ x r d, Grows (k x r d))
    (hk : ∀ x src dst c' M', x.reg = some src → Converting M' M' fb cap c'.stack vs src dst →
      InReg M' i.slotType src v → Runs K X (k x src dst) Q c' M') :
    Runs K X (do
      let x ← popToRegister
      let src ← regOf x
      let dst ← allocate .vector
      k x src dst) Q c M := by
  have hroom : vs.length < cap := by
    have := h.sp_le
    rw [← h.length_eq] at this
    simp only [List.length_append, List.length_cons, List.length_nil] at this
    omega
  refine Runs.bind (runs_popToRegister (slotType_ne i) h hfit (by simp) hty
    fun x src c₁ M₁ hx _ _ hfit₁ hR₁ hv₁ _ hmv => ?_) fun x =>
      .bind (silent_regOf x).grows fun r => .bind (grows_allocate _ _) (hg x r)
  rw [regOf_of_reg hx, pure_bind]
  refine Runs.bind (runs_allocateFresh hR₁ hfit₁ (by simp) .vector
    fun dst c₂ M₂ hdst _ hfit₂ hsp₂ hR₂ hk₂ => hk x src dst c₂ M₂ hx ?_ ?_)
    (hg x src)
  · -- the allocation may spill values below, never the operand
    rw [LawfulSingleton.insert_empty_eq] at hfit₂
    exact ⟨hR₂, hfit₂, hsp₂.moves.noFlags (hmv.noFlags_of_below hnf), hroom,
      hv₁.of_int.1, hdst, (Keeps.refl M₂ fb).mono (Finset.empty_subset _) le_rfl⟩
  · exact hv₁.of_keeps hk₂ (Finset.notMem_empty _)

/-- Every integer type converts to every float type: from every allocation of the operand and
of the values below it, the code runs to its end, where the values below are kept and the
integer the operand stands for, rounded to the float type, is on top. -/
theorem runs_convertFromInt (i : IntType) (t : FloatType) {v : UInt64}
    (h : Rep M fb cap c.stack (vs ++ [v])) (hfit : Fit ∅ c.stack)
    (hty : ∀ ⦃j l⦄, c.stack.slots[j]? = some l → vs.length ≤ j → l.type = i.slotType)
    (hnf : ∀ ⦃j l⦄, c.stack.slots[j]? = some l → j < vs.length → l.flag = none) :
    Runs K X (Lower.operation (.convertFromInt i t))
      (fun _ c' M' => ∃ r : UInt64, r.toNat = t.format.ofInt (i.toInt v) ∧
        Rep M' fb cap c'.stack (vs ++ [r])) c M := by
  show Runs K X (Lower.convertFromInt i t) _ c M
  unfold Lower.convertFromInt
  dsimp only
  refine runs_convertOperands h hfit hty hnf (fun x r d => ?_)
    fun x src dst c' M' hx hC hv => ?_
  · cases i
    case u64 =>
      exact .bind Silent.createLabel.grows fun _ => .bind Silent.createLabel.grows fun _ =>
        .bind (.asm' (.testRR _ _ _)) fun _ => grows_convertUnsigned _ _ _ _ _ _
    all_goals exact .bind (.asm' (.cvtFromInt _ _ _ _)) fun _ => grows_convertEnd _ _ _
  have hsrc := hv.of_int.2
  cases i
  case s32 =>
    rw [← signed_eq_toInt rfl, ← hsrc]
    exact runs_convertDirect hC rfl hx t .w32
  case s64 =>
    rw [← signed_eq_toInt rfl, ← hsrc]
    exact runs_convertDirect hC rfl hx t .w64
  case u32 =>
    have hlt : v.toNat < 2 ^ 32 := hv.2.2
    rw [toInt_of_unsigned rfl, show IntType.u32.bits = 32 from rfl, Nat.mod_eq_of_lt hlt,
      ← signed_w64_of_lt (by omega), ← hsrc]
    exact runs_convertDirect hC rfl hx t .w64
  case u64 =>
    dsimp only
    rw [toInt_of_unsigned rfl, show IntType.u64.bits = 64 from rfl,
      Nat.mod_eq_of_lt v.toNat_lt]
    refine Runs.bind (Runs.silent Silent.createLabel fun large c₁ h₁ => ?_) fun _ =>
      .bind Silent.createLabel.grows fun _ => .bind (.asm' (.testRR _ _ _)) fun _ =>
        grows_convertUnsigned _ _ _ _ _ _
    cases h₁
    refine Runs.bind (Runs.silent Silent.createLabel fun done c₂ h₂ => ?_) fun _ =>
      .bind (.asm' (.testRR _ _ _)) fun _ => grows_convertUnsigned _ _ _ _ _ _
    cases h₂
    exact runs_convertUnsigned hC (by rfl) hx t hsrc

end Convert

/-- The largest unsigned 64-bit word, in the memory slot of a frame entered from the host,
converted to `f32`: it takes the halving path, and rounds up to `2 ^ 64`. -/
theorem runs_convertFromInt_entry :
    Runs (Code.spaced {} (by decide)) (fun _ => False)
      (Lower.operation (.convertFromInt .u64 .f32))
      (fun _ c' M' => ∃ r : UInt64, r.toNat = FloatType.f32.format.ofInt
        (IntType.u64.toInt 0xFFFFFFFFFFFFFFFF) ∧ Rep M' 0 1 c'.stack ([] ++ [r]))
      { stack := memoryStack [.i64], listener := false, features := {}
        fn := FunctionIr.ofBody { params := [.i64], results := [.f32] } {}
          [.convertFromInt .u64 .f32] }
      (entryMachine [0xFFFFFFFFFFFFFFFF]) := by
  have hrep : Rep (entryMachine [0xFFFFFFFFFFFFFFFF]) 0 1 (memoryStack [.i64])
      ([] ++ [0xFFFFFFFFFFFFFFFF]) := by
    refine rep_entryMachine rfl (by decide) fun i t v ht hv => ?_
    have : t = .i64 := by simpa using List.mem_of_getElem? ht
    subst this
    exact v.toNat_lt
  have hty : ∀ ⦃i : Nat⦄ ⦃l : Location⦄, (memoryStack [.i64]).slots[i]? = some l →
      ([] : List UInt64).length ≤ i → l.type = IntType.u64.slotType := by
    intro i l hl _
    have := List.mem_of_getElem? (memoryStack_slot hl).1
    simpa [IntType.slotType, IntType.is32] using this
  have hnf : ∀ ⦃i : Nat⦄ ⦃l : Location⦄, (memoryStack [.i64]).slots[i]? = some l →
      i < ([] : List UInt64).length → l.flag = none :=
    fun i _ _ hi => absurd hi (Nat.not_lt_zero i)
  exact runs_convertFromInt (K := Code.spaced {} (by decide)) (X := fun _ => False)
    (c := { stack := memoryStack [.i64], listener := false, features := {}
            fn := FunctionIr.ofBody { params := [.i64], results := [.f32] } {}
              [.convertFromInt .u64 .f32] })
    .u64 .f32 hrep (fit_memoryStack (by decide)) hty hnf

end OnePassJit.Amd64
