import OnePassJit.Proofs.Machine.Moves

/-!
Checks that leave generated code.

A check compares, then jumps over an exit when the comparison passes (`runs_guard`). The zero
flag of `test` and `cmp` is an equation between the operands at the width of the comparison
(`zf_aluLogic`, `zf_aluSub`). Between two checks the machine changes only the flags and the
registers the code holds for the moment: `Steady M M' fb W` says so, and a stack none of whose
values lives in the flags keeps its representation across it (`Rep.of_steady`).
-/

namespace OnePassJit.Amd64

open Lower ValueStack

variable {M M' M'' : Machine} {fb cap : Nat} {W W' D : Finset Reg}

/-! Words at a width. -/

theorem toNat_and_mask (w : Width) (x : UInt64) :
    (x &&& w.mask).toNat = x.toNat % 2 ^ w.bits := by
  cases w with
  | w32 => exact toNat_and_low32 x
  | w64 =>
    rw [UInt64.toNat_and, show (Width.w64.mask).toNat = 2 ^ 64 - 1 from rfl,
      Nat.and_two_pow_sub_one_eq_mod]
    rfl

/-- `test` sets the zero flag when the operands have no common bit at the width. -/
theorem zf_aluLogic (w : Width) (x : UInt64) (f : Flags) :
    (aluLogic w x f).2.zf = true ↔ x.toNat % 2 ^ w.bits = 0 := by
  simp only [aluLogic, resultFlags, beq_iff_eq]
  rw [← UInt64.toNat_inj, toNat_and_mask, UInt64.toNat_zero]

/-- `cmp` sets the zero flag when the operands agree at the width. -/
theorem zf_aluSub (w : Width) (a b : UInt64) (f : Flags) :
    (aluSub w a b f).2.zf = true ↔ a.toNat % 2 ^ w.bits = b.toNat % 2 ^ w.bits := by
  simp only [aluSub, resultFlags, beq_iff_eq]
  rw [← UInt64.toNat_inj, toNat_and_mask, UInt64.toNat_sub, toNat_and_mask, toNat_and_mask,
    UInt64.toNat_zero]
  have ha := Nat.mod_lt a.toNat (Nat.two_pow_pos w.bits)
  have hb := Nat.mod_lt b.toNat (Nat.two_pow_pos w.bits)
  cases w <;> simp only [Width.bits] at * <;> omega

/-! Machines that differ in the flags and a few registers. -/

def Steady (M M' : Machine) (fb : Nat) (W : Finset Reg) : Prop :=
  Keeps (M.setFlags M'.cpu.flags) M' fb W 0

theorem Keeps.setFlags_both {n : Nat} (h : Keeps M M' fb W n) (f : Flags) :
    Keeps (M.setFlags f) (M'.setFlags f) fb W n where
  gpr_size := h.gpr_size
  xmm_size := h.xmm_size
  gp g hg := h.gp g hg
  xr x hx := h.xr x hx
  flags := rfl
  locate := h.locate
  read hl hs := h.read hl hs

namespace Steady

theorem of_keeps (h : Keeps M M' fb W 0) : Steady M M' fb W where
  gpr_size := h.gpr_size
  xmm_size := h.xmm_size
  gp g hg := h.gp g hg
  xr x hx := h.xr x hx
  flags := rfl
  locate := h.locate
  read hl hs := h.read hl hs

theorem trans (h : Steady M M' fb W) (h' : Steady M' M'' fb W') : Steady M M'' fb (W ∪ W') :=
  (h.setFlags_both M''.cpu.flags).trans h'

theorem mono (h : Steady M M' fb W) (hW : W ⊆ W') : Steady M M' fb W' :=
  Keeps.mono h hW le_rfl

theorem step (h : Steady M M' fb D) (h' : Steady M' M'' fb W) (hW : W ⊆ D) :
    Steady M M'' fb D :=
  (h.trans h').mono (Finset.union_subset subset_rfl hW)

theorem goto_setFlags (t : UInt64) (f : Flags) : Steady M ((M.goto t).setFlags f) fb ∅ where
  gpr_size := rfl
  xmm_size := rfl
  gp _ _ := rfl
  xr _ _ := rfl
  flags := rfl
  locate _ _ := rfl
  read _ _ := rfl

theorem goto (t : UInt64) : Steady M (M.goto t) fb ∅ :=
  of_keeps (Keeps.goto M fb t)

theorem goto_setGpW (hM : M.cpu.gpr.size = 16) {r : Reg} (hr : r.IsGp) (t : UInt64) (w : Width)
    (v : UInt64) : Steady M ((M.goto t).setGpW w r.gpr v) fb {r} :=
  of_keeps (Keeps.goto_setGpW hM hr t w v)

end Steady

theorem Env.of_steady (h : Env M fb cap) (hs : Steady M M' fb W) (hW : ∀ w ∈ W, Writable w) :
    Env M' fb cap :=
  (h.setFlags M'.cpu.flags).of_keeps hs hW

theorem InReg.of_steady {t : SlotType} {r : Reg} {v : UInt64} (h : InReg M t r v)
    (hs : Steady M M' fb W) (hr : r ∉ W) : InReg M' t r v := by
  have h' : InReg (M.setFlags M'.cpu.flags) t r v := by cases t <;> exact h
  exact h'.of_keeps hs hr

/-- A stack with no value in the flags is held the same way after a steady stretch that
writes none of its registers. -/
theorem Rep.of_steady {s : ValueStack} {vs : List UInt64} {T : Finset Reg}
    (h : Rep M fb cap s vs) (hlay : Layout s T) (hnf : s.NoFlags) (hs : Steady M M' fb W)
    (hW : ∀ w ∈ W, Writable w) (hfree : ∀ w ∈ W, ¬ s.Holds w) : Rep M' fb cap s vs :=
  (h.setFlags hnf M'.cpu.flags).of_keeps hs hW hfree fun _ _ hl => by
    rw [hlay.slot_eq hl, Nat.zero_add]

/-! Compare and jump. -/

theorem Quiet.ok {m : LowerM α} (hq : Quiet m) {c c' : Compiler} {x : α} (h : m c = .ok (x, c')) :
    c' = { c with asm := c'.asm } :=
  (wp_ok h).mp (hq c (fun _ c' => c' = { c with asm := c'.asm }) fun _ _ => rfl)

section Guard

variable {K : Code} {X : Machine → Prop} {c : Compiler} {β : Type}

theorem runs_testSelf {r : Reg} (hr : r.IsGp) (w : Width) {Q : Unit → Compiler → Machine → Prop}
    (hQ : ∀ M', Steady M M' fb ∅ →
      (M'.cpu.flags.zf = true ↔ (M.gp r.gpr).toNat % 2 ^ w.bits = 0) →
      Q () { c with asm := Asm.pushed c.asm (.testRR w r.gpr r.gpr) } M') :
    Runs K X (asm (Asm.testRR w r r)) Q c M := by
  refine Runs.step (Asm.testRR_eq hr hr w _) (Machine.exec_testRR _ _ _) rfl
    (hQ _ (Steady.goto_setFlags _ _) ((zf_aluLogic w _ _).trans ?_))
  rw [UInt64.and_self]

theorem runs_cmpImm {r : Reg} (hr : r.IsGp) (w : Width) (imm : Int)
    {Q : Unit → Compiler → Machine → Prop}
    (hQ : ∀ M', Steady M M' fb ∅ →
      (M'.cpu.flags.zf = true ↔
        (M.gp r.gpr).toNat % 2 ^ w.bits = (UInt64.ofInt imm).toNat % 2 ^ w.bits) →
      Q () { c with asm := Asm.pushed c.asm (.aluRI .cmp w r.gpr imm) } M') :
    Runs K X (asm (Asm.aluRI .cmp w r imm)) Q c M :=
  Runs.step (Asm.aluRI_eq hr .cmp w imm _) (Machine.exec_aluRI _ _ _ _) rfl
    (hQ _ (Steady.goto_setFlags _ _) (zf_aluSub _ _ _ _))

theorem runs_cmpReg {r s : Reg} (hr : r.IsGp) (hs : s.IsGp) (w : Width)
    {Q : Unit → Compiler → Machine → Prop}
    (hQ : ∀ M', Steady M M' fb ∅ →
      (M'.cpu.flags.zf = true ↔
        (M.gp r.gpr).toNat % 2 ^ w.bits = (M.gp s.gpr).toNat % 2 ^ w.bits) →
      Q () { c with asm := Asm.pushed c.asm (.aluRR .cmp w r.gpr s.gpr) } M') :
    Runs K X (asm (Asm.aluRR .cmp w r s)) Q c M :=
  Runs.step (Asm.aluRR_eq hr hs .cmp w _) (Machine.exec_aluRR _ _ _ _) rfl
    (hQ _ (Steady.goto_setFlags _ _) (zf_aluSub _ _ _ _))

theorem runs_clear (henv : Env M fb cap) {r : Reg} (hr : r.IsGp)
    {Q : Unit → Compiler → Machine → Prop}
    (hQ : ∀ M', Steady M M' fb {r} → M'.gp r.gpr = 0 →
      Q () { c with asm := Asm.pushed c.asm (.aluRR .xor .w32 r.gpr r.gpr) } M') :
    Runs K X (asm (Asm.aluRR .xor .w32 r r)) Q c M := by
  have hM : ((M.goto (K.addr (c.asm.instrs.size + 1))).setFlags
      (alu .xor .w32 (M.gp r.gpr) (M.gp r.gpr) M.cpu.flags).2).cpu.gpr.size = 16 :=
    henv.gpr_size
  refine Runs.step (Asm.aluRR_eq hr hr .xor .w32 _) (Machine.exec_aluRR _ _ _ _) rfl
    (hQ _ ((Steady.goto_setFlags _ _).trans (Steady.of_keeps (Keeps.setGpW hM hr _ _))) ?_)
  show (((M.goto _).setFlags _).setGpW .w32 r.gpr _).gp r.gpr = 0
  rw [Machine.gp_setGpW hM, if_pos rfl]
  simp [alu, aluLogic, Machine.widen]

theorem runs_movImm64 (henv : Env M fb cap) {r : Reg} (hr : r.IsGp) {imm : UInt64}
    (hl : ¬ imm.toNat < Nat.pow 2 32) {Q : Unit → Compiler → Machine → Prop}
    (hQ : ∀ M', Steady M M' fb {r} → M'.gp r.gpr = imm →
      Q () { c with asm := Asm.pushed c.asm (.movRI64 r.gpr imm) } M') :
    Runs K X (asm (Asm.movRI64 r imm)) Q c M :=
  Runs.step (Asm.movRI64_eq_long hr hl _) (Machine.exec_movRI64 _ _) rfl
    (hQ _ (Steady.goto_setGpW henv.gpr_size hr _ _ _)
      (Machine.gp_goto_setGpW_self henv.gpr_size _ _ _ _))

theorem runs_guard_writes (henv : Env M fb cap) {cond : Cond} {L : Nat} {st : Status}
    {k : Unit → LowerM β} {Q : β → Compiler → Machine → Prop} (hg : ∀ x, Grows (k x))
    (hX : cond.holds M.cpu.flags = false → ∀ M', Exited M' st c.stack.sp →
      CtxWrites M.mem M'.mem [(120, 4), (88, 8), (128, 8)] → X M')
    (hk : cond.holds M.cpu.flags = true → ∀ c' t, c' = { c with asm := c'.asm } →
      Runs K X (k ()) Q c' (M.goto t)) :
    Runs K X (do asm (Asm.jcc cond L); exit st; asm (Asm.bind L); k ()) Q c M := by
  refine Runs.jcc (fun _ => .bind (grows_exit st) fun _ => .bind (.asm' (.bindLabel L)) hg)
    (fun hc => ?_) (fun hc => ?_)
  · -- the check passes: the exit is jumped over
    refine Skip.pass fun _ c₁ h₁ => Skip.bindLabel hg fun s _ => ?_
    have hc₁ := Quiet.ok (quiet_exit st) h₁
    refine hk hc _ _ ?_
    rw [hc₁]
  · exact Runs.bind (runs_exit_writes (henv.goto _) st fun M' hM' hw => hX hc M' hM' hw) fun _ =>
      .bind (.asm' (.bindLabel L)) hg

theorem runs_guard (henv : Env M fb cap) {cond : Cond} {L : Nat} {st : Status}
    {k : Unit → LowerM β} {Q : β → Compiler → Machine → Prop} (hg : ∀ x, Grows (k x))
    (hX : cond.holds M.cpu.flags = false → ∀ M', Exited M' st c.stack.sp → X M')
    (hk : cond.holds M.cpu.flags = true → ∀ c' t, c' = { c with asm := c'.asm } →
      Runs K X (k ()) Q c' (M.goto t)) :
    Runs K X (do asm (Asm.jcc cond L); exit st; asm (Asm.bind L); k ()) Q c M :=
  runs_guard_writes henv hg (fun hc M' hM' _ => hX hc M' hM') hk

end Guard

end OnePassJit.Amd64
