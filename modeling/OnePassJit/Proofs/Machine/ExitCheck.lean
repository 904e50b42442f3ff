import OnePassJit.Proofs.Machine.Release
import OnePassJit.Proofs.Run

/-!
The exit status check on the machine.

With termination checks on, a loop header that a branch reaches is followed by the check
(`step_header_checks`). Its code writes every live value back to its slot, records the check
builtin, the status and the stack pointer in the call context and returns to the host
(`runs_checkExitCode`): a jump back to the header leaves generated code before the loop body
runs again, and the host decides whether the call goes on.
-/

namespace OnePassJit.Amd64

open Lower ValueStack

variable {K : Code} {X : Machine → Prop} {c : Compiler} {M : Machine} {fb cap : Nat}

theorem runs_exitResumable (henv : Env M fb cap) (st : Status) {Q : Unit → Compiler → Machine → Prop}
    (hX : ∀ M', Exited M' st c.stack.sp → CtxWrites M.mem M'.mem [(120, 4), (88, 8), (128, 8)] →
      X M') :
    Runs K X (exitResumable st) Q c M := by
  unfold exitResumable
  refine Runs.bind (runs_writeExitStatus henv st fun c₁ M₁ hc₁ henv₁ hst hsp hkeep => ?_) fun _ =>
    .bind (.asm' .createLabel) fun _ => .bind (.asm' (.leaLabel _ _)) fun _ =>
      .bind (.asm' (.store _ _ _)) fun _ => .bind (.asm' (.add _)) fun _ => .asm' (.bindLabel _)
  refine Runs.bind (Runs.silent .createLabel fun resume c₂ h₂ => ?_) fun _ =>
    .bind (.asm' (.leaLabel _ _)) fun _ => .bind (.asm' (.store _ _ _)) fun _ =>
      .bind (.asm' (.add _)) fun _ => .asm' (.bindLabel _)
  refine Runs.bind (Runs.step (Asm.leaLabel_eq (by decide) _ _) (Machine.exec_leaRip _ _) rfl ?_)
    fun _ => .bind (.asm' (.store _ _ _)) fun _ => .bind (.asm' (.add _)) fun _ => .asm' (.bindLabel _)
  have henv₂ := Env.of_keeps (Keeps.goto_setGpW (henv₁.goto (K.addr c₂.asm.instrs.size)).gpr_size
    (r := scratchGp) (by decide) (K.addr (c₂.asm.instrs.size + 1)) .w64 (K.target resume))
    (by simp [writable_scratchGp]) (henv₁.goto _)
  refine Runs.bind (runs_storeCtx (Asm.store_eq (by decide) (MemRef.valid_at (by decide) _) _ _)
    henv₂ (show 128 + 8 ≤ Abi.ctxSize by decide) (fun _ => Machine.exec_store _ _ _)
    fun mem₃ hw₃ => ?_) fun _ => .bind (.asm' (.add _)) fun _ => .asm' (.bindLabel _)
  have henv₃ := (henv₂.goto _).write_ctx (by decide) hw₃
  have hw₃' := CtxWrites.of_write (henv₂.locate_ctxAddr (show 128 + 8 ≤ Abi.ctxSize by decide)) hw₃
  refine Runs.bind (Runs.emit (Asm.add_eq _ _)
    ⟨_, Machine.exec_ret henv₃.hostReturn, .inl (hX _ ⟨rfl, ?_, ?_⟩ (hkeep.trans hw₃'))⟩)
    fun _ => .asm' (.bindLabel _)
  · exact (hw₃'.read_ctx (henv₂.locate_ctxAddr (show 120 + 4 ≤ Abi.ctxSize by decide))
      (by simp)).trans hst
  · exact (hw₃'.read_ctx (henv₂.locate_ctxAddr (show 88 + 8 ≤ Abi.ctxSize by decide))
      (by simp)).trans hsp

theorem grows_exitResumable (st : Status) : Grows (exitResumable st) := by
  unfold exitResumable
  exact .bind (grows_writeExitStatus st) fun _ => .bind (.asm' .createLabel) fun _ =>
    .bind (.asm' (.leaLabel _ _)) fun _ => .bind (.asm' (.store _ _ _)) fun _ =>
      .bind (.asm' (.add _)) fun _ => .asm' (.bindLabel _)

theorem grows_initStackBase : Grows initStackBase := by
  unfold initStackBase
  exact .bind (.asm' (.load _ _ _)) fun _ =>
    .asm' (.bind (.mem _) fun _ => .bind (.gp _ _) fun _ => .add _)

theorem grows_initMemory : Grows initMemory := by
  unfold initMemory fn
  exact .bind (.bind .get' fun _ => .pure' _) fun _ => .ite' (.asm' (.load _ _ _)) (.pure' _)

theorem grows_callBuiltin (b : Builtin) : Grows (callBuiltin b) := by
  unfold callBuiltin
  exact .bind (.asm' (.storeImm32 _ _)) fun _ => .bind (grows_exitResumable _) fun _ =>
    .bind grows_initStackBase fun _ => grows_initMemory

theorem runs_callBuiltin (henv : Env M fb cap) (b : Builtin) {Q : Unit → Compiler → Machine → Prop}
    (hX : ∀ M', Exited M' .callBuiltin c.stack.sp →
      M'.mem.read (Dispatch.ctxAddr Abi.ctxBuiltin) 4 = some b.code.toUInt64 →
      CtxWrites M.mem M'.mem [(88, 8), (120, 16)] → X M') :
    Runs K X (callBuiltin b) Q c M := by
  unfold callBuiltin
  refine Runs.bind (runs_storeCtx (Asm.storeImm32_eq (MemRef.valid_at (by decide) _) _ _) henv
    (show 124 + 4 ≤ Abi.ctxSize by decide) (fun _ => Machine.exec_storeImm32 _ _)
    fun mem₁ hw₁ => ?_) fun _ => .bind (grows_exitResumable _) fun _ =>
      .bind grows_initStackBase fun _ => grows_initMemory
  have hw₁' := CtxWrites.of_write (henv.locate_ctxAddr (show 124 + 4 ≤ Abi.ctxSize by decide)) hw₁
  refine Runs.bind (runs_exitResumable
    ((henv.goto (K.addr (c.asm.instrs.size + 1))).write_ctx (by decide) hw₁) .callBuiltin
    fun M' hM' hkeep => hX M' hM' ?_ ((hw₁'.trans hkeep).mono ?_))
    fun _ => .bind grows_initStackBase fun _ => grows_initMemory
  · -- the exit writes around the builtin field
    refine (hkeep.read_ctx ((AddressSpace.locate_write hw₁ _ _).trans
      (henv.locate_ctxAddr (show 124 + 4 ≤ Abi.ctxSize by decide))) (by simp)).trans ?_
    exact read_write_of_lt hw₁ (by decide) (by rw [UInt32.toNat_toUInt64]; exact b.code.toNat_lt)
  · -- the builtin, status and return address fields are one run of bytes
    decide

variable {T : Finset Reg} {vs : List UInt64}

/-- The exit status check writes every live value back to its slot and leaves to the host
with the check builtin: nothing after it runs before the host has looked at the instance. -/
theorem runs_checkExitCode (h : Rep M fb cap c.stack vs) (hfit : Fit T c.stack) (hcard : T.card < 9)
    {Q : Unit → Compiler → Machine → Prop}
    (hX : ∀ M', Exited M' .callBuiltin c.stack.sp →
      M'.mem.read (Dispatch.ctxAddr Abi.ctxBuiltin) 4 = some Builtin.checkExitCode.code.toUInt64 →
      X M') :
    Runs K X Lower.checkExitCode Q c M := by
  unfold Lower.checkExitCode
  refine Runs.bind (runs_releaseAllToStack h hfit hcard fun c' M' _ hrep _ =>
    runs_callBuiltin hrep.env _ fun M'' hex hb _ => hX M'' ?_ hb) fun _ => grows_callBuiltin _
  rwa [← hrep.length_eq, h.length_eq] at hex

/-- With termination checks on, a loop header that a branch reaches is followed by the exit
status check: once the label is bound, the step lowers the check and nothing else. -/
theorem step_header_checks {l : Label} (hl : l.kind = .header) {c₁ : Compiler}
    (hb : Lower.bindLabel l c = .ok (false, c₁)) (st : Bool × Nat) :
    backend.step true st (.label l) c =
      (do Lower.checkExitCode; pure (false, st.2) : LowerM (Bool × Nat)) c₁ := by
  show (Lower.bindLabel l c >>= fun p => _) = _
  rw [hb, hl]
  rfl

end OnePassJit.Amd64
