import OnePassJit.Proofs.Arm64.Control

/-!
Constants, comparisons, arithmetic and conversions on arm64 keep the value stack laid out
and keep a flag only at the top.

Every lowering here either pops its operands first, which leaves no flag below them, or
pushes without popping and gives the top flag a register first. Between those ends the code
only emits instructions and moves values between registers and memory, so the stack it
pushes on still has no flag. Most lowerings share one of three shapes, each proved once:
a unary operation rewritten in its operand's register (`wp_popRewritePush`), a binary one
computed into the first operand's register (`wp_binary`), and a conversion into a fresh
register (`wp_popConvertPush`).
-/

namespace OnePassJit.Arm64.Lower

open ValueStack StackM

variable {c : Compiler} {a : Encoder} {T : Finset Reg} {Q : Unit → Compiler → Prop}

theorem wp_pushResult {c₀ : Compiler} (h₀ : Sound c₀) {r : Reg} (h : Fit {r} c.stack)
    (hn : NoFlags c.stack) (hf : Frame c₀ c) {t : SlotType} (ht : t ≠ .v128hi)
    (hQ : ∀ c', Sound c' → Frame c₀ c' → Q () c') :
    wp (pushRegister r t) Q { c with asm := a } :=
  wp_pushRegister h (Finset.mem_singleton_self r) ht fun c' h' hc' hf' => by
    rw [Finset.erase_singleton] at h'
    exact hQ c' (h₀.of_frame h' (by rw [hc']; exact hn.pushReg.flagTop) (hf.trans hf'))
      (hf.trans hf')

theorem wp_pushFlagResult {c₀ : Compiler} (h₀ : Sound c₀) (h : Fit ∅ c.stack)
    (hn : NoFlags c.stack) (hf : Frame c₀ c) (f : Flag)
    (hQ : ∀ c', Sound c' → Frame c₀ c' → Q () c') :
    wp (pushFlag f) Q { c with asm := a } :=
  wp_pushFlag h f fun c' h' hc' hf' =>
    hQ c' (h₀.of_frame h' (by rw [hc']; exact hn.pushFlag) (hf.trans hf')) (hf.trans hf')

theorem wp_popOperand (h : Sound c) {Q : Location → Compiler → Prop}
    (hQ : ∀ x n r c', TopAt c.stack x n → Fit {r} c'.stack → NoFlags c'.stack → Frame c c' →
      Q (x.setRegister r) c') :
    wp (popToRegister : LowerM Location) Q { c with asm := a } :=
  wp_popToRegister h.fit (by simp) fun x n r c' ht hs _ h' hf' => by
    rw [Finset.insert_empty] at h'
    exact hQ x n r c' ht h' (hs.moves.noFlags (h.flagTop.below ht)) hf'

theorem wp_materializeTopFlag_sound (h : Sound c) {Q : Unit → Compiler → Prop}
    (hQ : ∀ c', Fit ∅ c'.stack → NoFlags c'.stack → Frame c c' → Q () c') :
    wp materializeTopFlag Q { c with asm := a } :=
  wp_materializeTopFlag h.fit (by simp) fun c' h' hm hf htop =>
    hQ c' h' ((hm.flagTop h.flagTop).noFlags htop) hf

theorem wp_constInt (h : Sound c) {t : SlotType} (ht : t ≠ .v128hi) (v : UInt64)
    (hQ : ∀ c', Sound c' → Frame c c' → Q () c') : wp (constInt t v) Q { c with asm := a } := by
  unfold constInt
  rw [wp_bind]
  refine wp_materializeTopFlag_sound h fun c₁ h₁ hn₁ hf₁ => ?_
  rw [wp_bind]
  refine wp_allocate (a := c₁.asm) h₁ (h₁.room_free (by simp)) fun r c₂ h₂ _ _ hs₂ hf₂ => ?_
  rw [Finset.insert_empty] at h₂
  rw [wp_bind, wp_asm]
  intro _ _ _
  exact wp_pushResult h h₂ (hs₂.moves.noFlags hn₁) (hf₁.trans hf₂) ht hQ

theorem wp_constFloat (h : Sound c) (is32 : Bool) (bits : UInt64)
    (hQ : ∀ c', Sound c' → Frame c c' → Q () c') :
    wp (constFloat is32 bits) Q { c with asm := a } := by
  unfold constFloat
  rw [wp_bind]
  refine wp_materializeTopFlag_sound h fun c₁ h₁ hn₁ hf₁ => ?_
  rw [wp_bind]
  refine wp_floatConst (a := c₁.asm) h₁ (by simp) is32 bits fun r c₂ h₂ _ hs₂ hf₂ => ?_
  rw [Finset.insert_empty] at h₂
  exact wp_pushResult h h₂ (hs₂.moves.noFlags hn₁) (hf₁.trans hf₂)
    (by unfold floatSlot; split <;> decide) hQ

theorem wp_popTwo (h : Sound c) {Q : Location × Location → Compiler → Prop}
    (hQ : ∀ x₁ x₂ r₁ r₂ c', x₁.reg = some r₁ → x₂.reg = some r₂ → r₁ ≠ r₂ →
      x₁.type ≠ .v128hi → Fit {r₁, r₂} c'.stack → NoFlags c'.stack → Frame c c' →
      Q (x₁, x₂) c') :
    wp popTwo Q { c with asm := a } := by
  unfold popTwo
  rw [wp_bind]
  refine wp_popOperand h fun x₂ _ r₂ c₁ _ h₁ hn₁ hf₁ => ?_
  rw [wp_bind]
  refine wp_popToRegister (a := c₁.asm) h₁ (by simp) fun x₁ n₁ r₁ c₂ ht₁ hs₂ hr₁ h₂ hf₂ => ?_
  rw [wp_pure]
  exact hQ _ _ r₁ r₂ c₂ rfl rfl (by simpa using hr₁) (by simpa using ht₁.whole) h₂
    (hs₂.moves.noFlags (hn₁.below n₁)) (hf₁.trans hf₂)

theorem wp_finishBinary {c₀ : Compiler} (h₀ : Sound c₀) {x₁ x₂ : Location} {r₁ r₂ : Reg}
    (h : Fit {r₁, r₂} c.stack) (hn : NoFlags c.stack) (hf : Frame c₀ c) (hne : r₁ ≠ r₂)
    (hx₁ : x₁.reg = some r₁) (hx₂ : x₂.reg = some r₂) (ht : x₁.type ≠ .v128hi)
    (hQ : ∀ c', Sound c' → Frame c₀ c' → Q () c') :
    wp (finishBinary x₁ x₂) Q { c with asm := a } := by
  unfold finishBinary
  rw [wp_bind]
  refine wp_release_temp h hx₂ (by simp) fun c₁ h₁ hs₁ hf₁ => ?_
  rw [Finset.erase_insert_of_ne hne, Finset.erase_singleton, Finset.insert_empty] at h₁
  rw [wp_bind, wp_regOf hx₁]
  exact wp_pushResult h₀ h₁ (hs₁.moves.noFlags hn) (hf.trans hf₁) ht hQ

theorem wp_releasePush {c₀ : Compiler} (h₀ : Sound c₀) {x : Location} {r v : Reg}
    (h : Fit {r, v} c.stack) (hn : NoFlags c.stack) (hf : Frame c₀ c) (hne : r ≠ v)
    (hx : x.reg = some v) {t : SlotType} (ht : t ≠ .v128hi)
    (hQ : ∀ c', Sound c' → Frame c₀ c' → Q () c') :
    wp (release x >>= fun _ => pushRegister r t) Q { c with asm := a } := by
  rw [wp_bind]
  refine wp_release_temp h hx (by simp) fun c₁ h₁ hs₁ hf₁ => ?_
  rw [Finset.erase_insert_of_ne hne, Finset.erase_singleton, Finset.insert_empty] at h₁
  exact wp_pushResult h₀ h₁ (hs₁.moves.noFlags hn) (hf.trans hf₁) ht hQ

/-- A binary lowering: both operands are popped, and the code that follows ends by giving
back the second operand's register and pushing the first's. -/
theorem wp_binary (h : Sound c) {k : Location × Location → LowerM Unit}
    (hk : ∀ x₁ x₂ r₁ r₂ c₁, x₁.reg = some r₁ → x₂.reg = some r₂ →
      (∀ s, wp (finishBinary x₁ x₂) Q { c₁ with asm := s }) → wp (k (x₁, x₂)) Q c₁)
    (hQ : ∀ c', Sound c' → Frame c c' → Q () c') :
    wp (popTwo >>= k) Q { c with asm := a } := by
  rw [wp_bind]
  refine wp_popTwo h fun x₁ x₂ r₁ r₂ c₁ hx₁ hx₂ hne ht h₁ hn₁ hf₁ => ?_
  exact hk x₁ x₂ r₁ r₂ c₁ hx₁ hx₂ fun _ => wp_finishBinary h h₁ hn₁ hf₁ hne hx₁ hx₂ ht hQ

theorem wp_addSubMul (h : Sound c) (t : NumType) (op : ArithOp)
    (hQ : ∀ c', Sound c' → Frame c c' → Q () c') :
    wp (addSubMul t op) Q { c with asm := a } := by
  refine wp_binary h (fun x₁ x₂ r₁ r₂ c₁ hx₁ hx₂ hend => ?_) hQ
  rw [wp_bind, wp_regOf hx₁, wp_bind, wp_regOf hx₂]
  cases t <;> cases op
  all_goals exact wp_asm_bind fun _ _ => hend _

theorem wp_bitwise (h : Sound c) (t : IntWidth) (op : ArithOp)
    (hQ : ∀ c', Sound c' → Frame c c' → Q () c') : wp (bitwise t op) Q { c with asm := a } := by
  refine wp_binary h (fun x₁ x₂ r₁ r₂ c₁ hx₁ hx₂ hend => ?_) hQ
  rw [wp_bind, wp_regOf hx₁, wp_bind, wp_regOf hx₂]
  cases op
  all_goals exact wp_asm_bind fun _ _ => hend _

theorem wp_shift (h : Sound c) (is32 : Bool) (op : ShiftOp)
    (hQ : ∀ c', Sound c' → Frame c c' → Q () c') : wp (shift is32 op) Q { c with asm := a } := by
  refine wp_binary h (fun x₁ x₂ r₁ r₂ c₁ hx₁ hx₂ hend => ?_) hQ
  rw [wp_bind, wp_regOf hx₁, wp_bind, wp_regOf hx₂]
  cases op
  case rol => exact wp_asm_bind fun _ _ => wp_asm_bind fun _ _ => hend _
  all_goals exact wp_asm_bind fun _ _ => hend _

theorem wp_minMax (h : Sound c) (t : FloatType) (isMin : Bool)
    (hQ : ∀ c', Sound c' → Frame c c' → Q () c') : wp (minMax t isMin) Q { c with asm := a } := by
  refine wp_binary h (fun x₁ x₂ r₁ r₂ c₁ hx₁ hx₂ hend => ?_) hQ
  rw [wp_bind, wp_regOf hx₁, wp_bind, wp_regOf hx₂]
  exact wp_asm_bind fun _ _ => hend _

theorem wp_copysign (h : Sound c) (t : FloatType)
    (hQ : ∀ c', Sound c' → Frame c c' → Q () c') : wp (copysign t) Q { c with asm := a } := by
  refine wp_binary h (fun x₁ x₂ r₁ r₂ c₁ hx₁ hx₂ hend => ?_) hQ
  rw [wp_bind, wp_regOf hx₁, wp_bind, wp_regOf hx₂]
  repeat' with_reducible first
    | exact hend _
    | refine wp_asm_bind fun _ _ => ?_

theorem wp_releasePushFlag {c₀ : Compiler} (h₀ : Sound c₀) {x₁ x₂ : Location} {r₁ r₂ : Reg}
    (h : Fit {r₁, r₂} c.stack) (hn : NoFlags c.stack) (hf : Frame c₀ c) (hne : r₁ ≠ r₂)
    (hx₁ : x₁.reg = some r₁) (hx₂ : x₂.reg = some r₂) (f : Flag)
    (hQ : ∀ c', Sound c' → Frame c₀ c' → Q () c') :
    wp (release x₁ >>= fun _ => release x₂ >>= fun _ => pushFlag f) Q { c with asm := a } := by
  rw [wp_bind]
  refine wp_release_temp h hx₁ (by simp) fun c₁ h₁ hs₁ hf₁ => ?_
  rw [wp_bind]
  refine wp_release_temp h₁ hx₂ (by simp [Ne.symm hne]) fun c₂ h₂ hs₂ hf₂ => ?_
  have hempty : (({r₁, r₂} : Finset Reg).erase r₁).erase r₂ = ∅ := by
    ext x
    simp only [Finset.mem_erase, Finset.mem_insert, Finset.mem_singleton, Finset.notMem_empty,
      iff_false]
    tauto
  rw [hempty] at h₂
  exact wp_pushFlagResult h₀ h₂ (hs₂.moves.noFlags (hs₁.moves.noFlags hn))
    (hf.trans (hf₁.trans hf₂)) f hQ

theorem wp_eqOrNe (h : Sound c) (t : NumType) (isEq : Bool)
    (hQ : ∀ c', Sound c' → Frame c c' → Q () c') : wp (eqOrNe t isEq) Q { c with asm := a } := by
  unfold eqOrNe
  rw [wp_bind]
  refine wp_popTwo h fun x₁ x₂ r₁ r₂ c₁ hx₁ hx₂ hne _ h₁ hn₁ hf₁ => ?_
  rw [wp_bind, wp_regOf hx₁, wp_bind, wp_regOf hx₂]
  cases t
  all_goals exact wp_asm_bind fun _ _ => wp_releasePushFlag h h₁ hn₁ hf₁ hne hx₁ hx₂ _ hQ

theorem wp_compare (h : Sound c) (t : CmpType) (flag : Flag)
    (hQ : ∀ c', Sound c' → Frame c c' → Q () c') : wp (compare t flag) Q { c with asm := a } := by
  unfold compare
  rw [wp_bind]
  refine wp_popTwo h fun x₁ x₂ r₁ r₂ c₁ hx₁ hx₂ hne _ h₁ hn₁ hf₁ => ?_
  dsimp only
  rw [wp_bind, wp_regOf hx₁, wp_bind, wp_regOf hx₂]
  have hpush : ∀ f s, wp (pure f >>= fun result => release x₁ >>= fun _ => release x₂ >>=
      fun _ => pushFlag result) Q { c₁ with asm := s } := fun f _ => by
    rw [wp_bind, wp_pure]
    exact wp_releasePushFlag h h₁ hn₁ hf₁ hne hx₁ hx₂ f hQ
  cases t
  all_goals exact wp_asm_bind fun _ s => hpush _ s

theorem wp_eqz (h : Sound c) (t : IntWidth) (hQ : ∀ c', Sound c' → Frame c c' → Q () c') :
    wp (eqz t) Q { c with asm := a } := by
  unfold eqz
  rw [wp_bind]
  refine wp_popOperand h fun x _ r c₁ _ h₁ hn₁ hf₁ => ?_
  simp only [wp_bind, wp_regOf (Location.setRegister_reg x r), wp_asm]
  intro _ s _
  refine wp_release_temp (c := c₁) (a := s) h₁ rfl (by simp) fun c₂ h₂ hs₂ hf₂ => ?_
  rw [Finset.erase_singleton] at h₂
  exact wp_pushFlagResult h h₂ (hs₂.moves.noFlags hn₁) (hf₁.trans hf₂) _ hQ

theorem wp_intDivision (h : Sound c) (t : IntType) (isRem : Bool)
    (hQ : ∀ c', Sound c' → Frame c c' → Q () c') :
    wp (intDivision t isRem) Q { c with asm := a } := by
  unfold intDivision
  dsimp only
  rw [wp_bind]
  refine wp_popTwo h fun x₁ x₂ r₁ r₂ c₁ hx₁ hx₂ hne _ h₁ hn₁ hf₁ => ?_
  rw [wp_bind, wp_regOf hx₁, wp_bind, wp_regOf hx₂]
  have hend : ∀ s, wp (release x₂ >>= fun _ => pushRegister r₁ (intSlot t.is32)) Q
      { c₁ with asm := s } := by
    intro s
    rw [wp_bind]
    refine wp_release_temp h₁ hx₂ (by simp) fun c₂ h₂ hs₂ hf₂ => ?_
    rw [Finset.erase_insert_of_ne hne, Finset.erase_singleton, Finset.insert_empty] at h₂
    exact wp_pushResult h h₂ (hs₂.moves.noFlags hn₁) (hf₁.trans hf₂)
      (by unfold intSlot; split <;> decide) hQ
  repeat' with_reducible first
    | exact hend _
    | refine wp_asm_bind fun _ _ => ?_
    | refine (quiet_exit _).wp_then fun _ _ => ?_
    | refine wp_ite.mpr ⟨fun _ => ?_, fun _ => ?_⟩

theorem wp_div (h : Sound c) (t : CmpType) (hQ : ∀ c', Sound c' → Frame c c' → Q () c') :
    wp (div t) Q { c with asm := a } := by
  cases t
  case s32 | u32 | s64 | u64 => exact wp_intDivision h _ false hQ
  all_goals
    refine wp_binary h (fun x₁ x₂ r₁ r₂ c₁ hx₁ hx₂ hend => ?_) hQ
    rw [wp_bind, wp_regOf hx₁, wp_bind, wp_regOf hx₂]
    exact wp_asm_bind fun _ _ => hend _

theorem wp_unary (h : Sound c) {k : Location → LowerM Unit}
    (hk : ∀ x r c₁, x.reg = some r → x.type ≠ .v128hi →
      (∀ t, t ≠ .v128hi → ∀ s, wp (pushRegister r t) Q { c₁ with asm := s }) → wp (k x) Q c₁)
    (hQ : ∀ c', Sound c' → Frame c c' → Q () c') :
    wp (popToRegister >>= k) Q { c with asm := a } := by
  rw [wp_bind]
  refine wp_popOperand h fun x _ r c₁ ht h₁ hn₁ hf₁ => ?_
  exact hk _ r c₁ rfl (by simpa using ht.whole) fun t htt _ =>
    wp_pushResult h h₁ hn₁ hf₁ htt hQ

theorem wp_countZeros (h : Sound c) (t : IntWidth) (isClz : Bool)
    (hQ : ∀ c', Sound c' → Frame c c' → Q () c') :
    wp (countZeros t isClz) Q { c with asm := a } := by
  refine wp_unary h (fun x r c₁ hx ht hend => ?_) hQ
  rw [wp_bind, wp_regOf hx]
  dsimp only
  split
  · exact wp_asm_bind fun _ _ => wp_asm_bind fun _ _ => hend _ ht _
  · exact wp_asm_bind fun _ _ => hend _ ht _

theorem wp_popcnt (h : Sound c) (hQ : ∀ c', Sound c' → Frame c c' → Q () c') :
    wp popcnt Q { c with asm := a } := by
  refine wp_unary h (fun x r c₁ hx ht hend => ?_) hQ
  rw [wp_bind, wp_regOf hx]
  repeat' with_reducible first
    | exact hend _ ht _
    | refine wp_asm_bind fun _ _ => ?_

theorem wp_signExtend (h : Sound c) (w : Width) (fromBits : Nat)
    (hQ : ∀ c', Sound c' → Frame c c' → Q () c') :
    wp (signExtend w fromBits) Q { c with asm := a } := by
  refine wp_unary h (fun x r c₁ hx _ hend => ?_) hQ
  rw [wp_bind, wp_regOf hx]
  exact wp_asm_bind fun _ _ => hend _ (by unfold intSlot; split <;> decide) _

theorem wp_wrap (h : Sound c) (hQ : ∀ c', Sound c' → Frame c c' → Q () c') :
    wp wrap Q { c with asm := a } := by
  refine wp_unary h (fun x r c₁ hx _ hend => ?_) hQ
  rw [wp_bind, wp_regOf hx]
  exact wp_asm_bind fun _ _ => hend _ (by decide) _

theorem wp_extend (h : Sound c) (signed : Bool) (hQ : ∀ c', Sound c' → Frame c c' → Q () c') :
    wp (extend signed) Q { c with asm := a } := by
  refine wp_unary h (fun x r c₁ hx _ hend => ?_) hQ
  rw [wp_bind, wp_regOf hx]
  split
  · exact wp_asm_bind fun _ _ => hend _ (by decide) _
  · exact wp_asm_bind fun _ _ => hend _ (by decide) _

theorem wp_floatUnary (h : Sound c) (t : FloatType) (op : FloatUnOp)
    (hQ : ∀ c', Sound c' → Frame c c' → Q () c') :
    wp (floatUnary t op) Q { c with asm := a } := by
  refine wp_unary h (fun x r c₁ hx ht hend => ?_) hQ
  rw [wp_bind, wp_regOf hx]
  exact wp_asm_bind fun _ _ => hend _ ht _

theorem wp_demote (h : Sound c) (hQ : ∀ c', Sound c' → Frame c c' → Q () c') :
    wp demote Q { c with asm := a } := by
  refine wp_unary h (fun x r c₁ hx _ hend => ?_) hQ
  rw [wp_bind, wp_regOf hx]
  exact wp_asm_bind fun _ _ => hend _ (by decide) _

theorem wp_promote (h : Sound c) (hQ : ∀ c', Sound c' → Frame c c' → Q () c') :
    wp promote Q { c with asm := a } := by
  refine wp_unary h (fun x r c₁ hx _ hend => ?_) hQ
  rw [wp_bind, wp_regOf hx]
  exact wp_asm_bind fun _ _ => hend _ (by decide) _

theorem wp_convert (h : Sound c) (kind : RegKind) {k : Location → Reg → Reg → LowerM Unit}
    (hk : ∀ x src dst c₂, (∀ t, t ≠ .v128hi → ∀ s,
      wp (release x >>= fun _ => pushRegister dst t) Q { c₂ with asm := s }) →
      wp (k x src dst) Q c₂)
    (hQ : ∀ c', Sound c' → Frame c c' → Q () c') :
    wp (do
      let x ← popToRegister
      let src ← regOf x
      let dst ← allocate kind
      k x src dst) Q { c with asm := a } := by
  rw [wp_bind]
  refine wp_popOperand h fun x _ r c₁ _ h₁ hn₁ hf₁ => ?_
  rw [wp_bind, wp_regOf (Location.setRegister_reg x r), wp_bind]
  refine wp_allocate (a := c₁.asm) h₁ (h₁.room_free (by simp)) fun dst c₂ h₂ hdst _ hs₂ hf₂ => ?_
  exact hk _ r dst c₂ fun t ht s => wp_releasePush h h₂ (hs₂.moves.noFlags hn₁)
    (hf₁.trans hf₂) (by simpa using hdst) (Location.setRegister_reg x r) ht hQ

theorem wp_reinterpret (h : Sound c) {target : SlotType} (ht : target ≠ .v128hi)
    (hQ : ∀ c', Sound c' → Frame c c' → Q () c') :
    wp (reinterpret target) Q { c with asm := a } := by
  unfold reinterpret
  refine wp_convert h _ (fun x src dst c₂ hend => ?_) hQ
  dsimp only
  split
  all_goals exact wp_asm_bind fun _ _ => hend _ ht _

theorem wp_convertFromInt (h : Sound c) (input : IntType) (output : FloatType)
    (hQ : ∀ c', Sound c' → Frame c c' → Q () c') :
    wp (convertFromInt input output) Q { c with asm := a } := by
  unfold convertFromInt
  refine wp_convert h _ (fun x src dst c₂ hend => ?_) hQ
  exact wp_asm_bind fun _ _ => hend _ (by unfold floatSlot; split <;> decide) _

theorem quiet_trappingTrunc (signed src32 : Bool) (w : Width) (dst src : Reg) :
    Quiet (trappingTrunc signed src32 w dst src) := by
  unfold trappingTrunc
  repeat' with_reducible first
    | exact Quiet.asm' _
    | exact quiet_exit _
    | refine Quiet.bind (Quiet.asm' _) fun _ => ?_
    | refine Quiet.bind (quiet_exit _) fun _ => ?_

theorem wp_truncToInt (h : Sound c) (input : FloatType) (output : IntType) (nonTrapping : Bool)
    (hQ : ∀ c', Sound c' → Frame c c' → Q () c') :
    wp (truncToInt input output nonTrapping) Q { c with asm := a } := by
  unfold truncToInt
  refine wp_convert h _ (fun x src dst c₂ hend => ?_) hQ
  have hend' := hend (intSlot output.is32) (by unfold intSlot; split <;> decide)
  dsimp only
  split
  · exact wp_asm_bind fun _ _ => hend' _
  · exact (quiet_trappingTrunc _ _ _ _ _).wp_then fun _ _ => hend' _

end OnePassJit.Arm64.Lower
