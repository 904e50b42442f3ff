import OnePassJit.Proofs.Arm64.Numeric

/-!
Globals, linear memory and tables keep the layout on arm64, and keep a flag only at the
top.

Range checks, copy and fill loops and table bounds work in the scratch registers, so they
only emit code. What takes a register is an address: a global's, a segment's or a table's
record, or the accessed address itself, popped from the stack. Each such temporary is given
back before the operation ends. An operation that pops leaves no flag below; the ones that
push without popping give the top flag a register first, and the two the host finishes
(`memory.grow`, `table.grow`) first send every value to memory.
-/

namespace OnePassJit.Arm64.Lower

open ValueStack StackM

variable {α : Type} {c : Compiler} {a : Encoder} {T : Finset Reg} {Q : Unit → Compiler → Prop}

@[simp] theorem SlotType.ofValue_ne_v128hi (t : ValueType) : SlotType.ofValue t ≠ .v128hi := by
  cases t <;> decide

theorem Sound.finish {c₀ : Compiler} (h₀ : Sound c₀) (h : Fit ∅ c.stack) (hn : FlagTop c.stack)
    (hf : Frame c₀ c) (hQ : ∀ c', Sound c' → Frame c₀ c' → Q () c') : Q () c :=
  hQ c (h₀.of_frame h hn hf) hf

theorem wp_releaseTemp {r : Reg} (h : Fit (insert r T) c.stack) (hn : NoFlags c.stack)
    (hr : r ∉ T) {k : PUnit → LowerM α} {Q : α → Compiler → Prop}
    (hk : ∀ c', Fit T c'.stack → NoFlags c'.stack → Frame c c' → wp (k ()) Q c') :
    wp (releaseReg r >>= k) Q { c with asm := a } := by
  rw [wp_bind]
  refine wp_releaseReg h (h.1.temp_free r (Finset.mem_insert_self r T)) fun c₁ h₁ hc₁ hf₁ => ?_
  rw [Finset.erase_insert hr] at h₁
  exact hk c₁ h₁ (by rw [hc₁]; exact hn) hf₁

theorem wp_globalAddress (h : Fit T c.stack) (hcard : T.card < 9) (index : UInt32)
    {Q : Reg × SlotType → Compiler → Prop}
    (hQ : ∀ r t c', Fit (insert r T) c'.stack → r ∉ T → t ≠ .v128hi → Spills c.stack c'.stack →
      Frame c c' → Q (r, t) c') :
    wp (globalAddress index) Q { c with asm := a } := by
  unfold globalAddress fn
  simp only [wp_bind, wp_get, wp_pure]
  split
  · rw [wp_bind]
    refine wp_allocate h (h.room_free hcard) fun r c₁ h₁ hr _ hs₁ hf₁ => ?_
    simp only [loadCtx, wp_bind, wp_asm, wp_scaled, wp_pure]
    intros
    exact hQ r _ _ h₁ hr (SlotType.ofValue_ne_v128hi _) hs₁ hf₁
  · simp

theorem wp_releaseBoth {c₀ : Compiler} (h₀ : Sound c₀) {x : Location} {v r : Reg}
    (hx : x.reg = some v) (h : Fit {r, v} c.stack) (hn : NoFlags c.stack) (hf : Frame c₀ c)
    (hne : r ≠ v) (hQ : ∀ c', Sound c' → Frame c₀ c' → Q () c') :
    wp (release x >>= fun _ => releaseReg r) Q { c with asm := a } := by
  rw [wp_bind]
  refine wp_release_temp h hx (by simp) fun c₁ h₁ hs₁ hf₁ => ?_
  rw [Finset.erase_insert_of_ne hne, Finset.erase_singleton, Finset.insert_empty] at h₁
  refine wp_releaseReg h₁ (h₁.1.temp_free r (by simp)) fun c₂ h₂ hc₂ hf₂ => ?_
  rw [Finset.erase_singleton] at h₂
  have hn₂ : NoFlags c₂.stack := by
    rw [hc₂]
    exact hs₁.moves.noFlags hn
  exact h₀.finish h₂ hn₂.flagTop (hf.trans (hf₁.trans hf₂)) hQ

theorem wp_globalGet (h : Sound c) (index : UInt32)
    (hQ : ∀ c', Sound c' → Frame c c' → Q () c') :
    wp (globalGet index) Q { c with asm := a } := by
  unfold globalGet
  rw [wp_bind]
  refine wp_materializeTopFlag_sound h fun c₁ h₁ hn₁ hf₁ => ?_
  rw [wp_bind]
  refine wp_globalAddress (a := c₁.asm) h₁ (by simp) index fun addr t c₂ h₂ _ ht hs₂ hf₂ => ?_
  rw [Finset.insert_empty] at h₂
  have hn₂ : NoFlags c₂.stack := hs₂.moves.noFlags hn₁
  dsimp only
  split
  · exact wp_asm_bind fun _ _ => wp_pushResult h h₂ hn₂ (hf₁.trans hf₂) (by decide) hQ
  · exact wp_asm_bind fun _ _ => wp_pushResult h h₂ hn₂ (hf₁.trans hf₂) (by decide) hQ
  · rw [wp_bind]
    refine wp_allocate (a := c₂.asm) h₂ (h₂.room_free (by simp)) fun r c₃ h₃ hr _ hs₃ hf₃ => ?_
    refine wp_asm_bind fun _ _ => ?_
    rw [Finset.pair_comm] at h₃
    exact wp_releaseTemp h₃ (hs₃.moves.noFlags hn₂) (by simpa [eq_comm] using hr)
      fun c₄ h₄ hn₄ hf₄ => wp_pushResult h h₄ hn₄ (hf₁.trans (hf₂.trans (hf₃.trans hf₄))) ht hQ

theorem wp_globalSet (h : Sound c) (index : UInt32)
    (hQ : ∀ c', Sound c' → Frame c c' → Q () c') :
    wp (globalSet index) Q { c with asm := a } := by
  unfold globalSet
  rw [wp_bind]
  refine wp_popOperand h fun x _ v c₁ _ h₁ hn₁ hf₁ => ?_
  rw [wp_bind]
  refine wp_globalAddress (a := c₁.asm) h₁ (by simp) index
    fun addr t c₂ h₂ hne _ hs₂ hf₂ => ?_
  dsimp only
  rw [wp_bind, wp_regOf (Location.setRegister_reg x v)]
  split <;> exact wp_asm_bind fun _ _ => wp_releaseBoth h (Location.setRegister_reg x v) h₂
    (hs₂.moves.noFlags hn₁) (hf₁.trans hf₂) (by simpa using hne) hQ

theorem wp_boundsCheckedAddress (h : Fit T c.stack) (hn : FlagTop c.stack)
    (hcard : T.card + 1 < 9) (arg : MemArg) (size : Nat) {Q : Reg → Compiler → Prop}
    (hQ : ∀ r c', r ∉ T → Fit (insert r T) c'.stack → NoFlags c'.stack → Frame c c' →
      Q r c') :
    wp (boundsCheckedAddress arg size) Q { c with asm := a } := by
  unfold boundsCheckedAddress
  rw [wp_bind]
  refine wp_popToRegister h hcard fun x n r c₁ ht hs₁ hr h₁ hf₁ => ?_
  rw [wp_bind, wp_regOf (Location.setRegister_reg x r)]
  have hend : ∀ s, wp (pure r) Q { c₁ with asm := s } := fun _ =>
    (wp_pure r).mpr (hQ r _ hr h₁ (hs₁.moves.noFlags (hn.below ht)) hf₁)
  repeat' with_reducible first
    | exact hend _
    | refine wp_asm_bind fun _ _ => ?_
    | refine (quiet_loadCtx _ _).wp_then fun _ _ => ?_
    | refine (quiet_exit _).wp_then fun _ _ => ?_

theorem wp_loadInt (h : Sound c) (kind : LoadKind) (size : Nat) {result : SlotType}
    (ht : result ≠ .v128hi) (arg : MemArg) (hQ : ∀ c', Sound c' → Frame c c' → Q () c') :
    wp (loadInt kind size result arg) Q { c with asm := a } := by
  unfold loadInt
  rw [wp_bind]
  refine wp_boundsCheckedAddress h.fit h.flagTop (by simp) arg size fun r c₁ _ h₁ hn₁ hf₁ => ?_
  rw [Finset.insert_empty] at h₁
  exact wp_asm_bind fun _ _ => wp_pushResult h h₁ hn₁ hf₁ ht hQ

theorem wp_loadVector (h : Sound c) (size : Nat) {result : SlotType} (ht : result ≠ .v128hi)
    (arg : MemArg) (hQ : ∀ c', Sound c' → Frame c c' → Q () c') :
    wp (loadVector size result arg) Q { c with asm := a } := by
  unfold loadVector
  rw [wp_bind]
  refine wp_boundsCheckedAddress h.fit h.flagTop (by simp) arg size
    fun addr c₁ _ h₁ hn₁ hf₁ => ?_
  rw [Finset.insert_empty] at h₁
  rw [wp_bind]
  refine wp_allocate (a := c₁.asm) h₁ (h₁.room_free (by simp)) fun r c₂ h₂ hr _ hs₂ hf₂ => ?_
  refine wp_asm_bind fun _ _ => ?_
  rw [Finset.pair_comm] at h₂
  exact wp_releaseTemp h₂ (hs₂.moves.noFlags hn₁) (by simpa [eq_comm] using hr)
    fun c₃ h₃ hn₃ hf₃ => wp_pushResult h h₃ hn₃ (hf₁.trans (hf₂.trans hf₃)) ht hQ

theorem wp_store (h : Sound c) (size : Nat) (arg : MemArg)
    (hQ : ∀ c', Sound c' → Frame c c' → Q () c') :
    wp (store size arg) Q { c with asm := a } := by
  unfold store
  rw [wp_bind]
  refine wp_popOperand h fun x _ v c₁ _ h₁ hn₁ hf₁ => ?_
  rw [wp_bind]
  refine wp_boundsCheckedAddress (a := c₁.asm) h₁ hn₁.flagTop (by simp) arg size
    fun addr c₂ hne h₂ hn₂ hf₂ => ?_
  dsimp only
  rw [wp_bind, wp_regOf (Location.setRegister_reg x v)]
  split <;> exact wp_asm_bind fun _ _ => wp_releaseBoth h (Location.setRegister_reg x v) h₂
    hn₂ (hf₁.trans hf₂) (by simpa using hne) hQ

theorem wp_memorySize (h : Sound c) (hQ : ∀ c', Sound c' → Frame c c' → Q () c') :
    wp memorySize Q { c with asm := a } := by
  unfold memorySize
  rw [wp_bind]
  refine wp_materializeTopFlag_sound h fun c₁ h₁ hn₁ hf₁ => ?_
  rw [wp_bind]
  refine wp_allocate (a := c₁.asm) h₁ (h₁.room_free (by simp)) fun r c₂ h₂ _ _ hs₂ hf₂ => ?_
  rw [Finset.insert_empty] at h₂
  refine (quiet_loadCtx _ _).wp_then fun _ _ => ?_
  exact wp_asm_bind fun _ _ =>
    wp_pushResult h h₂ (hs₂.moves.noFlags hn₁) (hf₁.trans hf₂) (by decide) hQ

theorem wp_memoryGrow (h : Sound c)
    (hw : Operation.memoryGrow.ReadsWhole c.fn.module c.stack.slots)
    (hQ : ∀ c', Sound c' → Frame c c' → Q () c') :
    wp memoryGrow Q { c with asm := a } := by
  unfold memoryGrow
  rw [wp_bind]
  refine wp_releaseAllToStack h.fit (by simp) fun c₁ h₁ hm₁ hmem₁ hf₁ => ?_
  rw [wp_bind]
  refine quiet_callBuiltin _ c₁ _ fun _ s => ?_
  rw [wp_bind, wp_discard]
  refine wp_popSlot (c := { c₁ with asm := s }) h₁ (by rw [hm₁.size_eq]; exact hm₁.notHiAt hw)
    fun x hx _ _ h₂ => ?_
  have hreg : x.reg = none := by
    rw [Array.back?_eq_getElem?] at hx
    have := hmem₁ hx
    simp only [Location.onStack, Bool.and_eq_true, Option.isNone_iff_eq_none] at this
    exact this.1
  rw [hreg, Option.toFinset_none, Finset.union_empty] at h₂
  have hn₂ : NoFlags { c₁.stack with slots := c₁.stack.slots.pop } :=
    hmem₁.noFlags.flagTop.pop
  rw [wp_discard, wp_stk]
  intro _ s₃ hok
  exact h.finish (keeps_pushOnStack (by decide) (by decide) _ _ _ h₂ hok)
    (keeps_noFlags_pushOnStack _ _ _ _ hn₂ hok).flagTop (hf₁.trans ⟨rfl, rfl⟩) hQ

/-! Helpers of the bulk operations: checks and loops work in the scratch registers. -/

theorem quiet_checkRange (offset count : Reg) (limit : Field) (oob : Nat) :
    Quiet (checkRange offset count limit oob) :=
  Quiet.bind (Quiet.asm' _) fun _ => Quiet.bind (Quiet.asm' _) fun _ =>
    Quiet.bind (Quiet.asm' _) fun _ => Quiet.asm' _

theorem quiet_copyLoop (src dst count : Reg) (scale : Nat) (dir : Direction) :
    Quiet (copyLoop src dst count scale dir) := by
  unfold copyLoop
  cases dir <;> dsimp only <;> repeat' with_reducible first
    | exact Quiet.asm' _
    | refine Quiet.bind (Quiet.asm' _) fun _ => ?_

theorem quiet_overlappingCopy (src dst count : Reg) (scale : Nat) :
    Quiet (overlappingCopy src dst count scale) := by
  unfold overlappingCopy
  repeat' with_reducible first
    | exact Quiet.asm' _
    | refine Quiet.bind (Quiet.asm' _) fun _ => ?_
    | refine Quiet.bind (quiet_copyLoop _ _ _ _ _) fun _ => ?_

theorem quiet_fillLoop (dst value count : Reg) (scale : Nat) :
    Quiet (fillLoop dst value count scale) := by
  unfold fillLoop
  repeat' with_reducible first
    | exact Quiet.asm' _
    | refine Quiet.bind (Quiet.asm' _) fun _ => ?_

theorem quiet_trapBlock (oob : Nat) (st : Status) : Quiet (trapBlock oob st) :=
  Quiet.bind (Quiet.asm' _) fun _ => Quiet.bind (Quiet.asm' _) fun _ =>
    Quiet.bind (Quiet.asm' _) fun _ => Quiet.bind (quiet_exit st) fun _ => Quiet.asm' _

theorem quiet_tableElements (table offset : Reg) : Quiet (tableElements table offset) :=
  Quiet.bind (Quiet.asm' _) fun _ => Quiet.bind (Quiet.asm' _) fun _ =>
    Quiet.bind (Quiet.asm' _) fun _ => Quiet.bind (Quiet.asm' _) fun _ =>
      Quiet.bind (quiet_exit _) fun _ => Quiet.bind (Quiet.asm' _) fun _ => Quiet.asm' _

theorem wp_popThree (h : Sound c) {Q : Reg × Reg × Reg → Compiler → Prop}
    (hQ : ∀ d s n c', Fit {d, s, n} c'.stack → NoFlags c'.stack → d ∉ ({s, n} : Finset Reg) →
      s ≠ n → Frame c c' → Q (d, s, n) c') :
    wp popThree Q { c with asm := a } := by
  unfold popThree
  rw [wp_bind]
  refine wp_popOperand h fun x₁ _ n c₁ _ h₁ hn₁ hf₁ => ?_
  rw [wp_bind, wp_regOf (Location.setRegister_reg x₁ n), wp_bind]
  refine wp_popToRegister (a := c₁.asm) h₁ (by simp) fun x₂ n₂ s c₂ _ hs₂ hs h₂ hf₂ => ?_
  rw [wp_bind, wp_regOf (Location.setRegister_reg x₂ s), wp_bind]
  refine wp_popToRegister (a := c₂.asm) h₂ (card_pair_lt s n (n := 1) (by omega))
    fun x₃ n₃ d c₃ _ hs₃ hd h₃ hf₃ => ?_
  rw [wp_bind, wp_regOf (Location.setRegister_reg x₃ d), wp_pure]
  exact hQ d s n c₃ h₃ (hs₃.moves.noFlags ((hs₂.moves.noFlags (hn₁.below n₂)).below n₃)) hd
    (by simpa using hs) (hf₁.trans (hf₂.trans hf₃))

theorem wp_releaseThree (h : Fit T c.stack) (hn : NoFlags c.stack) {x y z : Reg} (hx : x ∈ T)
    (hy : y ∈ T) (hz : z ∈ T)
    (hQ : ∀ c', Fit (T \ {x, y, z}) c'.stack → NoFlags c'.stack → Frame c c' → Q () c') :
    wp (releaseThree x y z) Q { c with asm := a } := by
  unfold releaseThree
  rw [wp_bind]
  refine wp_releaseReg h (h.1.temp_free x hx) fun c₁ h₁ e₁ hf₁ => ?_
  have hy₁ : ¬ c₁.stack.Holds y := by
    rw [e₁]
    exact h.1.temp_free y hy
  rw [wp_bind]
  refine wp_releaseReg (a := c₁.asm) h₁ hy₁ fun c₂ h₂ e₂ hf₂ => ?_
  have hz₂ : ¬ c₂.stack.Holds z := by
    rw [e₂, e₁]
    exact h.1.temp_free z hz
  refine wp_releaseReg (a := c₂.asm) h₂ hz₂ fun c₃ h₃ e₃ hf₃ => ?_
  have hT : ((T.erase x).erase y).erase z = T \ {x, y, z} := by
    ext r
    simp only [Finset.mem_erase, Finset.mem_sdiff, Finset.mem_insert, Finset.mem_singleton]
    tauto
  have hn₃ : NoFlags c₃.stack := by
    rw [e₃, e₂, e₁]
    exact hn
  rw [hT] at h₃
  exact hQ c₃ h₃ hn₃ (hf₁.trans (hf₂.trans hf₃))

theorem wp_segmentAddress (h : Fit T c.stack) (hcard : T.card < 9) (field : Int)
    (index : UInt32) {Q : Reg → Compiler → Prop}
    (hQ : ∀ r c', Fit (insert r T) c'.stack → r ∉ T → Spills c.stack c'.stack → Frame c c' →
      Q r c') :
    wp (segmentAddress field index) Q { c with asm := a } := by
  unfold segmentAddress
  rw [wp_bind]
  refine wp_allocate h (h.room_free hcard) fun r c₁ h₁ hr _ hs₁ hf₁ => ?_
  refine (quiet_loadCtx _ _).wp_then fun _ _ => ?_
  simp only [wp_bind, wp_scaled]
  intro _
  exact wp_ite_prefix (Quiet.asm' _) fun _ => (wp_pure r).mpr (hQ r _ h₁ hr hs₁ hf₁)

theorem wp_tableAddress (h : Fit T c.stack) (hcard : T.card < 9) (index : UInt32)
    {Q : Reg → Compiler → Prop}
    (hQ : ∀ r c', Fit (insert r T) c'.stack → r ∉ T → Spills c.stack c'.stack → Frame c c' →
      Q r c') :
    wp (tableAddress index) Q { c with asm := a } := by
  unfold tableAddress
  rw [wp_bind]
  refine wp_allocate h (h.room_free hcard) fun r c₁ h₁ hr _ hs₁ hf₁ => ?_
  simp only [loadCtx, wp_bind, wp_asm, wp_scaled, wp_pure]
  intros
  exact hQ r _ h₁ hr hs₁ hf₁

theorem not_mem_insert_of_fresh {T : Finset Reg} {r₁ r₂ : Reg} (h₁ : r₁ ∉ T)
    (h₂ : r₂ ∉ insert r₁ T) : r₁ ∉ insert r₂ T := by
  simp only [Finset.mem_insert, not_or] at h₂ ⊢
  exact ⟨fun e => h₂.1 e.symm, h₁⟩

/-! Bulk memory and table operations: the three operands and every record address are
temporaries, all given back before the operation ends. -/

theorem wp_memoryInit (h : Sound c) (index : UInt32)
    (hQ : ∀ c', Sound c' → Frame c c' → Q () c') :
    wp (memoryInit index) Q { c with asm := a } := by
  unfold memoryInit
  rw [wp_bind]
  refine wp_popThree h fun d s n c₁ h₁ hn₁ _ _ hf₁ => ?_
  have h3 := Finset.card_le_three (a := d) (b := s) (c := n)
  dsimp only
  rw [wp_bind]
  refine wp_segmentAddress (a := c₁.asm) h₁ (by omega) _ _ fun seg c₂ h₂ hseg hs₂ hf₂ => ?_
  refine wp_asm_bind fun _ _ => ?_
  refine (quiet_checkRange _ _ _ _).wp_then fun _ _ => ?_
  refine (quiet_checkRange _ _ _ _).wp_then fun _ _ => ?_
  refine (quiet_trapBlock _ _).wp_then fun _ _ => ?_
  iterate 3 refine wp_asm_bind fun _ _ => ?_
  refine wp_releaseTemp h₂ (hs₂.moves.noFlags hn₁) hseg fun c₃ h₃ hn₃ hf₃ => ?_
  refine (quiet_copyLoop _ _ _ _ _).wp_then fun _ _ => ?_
  refine wp_releaseThree h₃ hn₃ (by simp) (by simp) (by simp) fun c₄ h₄ hn₄ hf₄ => ?_
  rw [Finset.sdiff_self] at h₄
  exact h.finish h₄ hn₄.flagTop (hf₁.trans (hf₂.trans (hf₃.trans hf₄))) hQ

theorem wp_memoryCopy (h : Sound c) (hQ : ∀ c', Sound c' → Frame c c' → Q () c') :
    wp memoryCopy Q { c with asm := a } := by
  unfold memoryCopy
  rw [wp_bind]
  refine wp_popThree h fun d s n c₁ h₁ hn₁ _ _ hf₁ => ?_
  dsimp only
  refine wp_asm_bind fun _ _ => ?_
  refine (quiet_checkRange _ _ _ _).wp_then fun _ _ => ?_
  refine (quiet_checkRange _ _ _ _).wp_then fun _ _ => ?_
  refine (quiet_trapBlock _ _).wp_then fun _ _ => ?_
  iterate 2 refine wp_asm_bind fun _ _ => ?_
  refine (quiet_overlappingCopy _ _ _ _).wp_then fun _ _ => ?_
  refine wp_releaseThree h₁ hn₁ (by simp) (by simp) (by simp) fun c₂ h₂ hn₂ hf₂ => ?_
  rw [Finset.sdiff_self] at h₂
  exact h.finish h₂ hn₂.flagTop (hf₁.trans hf₂) hQ

theorem wp_memoryFill (h : Sound c) (hQ : ∀ c', Sound c' → Frame c c' → Q () c') :
    wp memoryFill Q { c with asm := a } := by
  unfold memoryFill
  rw [wp_bind]
  refine wp_popThree h fun d s n c₁ h₁ hn₁ _ _ hf₁ => ?_
  dsimp only
  refine wp_asm_bind fun _ _ => ?_
  refine (quiet_checkRange _ _ _ _).wp_then fun _ _ => ?_
  refine (quiet_trapBlock _ _).wp_then fun _ _ => ?_
  refine wp_asm_bind fun _ _ => ?_
  refine (quiet_fillLoop _ _ _ _).wp_then fun _ _ => ?_
  refine wp_releaseThree h₁ hn₁ (by simp) (by simp) (by simp) fun c₂ h₂ hn₂ hf₂ => ?_
  rw [Finset.sdiff_self] at h₂
  exact h.finish h₂ hn₂.flagTop (hf₁.trans hf₂) hQ

theorem wp_segmentDrop (h : Sound c) (field : Int) (index : UInt32)
    (hQ : ∀ c', Sound c' → Frame c c' → Q () c') :
    wp (segmentDrop field index) Q { c with asm := a } := by
  unfold segmentDrop
  rw [wp_bind]
  refine wp_segmentAddress h.fit (by simp) field index fun seg c₁ h₁ _ hs₁ hf₁ => ?_
  refine wp_asm_bind fun _ _ => ?_
  refine wp_releaseReg h₁ (h₁.1.temp_free seg (Finset.mem_insert_self _ _)) fun c₂ h₂ e₂ hf₂ => ?_
  rw [Finset.insert_empty, Finset.erase_singleton] at h₂
  have hn₂ : FlagTop c₂.stack := by
    rw [e₂]
    exact hs₁.moves.flagTop h.flagTop
  exact h.finish h₂ hn₂ (hf₁.trans hf₂) hQ

theorem wp_tableGet (h : Sound c) (index : UInt32)
    (hQ : ∀ c', Sound c' → Frame c c' → Q () c') :
    wp (tableGet index) Q { c with asm := a } := by
  unfold tableGet
  rw [wp_bind]
  refine wp_popOperand h fun x _ o c₁ _ h₁ hn₁ hf₁ => ?_
  rw [wp_bind, wp_regOf (Location.setRegister_reg x o), wp_bind]
  refine wp_tableAddress (a := c₁.asm) h₁ (by simp) index fun table c₂ h₂ htable hs₂ hf₂ => ?_
  refine (quiet_tableElements _ _).wp_then fun _ _ => ?_
  refine wp_asm_bind fun _ _ => ?_
  exact wp_releaseTemp h₂ (hs₂.moves.noFlags hn₁) htable fun c₃ h₃ hn₃ hf₃ =>
    wp_pushResult h h₃ hn₃ (hf₁.trans (hf₂.trans hf₃)) (by decide) hQ

theorem wp_tableSet (h : Sound c) (index : UInt32)
    (hQ : ∀ c', Sound c' → Frame c c' → Q () c') :
    wp (tableSet index) Q { c with asm := a } := by
  unfold tableSet
  rw [wp_bind]
  refine wp_popOperand h fun x₁ _ ref c₁ _ h₁ hn₁ hf₁ => ?_
  rw [wp_bind, wp_regOf (Location.setRegister_reg x₁ ref), wp_bind]
  refine wp_popToRegister (a := c₁.asm) h₁ (by simp) fun x₂ n₂ o c₂ _ hs₂ _ h₂ hf₂ => ?_
  rw [wp_bind, wp_regOf (Location.setRegister_reg x₂ o), wp_bind]
  refine wp_tableAddress (a := c₂.asm) h₂ (card_pair_lt o ref (n := 0) (by omega)) index
    fun table c₃ h₃ _ hs₃ hf₃ => ?_
  refine (quiet_tableElements _ _).wp_then fun _ _ => ?_
  refine wp_asm_bind fun _ _ => ?_
  have hn₃ : NoFlags c₃.stack := hs₃.moves.noFlags (hs₂.moves.noFlags (hn₁.below n₂))
  refine wp_releaseThree h₃ hn₃ (by simp) (by simp) (by simp) fun c₄ h₄ hn₄ hf₄ => ?_
  have hempty : (insert table {o, ref} : Finset Reg) \ {ref, o, table} = ∅ := by
    ext r
    simp only [Finset.mem_sdiff, Finset.mem_insert, Finset.mem_singleton, Finset.notMem_empty,
      iff_false]
    tauto
  rw [hempty] at h₄
  exact h.finish h₄ hn₄.flagTop (hf₁.trans (hf₂.trans (hf₃.trans hf₄))) hQ

theorem wp_tableSize (h : Sound c) (index : UInt32)
    (hQ : ∀ c', Sound c' → Frame c c' → Q () c') :
    wp (tableSize index) Q { c with asm := a } := by
  unfold tableSize
  rw [wp_bind]
  refine wp_materializeTopFlag_sound h fun c₁ h₁ hn₁ hf₁ => ?_
  rw [wp_bind]
  refine wp_tableAddress (a := c₁.asm) h₁ (by simp) index fun table c₂ h₂ _ hs₂ hf₂ => ?_
  rw [Finset.insert_empty] at h₂
  exact wp_asm_bind fun _ _ =>
    wp_pushResult h h₂ (hs₂.moves.noFlags hn₁) (hf₁.trans hf₂) (by decide) hQ

theorem wp_tableFill (h : Sound c) (index : UInt32)
    (hQ : ∀ c', Sound c' → Frame c c' → Q () c') :
    wp (tableFill index) Q { c with asm := a } := by
  unfold tableFill
  rw [wp_bind]
  refine wp_popThree h fun o r n c₁ h₁ hn₁ _ _ hf₁ => ?_
  have h3 := Finset.card_le_three (a := o) (b := r) (c := n)
  dsimp only
  rw [wp_bind]
  refine wp_tableAddress (a := c₁.asm) h₁ (by omega) index
    fun table c₂ h₂ htable hs₂ hf₂ => ?_
  refine wp_asm_bind fun _ _ => ?_
  refine (quiet_checkRange _ _ _ _).wp_then fun _ _ => ?_
  refine (quiet_trapBlock _ _).wp_then fun _ _ => ?_
  iterate 2 refine wp_asm_bind fun _ _ => ?_
  refine (quiet_fillLoop _ _ _ _).wp_then fun _ _ => ?_
  rw [wp_bind]
  refine wp_releaseThree h₂ (hs₂.moves.noFlags hn₁) (by simp) (by simp) (by simp)
    fun c₃ h₃ hn₃ hf₃ => ?_
  rw [Finset.insert_sdiff_of_notMem _ htable, Finset.sdiff_self, Finset.insert_empty] at h₃
  refine wp_releaseReg (a := c₃.asm) h₃ (h₃.1.temp_free table (by simp)) fun c₄ h₄ e₄ hf₄ => ?_
  rw [Finset.erase_singleton] at h₄
  have hn₄ : NoFlags c₄.stack := by
    rw [e₄]
    exact hn₃
  exact h.finish h₄ hn₄.flagTop (hf₁.trans (hf₂.trans (hf₃.trans hf₄))) hQ

theorem wp_tableCopy (h : Sound c) (srcTable dstTable : UInt32)
    (hQ : ∀ c', Sound c' → Frame c c' → Q () c') :
    wp (tableCopy srcTable dstTable) Q { c with asm := a } := by
  unfold tableCopy
  rw [wp_bind]
  refine wp_popThree h fun d s n c₁ h₁ hn₁ _ _ hf₁ => ?_
  have h3 := Finset.card_le_three (a := d) (b := s) (c := n)
  dsimp only
  rw [wp_bind]
  refine wp_tableAddress (a := c₁.asm) h₁ (by omega) srcTable
    fun src0 c₂ h₂ hsrc hs₂ hf₂ => ?_
  have h4 := Finset.card_insert_le src0 {d, s, n}
  rw [wp_bind]
  refine wp_tableAddress (a := c₂.asm) h₂ (by omega) dstTable
    fun dst0 c₃ h₃ hdst hs₃ hf₃ => ?_
  refine wp_asm_bind fun _ _ => ?_
  refine (quiet_checkRange _ _ _ _).wp_then fun _ _ => ?_
  refine (quiet_checkRange _ _ _ _).wp_then fun _ _ => ?_
  refine (quiet_trapBlock _ _).wp_then fun _ _ => ?_
  iterate 4 refine wp_asm_bind fun _ _ => ?_
  rw [Finset.insert_comm] at h₃
  have hn₃ : NoFlags c₃.stack := hs₃.moves.noFlags (hs₂.moves.noFlags hn₁)
  refine wp_releaseTemp h₃ hn₃ (not_mem_insert_of_fresh hsrc hdst) fun c₄ h₄ hn₄ hf₄ => ?_
  refine wp_releaseTemp (a := c₄.asm) h₄ hn₄ (fun e => hdst (Finset.mem_insert_of_mem e))
    fun c₅ h₅ hn₅ hf₅ => ?_
  refine (quiet_overlappingCopy _ _ _ _).wp_then fun _ _ => ?_
  refine wp_releaseThree h₅ hn₅ (by simp) (by simp) (by simp) fun c₆ h₆ hn₆ hf₆ => ?_
  rw [Finset.sdiff_self] at h₆
  exact h.finish h₆ hn₆.flagTop
    (hf₁.trans (hf₂.trans (hf₃.trans (hf₄.trans (hf₅.trans hf₆))))) hQ

theorem wp_tableInit (h : Sound c) (elemIndex tableIndex : UInt32)
    (hQ : ∀ c', Sound c' → Frame c c' → Q () c') :
    wp (tableInit elemIndex tableIndex) Q { c with asm := a } := by
  unfold tableInit
  rw [wp_bind]
  refine wp_popThree h fun d s n c₁ h₁ hn₁ _ _ hf₁ => ?_
  have h3 := Finset.card_le_three (a := d) (b := s) (c := n)
  dsimp only
  rw [wp_bind]
  refine wp_segmentAddress (a := c₁.asm) h₁ (by omega) _ elemIndex
    fun seg c₂ h₂ hseg hs₂ hf₂ => ?_
  have h4 := Finset.card_insert_le seg {d, s, n}
  rw [wp_bind]
  refine wp_tableAddress (a := c₂.asm) h₂ (by omega) tableIndex
    fun table c₃ h₃ htable hs₃ hf₃ => ?_
  refine wp_asm_bind fun _ _ => ?_
  refine (quiet_checkRange _ _ _ _).wp_then fun _ _ => ?_
  refine (quiet_checkRange _ _ _ _).wp_then fun _ _ => ?_
  refine (quiet_trapBlock _ _).wp_then fun _ _ => ?_
  iterate 4 refine wp_asm_bind fun _ _ => ?_
  rw [Finset.insert_comm] at h₃
  have hn₃ : NoFlags c₃.stack := hs₃.moves.noFlags (hs₂.moves.noFlags hn₁)
  refine wp_releaseTemp h₃ hn₃ (not_mem_insert_of_fresh hseg htable) fun c₄ h₄ hn₄ hf₄ => ?_
  refine wp_releaseTemp (a := c₄.asm) h₄ hn₄ (fun e => htable (Finset.mem_insert_of_mem e))
    fun c₅ h₅ hn₅ hf₅ => ?_
  refine (quiet_copyLoop _ _ _ _ _).wp_then fun _ _ => ?_
  refine wp_releaseThree h₅ hn₅ (by simp) (by simp) (by simp) fun c₆ h₆ hn₆ hf₆ => ?_
  rw [Finset.sdiff_self] at h₆
  exact h.finish h₆ hn₆.flagTop
    (hf₁.trans (hf₂.trans (hf₃.trans (hf₄.trans (hf₅.trans hf₆))))) hQ

theorem wp_refFunc (h : Sound c) (index : UInt32)
    (hQ : ∀ c', Sound c' → Frame c c' → Q () c') :
    wp (refFunc index) Q { c with asm := a } := by
  unfold refFunc
  rw [wp_bind]
  refine wp_materializeTopFlag_sound h fun c₁ h₁ hn₁ hf₁ => ?_
  rw [wp_bind]
  refine wp_allocate (a := c₁.asm) h₁ (h₁.room_free (by simp)) fun r c₂ h₂ _ _ hs₂ hf₂ => ?_
  rw [Finset.insert_empty] at h₂
  refine (quiet_loadCtx _ _).wp_then fun _ _ => ?_
  simp only [wp_bind, wp_scaled]
  intro _
  exact wp_ite_prefix (Quiet.asm' _) fun _ =>
    wp_pushResult h h₂ (hs₂.moves.noFlags hn₁) (hf₁.trans hf₂) (by decide) hQ

theorem wp_tableGrow (h : Sound c) {index : UInt32}
    (hw : (Operation.tableGrow index).ReadsWhole c.fn.module c.stack.slots)
    (hQ : ∀ c', Sound c' → Frame c c' → Q () c') :
    wp (tableGrow index) Q { c with asm := a } := by
  unfold tableGrow
  rw [wp_bind, wp_discard, wp_stk]
  intro _ s₁ hok
  have h₁ : Fit ∅ s₁ := keeps_pushOnStack (by decide) (by decide) _ _ _ h.fit hok
  have hf₁ : Frame c { c with stack := s₁ } := ⟨rfl, rfl⟩
  have hsp₁ : s₁.sp = c.stack.sp + 1 := by
    cases hok
    exact sp_pushLoc _ _ _ _
  have hcut₁ : NotHiAt s₁.slots (c.stack.slots.size - 2) :=
    (keeps_cut_pushOnStack (by decide) _ _ _ ⟨hw, by simp only [ValueStack.sp]; omega⟩ hok).1
  rw [wp_bind, wp_get, wp_bind, wp_slot]
  intro _
  rw [wp_bind]
  refine wp_releaseAllToStack (c := { c with stack := s₁ }) (a := a) h₁ (by simp)
    fun c₂ h₂ hm₂ him₂ hf₂ => ?_
  iterate 2 refine wp_asm_bind fun _ _ => ?_
  rw [wp_bind]
  refine quiet_callBuiltin _ _ _ fun _ s => ?_
  rw [wp_bind]
  refine wp_discardSlots (c := { c₂ with asm := s }) 3 fun c₃ heq hu hf₃ => ?_
  have hm : c₂.stack.sp - 3 = c.stack.slots.size - 2 := by
    rw [hm₂.sp_eq, hsp₁]
    simp only [ValueStack.sp]
    omega
  have h₃ : Fit ∅ c₃.stack := Fit.discard h₂ (by rw [hm]; exact hm₂.notHiAt hcut₁) heq hu
  have hn₃ : NoFlags c₃.stack := by
    rw [heq]
    exact him₂.noFlags.extract _ _
  rw [wp_discard, wp_stk]
  intro _ s₄ hok₄
  exact h.finish (keeps_pushOnStack (by decide) (by decide) _ _ _ h₃ hok₄)
    (keeps_noFlags_pushOnStack _ _ _ _ hn₃ hok₄).flagTop
    (hf₁.trans (hf₂.trans (hf₃.trans ⟨rfl, rfl⟩))) hQ

end OnePassJit.Arm64.Lower
