import OnePassJit.Proofs.Amd64.Numeric

/-!
Globals, linear memory and tables keep the layout on amd64.

Every address these lowerings compute lives in a temporary: a global's or a table's
address, the ceiling of a bounds-checked access, a segment's record, the scratch register
of a range check or of a copy loop. Each helper below takes a free register and hands
it back as a temporary, and each operation gives back every temporary before it pushes
its result, so it ends as it began with no temporary and the labels untouched. The two
operations the host finishes (`memory.grow`, `table.grow`) first move every value to
memory and then cut the stack where the host's operands begin.
-/

namespace OnePassJit.Amd64.Lower

open ValueStack StackM

variable {α : Type} {c : Compiler} {a : Assembler} {T : Finset Reg} {Q : Unit → Compiler → Prop}

@[simp] theorem SlotType.ofValue_ne_v128hi (t : ValueType) : SlotType.ofValue t ≠ .v128hi := by
  cases t <;> decide

theorem wp_globalAddress (h : Fit T c.stack) (hcard : T.card < 9) (index : UInt32)
    {Q : Reg × SlotType → Compiler → Prop}
    (hQ : ∀ r t c', Fit (insert r T) c'.stack → r ∉ T → t ≠ .v128hi → Frame c c' →
      Q (r, t) c') :
    wp (globalAddress index) Q { c with asm := a } := by
  unfold globalAddress fn
  simp only [wp_bind, wp_get, wp_pure]
  split
  · rw [wp_bind]
    refine wp_allocate h (h.room_free hcard) fun r c₁ h₁ hr _ _ hf₁ => ?_
    simp only [wp_bind, wp_asm, wp_disp, wp_pure]
    intros
    exact hQ r _ _ h₁ hr (SlotType.ofValue_ne_v128hi _) hf₁
  · simp

theorem Sound.finish {c₀ : Compiler} (h₀ : Sound c₀) (h : Fit ∅ c.stack) (hf : Frame c₀ c)
    (hQ : ∀ c', Sound c' → Frame c₀ c' → Q () c') : Q () c :=
  hQ c (h₀.of_frame h hf) hf

theorem wp_releaseBoth {c₀ : Compiler} (h₀ : Sound c₀) {x : Location} {v r : Reg}
    (hx : x.reg = some v) (h : Fit {r, v} c.stack) (hf : Frame c₀ c) (hne : r ≠ v)
    (hQ : ∀ c', Sound c' → Frame c₀ c' → Q () c') :
    wp (release x >>= fun _ => releaseReg r) Q { c with asm := a } := by
  rw [wp_bind]
  refine wp_release_temp h hx (by simp) fun c₁ h₁ hf₁ => ?_
  rw [Finset.erase_insert_of_ne hne, Finset.erase_singleton, Finset.insert_empty] at h₁
  refine wp_releaseReg h₁ (h₁.1.temp_free r (by simp)) fun c₂ h₂ _ hf₂ => ?_
  rw [Finset.erase_singleton] at h₂
  exact h₀.finish h₂ (hf.trans (hf₁.trans hf₂)) hQ

theorem wp_globalGet (h : Sound c) (index : UInt32)
    (hQ : ∀ c', Sound c' → Frame c c' → Q () c') :
    wp (globalGet index) Q { c with asm := a } := by
  unfold globalGet
  rw [wp_bind]
  refine wp_globalAddress h.fit (by simp) index fun addr t c₁ h₁ _ ht hf₁ => ?_
  rw [Finset.insert_empty] at h₁
  dsimp only
  split
  · exact wp_asm_bind fun _ _ => wp_pushResult h h₁ hf₁ (by decide) hQ
  · exact wp_asm_bind fun _ _ => wp_pushResult h h₁ hf₁ (by decide) hQ
  · -- a float or vector global is loaded into a vector register and the address freed
    rw [wp_bind]
    refine wp_allocate (a := c₁.asm) h₁ (h₁.room_free (by simp)) fun r c₂ h₂ hr _ _ hf₂ => ?_
    refine wp_asm_bind fun _ _ => ?_
    rw [Finset.pair_comm] at h₂
    exact wp_releaseTemp h₂ (by simpa [eq_comm] using hr) fun c₃ h₃ hf₃ =>
      wp_pushResult h h₃ (hf₁.trans (hf₂.trans hf₃)) ht hQ

theorem wp_globalSet (h : Sound c) (index : UInt32)
    (hQ : ∀ c', Sound c' → Frame c c' → Q () c') :
    wp (globalSet index) Q { c with asm := a } := by
  unfold globalSet
  rw [wp_bind]
  refine wp_popOperand h fun x _ v c₁ _ h₁ hf₁ => ?_
  rw [wp_bind]
  refine wp_globalAddress (a := c₁.asm) h₁ (by simp) index fun addr t c₂ h₂ hne _ hf₂ => ?_
  dsimp only
  rw [wp_bind, wp_regOf (Location.setRegister_reg x v)]
  split <;> exact wp_asm_bind fun _ _ => wp_releaseBoth h (Location.setRegister_reg x v) h₂
    (hf₁.trans hf₂) (by simpa using hne) hQ

theorem wp_addConstant (h : Fit T c.stack) (hcard : T.card < 9) (r : Reg) (k : Nat)
    (hQ : ∀ c', Fit T c'.stack → Frame c c' → Q () c') :
    wp (addConstant r k) Q { c with asm := a } := by
  unfold addConstant
  refine wp_ite.mpr ⟨fun _ => Quiet.asm' _ _ _ fun _ _ => hQ _ h Frame.rfl', fun _ => ?_⟩
  rw [wp_bind]
  refine wp_allocate h (h.room_free hcard) fun tmp c₁ h₁ htmp _ _ hf₁ => ?_
  iterate 2 refine wp_asm_bind fun _ _ => ?_
  refine wp_releaseReg h₁ (h₁.1.temp_free tmp (Finset.mem_insert_self _ _)) fun c₂ h₂ _ hf₂ => ?_
  rw [Finset.erase_insert htmp] at h₂
  exact hQ c₂ h₂ (hf₁.trans hf₂)

theorem wp_boundsCheckedCeil (h : Fit T c.stack) (hcard : T.card + 2 < 9) (arg : MemArg)
    (size : Nat) {Q : Reg → Compiler → Prop}
    (hQ : ∀ r c', r ∉ T → Fit (insert r T) c'.stack → Frame c c' → Q r c') :
    wp (boundsCheckedCeil arg size) Q { c with asm := a } := by
  unfold boundsCheckedCeil
  rw [wp_bind]
  refine wp_popToRegister h (by omega) fun x _ r c₁ _ _ hr h₁ hf₁ => ?_
  rw [wp_bind, wp_regOf (Location.setRegister_reg x r), wp_bind]
  have hcard₁ : (insert r T).card < 9 := by
    have := Finset.card_insert_le r T
    omega
  refine wp_addConstant (a := c₁.asm) h₁ hcard₁ r _ fun c₂ h₂ hf₂ => ?_
  have hend : ∀ s, wp (pure r) Q { c₂ with asm := s } := fun _ =>
    (wp_pure r).mpr (hQ r _ hr h₂ (hf₁.trans hf₂))
  repeat' with_reducible first
    | exact hend _
    | refine wp_asm_bind fun _ _ => ?_
    | refine (quiet_exit _).wp_then fun _ _ => ?_

theorem wp_loadInt (h : Sound c) (kind : LoadKind) (size : Nat) {result : SlotType}
    (ht : result ≠ .v128hi) (arg : MemArg) (hQ : ∀ c', Sound c' → Frame c c' → Q () c') :
    wp (loadInt kind size result arg) Q { c with asm := a } := by
  unfold loadInt
  rw [wp_bind]
  refine wp_boundsCheckedCeil h.fit (by simp) arg size fun r c₁ _ h₁ hf₁ => ?_
  rw [Finset.insert_empty] at h₁
  exact wp_asm_bind fun _ _ => wp_pushResult h h₁ hf₁ ht hQ

theorem wp_loadVector (h : Sound c) (size : Nat) {result : SlotType} (ht : result ≠ .v128hi)
    (arg : MemArg) (hQ : ∀ c', Sound c' → Frame c c' → Q () c') :
    wp (loadVector size result arg) Q { c with asm := a } := by
  unfold loadVector
  rw [wp_bind]
  refine wp_boundsCheckedCeil h.fit (by simp) arg size fun ceil c₁ _ h₁ hf₁ => ?_
  rw [Finset.insert_empty] at h₁
  rw [wp_bind]
  refine wp_allocate (a := c₁.asm) h₁ (h₁.room_free (by simp)) fun r c₂ h₂ hr _ _ hf₂ => ?_
  refine wp_asm_bind fun _ _ => ?_
  rw [Finset.pair_comm] at h₂
  exact wp_releaseTemp h₂ (by simpa [eq_comm] using hr) fun c₃ h₃ hf₃ =>
    wp_pushResult h h₃ (hf₁.trans (hf₂.trans hf₃)) ht hQ

theorem wp_store (h : Sound c) (size : Nat) (arg : MemArg)
    (hQ : ∀ c', Sound c' → Frame c c' → Q () c') :
    wp (store size arg) Q { c with asm := a } := by
  unfold store
  rw [wp_bind]
  refine wp_popOperand h fun x _ v c₁ _ h₁ hf₁ => ?_
  rw [wp_bind]
  refine wp_boundsCheckedCeil (a := c₁.asm) h₁ (by simp) arg size fun ceil c₂ hne h₂ hf₂ => ?_
  rw [wp_bind, wp_regOf (Location.setRegister_reg x v)]
  unfold storeFrom
  split <;> exact wp_asm_bind fun _ _ => wp_releaseBoth h (Location.setRegister_reg x v) h₂
    (hf₁.trans hf₂) (by simpa using hne) hQ

theorem wp_memorySize (h : Sound c) (hQ : ∀ c', Sound c' → Frame c c' → Q () c') :
    wp memorySize Q { c with asm := a } := by
  unfold memorySize
  rw [wp_bind]
  refine wp_materializeTopFlag h.fit (by simp) fun c₁ h₁ _ hf₁ _ => ?_
  rw [wp_bind]
  refine wp_allocate (a := c₁.asm) h₁ (h₁.room_free (by simp)) fun r c₂ h₂ _ _ _ hf₂ => ?_
  rw [Finset.insert_empty] at h₂
  iterate 2 refine wp_asm_bind fun _ _ => ?_
  exact wp_pushResult h h₂ (hf₁.trans hf₂) (by decide) hQ

theorem wp_memoryGrow (h : Sound c)
    (hw : Operation.memoryGrow.ReadsWhole c.fn.module c.stack.slots)
    (hQ : ∀ c', Sound c' → Frame c c' → Q () c') :
    wp memoryGrow Q { c with asm := a } := by
  unfold memoryGrow
  rw [wp_bind]
  refine wp_releaseAllToStack h.fit (by simp) fun c₁ h₁ hm₁ hmem₁ hf₁ => ?_
  rw [wp_bind]
  refine quiet_callBuiltin _ c₁ _ fun _ s => ?_
  rw [wp_bind, wp_discard]
  refine wp_popSlot (c := { c₁ with asm := s }) h₁ (by rw [hm₁.size_eq]; exact hm₁.notHiAt hw)
    fun x hx _ _ h₂ => ?_
  have hreg : x.reg = none := by
    rw [Array.back?_eq_getElem?] at hx
    have := hmem₁ hx
    simp only [Location.onStack, Bool.and_eq_true, Option.isNone_iff_eq_none] at this
    exact this.1
  rw [hreg, Option.toFinset_none, Finset.union_empty] at h₂
  rw [wp_discard]
  exact wp_stk_keeps (keeps_pushOnStack (by decide) (by decide)) h₂ fun _ _ _ h₃ =>
    h.finish h₃ (hf₁.trans ⟨rfl, rfl⟩) hQ

/-! Helpers of the bulk operations: each borrows registers and gives them back. -/

theorem wp_checkRange (h : Fit T c.stack) (hcard : T.card < 9) (offset count : Reg)
    (limit : MemRef) (oob : Nat) (hQ : ∀ c', Fit T c'.stack → Frame c c' → Q () c') :
    wp (checkRange offset count limit oob) Q { c with asm := a } := by
  unfold checkRange
  rw [wp_bind]
  refine wp_allocate h (h.room_free hcard) fun tmp c₁ h₁ htmp _ _ hf₁ => ?_
  iterate 4 refine wp_asm_bind fun _ _ => ?_
  refine wp_releaseReg h₁ (h₁.1.temp_free tmp (Finset.mem_insert_self _ _)) fun c₂ h₂ _ hf₂ => ?_
  rw [Finset.erase_insert htmp] at h₂
  exact hQ c₂ h₂ (hf₁.trans hf₂)

theorem wp_copyLoop (h : Fit T c.stack) (hcard : T.card < 9) (src dst count : Reg) (scale : Nat)
    (dir : Direction) (hQ : ∀ c', Fit T c'.stack → Frame c c' → Q () c') :
    wp (copyLoop src dst count scale dir) Q { c with asm := a } := by
  unfold copyLoop
  rw [wp_bind]
  refine wp_allocate h (h.room_free hcard) fun tmp c₁ h₁ htmp _ _ hf₁ => ?_
  have hend : ∀ s, wp (releaseReg tmp) Q { c₁ with asm := s } := fun _ =>
    wp_releaseReg h₁ (h₁.1.temp_free tmp (Finset.mem_insert_self _ _)) fun c₂ h₂ _ hf₂ =>
      hQ c₂ (by rwa [Finset.erase_insert htmp] at h₂) (hf₁.trans hf₂)
  cases dir <;> dsimp only <;> repeat' with_reducible first
    | exact hend _
    | refine wp_asm_bind fun _ _ => ?_
    | refine (Quiet.pure' _).wp_then fun _ _ => ?_
    | refine wp_ite.mpr ⟨fun _ => ?_, fun _ => ?_⟩

theorem wp_overlappingCopy (h : Fit T c.stack) (hcard : T.card < 9) (src dst count : Reg)
    (scale : Nat) (hQ : ∀ c', Fit T c'.stack → Frame c c' → Q () c') :
    wp (overlappingCopy src dst count scale) Q { c with asm := a } := by
  unfold overlappingCopy
  iterate 4 refine wp_asm_bind fun _ _ => ?_
  rw [wp_bind]
  refine wp_copyLoop h hcard _ _ _ _ _ fun c₁ h₁ hf₁ => ?_
  iterate 2 refine wp_asm_bind fun _ _ => ?_
  rw [wp_bind]
  refine wp_copyLoop h₁ hcard _ _ _ _ _ fun c₂ h₂ hf₂ => ?_
  exact Quiet.asm' _ c₂ _ fun _ _ => hQ _ h₂ (hf₁.trans hf₂)

theorem wp_popThree (h : Sound c) {Q : Reg × Reg × Reg → Compiler → Prop}
    (hQ : ∀ d s n c', Fit {d, s, n} c'.stack → d ∉ ({s, n} : Finset Reg) → s ≠ n →
      Frame c c' → Q (d, s, n) c') :
    wp popThree Q { c with asm := a } := by
  unfold popThree
  rw [wp_bind]
  refine wp_popOperand h fun x₁ _ n c₁ _ h₁ hf₁ => ?_
  rw [wp_bind, wp_regOf (Location.setRegister_reg x₁ n), wp_bind]
  refine wp_popToRegister (a := c₁.asm) h₁ (by simp) fun x₂ _ s c₂ _ _ hs h₂ hf₂ => ?_
  rw [wp_bind, wp_regOf (Location.setRegister_reg x₂ s), wp_bind]
  refine wp_popToRegister (a := c₂.asm) h₂ (card_pair_lt s n (n := 1) (by omega))
    fun x₃ _ d c₃ _ _ hd h₃ hf₃ => ?_
  rw [wp_bind, wp_regOf (Location.setRegister_reg x₃ d), wp_pure]
  exact hQ d s n c₃ h₃ hd (by simpa using hs) (hf₁.trans (hf₂.trans hf₃))

theorem wp_releaseThree (h : Fit T c.stack) {x y z : Reg} (hx : x ∈ T) (hy : y ∈ T)
    (hz : z ∈ T) (hQ : ∀ c', Fit (T \ {x, y, z}) c'.stack → Frame c c' → Q () c') :
    wp (releaseThree x y z) Q { c with asm := a } := by
  unfold releaseThree
  rw [wp_bind]
  refine wp_releaseReg h (h.1.temp_free x hx) fun c₁ h₁ e₁ hf₁ => ?_
  have hy₁ : ¬ c₁.stack.Holds y := by
    rw [e₁]
    exact h.1.temp_free y hy
  rw [wp_bind]
  refine wp_releaseReg (a := c₁.asm) h₁ hy₁ fun c₂ h₂ e₂ hf₂ => ?_
  have hz₂ : ¬ c₂.stack.Holds z := by
    rw [e₂, e₁]
    exact h.1.temp_free z hz
  refine wp_releaseReg (a := c₂.asm) h₂ hz₂ fun c₃ h₃ _ hf₃ => ?_
  have hT : ((T.erase x).erase y).erase z = T \ {x, y, z} := by
    ext r
    simp only [Finset.mem_erase, Finset.mem_sdiff, Finset.mem_insert, Finset.mem_singleton]
    tauto
  rw [hT] at h₃
  exact hQ c₃ h₃ (hf₁.trans (hf₂.trans hf₃))

theorem wp_segmentAddress (h : Fit T c.stack) (hcard : T.card < 9) (field : Int)
    (index : UInt32) {Q : Reg → Compiler → Prop}
    (hQ : ∀ r c', Fit (insert r T) c'.stack → r ∉ T → Frame c c' → Q r c') :
    wp (segmentAddress field index) Q { c with asm := a } := by
  unfold segmentAddress
  rw [wp_bind]
  refine wp_allocate h (h.room_free hcard) fun r c₁ h₁ hr _ _ hf₁ => ?_
  refine wp_asm_bind fun _ _ => ?_
  simp only [wp_bind, wp_disp]
  intro _
  exact wp_ite_prefix (Quiet.asm' _) fun _ => (wp_pure r).mpr (hQ r _ h₁ hr hf₁)

theorem wp_tableAddress (h : Fit T c.stack) (hcard : T.card < 9) (index : UInt32)
    {Q : Reg → Compiler → Prop}
    (hQ : ∀ r c', Fit (insert r T) c'.stack → r ∉ T → Frame c c' → Q r c') :
    wp (tableAddress index) Q { c with asm := a } := by
  unfold tableAddress
  rw [wp_bind]
  refine wp_allocate h (h.room_free hcard) fun r c₁ h₁ hr _ _ hf₁ => ?_
  simp only [wp_bind, wp_asm, wp_disp, wp_pure]
  intros
  exact hQ r _ h₁ hr hf₁

theorem quiet_trapBlock (oob : Nat) (st : Status) : Quiet (trapBlock oob st) :=
  Quiet.bind (Quiet.asm' _) fun _ => Quiet.bind (Quiet.asm' _) fun _ =>
    Quiet.bind (Quiet.asm' _) fun _ => Quiet.bind (quiet_exit st) fun _ => Quiet.asm' _

theorem quiet_tableElement (table offset : Reg) : Quiet (tableElement table offset) :=
  Quiet.bind (Quiet.asm' _) fun _ => Quiet.bind (Quiet.asm' _) fun _ =>
    Quiet.bind (Quiet.asm' _) fun _ => Quiet.bind (quiet_exit _) fun _ =>
      Quiet.bind (Quiet.asm' _) fun _ => Quiet.bind (Quiet.asm' _) fun _ => Quiet.pure' _

/-! Bulk memory and table operations: the three operands and every record address are
temporaries, all given back before the operation ends. -/

theorem wp_memoryInit (h : Sound c) (index : UInt32)
    (hQ : ∀ c', Sound c' → Frame c c' → Q () c') :
    wp (memoryInit index) Q { c with asm := a } := by
  unfold memoryInit
  rw [wp_bind]
  refine wp_popThree h fun d s n c₁ h₁ _ _ hf₁ => ?_
  have h3 := Finset.card_le_three (a := d) (b := s) (c := n)
  dsimp only
  rw [wp_bind]
  refine wp_segmentAddress (a := c₁.asm) h₁ (by omega) _ _ fun seg c₂ h₂ hseg hf₂ => ?_
  have h4 := Finset.card_insert_le seg {d, s, n}
  refine wp_asm_bind fun _ _ => ?_
  rw [wp_bind]
  refine wp_checkRange h₂ (by omega) _ _ _ _ fun c₃ h₃ hf₃ => ?_
  rw [wp_bind]
  refine wp_checkRange (a := c₃.asm) h₃ (by omega) _ _ _ _ fun c₄ h₄ hf₄ => ?_
  refine (quiet_trapBlock _ _).wp_then fun _ _ => ?_
  iterate 2 refine wp_asm_bind fun _ _ => ?_
  refine wp_releaseTemp h₄ hseg fun c₅ h₅ hf₅ => ?_
  rw [wp_bind]
  refine wp_copyLoop (a := c₅.asm) h₅ (by omega) _ _ _ _ _ fun c₆ h₆ hf₆ => ?_
  refine wp_releaseThree h₆ (by simp) (by simp) (by simp) fun c₇ h₇ hf₇ => ?_
  rw [Finset.sdiff_self] at h₇
  exact h.finish h₇ (hf₁.trans (hf₂.trans (hf₃.trans (hf₄.trans (hf₅.trans (hf₆.trans hf₇))))))
    hQ

theorem wp_memoryCopy (h : Sound c) (hQ : ∀ c', Sound c' → Frame c c' → Q () c') :
    wp memoryCopy Q { c with asm := a } := by
  unfold memoryCopy
  rw [wp_bind]
  refine wp_popThree h fun d s n c₁ h₁ _ _ hf₁ => ?_
  have h3 := Finset.card_le_three (a := d) (b := s) (c := n)
  dsimp only
  refine wp_asm_bind fun _ _ => ?_
  rw [wp_bind]
  refine wp_checkRange h₁ (by omega) _ _ _ _ fun c₂ h₂ hf₂ => ?_
  rw [wp_bind]
  refine wp_checkRange (a := c₂.asm) h₂ (by omega) _ _ _ _ fun c₃ h₃ hf₃ => ?_
  refine (quiet_trapBlock _ _).wp_then fun _ _ => ?_
  iterate 2 refine wp_asm_bind fun _ _ => ?_
  rw [wp_bind]
  refine wp_overlappingCopy h₃ (by omega) _ _ _ _ fun c₄ h₄ hf₄ => ?_
  refine wp_releaseThree (a := c₄.asm) h₄ (by simp) (by simp) (by simp) fun c₅ h₅ hf₅ => ?_
  rw [Finset.sdiff_self] at h₅
  exact h.finish h₅ (hf₁.trans (hf₂.trans (hf₃.trans (hf₄.trans hf₅)))) hQ

theorem wp_memoryFill (h : Sound c) (hQ : ∀ c', Sound c' → Frame c c' → Q () c') :
    wp memoryFill Q { c with asm := a } := by
  unfold memoryFill
  rw [wp_bind]
  refine wp_popThree h fun d s n c₁ h₁ _ _ hf₁ => ?_
  have h3 := Finset.card_le_three (a := d) (b := s) (c := n)
  dsimp only
  refine wp_asm_bind fun _ _ => ?_
  rw [wp_bind]
  refine wp_checkRange h₁ (by omega) _ _ _ _ fun c₂ h₂ hf₂ => ?_
  refine (quiet_trapBlock _ _).wp_then fun _ _ => ?_
  iterate 10 refine wp_asm_bind fun _ _ => ?_
  refine wp_releaseThree h₂ (by simp) (by simp) (by simp) fun c₃ h₃ hf₃ => ?_
  rw [Finset.sdiff_self] at h₃
  exact h.finish h₃ (hf₁.trans (hf₂.trans hf₃)) hQ

theorem wp_segmentDrop (h : Sound c) (field : Int) (index : UInt32)
    (hQ : ∀ c', Sound c' → Frame c c' → Q () c') :
    wp (segmentDrop field index) Q { c with asm := a } := by
  unfold segmentDrop
  rw [wp_bind]
  refine wp_segmentAddress h.fit (by simp) field index fun seg c₁ h₁ _ hf₁ => ?_
  refine wp_asm_bind fun _ _ => ?_
  refine wp_releaseReg h₁ (h₁.1.temp_free seg (Finset.mem_insert_self _ _)) fun c₂ h₂ _ hf₂ => ?_
  rw [Finset.insert_empty, Finset.erase_singleton] at h₂
  exact h.finish h₂ (hf₁.trans hf₂) hQ

theorem wp_tableGet (h : Sound c) (index : UInt32)
    (hQ : ∀ c', Sound c' → Frame c c' → Q () c') :
    wp (tableGet index) Q { c with asm := a } := by
  unfold tableGet
  rw [wp_bind]
  refine wp_popOperand h fun x _ o c₁ _ h₁ hf₁ => ?_
  rw [wp_bind, wp_regOf (Location.setRegister_reg x o), wp_bind]
  refine wp_tableAddress (a := c₁.asm) h₁ (by simp) index fun table c₂ h₂ htable hf₂ => ?_
  refine (quiet_tableElement _ _).wp_then fun _ _ => ?_
  refine wp_asm_bind fun _ _ => ?_
  exact wp_releaseTemp h₂ htable fun c₃ h₃ hf₃ =>
    wp_pushResult h h₃ (hf₁.trans (hf₂.trans hf₃)) (by decide) hQ

theorem wp_tableSet (h : Sound c) (index : UInt32)
    (hQ : ∀ c', Sound c' → Frame c c' → Q () c') :
    wp (tableSet index) Q { c with asm := a } := by
  unfold tableSet
  rw [wp_bind]
  refine wp_popOperand h fun x₁ _ ref c₁ _ h₁ hf₁ => ?_
  rw [wp_bind, wp_regOf (Location.setRegister_reg x₁ ref), wp_bind]
  refine wp_popToRegister (a := c₁.asm) h₁ (by simp) fun x₂ _ o c₂ _ _ _ h₂ hf₂ => ?_
  rw [wp_bind, wp_regOf (Location.setRegister_reg x₂ o), wp_bind]
  refine wp_tableAddress (a := c₂.asm) h₂ (card_pair_lt o ref (n := 0) (by omega)) index
    fun table c₃ h₃ _ hf₃ => ?_
  refine (quiet_tableElement _ _).wp_then fun _ _ => ?_
  refine wp_asm_bind fun _ _ => ?_
  refine wp_releaseThree h₃ (by simp) (by simp) (by simp) fun c₄ h₄ hf₄ => ?_
  have hempty : (insert table {o, ref} : Finset Reg) \ {ref, o, table} = ∅ := by
    ext r
    simp only [Finset.mem_sdiff, Finset.mem_insert, Finset.mem_singleton, Finset.notMem_empty,
      iff_false]
    tauto
  rw [hempty] at h₄
  exact h.finish h₄ (hf₁.trans (hf₂.trans (hf₃.trans hf₄))) hQ

theorem wp_tableSize (h : Sound c) (index : UInt32)
    (hQ : ∀ c', Sound c' → Frame c c' → Q () c') :
    wp (tableSize index) Q { c with asm := a } := by
  unfold tableSize
  rw [wp_bind]
  refine wp_materializeTopFlag h.fit (by simp) fun c₁ h₁ _ hf₁ _ => ?_
  rw [wp_bind]
  refine wp_tableAddress (a := c₁.asm) h₁ (by simp) index fun table c₂ h₂ _ hf₂ => ?_
  rw [Finset.insert_empty] at h₂
  exact wp_asm_bind fun _ _ => wp_pushResult h h₂ (hf₁.trans hf₂) (by decide) hQ

theorem wp_tableFill (h : Sound c) (index : UInt32)
    (hQ : ∀ c', Sound c' → Frame c c' → Q () c') :
    wp (tableFill index) Q { c with asm := a } := by
  unfold tableFill
  rw [wp_bind]
  refine wp_popThree h fun o r n c₁ h₁ _ _ hf₁ => ?_
  have h3 := Finset.card_le_three (a := o) (b := r) (c := n)
  dsimp only
  rw [wp_bind]
  refine wp_tableAddress (a := c₁.asm) h₁ (by omega) index fun table c₂ h₂ htable hf₂ => ?_
  have h4 := Finset.card_insert_le table {o, r, n}
  refine wp_asm_bind fun _ _ => ?_
  rw [wp_bind]
  refine wp_checkRange h₂ (by omega) _ _ _ _ fun c₃ h₃ hf₃ => ?_
  refine (quiet_trapBlock _ _).wp_then fun _ _ => ?_
  iterate 11 refine wp_asm_bind fun _ _ => ?_
  rw [wp_bind]
  refine wp_releaseThree h₃ (by simp) (by simp) (by simp) fun c₄ h₄ hf₄ => ?_
  rw [Finset.insert_sdiff_of_notMem _ htable, Finset.sdiff_self, Finset.insert_empty] at h₄
  refine wp_releaseReg (a := c₄.asm) h₄ (h₄.1.temp_free table (by simp)) fun c₅ h₅ _ hf₅ => ?_
  rw [Finset.erase_singleton] at h₅
  exact h.finish h₅ (hf₁.trans (hf₂.trans (hf₃.trans (hf₄.trans hf₅)))) hQ

theorem not_mem_insert_of_fresh {T : Finset Reg} {r₁ r₂ : Reg} (h₁ : r₁ ∉ T)
    (h₂ : r₂ ∉ insert r₁ T) : r₁ ∉ insert r₂ T := by
  simp only [Finset.mem_insert, not_or] at h₂ ⊢
  exact ⟨fun e => h₂.1 e.symm, h₁⟩

theorem wp_tableCopy (h : Sound c) (srcTable dstTable : UInt32)
    (hQ : ∀ c', Sound c' → Frame c c' → Q () c') :
    wp (tableCopy srcTable dstTable) Q { c with asm := a } := by
  unfold tableCopy
  rw [wp_bind]
  refine wp_popThree h fun d s n c₁ h₁ _ _ hf₁ => ?_
  have h3 := Finset.card_le_three (a := d) (b := s) (c := n)
  dsimp only
  rw [wp_bind]
  refine wp_tableAddress (a := c₁.asm) h₁ (by omega) srcTable fun src0 c₂ h₂ hsrc hf₂ => ?_
  have h4 := Finset.card_insert_le src0 {d, s, n}
  rw [wp_bind]
  refine wp_tableAddress (a := c₂.asm) h₂ (by omega) dstTable fun dst0 c₃ h₃ hdst hf₃ => ?_
  have h5 := Finset.card_insert_le dst0 (insert src0 {d, s, n})
  refine wp_asm_bind fun _ _ => ?_
  rw [wp_bind]
  refine wp_checkRange h₃ (by omega) _ _ _ _ fun c₄ h₄ hf₄ => ?_
  rw [wp_bind]
  refine wp_checkRange (a := c₄.asm) h₄ (by omega) _ _ _ _ fun c₅ h₅ hf₅ => ?_
  refine (quiet_trapBlock _ _).wp_then fun _ _ => ?_
  iterate 4 refine wp_asm_bind fun _ _ => ?_
  rw [Finset.insert_comm] at h₅
  refine wp_releaseTemp h₅ (not_mem_insert_of_fresh hsrc hdst) fun c₆ h₆ hf₆ => ?_
  refine wp_releaseTemp (a := c₆.asm) h₆ (fun e => hdst (Finset.mem_insert_of_mem e))
    fun c₇ h₇ hf₇ => ?_
  rw [wp_bind]
  refine wp_overlappingCopy (a := c₇.asm) h₇ (by omega) _ _ _ _ fun c₈ h₈ hf₈ => ?_
  refine wp_releaseThree h₈ (by simp) (by simp) (by simp) fun c₉ h₉ hf₉ => ?_
  rw [Finset.sdiff_self] at h₉
  exact h.finish h₉ (hf₁.trans (hf₂.trans (hf₃.trans (hf₄.trans (hf₅.trans (hf₆.trans
    (hf₇.trans (hf₈.trans hf₉)))))))) hQ

theorem wp_tableInit (h : Sound c) (elemIndex tableIndex : UInt32)
    (hQ : ∀ c', Sound c' → Frame c c' → Q () c') :
    wp (tableInit elemIndex tableIndex) Q { c with asm := a } := by
  unfold tableInit
  rw [wp_bind]
  refine wp_popThree h fun d s n c₁ h₁ _ _ hf₁ => ?_
  have h3 := Finset.card_le_three (a := d) (b := s) (c := n)
  dsimp only
  rw [wp_bind]
  refine wp_segmentAddress (a := c₁.asm) h₁ (by omega) _ elemIndex fun seg c₂ h₂ hseg hf₂ => ?_
  have h4 := Finset.card_insert_le seg {d, s, n}
  rw [wp_bind]
  refine wp_tableAddress (a := c₂.asm) h₂ (by omega) tableIndex fun table c₃ h₃ htable hf₃ => ?_
  have h5 := Finset.card_insert_le table (insert seg {d, s, n})
  refine wp_asm_bind fun _ _ => ?_
  rw [wp_bind]
  refine wp_checkRange h₃ (by omega) _ _ _ _ fun c₄ h₄ hf₄ => ?_
  rw [wp_bind]
  refine wp_checkRange (a := c₄.asm) h₄ (by omega) _ _ _ _ fun c₅ h₅ hf₅ => ?_
  refine (quiet_trapBlock _ _).wp_then fun _ _ => ?_
  iterate 4 refine wp_asm_bind fun _ _ => ?_
  rw [Finset.insert_comm] at h₅
  refine wp_releaseTemp h₅ (not_mem_insert_of_fresh hseg htable) fun c₆ h₆ hf₆ => ?_
  refine wp_releaseTemp (a := c₆.asm) h₆ (fun e => htable (Finset.mem_insert_of_mem e))
    fun c₇ h₇ hf₇ => ?_
  rw [wp_bind]
  refine wp_copyLoop (a := c₇.asm) h₇ (by omega) _ _ _ _ _ fun c₈ h₈ hf₈ => ?_
  refine wp_releaseThree h₈ (by simp) (by simp) (by simp) fun c₉ h₉ hf₉ => ?_
  rw [Finset.sdiff_self] at h₉
  exact h.finish h₉ (hf₁.trans (hf₂.trans (hf₃.trans (hf₄.trans (hf₅.trans (hf₆.trans
    (hf₇.trans (hf₈.trans hf₉)))))))) hQ

theorem wp_refFunc (h : Sound c) (index : UInt32)
    (hQ : ∀ c', Sound c' → Frame c c' → Q () c') :
    wp (refFunc index) Q { c with asm := a } := by
  unfold refFunc
  rw [wp_bind]
  refine wp_materializeTopFlag h.fit (by simp) fun c₁ h₁ _ hf₁ _ => ?_
  rw [wp_bind]
  refine wp_allocate (a := c₁.asm) h₁ (h₁.room_free (by simp)) fun r c₂ h₂ _ _ _ hf₂ => ?_
  rw [Finset.insert_empty] at h₂
  refine wp_asm_bind fun _ _ => ?_
  simp only [wp_bind, wp_disp]
  intro _
  exact wp_ite_prefix (Quiet.asm' _) fun _ => wp_pushResult h h₂ (hf₁.trans hf₂) (by decide) hQ

theorem wp_tableGrow (h : Sound c) {index : UInt32}
    (hw : (Operation.tableGrow index).ReadsWhole c.fn.module c.stack.slots)
    (hQ : ∀ c', Sound c' → Frame c c' → Q () c') :
    wp (tableGrow index) Q { c with asm := a } := by
  unfold tableGrow
  rw [wp_bind, wp_discard, wp_stk]
  intro _ s₁ hok
  have h₁ : Fit ∅ s₁ := keeps_pushOnStack (by decide) (by decide) _ _ _ h.fit hok
  have hf₁ : Frame c { c with stack := s₁ } := ⟨rfl, rfl⟩
  have hsp₁ : s₁.sp = c.stack.sp + 1 := by
    cases hok
    exact sp_pushLoc _ _ _ _
  have hcut₁ : NotHiAt s₁.slots (c.stack.slots.size - 2) :=
    (keeps_cut_pushOnStack (by decide) _ _ _ ⟨hw, by simp only [ValueStack.sp]; omega⟩ hok).1
  rw [wp_bind, wp_get, wp_bind, wp_slot]
  intro _
  rw [wp_bind]
  refine wp_releaseAllToStack (c := { c with stack := s₁ }) (a := a) h₁ (by simp)
    fun c₂ h₂ hm₂ _ hf₂ => ?_
  refine wp_asm_bind fun _ _ => ?_
  rw [wp_bind]
  refine quiet_callBuiltin _ _ _ fun _ s => ?_
  rw [wp_bind]
  refine wp_discardSlots (c := { c₂ with asm := s }) 3 fun c₃ heq hu hf₃ => ?_
  have hm : c₂.stack.sp - 3 = c.stack.slots.size - 2 := by
    rw [hm₂.sp_eq, hsp₁]
    simp only [ValueStack.sp]
    omega
  have h₃ : Fit ∅ c₃.stack := Fit.discard h₂ (by rw [hm]; exact hm₂.notHiAt hcut₁) heq hu
  rw [wp_discard]
  exact wp_stk_keeps (keeps_pushOnStack (by decide) (by decide)) h₃ fun _ _ _ h₄ =>
    h.finish h₄ (hf₁.trans (hf₂.trans (hf₃.trans ⟨rfl, rfl⟩))) hQ

end OnePassJit.Amd64.Lower
