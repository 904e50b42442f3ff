import OnePassJit.Proofs.Amd64.Numeric

/-!
Vector operations keep the layout on amd64.

A vector result is pushed as two slots sharing one register, which `pushRegister` does
for the type `v128lo`; every other register a vector operation borrows (the scratch
of a constant, the all-ones mask of `not`, the zero shuffle mask of a byte splat) is
given back before the push.
-/

namespace OnePassJit.Amd64.Lower

open ValueStack StackM

variable {c : Compiler} {a : Assembler} {Q : Unit → Compiler → Prop}

theorem wp_v128Const (h : Sound c) (lo hi : UInt64)
    (hQ : ∀ c', Sound c' → Frame c c' → Q () c') :
    wp (v128Const lo hi) Q { c with asm := a } := by
  unfold v128Const
  rw [wp_bind]
  refine wp_materializeTopFlag h.fit (by simp) fun c₁ h₁ _ hf₁ _ => ?_
  rw [wp_bind]
  refine wp_allocate (a := c₁.asm) h₁ (h₁.room_free (by simp)) fun r c₂ h₂ _ _ _ hf₂ => ?_
  rw [Finset.insert_empty] at h₂
  lift_lets
  intro jp
  refine wp_ite.mpr ⟨fun _ => wp_asm_bind fun _ _ => wp_pushResult h h₂ (hf₁.trans hf₂)
    (by decide) hQ, fun _ => ?_⟩
  rw [wp_bind]
  refine wp_allocate (a := c₂.asm) h₂ (h₂.room_free (by simp)) fun tmp c₃ h₃ htmp _ _ hf₃ => ?_
  iterate 4 refine wp_asm_bind fun _ _ => ?_
  exact wp_releaseTemp h₃ htmp fun c₄ h₄ hf₄ =>
    wp_pushResult h h₄ (hf₁.trans (hf₂.trans (hf₃.trans hf₄))) (by decide) hQ

theorem wp_v128Binary (h : Sound c) (op : VecOp)
    (hQ : ∀ c', Sound c' → Frame c c' → Q () c') :
    wp (v128Binary op) Q { c with asm := a } := by
  unfold v128Binary
  rw [wp_bind]
  refine wp_popOperand h fun x₂ _ r₂ c₁ _ h₁ hf₁ => ?_
  rw [wp_bind]
  refine wp_popToRegister (a := c₁.asm) h₁ (by simp) fun x₁ _ r₁ c₂ _ _ hr₁ h₂ hf₂ => ?_
  rw [wp_bind, wp_regOf (Location.setRegister_reg x₁ r₁), wp_bind,
    wp_regOf (Location.setRegister_reg x₂ r₂)]
  exact wp_asm_bind fun _ _ => wp_releasePush h h₂ (hf₁.trans hf₂) (by simpa using hr₁)
    (Location.setRegister_reg x₂ r₂) (by decide) hQ

theorem wp_v128Not (h : Sound c) (hQ : ∀ c', Sound c' → Frame c c' → Q () c') :
    wp v128Not Q { c with asm := a } := by
  unfold v128Not
  rw [wp_bind]
  refine wp_popOperand h fun x _ r c₁ _ h₁ hf₁ => ?_
  rw [wp_bind, wp_regOf (Location.setRegister_reg x r), wp_bind]
  refine wp_allocate (a := c₁.asm) h₁ (h₁.room_free (by simp)) fun ones c₂ h₂ hones _ _ hf₂ => ?_
  iterate 2 refine wp_asm_bind fun _ _ => ?_
  exact wp_releaseTemp h₂ hones fun c₃ h₃ hf₃ =>
    wp_pushResult h h₃ (hf₁.trans (hf₂.trans hf₃)) (by decide) hQ

theorem wp_v128Splat (h : Sound c) (shape : LaneShape)
    (hQ : ∀ c', Sound c' → Frame c c' → Q () c') :
    wp (v128Splat shape) Q { c with asm := a } := by
  unfold v128Splat
  rw [wp_bind]
  refine wp_popOperand h fun x _ src c₁ _ h₁ hf₁ => ?_
  rw [wp_bind, wp_regOf (Location.setRegister_reg x src)]
  simp only [pure_bind]
  cases shape <;> dsimp only
  case f32x4 | f64x2 => exact wp_asm_bind fun _ _ => wp_pushResult h h₁ hf₁ (by decide) hQ
  all_goals
    rw [wp_bind]
    refine wp_allocate (a := c₁.asm) h₁ (h₁.room_free (by simp)) fun dst c₂ h₂ hdst _ _ hf₂ => ?_
    have hfin : ∀ c', Fit {dst, src} c'.stack → Frame c₂ c' →
        wp (release (x.setRegister src) >>= fun _ => pushRegister dst .v128lo) Q c' :=
      fun c' h' hf' => wp_releasePush (a := c'.asm) h h' (hf₁.trans (hf₂.trans hf'))
        (by simpa using hdst) (Location.setRegister_reg x src) (by decide) hQ
  case i8x16 =>
    refine wp_asm_bind fun _ _ => ?_
    rw [wp_bind]
    refine wp_allocate h₂ (h₂.room_free (card_pair_lt dst src (n := 0) (by omega)))
      fun zero c₃ h₃ hzero _ _ hf₃ => ?_
    iterate 2 refine wp_asm_bind fun _ _ => ?_
    exact wp_releaseTemp h₃ hzero fun c₄ h₄ hf₄ => hfin c₄ h₄ (hf₃.trans hf₄)
  all_goals
    repeat' with_reducible first
      | exact hfin _ h₂ Frame.rfl'
      | refine wp_asm_bind fun _ _ => ?_

theorem wp_v128ExtractLane (h : Sound c) (lane : UInt8) (signed : Bool) (shape : LaneShape)
    (hQ : ∀ c', Sound c' → Frame c c' → Q () c') :
    wp (v128ExtractLane lane signed shape) Q { c with asm := a } := by
  unfold v128ExtractLane
  rw [wp_bind]
  refine wp_popOperand h fun x _ src c₁ _ h₁ hf₁ => ?_
  rw [wp_bind, wp_regOf (Location.setRegister_reg x src)]
  cases shape <;> dsimp only
  case f32x4 | f64x2 =>
    exact wp_ite_prefix (Quiet.asm' _) fun _ => wp_pushResult h h₁ hf₁ (by decide) hQ
  all_goals
    rw [wp_bind]
    refine wp_allocate (a := c₁.asm) h₁ (h₁.room_free (by simp)) fun dst c₂ h₂ hdst _ _ hf₂ => ?_
    have hfin : ∀ t : SlotType, t ≠ .v128hi → ∀ s,
        wp (release (x.setRegister src) >>= fun _ => pushRegister dst t) Q { c₂ with asm := s } :=
      fun t ht s => wp_releasePush (a := s) h h₂ (hf₁.trans hf₂) (by simpa using hdst)
        (Location.setRegister_reg x src) ht hQ
    repeat' with_reducible first
      | exact hfin _ (by decide) _
      | refine wp_asm_bind fun _ _ => ?_
      | refine wp_ite.mpr ⟨fun _ => ?_, fun _ => ?_⟩

theorem wp_v128ReplaceLane (h : Sound c) (lane : UInt8) (shape : LaneShape)
    (hQ : ∀ c', Sound c' → Frame c c' → Q () c') :
    wp (v128ReplaceLane lane shape) Q { c with asm := a } := by
  unfold v128ReplaceLane
  rw [wp_bind]
  refine wp_popOperand h fun x₁ _ s c₁ _ h₁ hf₁ => ?_
  rw [wp_bind]
  refine wp_popToRegister (a := c₁.asm) h₁ (by simp) fun x₂ _ v c₂ _ _ hv h₂ hf₂ => ?_
  rw [wp_bind, wp_regOf (Location.setRegister_reg x₁ s), wp_bind,
    wp_regOf (Location.setRegister_reg x₂ v)]
  have hfin := fun t => wp_releasePush (a := t) h h₂ (hf₁.trans hf₂) (by simpa using hv)
    (Location.setRegister_reg x₁ s) (t := .v128lo) (by decide) hQ
  cases shape <;> dsimp only
  all_goals
    repeat' with_reducible first
      | exact hfin _
      | refine wp_asm_bind fun _ _ => ?_
      | refine wp_ite.mpr ⟨fun _ => ?_, fun _ => ?_⟩

theorem wp_v128AnyTrue (h : Sound c) (hQ : ∀ c', Sound c' → Frame c c' → Q () c') :
    wp v128AnyTrue Q { c with asm := a } := by
  unfold v128AnyTrue
  rw [wp_bind]
  refine wp_popOperand h fun x _ r c₁ _ h₁ hf₁ => ?_
  rw [wp_bind, wp_regOf (Location.setRegister_reg x r)]
  refine wp_asm_bind fun _ _ => ?_
  rw [wp_bind]
  refine wp_release_temp h₁ (Location.setRegister_reg x r) (by simp) fun c₂ h₂ hf₂ => ?_
  rw [Finset.erase_singleton] at h₂
  exact wp_pushFlagResult h h₂ (hf₁.trans hf₂) _ hQ

end OnePassJit.Amd64.Lower
