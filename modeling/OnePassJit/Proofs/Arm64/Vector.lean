import OnePassJit.Proofs.Arm64.Memory

/-!
Vector operations keep the layout on arm64, and keep a flag only at the top.

A vector result is pushed as two slots sharing one register, which `pushRegister` does for
the type `v128lo`. The halves of a constant are assembled through a scratch register, so a
constant borrows nothing; an integer lane moves to or from a fresh register, and the
operand's register is given back before the push.
-/

namespace OnePassJit.Arm64.Lower

open ValueStack StackM

variable {c : Compiler} {a : Encoder} {Q : Unit → Compiler → Prop}

theorem wp_v128Const (h : Sound c) (lo hi : UInt64)
    (hQ : ∀ c', Sound c' → Frame c c' → Q () c') :
    wp (v128Const lo hi) Q { c with asm := a } := by
  unfold v128Const
  rw [wp_bind]
  refine wp_materializeTopFlag_sound h fun c₁ h₁ hn₁ hf₁ => ?_
  rw [wp_bind]
  refine wp_allocate (a := c₁.asm) h₁ (h₁.room_free (by simp)) fun r c₂ h₂ _ _ hs₂ hf₂ => ?_
  rw [Finset.insert_empty] at h₂
  have hend : ∀ s, wp (pushRegister r .v128lo) Q { c₂ with asm := s } := fun _ =>
    wp_pushResult h h₂ (hs₂.moves.noFlags hn₁) (hf₁.trans hf₂) (by decide) hQ
  dsimp only
  repeat' with_reducible first
    | exact hend _
    | refine wp_asm_bind fun _ _ => ?_
    | refine wp_ite_prefix (Quiet.bind (Quiet.asm' _) fun _ => Quiet.asm' _) fun _ => ?_
    | refine wp_ite.mpr ⟨fun _ => ?_, fun _ => ?_⟩

theorem wp_v128AddSub (h : Sound c) (shape : LaneShape) (isAdd : Bool)
    (hQ : ∀ c', Sound c' → Frame c c' → Q () c') :
    wp (v128AddSub shape isAdd) Q { c with asm := a } := by
  unfold v128AddSub
  rw [wp_bind]
  refine wp_popOperand h fun x₂ _ r₂ c₁ _ h₁ hn₁ hf₁ => ?_
  rw [wp_bind]
  refine wp_popToRegister (a := c₁.asm) h₁ (by simp) fun x₁ n₁ r₁ c₂ _ hs₂ hr₁ h₂ hf₂ => ?_
  rw [wp_bind, wp_regOf (Location.setRegister_reg x₁ r₁), wp_bind,
    wp_regOf (Location.setRegister_reg x₂ r₂)]
  have hend : ∀ s, wp (release (x₂.setRegister r₂) >>= fun _ => pushRegister r₁ .v128lo) Q
      { c₂ with asm := s } := fun _ =>
    wp_releasePush h h₂ (hs₂.moves.noFlags (hn₁.below n₁)) (hf₁.trans hf₂)
      (by simpa using hr₁) (Location.setRegister_reg x₂ r₂) (by decide) hQ
  split <;> exact wp_asm_bind fun _ _ => hend _

theorem wp_v128Bitwise (h : Sound c) (op : VectorLogic)
    (hQ : ∀ c', Sound c' → Frame c c' → Q () c') :
    wp (v128Bitwise op) Q { c with asm := a } := by
  unfold v128Bitwise
  rw [wp_bind]
  refine wp_popOperand h fun x₂ _ r₂ c₁ _ h₁ hn₁ hf₁ => ?_
  rw [wp_bind]
  refine wp_popToRegister (a := c₁.asm) h₁ (by simp) fun x₁ n₁ r₁ c₂ _ hs₂ hr₁ h₂ hf₂ => ?_
  rw [wp_bind, wp_regOf (Location.setRegister_reg x₁ r₁), wp_bind,
    wp_regOf (Location.setRegister_reg x₂ r₂)]
  have hend : ∀ s, wp (release (x₂.setRegister r₂) >>= fun _ => pushRegister r₁ .v128lo) Q
      { c₂ with asm := s } := fun _ =>
    wp_releasePush h h₂ (hs₂.moves.noFlags (hn₁.below n₁)) (hf₁.trans hf₂)
      (by simpa using hr₁) (Location.setRegister_reg x₂ r₂) (by decide) hQ
  cases op <;> exact wp_asm_bind fun _ _ => hend _

theorem wp_v128Not (h : Sound c) (hQ : ∀ c', Sound c' → Frame c c' → Q () c') :
    wp v128Not Q { c with asm := a } := by
  refine wp_unary h (fun x r c₁ hx _ hend => ?_) hQ
  rw [wp_bind, wp_regOf hx]
  exact wp_asm_bind fun _ _ => hend _ (by decide) _

theorem wp_v128Splat (h : Sound c) (shape : LaneShape)
    (hQ : ∀ c', Sound c' → Frame c c' → Q () c') :
    wp (v128Splat shape) Q { c with asm := a } := by
  unfold v128Splat
  rw [wp_bind]
  refine wp_popOperand h fun x _ src c₁ _ h₁ hn₁ hf₁ => ?_
  rw [wp_bind, wp_regOf (Location.setRegister_reg x src)]
  simp only [pure_bind]
  split
  · -- a float lane is broadcast in place
    exact wp_asm_bind fun _ _ => wp_pushResult h h₁ hn₁ hf₁ (by decide) hQ
  · -- an integer lane moves to a fresh vector register, and the popped one is given back
    rw [wp_bind]
    refine wp_allocate (a := c₁.asm) h₁ (h₁.room_free (by simp))
      fun dst c₂ h₂ hdst _ hs₂ hf₂ => ?_
    exact wp_asm_bind fun _ _ => wp_releasePush h h₂ (hs₂.moves.noFlags hn₁) (hf₁.trans hf₂)
      (by simpa using hdst) (Location.setRegister_reg x src) (by decide) hQ

theorem wp_v128ExtractLane (h : Sound c) (lane : UInt8) (signed : Bool) (shape : LaneShape)
    (hQ : ∀ c', Sound c' → Frame c c' → Q () c') :
    wp (v128ExtractLane lane signed shape) Q { c with asm := a } := by
  unfold v128ExtractLane
  rw [wp_bind]
  refine wp_popOperand h fun x _ src c₁ _ h₁ hn₁ hf₁ => ?_
  rw [wp_bind, wp_regOf (Location.setRegister_reg x src)]
  dsimp only
  split
  · -- a float lane is moved to the bottom of the same register
    exact wp_ite_prefix (Quiet.asm' _) fun _ =>
      wp_pushResult h h₁ hn₁ hf₁ (by split <;> decide) hQ
  · -- an integer lane is extracted into a fresh general register
    rw [wp_bind]
    refine wp_allocate (a := c₁.asm) h₁ (h₁.room_free (by simp))
      fun dst c₂ h₂ hdst _ hs₂ hf₂ => ?_
    have hend : ∀ s, wp (release (x.setRegister src) >>= fun _ =>
        pushRegister dst (if shape.laneBytes == 8 then .i64 else .i32)) Q
        { c₂ with asm := s } := fun _ =>
      wp_releasePush h h₂ (hs₂.moves.noFlags hn₁) (hf₁.trans hf₂) (by simpa using hdst)
        (Location.setRegister_reg x src) (by split <;> decide) hQ
    repeat' with_reducible first
      | exact hend _
      | refine wp_asm_bind fun _ _ => ?_
      | refine wp_ite.mpr ⟨fun _ => ?_, fun _ => ?_⟩

theorem wp_v128ReplaceLane (h : Sound c) (lane : UInt8) (shape : LaneShape)
    (hQ : ∀ c', Sound c' → Frame c c' → Q () c') :
    wp (v128ReplaceLane lane shape) Q { c with asm := a } := by
  unfold v128ReplaceLane
  rw [wp_bind]
  refine wp_popOperand h fun x₁ _ s c₁ _ h₁ hn₁ hf₁ => ?_
  rw [wp_bind]
  refine wp_popToRegister (a := c₁.asm) h₁ (by simp) fun x₂ n₂ v c₂ _ hs₂ hv h₂ hf₂ => ?_
  rw [wp_bind, wp_regOf (Location.setRegister_reg x₁ s), wp_bind,
    wp_regOf (Location.setRegister_reg x₂ v)]
  have hend : ∀ t, wp (release (x₁.setRegister s) >>= fun _ => pushRegister v .v128lo) Q
      { c₂ with asm := t } := fun _ =>
    wp_releasePush h h₂ (hs₂.moves.noFlags (hn₁.below n₂)) (hf₁.trans hf₂)
      (by simpa using hv) (Location.setRegister_reg x₁ s) (by decide) hQ
  dsimp only
  repeat' with_reducible first
    | exact hend _
    | refine wp_asm_bind fun _ _ => ?_
    | refine wp_ite.mpr ⟨fun _ => ?_, fun _ => ?_⟩

theorem wp_v128AnyTrue (h : Sound c) (hQ : ∀ c', Sound c' → Frame c c' → Q () c') :
    wp v128AnyTrue Q { c with asm := a } := by
  unfold v128AnyTrue
  rw [wp_bind]
  refine wp_popOperand h fun x _ r c₁ _ h₁ hn₁ hf₁ => ?_
  rw [wp_bind, wp_regOf (Location.setRegister_reg x r)]
  iterate 3 refine wp_asm_bind fun _ _ => ?_
  rw [wp_bind]
  refine wp_release_temp h₁ (Location.setRegister_reg x r) (by simp) fun c₂ h₂ hs₂ hf₂ => ?_
  rw [Finset.erase_singleton] at h₂
  exact wp_pushFlagResult h h₂ (hs₂.moves.noFlags hn₁) (hf₁.trans hf₂) _ hQ

end OnePassJit.Arm64.Lower
