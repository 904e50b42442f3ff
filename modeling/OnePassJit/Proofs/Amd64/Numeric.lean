import OnePassJit.Proofs.Amd64.Control

/-!
Constants, comparisons, arithmetic and conversions on amd64 keep the value stack laid out.

Each of these lowerings pops its operands into registers, which become temporaries, may
take a few more temporaries (a mask, a limit, the two halves of a float comparison), and
ends by pushing its result, either in a register or in the flags. Between those ends the
code it emits changes no stack, so what is left to check is that every temporary taken
is given back or pushed: the stack is then `Sound` again.
-/

namespace OnePassJit.Amd64.Lower

open ValueStack StackM

variable {c : Compiler} {a : Assembler} {T : Finset Reg} {Q : Unit → Compiler → Prop}

theorem wp_pushResult {c₀ : Compiler} (h₀ : Sound c₀) {r : Reg} (h : Fit {r} c.stack)
    (hf : Frame c₀ c) {t : SlotType} (ht : t ≠ .v128hi)
    (hQ : ∀ c', Sound c' → Frame c₀ c' → Q () c') :
    wp (pushRegister r t) Q { c with asm := a } :=
  wp_pushRegister h (Finset.mem_singleton_self r) ht fun c' h' _ hf' => by
    rw [Finset.erase_singleton] at h'
    exact hQ c' (h₀.of_frame h' (hf.trans hf')) (hf.trans hf')

theorem wp_pushFlagResult {c₀ : Compiler} (h₀ : Sound c₀) (h : Fit ∅ c.stack)
    (hf : Frame c₀ c) (f : Flag) (hQ : ∀ c', Sound c' → Frame c₀ c' → Q () c') :
    wp (pushFlag f) Q { c with asm := a } :=
  wp_pushFlag h f fun c' h' _ hf' => hQ c' (h₀.of_frame h' (hf.trans hf')) (hf.trans hf')

theorem wp_popOperand (h : Sound c) {Q : Location → Compiler → Prop}
    (hQ : ∀ x n r c', TopAt c.stack x n → Fit {r} c'.stack → Frame c c' →
      Q (x.setRegister r) c') :
    wp (popToRegister : LowerM Location) Q { c with asm := a } :=
  wp_popToRegister h.fit (by simp) fun x n r c' ht _ _ h' hf' => by
    rw [Finset.insert_empty] at h'
    exact hQ x n r c' ht h' hf'

theorem wp_ite_join {α β : Type} {p : Prop} [Decidable p] {m₁ m₂ : LowerM β}
    {k : β → LowerM α} {Q : α → Compiler → Prop} (h₁ : Quiet m₁) (h₂ : Quiet m₂)
    (hk : ∀ b s, wp (k b) Q { c with asm := s }) :
    wp (if p then m₁ >>= k else m₂ >>= k) Q c := by
  split
  · rw [wp_bind]
    exact h₁ c _ hk
  · rw [wp_bind]
    exact h₂ c _ hk

theorem wp_constInt (h : Sound c) {t : SlotType} (ht : t ≠ .v128hi) (v : UInt64)
    (hQ : ∀ c', Sound c' → Frame c c' → Q () c') : wp (constInt t v) Q { c with asm := a } := by
  unfold constInt
  rw [wp_bind]
  refine wp_materializeTopFlag h.fit (by simp) fun c₁ h₁ _ hf₁ _ => ?_
  rw [wp_bind]
  refine wp_allocate (a := c₁.asm) h₁ (h₁.room_free (by simp)) fun r c₂ h₂ _ _ _ hf₂ => ?_
  lift_lets
  intro jp
  rw [Finset.insert_empty] at h₂
  exact wp_ite_join (Quiet.asm' _) (Quiet.asm' _) fun _ _ =>
    wp_pushResult h h₂ (hf₁.trans hf₂) ht hQ

theorem wp_constFloat (h : Sound c) (is32 : Bool) (bits : UInt64)
    (hQ : ∀ c', Sound c' → Frame c c' → Q () c') :
    wp (constFloat is32 bits) Q { c with asm := a } := by
  unfold constFloat
  rw [wp_bind]
  refine wp_materializeTopFlag h.fit (by simp) fun c₁ h₁ _ hf₁ _ => ?_
  rw [wp_bind]
  refine wp_floatConst (a := c₁.asm) h₁ (by simp) is32 bits fun r c₂ h₂ _ _ hf₂ => ?_
  rw [Finset.insert_empty] at h₂
  exact wp_pushResult h h₂ (hf₁.trans hf₂) (by split <;> decide) hQ

theorem wp_popTwo (h : Sound c) {Q : Location × Location → Compiler → Prop}
    (hQ : ∀ x₁ x₂ r₁ r₂ c', x₁.reg = some r₁ → x₂.reg = some r₂ → r₁ ≠ r₂ →
      x₁.type ≠ .v128hi → Fit {r₁, r₂} c'.stack → Frame c c' → Q (x₁, x₂) c') :
    wp popTwo Q { c with asm := a } := by
  unfold popTwo
  rw [wp_bind]
  refine wp_popOperand h fun x₂ _ r₂ c₁ _ h₁ hf₁ => ?_
  rw [wp_bind]
  refine wp_popToRegister (a := c₁.asm) h₁ (by simp) fun x₁ _ r₁ c₂ ht₁ _ hr₁ h₂ hf₂ => ?_
  rw [wp_pure]
  exact hQ _ _ r₁ r₂ c₂ rfl rfl (by simpa using hr₁) (by simpa using ht₁.whole) h₂
    (hf₁.trans hf₂)

theorem wp_releasePush {c₀ : Compiler} (h₀ : Sound c₀) {x₂ : Location} {r₁ r₂ : Reg}
    (h : Fit {r₁, r₂} c.stack) (hf : Frame c₀ c) (hne : r₁ ≠ r₂) (hx₂ : x₂.reg = some r₂)
    {t : SlotType} (ht : t ≠ .v128hi) (hQ : ∀ c', Sound c' → Frame c₀ c' → Q () c') :
    wp (release x₂ >>= fun _ => pushRegister r₁ t) Q { c with asm := a } := by
  rw [wp_bind]
  refine wp_release_temp h hx₂ (by simp) fun c₁ h₁ hf₁ => ?_
  rw [Finset.erase_insert_of_ne hne, Finset.erase_singleton,
    Finset.insert_empty] at h₁
  exact wp_pushResult h₀ h₁ (hf.trans hf₁) ht hQ

theorem wp_releasePushFlag {c₀ : Compiler} (h₀ : Sound c₀) {x₁ x₂ : Location} {r₁ r₂ : Reg}
    (h : Fit {r₁, r₂} c.stack) (hf : Frame c₀ c) (hne : r₁ ≠ r₂) (hx₁ : x₁.reg = some r₁)
    (hx₂ : x₂.reg = some r₂) (f : Flag) (hQ : ∀ c', Sound c' → Frame c₀ c' → Q () c') :
    wp (release x₁ >>= fun _ => release x₂ >>= fun _ => pushFlag f) Q { c with asm := a } := by
  rw [wp_bind]
  refine wp_release_temp h hx₁ (by simp) fun c₁ h₁ hf₁ => ?_
  rw [wp_bind]
  refine wp_release_temp h₁ hx₂ (by simp [Ne.symm hne]) fun c₂ h₂ hf₂ => ?_
  have hempty : (({r₁, r₂} : Finset Reg).erase r₁).erase r₂ = ∅ := by
    ext x
    simp only [Finset.mem_erase, Finset.mem_insert, Finset.mem_singleton, Finset.notMem_empty,
      iff_false]
    tauto
  rw [hempty] at h₂
  exact wp_pushFlagResult h₀ h₂ (hf.trans (hf₁.trans hf₂)) f hQ

theorem wp_eqz (h : Sound c) (t : IntWidth) (hQ : ∀ c', Sound c' → Frame c c' → Q () c') :
    wp (eqz t) Q { c with asm := a } := by
  unfold eqz
  rw [wp_bind]
  refine wp_popOperand h fun x _ r c₁ _ h₁ hf₁ => ?_
  simp only [wp_bind, wp_regOf (Location.setRegister_reg x r), wp_asm]
  intro _ s _
  refine wp_release_temp (c := c₁) (a := s) h₁ rfl (by simp) fun c₂ h₂ hf₂ => ?_
  rw [Finset.erase_singleton] at h₂
  exact wp_pushFlagResult h h₂ (hf₁.trans hf₂) _ hQ

theorem wp_floatCompareResult {c₀ : Compiler} (h₀ : Sound c₀) {x₁ x₂ : Location} {r₁ r₂ : Reg}
    (h : Fit {r₁, r₂} c.stack) (hf : Frame c₀ c) (hne : r₁ ≠ r₂) (hx₁ : x₁.reg = some r₁)
    (hx₂ : x₂.reg = some r₂) (isEq : Bool) (hQ : ∀ c', Sound c' → Frame c₀ c' → Q () c') :
    wp (do
      let result ← allocate .gp
      let parity ← allocate .gp
      if isEq = true then do
        asm (Asm.setcc .e result)
        asm (Asm.setcc .np parity)
        asm (Asm.aluRR .and .w32 result parity)
        asm (Asm.movzx8RR result result)
        releaseReg parity
        release x₁
        release x₂
        pushRegister result .i32
      else do
        asm (Asm.setcc .ne result)
        asm (Asm.setcc .p parity)
        asm (Asm.aluRR .or .w32 result parity)
        asm (Asm.movzx8RR result result)
        releaseReg parity
        release x₁
        release x₂
        pushRegister result .i32) Q { c with asm := a } := by
  rw [wp_bind]
  refine wp_allocate h (h.room_free (card_pair_lt r₁ r₂ (n := 0) (by omega)))
    fun res c₁ h₁ hres _ _ hf₁ => ?_
  rw [wp_bind]
  have hcard : (insert res ({r₁, r₂} : Finset Reg)).card < 9 := by
    have := Finset.card_insert_le res ({r₁, r₂} : Finset Reg)
    have := card_pair_lt r₁ r₂ (n := 1) (by omega)
    omega
  refine wp_allocate (a := c₁.asm) h₁ (h₁.room_free hcard) fun par c₂ h₂ hpar _ _ hf₂ => ?_
  have htail : ∀ s, wp (do
      releaseReg par
      release x₁
      release x₂
      pushRegister res .i32) Q { c₂ with asm := s } := by
    intro s
    rw [wp_bind]
    refine wp_releaseReg (a := s) h₂ (h₂.1.temp_free par (Finset.mem_insert_self _ _))
      fun c₃ h₃ _ hf₃ => ?_
    rw [Finset.erase_insert hpar, wp_bind] at *
    refine wp_release_temp (a := c₃.asm) h₃ hx₁ (by simp) fun c₄ h₄ hf₄ => ?_
    rw [wp_bind]
    refine wp_release_temp (a := c₄.asm) h₄ hx₂ (by simp [Ne.symm hne]) fun c₅ h₅ hf₅ => ?_
    have hone : ((insert res ({r₁, r₂} : Finset Reg)).erase r₁).erase r₂ = {res} := by
      ext x
      simp only [Finset.mem_insert, Finset.mem_singleton, not_or] at hres
      simp only [Finset.mem_erase, Finset.mem_insert, Finset.mem_singleton]
      constructor
      · tauto
      · rintro rfl
        exact ⟨hres.2, hres.1, .inl rfl⟩
    rw [hone] at h₅
    exact wp_pushResult h₀ h₅ (hf.trans (hf₁.trans (hf₂.trans (hf₃.trans (hf₄.trans hf₅)))))
      (by decide) hQ
  split
  · exact wp_asm_bind fun _ _ => wp_asm_bind fun _ _ => wp_asm_bind fun _ _ =>
      wp_asm_bind fun _ _ => htail _
  · exact wp_asm_bind fun _ _ => wp_asm_bind fun _ _ => wp_asm_bind fun _ _ =>
      wp_asm_bind fun _ _ => htail _

theorem wp_eqOrNe (h : Sound c) (t : NumType) (isEq : Bool)
    (hQ : ∀ c', Sound c' → Frame c c' → Q () c') : wp (eqOrNe t isEq) Q { c with asm := a } := by
  unfold eqOrNe
  rw [wp_bind]
  refine wp_popTwo h fun x₁ x₂ r₁ r₂ c₁ hx₁ hx₂ hne _ h₁ hf₁ => ?_
  rw [wp_bind, wp_regOf hx₁, wp_bind, wp_regOf hx₂]
  cases t with
  | i32 | i64 =>
    exact wp_asm_bind fun _ _ => wp_releasePushFlag h h₁ hf₁ hne hx₁ hx₂ _ hQ
  | f32 | f64 =>
    exact wp_asm_bind fun _ _ => wp_floatCompareResult h h₁ hf₁ hne hx₁ hx₂ isEq hQ

theorem wp_compare (h : Sound c) (t : CmpType) (flag : Flag)
    (hQ : ∀ c', Sound c' → Frame c c' → Q () c') : wp (compare t flag) Q { c with asm := a } := by
  unfold compare
  rw [wp_bind]
  refine wp_popTwo h fun x₁ x₂ r₁ r₂ c₁ hx₁ hx₂ hne _ h₁ hf₁ => ?_
  dsimp only
  rw [wp_bind, wp_regOf hx₁, wp_bind, wp_regOf hx₂]
  have hpush : ∀ f s, wp (pure f >>= fun result => release x₁ >>= fun _ => release x₂ >>=
      fun _ => pushFlag result) Q { c₁ with asm := s } := fun f _ => by
    rw [wp_bind, wp_pure]
    exact wp_releasePushFlag h h₁ hf₁ hne hx₁ hx₂ f hQ
  cases t
  case s32 | s64 | u32 | u64 => exact wp_asm_bind fun _ s => hpush _ s
  case f32 | f64 => cases flag <;> exact wp_asm_bind fun _ s => hpush _ s

theorem wp_addSubMul (h : Sound c) (t : NumType) (op : ArithOp)
    (hQ : ∀ c', Sound c' → Frame c c' → Q () c') : wp (addSubMul t op) Q { c with asm := a } := by
  unfold addSubMul
  rw [wp_bind]
  refine wp_popTwo h fun x₁ x₂ r₁ r₂ c₁ hx₁ hx₂ hne ht h₁ hf₁ => ?_
  rw [wp_bind, wp_regOf hx₁, wp_bind, wp_regOf hx₂]
  cases t <;> cases op
  all_goals exact wp_asm_bind fun _ _ => wp_releasePush h h₁ hf₁ hne hx₂ ht hQ

theorem wp_bitwise (h : Sound c) (t : IntWidth) (op : ArithOp)
    (hQ : ∀ c', Sound c' → Frame c c' → Q () c') : wp (bitwise t op) Q { c with asm := a } := by
  unfold bitwise
  rw [wp_bind]
  refine wp_popTwo h fun x₁ x₂ r₁ r₂ c₁ hx₁ hx₂ hne ht h₁ hf₁ => ?_
  rw [wp_bind, wp_regOf hx₁, wp_bind, wp_regOf hx₂]
  cases op
  all_goals exact wp_asm_bind fun _ _ => wp_releasePush h h₁ hf₁ hne hx₂ ht hQ

theorem wp_clz (h : Sound c) (t : IntWidth)
    (hQ : ∀ c', Sound c' → Frame c c' → Q () c') : wp (clz t) Q { c with asm := a } := by
  unfold clz
  rw [wp_bind]
  refine wp_popOperand h fun x _ r c₁ ht h₁ hf₁ => ?_
  rw [wp_bind, wp_regOf (Location.setRegister_reg x r), wp_bind, wp_get]
  have hpush : ∀ s, wp (pushRegister r (x.setRegister r).type) Q { c₁ with asm := s } :=
    fun _ => wp_pushResult h h₁ hf₁ (by simpa using ht.whole) hQ
  split
  · exact wp_asm_bind fun _ s => hpush s
  · repeat refine wp_asm_bind fun _ _ => ?_
    exact hpush _

theorem wp_ctz (h : Sound c) (t : IntWidth)
    (hQ : ∀ c', Sound c' → Frame c c' → Q () c') : wp (ctz t) Q { c with asm := a } := by
  unfold ctz
  rw [wp_bind]
  refine wp_popOperand h fun x _ r c₁ ht h₁ hf₁ => ?_
  rw [wp_bind, wp_regOf (Location.setRegister_reg x r), wp_bind, wp_get]
  have hpush : ∀ s, wp (pushRegister r (x.setRegister r).type) Q { c₁ with asm := s } :=
    fun _ => wp_pushResult h h₁ hf₁ (by simpa using ht.whole) hQ
  split
  · exact wp_asm_bind fun _ s => hpush s
  · repeat refine wp_asm_bind fun _ _ => ?_
    exact hpush _

theorem wp_popRewritePush (h : Sound c) {m : Location → Reg → LowerM PUnit}
    (hm : ∀ x r, Quiet (m x r)) {t : Location → SlotType} (ht : ∀ x, x.type ≠ .v128hi → t x ≠ .v128hi)
    (hQ : ∀ c', Sound c' → Frame c c' → Q () c') :
    wp (do
      let x ← popToRegister
      let r ← regOf x
      m x r
      pushRegister r (t x)) Q { c with asm := a } := by
  rw [wp_bind]
  refine wp_popOperand h fun x _ r c₁ hx h₁ hf₁ => ?_
  rw [wp_bind, wp_regOf (Location.setRegister_reg x r), wp_bind]
  exact hm _ r c₁ _ fun _ _ =>
    wp_pushResult h h₁ hf₁ (ht _ (by simpa using hx.whole)) hQ

theorem wp_popcnt (h : Sound c) (t : IntWidth)
    (hQ : ∀ c', Sound c' → Frame c c' → Q () c') : wp (popcnt t) Q { c with asm := a } :=
  wp_popRewritePush h (fun _ _ => Quiet.asm' _) (fun _ hx => hx) hQ

theorem wp_signExtend (h : Sound c) (w : Width) (fromBits : Nat)
    (hQ : ∀ c', Sound c' → Frame c c' → Q () c') :
    wp (signExtend w fromBits) Q { c with asm := a } :=
  wp_popRewritePush h (fun _ _ => Quiet.asm' _) (fun _ _ => by split <;> decide) hQ

theorem wp_wrap (h : Sound c) (hQ : ∀ c', Sound c' → Frame c c' → Q () c') :
    wp wrap Q { c with asm := a } :=
  wp_popRewritePush h (fun _ _ => Quiet.asm' _) (fun _ _ => by decide) hQ

theorem wp_extend (h : Sound c) (signed : Bool) (hQ : ∀ c', Sound c' → Frame c c' → Q () c') :
    wp (extend signed) Q { c with asm := a } := by
  unfold extend
  rw [wp_bind]
  refine wp_popOperand h fun x _ r c₁ _ h₁ hf₁ => ?_
  rw [wp_bind, wp_regOf (Location.setRegister_reg x r)]
  lift_lets
  intro jp
  exact wp_ite_join (Quiet.asm' _) (Quiet.asm' _) fun _ _ =>
    wp_pushResult h h₁ hf₁ (by decide) hQ

theorem wp_round (h : Sound c) (t : FloatType) (mode : Nat)
    (hQ : ∀ c', Sound c' → Frame c c' → Q () c') : wp (round t mode) Q { c with asm := a } :=
  wp_popRewritePush h (fun _ _ => Quiet.asm' _) (fun _ hx => hx) hQ

theorem wp_sqrt (h : Sound c) (t : FloatType) (hQ : ∀ c', Sound c' → Frame c c' → Q () c') :
    wp (sqrt t) Q { c with asm := a } :=
  wp_popRewritePush h (fun _ _ => Quiet.asm' _) (fun _ hx => hx) hQ

theorem wp_demote (h : Sound c) (hQ : ∀ c', Sound c' → Frame c c' → Q () c') :
    wp demote Q { c with asm := a } :=
  wp_popRewritePush h (fun _ _ => Quiet.asm' _) (fun _ _ => by decide) hQ

theorem wp_promote (h : Sound c) (hQ : ∀ c', Sound c' → Frame c c' → Q () c') :
    wp promote Q { c with asm := a } :=
  wp_popRewritePush h (fun _ _ => Quiet.asm' _) (fun _ _ => by decide) hQ

theorem Quiet.wp_then {β : Type} {m : LowerM β} {k : β → LowerM α} {Q : α → Compiler → Prop}
    (hm : Quiet m) (hk : ∀ b s, wp (k b) Q { c with asm := s }) : wp (m >>= k) Q c := by
  rw [wp_bind]
  exact hm c _ hk

theorem wp_popDetached (h : Fit T c.stack) {excl : RegSet} {E : Finset Reg}
    (hE : ∀ r, excl.contains r = true → r ∈ E) (hcard : T.card + 1 + E.card < 9)
    {k : Location → LowerM α} {Q : α → Compiler → Prop}
    (hk : ∀ x n r c', TopAt c.stack x n → r ∉ T → excl.contains r = false →
      Fit (insert r T) c'.stack → Frame c c' → wp (k (x.setRegister r)) Q c') :
    wp (do let l ← popLocation; let y ← loadDetached l excl; k y) Q { c with asm := a } := by
  rw [wp_bind]
  refine wp_popLocation h fun x n c₁ ht _ h₁ hf₁ => ?_
  have hdis : Disjoint T x.reg.toFinset :=
    Finset.disjoint_left.mpr fun r hT hr => h.1.top_not_temp ht (Option.mem_toFinset.mp hr) hT
  rw [wp_bind]
  refine wp_loadDetached (a := c₁.asm) h₁ hE (by have := card_union_reg T x; omega)
    (fun r hr => Finset.mem_union_right _ (Option.mem_toFinset.mpr hr))
    (h.1.top_flagged ht) fun r c₂ h₂ hr hex _ hf₂ => ?_
  rw [Finset.union_sdiff_cancel_right hdis] at h₂ hr
  exact hk x n r c₂ ht hr hex h₂ (hf₁.trans hf₂)

theorem wp_popFixed (h : Fit T c.stack) {fixed : Reg} (hst : RegSet.storable fixed = true)
    {k : Location → LowerM α} {Q : α → Compiler → Prop}
    (hk : ∀ x n c', TopAt c.stack x n → Fit (insert fixed T) c'.stack → Frame c c' →
      wp (k (x.setRegister fixed)) Q c') :
    wp (do let l ← popLocation; let y ← moveToFixed l fixed; k y) Q { c with asm := a } := by
  rw [wp_bind]
  refine wp_popLocation h fun x n c₁ ht _ h₁ hf₁ => ?_
  have hdis : Disjoint T x.reg.toFinset :=
    Finset.disjoint_left.mpr fun r hT hr => h.1.top_not_temp ht (Option.mem_toFinset.mp hr) hT
  rw [wp_bind]
  refine wp_moveToFixed (a := c₁.asm) h₁
    (fun r hr => Finset.mem_union_right _ (Option.mem_toFinset.mpr hr))
    (h.1.top_flagged ht) hst fun c₂ h₂ _ hf₂ => ?_
  rw [Finset.union_sdiff_cancel_right hdis] at h₂
  exact hk x n c₂ ht h₂ (hf₁.trans hf₂)

theorem wp_divisionResult {c₀ : Compiler} (h₀ : Sound c₀) {divisor : Location} {d : Reg}
    (hx : divisor.reg = some d) (hd : d ≠ rax ∧ d ≠ rdx) (h : Fit {rdx, rax, d} c.stack)
    (hf : Frame c₀ c) (result other : Reg)
    (hro : (result = rax ∧ other = rdx) ∨ (result = rdx ∧ other = rax)) (t : SlotType)
    (ht : t ≠ .v128hi) (hQ : ∀ c', Sound c' → Frame c₀ c' → Q () c') :
    wp (do release divisor; releaseReg other; pushRegister result t) Q { c with asm := a } := by
  rw [wp_bind]
  refine wp_release_temp h hx (by simp) fun c₁ h₁ hf₁ => ?_
  have hpair : ({rdx, rax, d} : Finset Reg).erase d = {result, other} := by
    rcases hro with ⟨rfl, rfl⟩ | ⟨rfl, rfl⟩ <;> ext r <;> simp <;> grind
  rw [hpair] at h₁
  rw [wp_bind]
  refine wp_releaseReg h₁ (h₁.1.temp_free other (by simp)) fun c₂ h₂ _ hf₂ => ?_
  have hne : result ≠ other := by rcases hro with ⟨rfl, rfl⟩ | ⟨rfl, rfl⟩ <;> decide
  rw [Finset.erase_insert_of_ne hne, Finset.erase_singleton, Finset.insert_empty] at h₂
  exact wp_pushResult h₀ h₂ (hf.trans (hf₁.trans hf₂)) ht hQ

theorem wp_intDivision (h : Sound c) (t : IntType) (isRem : Bool)
    (hQ : ∀ c', Sound c' → Frame c c' → Q () c') :
    wp (intDivision t isRem) Q { c with asm := a } := by
  unfold intDivision
  dsimp only
  refine wp_popDetached h.fit (E := {rax, rdx})
    (fun r hr => by simpa using RegSet.mem_of_contains_ofList hr)
    (by have := Finset.card_le_two (a := rax) (b := rdx); simp only [Finset.card_empty]; omega)
    fun x₁ _ d c₁ _ _ hd h₁ hf₁ => ?_
  have hd' : d ≠ rax ∧ d ≠ rdx := by
    constructor <;> rintro rfl <;> revert hd <;> decide
  refine wp_popFixed (a := c₁.asm) h₁ (by decide) fun x₂ _ c₂ _ h₂ hf₂ => ?_
  rw [wp_bind]
  refine wp_evict (a := c₂.asm) h₂ rdx fun c₃ h₃ hfree _ hf₃ => ?_
  rw [wp_bind]
  refine wp_markUsed_free (a := c₃.asm) h₃ hfree (by decide) fun c₄ h₄ _ hf₄ => ?_
  rw [Finset.insert_empty] at h₄
  rw [wp_bind, wp_regOf (Location.setRegister_reg x₁ d)]
  have hdone := fun s => wp_divisionResult (a := s) h (Location.setRegister_reg x₁ d) hd' h₄
    (hf₁.trans (hf₂.trans (hf₃.trans hf₄))) (if isRem then (rdx, rax) else (rax, rdx)).1
    (if isRem then (rdx, rax) else (rax, rdx)).2 (by cases isRem <;> simp)
    (if t.is32 then .i32 else .i64) (by split <;> decide) hQ
  repeat' with_reducible first
    | exact hdone _
    | refine wp_asm_bind fun _ _ => ?_
    | refine (quiet_exit _).wp_then fun _ _ => ?_
    | refine wp_ite.mpr ⟨fun _ => ?_, fun _ => ?_⟩

theorem quiet_truncSigned (input : FloatType) (output : IntType) (saturating : Bool)
    (src dst : Reg) : Quiet (truncSigned input output saturating src dst) := by
  unfold truncSigned
  dsimp only [setFloatBits, saturateOrTrap]
  repeat' with_reducible first
    | exact Quiet.asm' _
    | exact Quiet.pure' _
    | exact quiet_exit _
    | refine Quiet.bind ?_ fun _ => ?_
    | refine Quiet.ite' ?_ ?_

theorem wp_releaseTemp {r : Reg} (h : Fit (insert r T) c.stack) (hr : r ∉ T)
    {k : PUnit → LowerM α} {Q : α → Compiler → Prop}
    (hk : ∀ c', Fit T c'.stack → Frame c c' → wp (k ()) Q c') :
    wp (releaseReg r >>= k) Q { c with asm := a } := by
  rw [wp_bind]
  refine wp_releaseReg h (h.1.temp_free r (Finset.mem_insert_self r T)) fun c₁ h₁ _ hf₁ => ?_
  rw [Finset.erase_insert hr] at h₁
  exact hk c₁ h₁ hf₁

theorem wp_releaseReg_quiet {r : Reg} (h : Fit (insert r T) c.stack) (hr : r ∉ T)
    {k : PUnit → LowerM α} (hk : ∀ u, Quiet (k u)) {Q : α → Compiler → Prop}
    (hQ : ∀ b c', Fit T c'.stack → Frame c c' → Q b c') :
    wp (releaseReg r >>= k) Q { c with asm := a } :=
  wp_releaseTemp h hr fun c₁ h₁ hf₁ => hk () c₁ Q fun b s => hQ b { c₁ with asm := s } h₁ hf₁

theorem quiet_truncUnsignedInRange (input : FloatType) (output : IntType) (src dst limit : Reg)
    (done : Nat) : Quiet (truncUnsignedInRange input output src dst limit done) := by
  unfold truncUnsignedInRange
  dsimp only [setFloatBits]
  repeat' with_reducible first
    | exact Quiet.asm' _
    | refine Quiet.bind ?_ fun _ => ?_
    | refine Quiet.ite' ?_ ?_

theorem wp_truncUnsigned (h : Fit T c.stack) (hcard : T.card < 9) (input : FloatType)
    (output : IntType) (saturating : Bool) (src dst : Reg) {Q : Unit → Compiler → Prop}
    (hQ : ∀ c', Fit T c'.stack → Frame c c' → Q () c') :
    wp (truncUnsigned input output saturating src dst) Q { c with asm := a } := by
  unfold truncUnsigned
  dsimp only [setFloatBits, saturateOrTrap]
  simp only [bind_assoc]
  iterate 4 refine wp_asm_bind fun _ _ => ?_
  rw [wp_bind]
  refine wp_allocate h (h.room_free hcard) fun limit c₁ h₁ hlim _ _ hf₁ => ?_
  repeat' with_reducible first
    | exact Quiet.asm' _
    | exact quiet_exit _
    | refine Quiet.bind ?_ fun _ => ?_
    | refine Quiet.ite' ?_ ?_
    | refine wp_asm_bind fun _ _ => ?_
    | refine (quiet_exit _).wp_then fun _ _ => ?_
    | refine (quiet_truncUnsignedInRange _ _ _ _ _ _).wp_then fun _ _ => ?_
    | refine wp_releaseReg_quiet h₁ hlim (fun _ => ?_) fun _ c' h' hf' => hQ c' h' (hf₁.trans hf')

theorem wp_truncToInt (h : Sound c) (input : FloatType) (output : IntType) (saturating : Bool)
    (hQ : ∀ c', Sound c' → Frame c c' → Q () c') :
    wp (truncToInt input output saturating) Q { c with asm := a } := by
  unfold truncToInt
  rw [wp_bind]
  refine wp_popOperand h fun x _ src c₁ _ h₁ hf₁ => ?_
  rw [wp_bind, wp_regOf (Location.setRegister_reg x src), wp_bind]
  refine wp_allocate (a := c₁.asm) h₁ (h₁.room_free (by simp)) fun dst c₂ h₂ hdst _ _ hf₂ => ?_
  have hrest : ∀ c', Fit {dst, src} c'.stack → Frame c₂ c' →
      wp (release (x.setRegister src) >>= fun _ =>
        pushRegister dst (if output.is32 then .i32 else .i64)) Q c' := fun c' h' hf' =>
    wp_releasePush (a := c'.asm) h h' (hf₁.trans (hf₂.trans hf'))
      (by simpa using hdst) (Location.setRegister_reg x src) (by split <;> decide) hQ
  lift_lets
  intro jp
  refine wp_ite.mpr ⟨fun _ => ?_, fun _ => ?_⟩
  · exact (quiet_truncSigned _ _ _ _ _).wp_then fun _ _ => hrest _ h₂ Frame.rfl'
  · rw [wp_bind]
    exact wp_truncUnsigned h₂ (by have := Finset.card_le_two (a := dst) (b := src); omega) _ _ _ _ _
      fun c' h' hf' => hrest c' h' hf'

theorem wp_signMask (h : Sound c) (t : FloatType) (isAbs : Bool)
    (hQ : ∀ c', Sound c' → Frame c c' → Q () c') :
    wp (signMask t isAbs) Q { c with asm := a } := by
  unfold signMask
  rw [wp_bind]
  refine wp_popOperand h fun x _ r c₁ hx h₁ hf₁ => ?_
  rw [wp_bind, wp_regOf (Location.setRegister_reg x r)]
  lift_lets
  refine wp_ite.mpr ⟨fun _ => ?_, fun _ => ?_⟩ <;> rw [wp_bind] <;>
    refine wp_floatConst h₁ (by simp) _ _ fun mask c₂ h₂ hmask _ hf₂ => ?_ <;>
    refine wp_asm_bind fun _ _ => ?_ <;>
    exact wp_releaseTemp h₂ hmask fun c₃ h₃ hf₃ =>
      wp_pushResult h h₃ (hf₁.trans (hf₂.trans hf₃)) (by simpa using hx.whole) hQ

theorem wp_minMax (h : Sound c) (t : FloatType) (isMin : Bool)
    (hQ : ∀ c', Sound c' → Frame c c' → Q () c') :
    wp (minMax t isMin) Q { c with asm := a } := by
  unfold minMax
  dsimp only
  rw [wp_bind]
  refine wp_popTwo h fun x₁ x₂ r₁ r₂ c₁ hx₁ hx₂ hne ht h₁ hf₁ => ?_
  rw [wp_bind, wp_regOf hx₁, wp_bind, wp_regOf hx₂]
  have hrest := fun s => wp_releasePush (a := s) h h₁ hf₁ hne hx₂ ht hQ
  repeat' with_reducible first
    | exact hrest _
    | refine wp_asm_bind fun _ _ => ?_
    | refine wp_ite.mpr ⟨fun _ => ?_, fun _ => ?_⟩

theorem wp_copysign (h : Sound c) (t : FloatType)
    (hQ : ∀ c', Sound c' → Frame c c' → Q () c') :
    wp (copysign t) Q { c with asm := a } := by
  unfold copysign
  dsimp only
  rw [wp_bind]
  refine wp_popTwo h fun x₁ x₂ r₁ r₂ c₁ hx₁ hx₂ hne ht h₁ hf₁ => ?_
  rw [wp_bind, wp_regOf hx₁, wp_bind, wp_regOf hx₂, wp_bind]
  refine wp_floatConst (a := c₁.asm) h₁ (card_pair_lt r₁ r₂ (n := 0) (by omega)) _ _
    fun mask c₂ h₂ hmask _ hf₂ => ?_
  iterate 3 refine wp_asm_bind fun _ _ => ?_
  rw [wp_bind]
  refine wp_release_temp h₂ hx₁ (by simp) fun c₃ h₃ hf₃ => ?_
  rw [wp_bind]
  refine wp_release_temp h₃ hx₂ (by simp [Ne.symm hne]) fun c₄ h₄ hf₄ => ?_
  have hmask' : (({mask, r₁, r₂} : Finset Reg).erase r₁).erase r₂ = {mask} := by
    ext r
    simp only [Finset.mem_erase, Finset.mem_insert, Finset.mem_singleton]
    grind
  rw [hmask'] at h₄
  exact wp_pushResult h h₄ (hf₁.trans (hf₂.trans (hf₃.trans hf₄))) ht hQ

theorem wp_reinterpret (h : Sound c) {target : SlotType} (ht : target ≠ .v128hi)
    (hQ : ∀ c', Sound c' → Frame c c' → Q () c') :
    wp (reinterpret target) Q { c with asm := a } := by
  unfold reinterpret
  rw [wp_bind]
  refine wp_popOperand h fun x _ src c₁ _ h₁ hf₁ => ?_
  rw [wp_bind, wp_regOf (Location.setRegister_reg x src), wp_bind]
  refine wp_allocate (a := c₁.asm) h₁ (h₁.room_free (by simp)) fun dst c₂ h₂ hdst _ _ hf₂ => ?_
  lift_lets
  intro _ jp
  have hrest := fun s => wp_releasePush (a := s) h h₂ (hf₁.trans hf₂) (by simpa using hdst)
    (Location.setRegister_reg x src) ht hQ
  split <;> exact wp_asm_bind fun _ s => hrest s

theorem wp_convertFromInt (h : Sound c) (input : IntType) (output : FloatType)
    (hQ : ∀ c', Sound c' → Frame c c' → Q () c') :
    wp (convertFromInt input output) Q { c with asm := a } := by
  unfold convertFromInt
  dsimp only
  rw [wp_bind]
  refine wp_popOperand h fun x _ src c₁ _ h₁ hf₁ => ?_
  rw [wp_bind, wp_regOf (Location.setRegister_reg x src), wp_bind]
  refine wp_allocate (a := c₁.asm) h₁ (h₁.room_free (by simp)) fun dst c₂ h₂ hdst _ _ hf₂ => ?_
  have hrest := fun s => wp_releasePush (a := s) h h₂ (hf₁.trans hf₂) (by simpa using hdst)
    (Location.setRegister_reg x src) (t := if output.is32 then .f32 else .f64)
    (by split <;> decide) hQ
  cases input <;> repeat' with_reducible first
    | exact hrest _
    | refine wp_asm_bind fun _ _ => ?_

theorem wp_shift (h : Sound c) (is32 : Bool) (op : ShiftOp)
    (hQ : ∀ c', Sound c' → Frame c c' → Q () c') :
    wp (shift is32 op) Q { c with asm := a } := by
  unfold shift
  refine wp_popFixed h.fit (by decide) fun x₁ _ c₁ _ h₁ hf₁ => ?_
  refine wp_popDetached (a := c₁.asm) h₁ (E := {rcx})
    (fun r hr => by simpa using RegSet.mem_of_contains_ofList hr) (by simp)
    fun x₂ _ r c₂ ht₂ hr _ h₂ hf₂ => ?_
  rw [Finset.insert_empty] at h₂ hr
  rw [wp_bind, wp_regOf (Location.setRegister_reg x₂ r)]
  exact wp_asm_bind fun _ _ => wp_releasePush h h₂ (hf₁.trans hf₂) (by simpa using hr)
    (Location.setRegister_reg x₁ rcx) (by simpa using ht₂.whole) hQ

theorem wp_div (h : Sound c) (t : CmpType) (hQ : ∀ c', Sound c' → Frame c c' → Q () c') :
    wp (div t) Q { c with asm := a } := by
  unfold div
  cases t
  case s32 | u32 | s64 | u64 => exact wp_intDivision h _ _ hQ
  all_goals
    dsimp only
    rw [wp_bind]
    refine wp_popTwo h fun x₁ x₂ r₁ r₂ c₁ hx₁ hx₂ hne ht h₁ hf₁ => ?_
    rw [wp_bind, wp_regOf hx₁, wp_bind, wp_regOf hx₂]
    exact wp_asm_bind fun _ _ => wp_releasePush h h₁ hf₁ hne hx₂ ht hQ

end OnePassJit.Amd64.Lower
