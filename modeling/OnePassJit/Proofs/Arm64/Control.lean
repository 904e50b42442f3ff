import OnePassJit.Proofs.Arm64.Primitives
import OnePassJit.Proofs.Branches
import OnePassJit.Proofs.Run

/-!
Function entry and exit, labels, branches, calls and stack shuffling on arm64 keep the
value stack laid out, with a comparison left in the flags only as the top value.

Between two operations the compiler is `Sound`: its stack is laid out with no temporaries
and keeps a flag only at the top, and every entry stack its labels keep is laid out with no
flag at all, since a branch first gives a flag a register. Popping the top value leaves no
flag below it (`FlagTop.below`), so an operation that pops its operands may push a result
anywhere; one that pushes without popping first gives the top flag a register.

As on amd64, only branches and labels touch the label table: a branch records the stack it
jumps with (`Branched`), and an operation grows the table at its own targets (`Grown`).
-/

namespace OnePassJit.Arm64.Lower

open ValueStack StackM

variable {α : Type} {c : Compiler} {a : Encoder} {T : Finset Reg} {Q : α → Compiler → Prop}

/-- What holds of the compiler between two operations. -/
structure Sound (c : Compiler) : Prop where
  fit : Fit ∅ c.stack
  flagTop : FlagTop c.stack
  entries : c.labels.Entries (fun s => Fit ∅ s ∧ NoFlags s)

theorem Sound.of_frame (h : Sound c) {c' : Compiler} (h' : Fit ∅ c'.stack)
    (hn : FlagTop c'.stack) (hf : Frame c c') : Sound c' :=
  ⟨h', hn, by rw [hf.1]; exact h.entries⟩

theorem wp_pushRegister_sound {c₀ : Compiler} (h₀ : Sound c₀) {r : Reg} (h : Fit T c.stack)
    (hn : NoFlags c.stack) (hT : T = {r}) (hf : Frame c₀ c) {t : SlotType} (ht : t ≠ .v128hi) :
    wp (pushRegister r t) (fun _ => Sound) { c with asm := a } :=
  wp_pushRegister h (by simp [hT]) ht fun c' h' hc' hf' =>
    h₀.of_frame (by simpa [hT] using h') (by rw [hc']; exact hn.pushReg.flagTop) (hf.trans hf')

theorem wp_pushFlag_sound {c₀ : Compiler} (h₀ : Sound c₀) (h : Fit T c.stack)
    (hn : NoFlags c.stack) (hT : T = ∅) (hf : Frame c₀ c) (f : Flag) :
    wp (pushFlag f) (fun _ => Sound) { c with asm := a } :=
  wp_pushFlag h f fun _ h' hc' hf' =>
    h₀.of_frame (hT ▸ h') (by rw [hc']; exact hn.pushFlag) (hf.trans hf')

theorem Quiet.wp_then {β : Type} {m : LowerM β} {k : β → LowerM α} {Q : α → Compiler → Prop}
    (hm : Quiet m) (hk : ∀ b s, wp (k b) Q { c with asm := s }) : wp (m >>= k) Q c := by
  rw [wp_bind]
  exact hm c _ hk

theorem quiet_fn : Quiet fn := fun c _ hQ => hQ c.fn c.asm

theorem Quiet.mapM_list {β γ : Type} (xs : List γ) {f : γ → LowerM β} (hf : ∀ x, Quiet (f x)) :
    Quiet (xs.mapM f) := by
  induction xs with
  | nil => exact Quiet.pure' []
  | cons x xs ih =>
    rw [List.mapM_cons]
    exact Quiet.bind (hf x) fun _ => Quiet.bind ih fun _ => Quiet.pure' _

/-- `c'` keeps the stack, the function and every entry the labels of `c` record; only `l`
may be newly reached, by a native handle. -/
structure Relabel (l : Label) (c c' : Compiler) : Prop where
  stack : c'.stack = c.stack
  fn : c'.fn = c.fn
  entryOf : ∀ l', c'.labels.entryOf l' = c.labels.entryOf l'
  entries : ∀ P, c.labels.Entries P → c'.labels.Entries P
  grows : ∀ P, c.labels.Grows (· = l) P c'.labels

theorem wp_nativeLabel (l : Label) {Q : Nat → Compiler → Prop}
    (hQ : ∀ n c', Relabel l c c' → Q n c') : wp (nativeLabel l) Q c := by
  unfold nativeLabel
  simp only [wp_bind, wp_get]
  split
  · exact hQ _ c ⟨rfl, rfl, fun _ => rfl, fun _ hP => hP, fun _ => .of_eq rfl⟩
  · simp only [wp_bind, wp_asm, wp_modify, wp_pure]
    intro n s _
    exact hQ n _ ⟨rfl, rfl, LabelTable.entryOf_nativeOrInsert n, fun _ hP => hP.nativeOrInsert n,
      fun _ => .nativeOrInsert n⟩

/-- A lowering that may branch: it keeps the function and grows the label table with settled
entries, reaching labels in `T` only. -/
structure Grown (T : Label → Prop) (c c' : Compiler) : Prop where
  fn : c'.fn = c.fn
  grows : c.labels.Grows T (Settled c.fn.labelCallers) c'.labels

theorem Grown.of_frame {T : Label → Prop} {c' : Compiler} (h : Frame c c') : Grown T c c' :=
  ⟨h.2, .of_eq h.1⟩

theorem Grown.trans {T T' : Label → Prop} {c' c'' : Compiler} (h₁ : Grown T c c')
    (h₂ : Grown T' c' c'') : Grown (fun l => T l ∨ T' l) c c'' := by
  refine ⟨h₂.fn.trans h₁.fn, h₁.grows.trans ?_⟩
  rw [← h₁.fn]
  exact h₂.grows

theorem Grown.mono {T T' : Label → Prop} {c' : Compiler} (h : Grown T c c')
    (hT : ∀ l, T l → T' l) : Grown T' c c' :=
  ⟨h.fn, h.grows.mono hT⟩

/-- What a branch to `l` leaves: a table grown at `l`, and unless `l` is the return, the stack
it jumps with recorded as `l`'s entry where no earlier branch recorded one, and settled. -/
structure Branched (c : Compiler) (l : Label) (c' : Compiler) : Prop
    extends Grown (· = l) c c' where
  entry : l.isReturn = false → c'.labels.entryOf l = (c.labels.entryOf l <|> some c'.stack)
  settled : l.isReturn = false → Settled c.fn.labelCallers l c'.stack

theorem Branched.of_frame {l : Label} {c₁ c' : Compiler} (hf : Frame c c₁)
    (h : Branched c₁ l c') : Branched c l c' := by
  obtain ⟨hl, hfn⟩ := hf
  obtain ⟨⟨hfn', hg⟩, he, hs⟩ := h
  rw [hl] at hg he
  rw [hfn] at hg hs
  exact ⟨⟨hfn'.trans hfn, hg⟩, he, hs⟩

theorem Branched.of_return {l : Label} {c' : Compiler} (hf : Frame c c') (hl : l.isReturn = true) :
    Branched c l c' :=
  ⟨.of_frame hf, fun h => absurd hl (by simp [h]), fun h => absurd hl (by simp [h])⟩

theorem wp_emitStackCheck {Q : Unit → Compiler → Prop}
    (hQ : ∀ c', c'.stack = c.stack → Frame c c' → Q () c') : wp emitStackCheck Q c := by
  unfold emitStackCheck loadCtx
  simp only [wp_bind, wp_asm, wp_modify]
  intros
  refine quiet_callBuiltin _ _ _ fun _ _ => ?_
  simp only
  intros
  exact hQ _ rfl ⟨rfl, rfl⟩

theorem wp_preamble (hg : c.stack.gpPool = gpPool) (hv : c.stack.vecPool = vecPool)
    {Q : Unit → Compiler → Prop}
    (hQ : ∀ c', Fit ∅ c'.stack → NoFlags c'.stack → Frame c c' → Q () c') :
    wp preamble Q c := by
  unfold preamble
  simp only [wp_bind, wp_fn, wp_stk]
  intro _ s hinit
  refine quiet_initModuleContext _ _ fun _ _ => ?_
  refine wp_emitStackCheck fun c₂ hc₂ hf₂ => ?_
  rw [wp_get]
  refine wp_ite_prefix (quiet_callBuiltin _) fun _ => ?_
  rw [wp_bind]
  refine quiet_initStackBase _ _ fun _ _ => ?_
  refine quiet_initMemory _ _ fun _ _ => hQ _ ?_ ?_ hf₂
  · rw [hc₂]
    exact init_laid hinit hg hv
  · rw [hc₂]
    exact noFlags_init hinit

theorem wp_emitReturn (h : Fit T c.stack) (hcard : T.card < 9) {Q : Unit → Compiler → Prop}
    (hQ : ∀ c', Fit T c'.stack → NoFlags c'.stack → Frame c c' → Q () c') :
    wp emitReturn Q { c with asm := a } := by
  unfold emitReturn
  rw [wp_bind]
  refine wp_releaseAllToStack h hcard fun c₁ h₁ _ him₁ hf₁ => ?_
  have hend : ∀ s, wp (asm (Enc.br scratch0)) Q { c₁ with asm := s } := fun _ =>
    Quiet.asm' _ _ _ fun _ _ => hQ _ h₁ him₁.noFlags hf₁
  repeat' with_reducible first
    | exact hend _
    | refine wp_asm_bind fun _ _ => ?_
    | refine Quiet.get'.wp_then fun _ _ => ?_
    | refine quiet_fn.wp_then fun _ _ => ?_
    | refine (quiet_slot _).wp_then fun _ _ => ?_
    | refine (quiet_exit _).wp_then fun _ _ => ?_
    | refine (quiet_storeCtx _ _).wp_then fun _ _ => ?_
    | refine wp_ite_prefix (quiet_callBuiltin _) fun _ => ?_

theorem Fit.adopt {s : ValueStack} (h : Fit T s) (s' : ValueStack) : Fit T (s'.adopt s) :=
  ⟨{ toBlock := h.1.toBlock, used_iff := h.1.used_iff, temp_free := h.1.temp_free }, h.2⟩

theorem wp_bindLabel (h : Sound c) (l : Label) :
    wp (bindLabel l) (fun dead c' => Sound c' ∧ c'.fn = c.fn ∧
      (∀ P, c.labels.Grows (fun _ => False) P c'.labels) ∧
      ∀ s, c.labels.entryOf l = some s → dead = false ∧ c'.stack = c.stack.adopt s) c := by
  unfold bindLabel
  obtain ⟨hlabels, hentry⟩ := h.entries.resolve (l := l)
  simp only [wp_bind, wp_get, wp_modify]
  split
  · rename_i hnone
    refine ⟨⟨h.fit, h.flagTop, hlabels⟩, rfl, fun _ => .resolve, fun s hs => ?_⟩
    rw [LabelTable.resolve_fst] at hnone
    simp [hnone] at hs
  · rename_i s hs
    rw [wp_bind]
    refine wp_nativeLabel l fun n c' hc' => ?_
    simp only [wp_bind, wp_asm, wp_modify, wp_pure]
    intro _ _ _
    have hs' : c.labels.entryOf l = some s := LabelTable.resolve_fst ▸ hs
    refine ⟨⟨(hentry s hs).1.adopt _, (hentry s hs).2.flagTop, hc'.entries _ hlabels⟩, hc'.fn,
      fun _ => (LabelTable.Grows.resolve.trans (hc'.grows _)).of_reached fun l' hl' => ?_,
      fun s' hs'' => ⟨trivial, by rw [hc'.stack, ← Option.some.inj (hs'.symm.trans hs'')]⟩⟩
    rcases hl' with hl' | hl'
    · exact hl'.elim
    · exact hl' ▸ LabelTable.Reached.of_entryOf hs'

theorem wp_jumpTo (target : Label) (h : Fit ∅ c.stack) (hn : NoFlags c.stack)
    (he : c.labels.Entries (fun s => Fit ∅ s ∧ NoFlags s))
    (hs : Settled c.fn.labelCallers target c.stack)
    {Q : Unit → Compiler → Prop} (hQ : ∀ c', Sound c' → Branched c target c' → Q () c') :
    wp (do
      modify fun c => { c with labels := c.labels.setEntryIfAbsent target c.stack }
      let native ← nativeLabel target
      asm (Enc.b native)) Q c := by
  simp only [wp_bind, wp_modify]
  refine wp_nativeLabel target fun n c' hc' => ?_
  rw [wp_asm]
  intro _ _ _
  refine hQ _ ⟨by rw [hc'.stack]; exact h, by rw [hc'.stack]; exact hn.flagTop,
      hc'.entries _ (he.setEntryIfAbsent ⟨h, hn⟩)⟩
    ⟨⟨hc'.fn, ((LabelTable.Grows.setEntryIfAbsent hs).trans (hc'.grows _)).mono ?_⟩,
      fun _ => ?_, fun _ => by rw [hc'.stack]; exact hs⟩
  · intro l hl
    exact hl.elim id id
  · rw [hc'.entryOf, hc'.stack]
    exact LabelTable.entryOf_setEntryIfAbsent _

theorem wp_branchInto (h : Sound c) (target : Label) {Q : Unit → Compiler → Prop}
    (hQ : ∀ c', Sound c' → Branched c target c' → Q () c') :
    wp (branchInto target) Q { c with asm := a } := by
  unfold branchInto
  rw [wp_bind]
  refine wp_materializeTopFlag h.fit (by simp) fun c₁ h₁ hm₁ hf₁ htop => ?_
  have hn₁ : NoFlags c₁.stack := (hm₁.flagTop h.flagTop).noFlags htop
  have he₁ : c₁.labels.Entries (fun s => Fit ∅ s ∧ NoFlags s) := by
    rw [hf₁.1]
    exact h.entries
  rw [wp_ite]
  refine ⟨fun hret =>
    wp_emitReturn (c := c₁) (a := c₁.asm) h₁ (by simp) fun c' h' hn' hf' => ?_, fun _ => ?_⟩
  · exact hQ c' ⟨h', hn'.flagTop, by rw [hf'.1]; exact he₁⟩ (.of_return (hf₁.trans hf') hret)
  · rw [wp_bind, wp_fn, wp_ite]
    refine ⟨fun _ => ?_, fun hone => wp_jumpTo target h₁ hn₁ he₁ (fun hlt => absurd hlt hone)
      fun c' hc' hb => hQ c' hc' (hb.of_frame hf₁)⟩
    rw [wp_bind]
    refine wp_releaseAllToStack (c := c₁) (a := c₁.asm) h₁ (by simp)
      fun c₂ h₂ _ him₂ hf₂ => ?_
    refine wp_jumpTo target h₂ him₂.noFlags (by rw [hf₂.1]; exact he₁) (fun _ => him₂)
      fun c' hc' hb => ?_
    exact hQ c' hc' ((hb.of_frame hf₂).of_frame hf₁)

theorem wp_dropRange (h : Fit T c.stack) (hn : FlagTop c.stack) (hcard : T.card < 9)
    {r : Option DropRange} (hw : DropRange.Whole c.stack.slots r) {Q : Unit → Compiler → Prop}
    (hQ : ∀ c', Fit T c'.stack → FlagTop c'.stack → Frame c c' → Q () c') :
    wp (dropRange r) Q { c with asm := a } := by
  cases r with
  | none => exact hQ _ h hn Frame.rfl'
  | some r =>
    obtain ⟨hlive, hdrop⟩ := hw
    unfold dropRange
    rw [wp_ite]
    refine ⟨fun hz => ?_, fun _ => ?_⟩
    · -- dropping from the top: the slots are discarded one by one
      refine wp_discardSlots _ fun c' heq hused hf =>
        hQ c' (h.discard ?_ heq hused) (by rw [heq]; exact hn.extract _ _) hf
      rcases DropRange.len_of_start_zero (beq_iff_eq.mp hz) with hl | hl
      · rw [hl, show c.stack.sp - (r.stop.toNat + 1) = c.stack.slots.size - 1 - r.stop.toNat by
          simp only [ValueStack.sp]; omega]
        exact hdrop
      · rw [hl, Nat.sub_zero]
        intro l hl'
        simp [ValueStack.sp] at hl'
    · -- dropping below live values: those in memory are copied down
      rw [wp_bind]
      refine wp_materializeTopFlag h hcard fun c₁ h₁ hm₁ hf₁ htop => ?_
      have hn₁ : NoFlags c₁.stack := (hm₁.flagTop hn).noFlags htop
      simp only [wp_bind, wp_stk]
      intro moves s hok
      have hs : Fit T s := by
        refine ⟨h₁.1.dropRange hok ?_ ?_, ?_⟩
        · rw [hm₁.sp_eq]
          exact hm₁.notHiAt hlive
        · rw [hm₁.sp_eq]
          exact hm₁.notHiAt hdrop
        · obtain ⟨-, -, u, rfl, -⟩ := StackM.dropRange_ok hok
          exact h₁.2
      refine Quiet.forIn_list moves () (fun m _ => Quiet.bind (quiet_slot _) fun _ =>
        Quiet.bind (Quiet.asm' _) fun _ => Quiet.bind (quiet_slot _) fun _ =>
          Quiet.bind (Quiet.asm' _) fun _ => Quiet.pure' _)
        _ _ fun _ _ => hQ _ hs (hn₁.of_dropRange hok).flagTop hf₁

theorem wp_brIf (h : Sound c) {t e : BranchTarget}
    (hw : (Operation.brIf t e).ReadsWhole c.fn.module c.stack.slots) {Q : Unit → Compiler → Prop}
    (hQ : ∀ c', Sound c' → Grown (· ∈ (Operation.brIf t e).branchLabels) c c' → Q () c') :
    wp (brIf t e) Q { c with asm := a } := by
  obtain ⟨hcond, hwt, hwe⟩ := hw
  unfold brIf
  simp -zeta only [wp_bind]
  rw [wp_stk]
  intro cond s hpop
  obtain ⟨hl, rfl⟩ := StackM.pop_ok hpop
  have hhi : cond.type ≠ .v128hi := hcond cond (by rwa [← Array.back?_eq_getElem?])
  have h₀ : Fit (∅ ∪ cond.reg.toFinset) { c.stack with slots := c.stack.slots.pop } :=
    ⟨h.fit.1.popTop hl hhi, h.fit.2⟩
  have hn₀ : NoFlags { c.stack with slots := c.stack.slots.pop } := h.flagTop.pop
  rw [wp_asm]
  intro stub _ _
  lift_lets
  intro jp
  have hjp : ∀ c₂ u, Fit ∅ c₂.stack → c₂.labels.Entries (fun s => Fit ∅ s ∧ NoFlags s) →
      Frame c c₂ → Moves { c.stack with slots := c.stack.slots.pop } c₂.stack →
      wp (jp u) Q c₂ := by
    intro c₂ u h₂ he₂ hf₂ hm₂
    have hn₂ : FlagTop c₂.stack := (hm₂.noFlags hn₀).flagTop
    simp only [jp, wp_bind, wp_get]
    refine wp_dropRange (c := c₂) (a := c₂.asm) h₂ hn₂ (by simp) (hwe.moves hm₂)
      fun c₃ h₃ hn₃ hf₃ => ?_
    refine wp_branchInto ⟨h₃, hn₃, by rw [hf₃.1]; exact he₂⟩ e.label fun c₄ h₄ hb₄ => ?_
    simp only [wp_modify, wp_asm]
    intro _ s₄ _
    refine wp_dropRange (c := { c₄ with stack := c₂.stack }) (a := s₄) h₂ hn₂ (by simp)
      (hwt.moves hm₂) fun c₅ h₅ hn₅ hf₅ => ?_
    refine wp_branchInto ⟨h₅, hn₅, by rw [hf₅.1]; exact h₄.entries⟩ t.label
      fun c₆ h₆ hb₆ => ?_
    refine hQ c₆ h₆ ((((Grown.of_frame (T := fun _ => False) (hf₂.trans hf₃)).trans
      hb₄.toGrown).trans (hb₆.of_frame (c := c₄) hf₅).toGrown).mono fun l hl => ?_)
    simp only [Operation.branchLabels, List.mem_cons, List.not_mem_nil, or_false]
    rcases hl with (hl | hl) | hl
    · exact hl.elim
    · exact .inr hl
    · exact .inl hl
  have hl' : c.stack.slots[c.stack.slots.size - 1]? = some cond := by
    rwa [← Array.back?_eq_getElem?]
  split
  · -- a condition in the flags holds no register
    rename_i f hf
    have hreg : cond.reg = none := (h.fit.1.flagged hl' (by rw [hf]; rfl)).1
    rw [wp_bind, wp_asm]
    intro u _ _
    exact hjp _ u (by simpa [hreg] using h₀) h.entries Frame.rfl' (Moves.refl _)
  · rename_i hf
    rw [wp_bind]
    have hcard : (∅ ∪ cond.reg.toFinset).card + (∅ : Finset Reg).card < 9 := by
      have := card_union_reg ∅ cond
      simp only [Finset.card_empty] at this ⊢
      omega
    refine wp_loadDetached (c := { c with stack := { c.stack with slots := c.stack.slots.pop } })
      h₀ (by simp) hcard (fun r hr => by simp [hr]) (fun hs => by simp [hf] at hs)
      fun r c₁ h₁ _ _ hs₁ hf₁ => ?_
    rw [wp_bind, wp_regOf (Location.setRegister_reg cond r), wp_bind, wp_asm]
    intro _ s₂ _
    rw [wp_bind]
    refine wp_release (c := c₁) (a := s₂) h₁ (fun r' hr' => ?_) fun c₂ h₂ hs₂ hf₂ => ?_
    · simp only [Location.setRegister_reg, Option.some.injEq] at hr'
      exact h₁.1.temp_free r' (hr' ▸ Finset.mem_insert_self _ _)
    · have h₂' : Fit ∅ c₂.stack := by simpa using h₂
      exact hjp _ () h₂' (by rw [hf₂.1, hf₁.1]; exact h.entries) (hf₁.trans hf₂)
        (hs₁.moves.trans hs₂.moves)

theorem wp_brTable (h : Sound c) {ts : List BranchTarget} {d : BranchTarget}
    (hw : (Operation.brTable ts d).ReadsWhole c.fn.module c.stack.slots)
    {Q : Unit → Compiler → Prop}
    (hQ : ∀ c', Sound c' → Grown (· ∈ (Operation.brTable ts d).branchLabels) c c' → Q () c') :
    wp (brTable ts d) Q { c with asm := a } := by
  obtain ⟨hidx, hwt⟩ := hw
  unfold brTable
  rw [wp_bind]
  refine wp_popToRegister h.fit (by simp) fun x n r c₁ ht hs₁ hr₁ h₁ hf₁ => ?_
  have hpop : c.stack.below n = { c.stack with slots := c.stack.slots.pop } :=
    (h.fit.1.topAt_scalar ht hidx).2
  have hn₁ : NoFlags c₁.stack := hs₁.moves.noFlags (h.flagTop.below ht)
  have hw₁ : ∀ t ∈ ts ++ [d], DropRange.Whole c₁.stack.slots t.drop := fun t ht' =>
    (hwt t ht').moves (hpop ▸ hs₁.moves)
  have he₁ : c₁.labels.Entries (fun s => Fit ∅ s ∧ NoFlags s) := by
    rw [hf₁.1]
    exact h.entries
  rw [wp_ite]
  refine ⟨fun _ => ?_, fun _ => ?_⟩
  · rw [wp_bind]
    refine wp_release (c := c₁) (a := c₁.asm) h₁ (fun r' hr' => ?_) fun c₂ h₂ hs₂ hf₂ => ?_
    · simp only [Location.setRegister_reg, Option.some.injEq] at hr'
      exact h₁.1.temp_free r' (hr' ▸ Finset.mem_insert_self _ _)
    have h₂' : Fit ∅ c₂.stack := by simpa using h₂
    rw [wp_bind]
    refine wp_dropRange (c := c₂) (a := c₂.asm) h₂' (hs₂.moves.noFlags hn₁).flagTop (by simp)
      ((hw₁ d (by simp)).moves hs₂.moves) fun c₃ h₃ hn₃ hf₃ => ?_
    refine wp_branchInto ⟨h₃, hn₃, by rw [hf₃.1, hf₂.1]; exact he₁⟩ d.label
      fun c₄ h₄ hb₄ => ?_
    refine hQ c₄ h₄ ((hb₄.of_frame (hf₁.trans (hf₂.trans hf₃))).toGrown.mono fun l hl => ?_)
    simp [Operation.branchLabels, hl]
  · rw [wp_bind, wp_regOf (Location.setRegister_reg x r)]
    simp only [wp_bind, wp_asm]
    intros
    refine wp_releaseReg h₁ (h₁.1.temp_free r (Finset.mem_insert_self _ _))
      fun c₂ h₂ hc₂ hf₂ => ?_
    rw [Finset.erase_insert hr₁] at h₂
    have hm₂ : Moves c₁.stack c₂.stack := by
      rw [hc₂]
      exact Moves.of_used _
    refine Quiet.mapM_list _ (fun _ => Quiet.asm' _) c₂ _ fun stubs _ => ?_
    intro _ _ _
    rw [wp_get]
    refine (wp_forIn_list _ _ _
      (fun (rest : List (BranchTarget × Nat)) _ c' =>
        (∀ y ∈ rest, y.1 ∈ ts ++ [d] ∧ DropRange.Whole c₂.stack.slots y.1.drop) ∧
        Sound c' ∧ Grown (· ∈ (Operation.brTable ts d).branchLabels) c c') ?_ ?_).mono
      fun _ c' hc' => (wp_pure _).mpr (hQ c' hc'.2.1 hc'.2.2)
    · rintro y rest _ c₅ ⟨hwy, hs₅, hg⟩
      simp only [wp_bind, wp_modify, wp_asm]
      intro _ s₅ _
      refine wp_dropRange (c := { c₅ with stack := c₂.stack }) (a := s₅) h₂
        (hm₂.noFlags hn₁).flagTop (by simp) (hwy y (List.mem_cons_self ..)).2
        fun c₆ h₆ hn₆ hf₆ => ?_
      refine wp_branchInto ⟨h₆, hn₆, by rw [hf₆.1]; exact hs₅.entries⟩ y.1.label
        fun c₇ h₇ hb₇ => ?_
      refine ⟨fun z hz => hwy z (List.mem_cons_of_mem _ hz), h₇,
        (hg.trans (hb₇.of_frame (c := c₅) hf₆).toGrown).mono fun l hl => ?_⟩
      rcases hl with hl | hl
      · exact hl
      · exact hl ▸ Operation.label_mem_brTable (hwy y (List.mem_cons_self ..)).1
    · refine ⟨fun y hy => ?_, ⟨h₂, (hm₂.noFlags hn₁).flagTop, ?_⟩,
        .of_frame (hf₁.trans hf₂)⟩
      · have hy' := (List.of_mem_zip hy).1
        exact ⟨hy', (hw₁ y.1 hy').moves hm₂⟩
      · rw [hf₂.1]
        exact he₁

theorem wp_emitCall (h : Fit T c.stack) {callee : Signature} {target : CallTarget}
    (hT : match target with
      | .direct _ => T = ∅
      | .indirect r => T = {r})
    (hcut : NotHiAt c.stack.slots (c.stack.sp - callee.paramSlots))
    {Q : Unit → Compiler → Prop}
    (hQ : ∀ c', Fit ∅ c'.stack → NoFlags c'.stack → Frame c c' → Q () c') :
    wp (emitCall callee target) Q { c with asm := a } := by
  have hcard : T.card ≤ 1 := by
    cases target with
    | direct _ => simp only at hT; simp [hT]
    | indirect r => simp only at hT; simp [hT]
  unfold emitCall
  simp -zeta only [wp_bind]
  refine wp_releaseAllToStack h (by omega) fun c₁ h₁ hm₁ him₁ hf₁ => ?_
  lift_lets
  intro jp
  have hjp : ∀ function c₃, Fit {function} c₃.stack → NoFlags c₃.stack →
      NotHiAt c₃.stack.slots (c₃.stack.sp - callee.paramSlots) → Frame c c₃ →
      wp (jp function) Q c₃ := by
    intro function c₃ h₃ hn₃ hcut₃ hf₃
    simp -zeta only [jp, wp_bind, wp_get]
    lift_lets
    intro sp nextBase jp₂
    rw [wp_ite]
    refine ⟨fun _ => by simp [wp_bind], fun hsp => ?_⟩
    simp -zeta only [jp₂, wp_bind]
    rw [wp_stk]
    intro frame s hpush
    have hs : Fit {function} s := keeps_pushCallFrame callee _ _ _ h₃ hpush
    have hns : NoFlags s :=
      Keeps.pushCallFrame callee (keeps_noFlags_pushOnStack _) (keeps_noFlags_pushOnStack _)
        _ _ _ hn₃ hpush
    have hcs : NotHiAt s.slots nextBase ∧ nextBase ≤ s.sp :=
      keeps_cut_pushCallFrame callee nextBase _ _ _ ⟨hcut₃, by omega⟩ hpush
    lift_lets
    intro jp₃
    have hjp₃ : ∀ u x, wp (jp₃ u) Q { c₃ with stack := s, asm := x } := by
      intro u x
      simp -zeta only [jp₃]
      repeat' with_reducible first
        | refine wp_asm_bind fun _ _ => ?_
        | refine (quiet_slot _).wp_then fun _ _ => ?_
        | refine (quiet_loadCtx _ _).wp_then fun _ _ => ?_
        | refine (quiet_storeCtx _ _).wp_then fun _ _ => ?_
      rw [wp_bind]
      refine wp_releaseReg hs (hs.1.temp_free function (by simp)) fun c₄ h₄ hc₄ hf₄ => ?_
      rw [Finset.erase_singleton] at h₄
      rw [wp_bind, wp_asm]
      intro _ _ _
      refine quiet_initModuleContext.wp_then fun _ _ => ?_
      refine quiet_initStackBase.wp_then fun _ _ => ?_
      refine quiet_initMemory.wp_then fun _ _ => ?_
      rw [wp_bind, wp_stk]
      intro _ st htr
      have hm : Moves s c₄.stack := by
        rw [hc₄]
        exact Moves.of_used _
      obtain rfl : st = c₄.stack.truncate nextBase := by
        rw [StackM.truncate_of_le (hm.sp_eq ▸ hcs.2)] at htr
        cases htr
        rfl
      have ht : Fit ∅ (c₄.stack.truncate nextBase) := ⟨h₄.1.truncate (hm.notHiAt hcs.1), h₄.2⟩
      have hnt : NoFlags (c₄.stack.truncate nextBase) := (hm.noFlags hns).truncate nextBase
      rw [wp_bind]
      refine wp.mono (wp_forIn_list _ _ _
        (fun _ _ c' => Fit ∅ c'.stack ∧ NoFlags c'.stack ∧ Frame c c') ?_
        ⟨ht, hnt, hf₃.trans (hf₄.trans ⟨rfl, rfl⟩)⟩)
        fun _ c' hc' => (wp_pure _).mpr (hQ c' hc'.1 hc'.2.1 hc'.2.2)
      rintro t rest _ c' ⟨hc', hnc', hfc'⟩
      simp only [wp_bind, wp_discard, wp_stk]
      intro _ st hst
      exact ⟨keeps_pushValue t _ _ _ hc' hst, keeps_noFlags_pushValue t _ _ _ hnc' hst,
        hfc'.trans ⟨rfl, rfl⟩⟩
    clear_value jp₃
    repeat' with_reducible first
      | exact hjp₃ _ _
      | refine wp_asm_bind fun _ _ => ?_
      | refine (quiet_slot _).wp_then fun _ _ => ?_
      | refine (quiet_loadCtx _ _).wp_then fun _ _ => ?_
      | refine wp_ite.mpr ⟨fun _ => ?_, fun _ => ?_⟩
  clear_value jp
  cases target with
  | direct i =>
    simp only at hT
    simp only [pure_bind]
    rw [wp_bind]
    refine wp_allocate (c := c₁) (a := c₁.asm) h₁ (h₁.room_free (by simp [hT]))
      fun r c₂ h₂ _ _ hs₂ hf₂ => ?_
    rw [hT, Finset.insert_empty] at h₂
    have hm₂ : Moves c.stack c₂.stack := hm₁.trans hs₂.moves
    have hend : ∀ s, wp (jp r) Q { c₂ with asm := s } := fun _ =>
      hjp r _ h₂ (hs₂.moves.noFlags him₁.noFlags) (by rw [hm₂.sp_eq]; exact hm₂.notHiAt hcut)
        (hf₁.trans hf₂)
    repeat' with_reducible first
      | exact hend _
      | refine wp_asm_bind fun _ _ => ?_
      | refine (quiet_scaled _ _ _).wp_then fun _ _ => ?_
      | refine (quiet_loadCtx _ _).wp_then fun _ _ => ?_
      | refine wp_ite.mpr ⟨fun _ => ?_, fun _ => ?_⟩
  | indirect fr =>
    simp only at hT
    rw [hT] at h₁
    simp only [wp_bind, wp_pure]
    exact hjp fr c₁ h₁ him₁.noFlags (by rw [hm₁.sp_eq]; exact hm₁.notHiAt hcut) hf₁

theorem wp_call (h : Sound c) {f : UInt32}
    (hw : (Operation.call f).ReadsWhole c.fn.module c.stack.slots)
    {Q : Unit → Compiler → Prop} (hQ : ∀ c', Sound c' → Frame c c' → Q () c') :
    wp (call f) Q { c with asm := a } := by
  unfold call
  simp only [wp_bind, wp_fn]
  split
  · rename_i sig hsig
    exact wp_emitCall h.fit rfl (hw sig hsig) fun c' h' hn' hf' =>
      hQ c' (h.of_frame h' hn'.flagTop hf') hf'
  · simp

theorem wp_callIndirect (h : Sound c) {ty tb : UInt32}
    (hw : (Operation.callIndirect ty tb).ReadsWhole c.fn.module c.stack.slots)
    {Q : Unit → Compiler → Prop} (hQ : ∀ c', Sound c' → Frame c c' → Q () c') :
    wp (callIndirect ty tb) Q { c with asm := a } := by
  obtain ⟨hidx, hargs⟩ := hw
  unfold callIndirect
  simp only [wp_bind, wp_fn]
  split
  rotate_left
  · simp
  rename_i sig hsig
  rw [wp_bind]
  refine wp_popToRegister h.fit (by simp) fun x n r c₁ ht hs₁ _ h₁ hf₁ => ?_
  have hpop : c.stack.below n = { c.stack with slots := c.stack.slots.pop } :=
    (h.fit.1.topAt_scalar ht hidx).2
  rw [Finset.insert_empty] at h₁
  have hm : Moves { c.stack with slots := c.stack.slots.pop } c₁.stack := by
    rw [← hpop]
    exact hs₁.moves
  have hcut : NotHiAt c₁.stack.slots (c₁.stack.sp - sig.paramSlots) := by
    rw [hm.sp_eq]
    simpa [ValueStack.sp] using hm.notHiAt (NotHiAt.pop (hargs sig hsig))
  have hT : match CallTarget.indirect r with
      | .direct _ => ({r} : Finset Reg) = ∅
      | .indirect r' => ({r} : Finset Reg) = {r'} := rfl
  have hend : ∀ s, wp (emitCall sig (.indirect r)) Q { c₁ with asm := s } := fun s =>
    wp_emitCall (c := c₁) (a := s) h₁ hT hcut fun c' h' hn' hf' =>
      hQ c' (h.of_frame h' hn'.flagTop (hf₁.trans hf')) (hf₁.trans hf')
  rw [wp_bind, wp_regOf (Location.setRegister_reg x r)]
  repeat' with_reducible first
    | exact hend _
    | refine wp_asm_bind fun _ _ => ?_
    | refine (quiet_scaled _ _ _).wp_then fun _ _ => ?_
    | refine (quiet_loadCtx _ _).wp_then fun _ _ => ?_
    | refine (quiet_exit _).wp_then fun _ _ => ?_

theorem wp_select (h : Sound c) {v : Bool}
    (hw : (Operation.select v).ReadsWhole c.fn.module c.stack.slots)
    {Q : Unit → Compiler → Prop} (hQ : ∀ c', Sound c' → Frame c c' → Q () c') :
    wp (select v) Q { c with asm := a } := by
  unfold select
  rw [wp_bind]
  refine wp_popSlot (c := { c with asm := a }) h.fit hw fun cond _ hflag hdis h₀ => ?_
  have hn₀ : NoFlags { c.stack with slots := c.stack.slots.pop } := h.flagTop.pop
  rw [wp_bind]
  have hcard : (∅ ∪ cond.reg.toFinset).card + (∅ : Finset Reg).card < 9 := by
    have := card_union_reg ∅ cond
    simp only [Finset.card_empty] at this ⊢
    omega
  refine wp_loadDetached (c := { c with stack := { c.stack with slots := c.stack.slots.pop } })
    (a := a) h₀ (by simp) hcard (fun r hr => by simp [hr]) hflag
    fun rc c₁ h₁ hrc _ hs₁ hf₁ => ?_
  rw [Finset.union_sdiff_cancel_right hdis] at h₁
  have hn₁ : NoFlags c₁.stack := hs₁.moves.noFlags hn₀
  rw [wp_bind]
  refine wp_popToRegister (a := c₁.asm) h₁ (by simp) fun x₂ n₂ r₂ c₂ ht₂ hs₂ hr₂ h₂ hf₂ => ?_
  have hn₂ : NoFlags c₂.stack := hs₂.moves.noFlags (hn₁.below n₂)
  rw [wp_bind]
  have hcard₂ : (insert r₂ (insert rc ∅) : Finset Reg).card + 1 < 9 := by
    have := Finset.card_le_two (a := r₂) (b := rc)
    simp only [Finset.insert_empty] at this ⊢
    omega
  refine wp_popToRegister (a := c₂.asm) h₂ hcard₂ fun x₁ n₁ r₁ c₃ ht₁ hs₃ hr₁ h₃ hf₃ => ?_
  have hn₃ : NoFlags c₃.stack := hs₃.moves.noFlags (hn₂.below n₁)
  simp -zeta only [wp_bind, wp_regOf (Location.setRegister_reg _ _)]
  have hne₂ : r₂ ≠ rc := by simpa using hr₂
  have hne₁ : r₁ ≠ r₂ ∧ r₁ ≠ rc := by simpa [not_or] using hr₁
  lift_lets
  intro jp
  have hjp : ∀ u s, wp (jp u) Q { c₃ with asm := s } := by
    intro u s
    simp only [jp, wp_bind]
    refine wp_release (c := c₃) (a := s) h₃ (fun r hr => ?_) fun c₄ h₄ hs₄ hf₄ => ?_
    · simp only [Location.setRegister_reg, Option.some.injEq] at hr
      exact h₃.1.temp_free r (by simp [hr])
    refine wp_release h₄ (fun r hr => ?_) fun c₅ h₅ hs₅ hf₅ => ?_
    · simp only [Location.setRegister_reg, Option.some.injEq] at hr
      subst hr
      exact h₄.1.temp_free r₂ (by simpa using hne₂)
    have hn₅ : NoFlags c₅.stack := hs₅.moves.noFlags (hs₄.moves.noFlags hn₃)
    refine wp_pushRegister h₅ (by simp [hne₁.1, hne₁.2]) (by simpa using ht₁.whole)
      fun c₆ h₆ hc₆ hf₆ => ?_
    have hempty : ((insert r₁ (insert r₂ (insert rc ∅)) \ (cond.setRegister rc).reg.toFinset) \
        (x₂.setRegister r₂).reg.toFinset).erase r₁ = ∅ :=
      Finset.eq_empty_of_forall_notMem fun x hx => by
        simp only [Location.setRegister_reg, Option.toFinset_some, Finset.mem_erase,
          Finset.mem_sdiff, Finset.mem_insert, Finset.mem_singleton, Finset.notMem_empty] at hx
        tauto
    rw [hempty] at h₆
    have hf := hf₁.trans (hf₂.trans (hf₃.trans (hf₄.trans (hf₅.trans hf₆))))
    exact hQ c₆ (h.of_frame h₆ (by rw [hc₆]; exact hn₅.pushReg.flagTop) hf) hf
  clear_value jp
  split
  · repeat' with_reducible first
      | exact hjp _ _
      | refine wp_asm_bind fun _ _ => ?_
  · repeat' with_reducible first
      | exact hjp _ _
      | refine wp_asm_bind fun _ _ => ?_

theorem wp_depthIndex {d : UInt32} {Q : Nat → Compiler → Prop}
    (hQ : 1 + d.toNat ≤ c.stack.sp → Q (c.stack.sp - 1 - d.toNat) c) :
    wp (depthIndex d) Q c := by
  unfold depthIndex
  simp only [wp_bind, wp_get, wp_ite, wp_throw, wp_pure]
  exact ⟨fun _ => by simp, fun hle => hQ (by omega)⟩

theorem wp_pick (h : Sound c) {d : UInt32} {v : Bool}
    (hw : (Operation.pick d v).ReadsWhole c.fn.module c.stack.slots)
    {Q : Unit → Compiler → Prop} (hQ : ∀ c', Sound c' → Frame c c' → Q () c') :
    wp (pick d v) Q { c with asm := a } := by
  unfold pick
  rw [wp_bind]
  refine wp_materializeTopFlag h.fit (by simp) fun c₁ h₁ hm₁ hf₁ htop => ?_
  have hn₁ : NoFlags c₁.stack := (hm₁.flagTop h.flagTop).noFlags htop
  rw [wp_bind]
  refine wp_depthIndex fun _ => ?_
  simp -zeta only [wp_bind]
  refine wp_stk_get fun l _ => ?_
  lift_lets
  intro kind
  rw [wp_bind]
  refine wp_allocate (a := c₁.asm) h₁ (h₁.room_free (by simp)) fun r c₂ h₂ _ _ hs₂ hf₂ => ?_
  have hn₂ : NoFlags c₂.stack := hs₂.moves.noFlags hn₁
  rw [wp_bind]
  refine wp_stk_get fun picked hp => ?_
  have hhi : picked.type ≠ .v128hi := by
    have hn := (hm₁.trans hs₂.moves).notHiAt (n := c.stack.slots.size - 1 - d.toNat) hw
    rw [hm₁.sp_eq] at hp
    exact hn picked hp
  lift_lets
  intro push copy
  have hpush : ∀ u s, wp (push u) Q { c₂ with asm := s } := by
    intro u s
    refine wp_pushRegister (c := c₂) (a := s) h₂ (Finset.mem_insert_self r ∅) hhi
      fun c₃ h₃ hc₃ hf₃ => ?_
    rw [Finset.erase_insert (Finset.notMem_empty r)] at h₃
    have hf := hf₁.trans (hf₂.trans hf₃)
    exact hQ c₃ (h.of_frame h₃ (by rw [hc₃]; exact hn₂.pushReg.flagTop) hf) hf
  split
  · simp [wp_bind]
  · simp only [copy]
    split
    · rw [wp_bind]
      exact quiet_movValue _ _ _ _ _ fun u s => hpush u s
    · rw [wp_bind]
      exact quiet_loadSlot _ _ _ _ _ fun u s => hpush u s

theorem wp_setDepth (h : Sound c) {d : UInt32} {v : Bool}
    (hw : (Operation.set d v).ReadsWhole c.fn.module c.stack.slots)
    {Q : Unit → Compiler → Prop} (hQ : ∀ c', Sound c' → Frame c c' → Q () c') :
    wp (setDepth d) Q { c with asm := a } := by
  unfold setDepth
  rw [wp_bind]
  refine wp_depthIndex fun _ => ?_
  rw [wp_bind]
  refine wp_popToRegister h.fit (by simp) fun x n r c₁ ht hs₁ _ h₁ hf₁ => ?_
  have hn₁ : NoFlags c₁.stack := hs₁.moves.noFlags (h.flagTop.below ht)
  rw [wp_bind]
  refine wp_stk_get fun l hl => ?_
  have hhi : l.type ≠ .v128hi := hs₁.moves.notHiAt (NotHiAt.below hw n) l hl
  have hpair := h₁.1.pair_lt hl
  dsimp only at hl hpair
  have hset : ∀ u : RegSet, NoFlags { c₁.stack with
      slots := modifyValue c₁.stack.slots (c.stack.sp - 1 - d.toNat) (l.type == .v128lo)
        (·.setRegister r), used := u } :=
    fun u => (Moves.of_modifyValue (f := fun x => x.setRegister r) (fun _ => ⟨rfl, rfl⟩) u).noFlags hn₁
  have he₁ : c₁.labels.Entries (fun s => Fit ∅ s ∧ NoFlags s) := by
    rw [hf₁.1]
    exact h.entries
  lift_lets
  intro jp
  split
  · -- the value overwritten held a register: it is given back first
    rename_i old hold
    simp only [wp_bind, releaseReg, wp_stk, markUnused_eq]
    intro _ _ hm
    cases hm
    simp only [jp, wp_bind, wp_regOf (Location.setRegister_reg x r), wp_stk]
    intro _ _ hs
    rw [StackM.setRegister_eq (s := { c₁.stack with used := c₁.stack.used.erase old }) hl hpair]
      at hs
    cases hs
    have h₂ := h₁.1.reassign hl hold hhi (Finset.mem_insert_self r ∅)
    rw [Finset.erase_insert (Finset.notMem_empty r)] at h₂
    exact hQ _ ⟨⟨h₂, h₁.2⟩, (hset _).flagTop, he₁⟩ hf₁
  · rename_i hnone
    simp only [jp, wp_bind, wp_regOf (Location.setRegister_reg x r), wp_stk]
    intro _ _ hs
    rw [StackM.setRegister_eq hl hpair] at hs
    cases hs
    have hreg : l.reg = none := Option.eq_none_iff_forall_ne_some.mpr fun old e => hnone old e
    have h₂ := h₁.1.setRegister hl hreg hhi (Finset.mem_insert_self r ∅)
    rw [Finset.erase_insert (Finset.notMem_empty r)] at h₂
    exact hQ _ ⟨⟨h₂, h₁.2⟩, (hset _).flagTop, he₁⟩ hf₁

end OnePassJit.Arm64.Lower
