import OnePassJit.Proofs.Amd64.Primitives
import OnePassJit.Proofs.Branches
import OnePassJit.Proofs.Run

/-!
Function entry and exit, labels, branches, calls and stack shuffling on amd64 keep the
value stack laid out.

Between two operations the compiler is `Sound`: its stack is laid out with no temporaries,
and so is every entry stack its labels keep. A label is bound to an entry stack some branch
recorded, so binding keeps the layout; a branch records the stack it leaves with. The
moves that cut the stack by a slot count rather than by popping values (a condition popped
as one slot, a drop range, a picked or set slot, the arguments of a call) keep it only
where the cut falls between two values, which the stack discipline promises
(`Operation.ReadsWhole`).

Only branches and labels touch the label table. A branch to `l` records the stack it jumps
with as `l`'s entry unless an earlier branch did (`Branched`), after sending every value to
memory when the body has several branch sites for `l`; an operation grows the table at its
own targets only (`Grown`), and binding reaches no label.
-/

namespace OnePassJit.Amd64.Lower

open ValueStack StackM

variable {α : Type} {c : Compiler} {a : Assembler} {T : Finset Reg} {Q : α → Compiler → Prop}

/-- What holds of the compiler between two operations. -/
structure Sound (c : Compiler) : Prop where
  fit : Fit ∅ c.stack
  entries : c.labels.Entries (Fit ∅)

theorem Sound.of_frame (h : Sound c) {c' : Compiler} (h' : Fit ∅ c'.stack) (hf : Frame c c') :
    Sound c' :=
  ⟨h', by rw [hf.1]; exact h.entries⟩

theorem wp_pushRegister_sound {c₀ : Compiler} (h₀ : Sound c₀) {r : Reg} (h : Fit T c.stack)
    (hT : T = {r}) (hf : Frame c₀ c) {t : SlotType} (ht : t ≠ .v128hi) :
    wp (pushRegister r t) (fun _ => Sound) { c with asm := a } :=
  wp_pushRegister h (by simp [hT]) ht fun c' h' _ hf' =>
    h₀.of_frame (by simpa [hT] using h') (hf.trans hf')

theorem wp_pushFlag_sound {c₀ : Compiler} (h₀ : Sound c₀) (h : Fit T c.stack) (hT : T = ∅)
    (hf : Frame c₀ c) (f : Flag) : wp (pushFlag f) (fun _ => Sound) { c with asm := a } :=
  wp_pushFlag h f fun _ h' _ hf' => h₀.of_frame (hT ▸ h') (hf.trans hf')

/-- `c'` keeps the stack, the function and every entry the labels of `c` record; only `l`
may be newly reached, by a native handle. -/
structure Relabel (l : Label) (c c' : Compiler) : Prop where
  stack : c'.stack = c.stack
  fn : c'.fn = c.fn
  entryOf : ∀ l', c'.labels.entryOf l' = c.labels.entryOf l'
  entries : ∀ P, c.labels.Entries P → c'.labels.Entries P
  grows : ∀ P, c.labels.Grows (· = l) P c'.labels

theorem wp_nativeLabel (l : Label) {Q : Nat → Compiler → Prop}
    (hQ : ∀ n c', Relabel l c c' → Q n c') : wp (nativeLabel l) Q c := by
  unfold nativeLabel
  simp only [wp_bind, wp_get]
  split
  · exact hQ _ c ⟨rfl, rfl, fun _ => rfl, fun _ hP => hP, fun _ => .of_eq rfl⟩
  · simp only [wp_bind, wp_asm, wp_modify, wp_pure]
    intro n s _
    exact hQ n _ ⟨rfl, rfl, LabelTable.entryOf_nativeOrInsert n, fun _ hP => hP.nativeOrInsert n,
      fun _ => .nativeOrInsert n⟩

/-- A lowering that may branch: it keeps the function and grows the label table with settled
entries, reaching labels in `T` only. -/
structure Grown (T : Label → Prop) (c c' : Compiler) : Prop where
  fn : c'.fn = c.fn
  grows : c.labels.Grows T (Settled c.fn.labelCallers) c'.labels

theorem Grown.of_frame {T : Label → Prop} {c' : Compiler} (h : Frame c c') : Grown T c c' :=
  ⟨h.2, .of_eq h.1⟩

theorem Grown.trans {T T' : Label → Prop} {c' c'' : Compiler} (h₁ : Grown T c c')
    (h₂ : Grown T' c' c'') : Grown (fun l => T l ∨ T' l) c c'' := by
  refine ⟨h₂.fn.trans h₁.fn, h₁.grows.trans ?_⟩
  rw [← h₁.fn]
  exact h₂.grows

theorem Grown.mono {T T' : Label → Prop} {c' : Compiler} (h : Grown T c c')
    (hT : ∀ l, T l → T' l) : Grown T' c c' :=
  ⟨h.fn, h.grows.mono hT⟩

/-- What a branch to `l` leaves: a table grown at `l`, and unless `l` is the return, the stack
it jumps with recorded as `l`'s entry where no earlier branch recorded one, and settled. -/
structure Branched (c : Compiler) (l : Label) (c' : Compiler) : Prop
    extends Grown (· = l) c c' where
  entry : l.isReturn = false → c'.labels.entryOf l = (c.labels.entryOf l <|> some c'.stack)
  settled : l.isReturn = false → Settled c.fn.labelCallers l c'.stack

theorem Branched.of_frame {l : Label} {c₁ c' : Compiler} (hf : Frame c c₁)
    (h : Branched c₁ l c') : Branched c l c' := by
  obtain ⟨hl, hfn⟩ := hf
  obtain ⟨⟨hfn', hg⟩, he, hs⟩ := h
  rw [hl] at hg he
  rw [hfn] at hg hs
  exact ⟨⟨hfn'.trans hfn, hg⟩, he, hs⟩

theorem Branched.of_return {l : Label} {c' : Compiler} (hf : Frame c c') (hl : l.isReturn = true) :
    Branched c l c' :=
  ⟨.of_frame hf, fun h => absurd hl (by simp [h]), fun h => absurd hl (by simp [h])⟩

theorem wp_emitStackCheck (h : Fit T c.stack) (hcard : T.card < 9) {Q : Unit → Compiler → Prop}
    (hQ : ∀ c', Fit T c'.stack → Spills c.stack c'.stack → Frame c c' → Q () c') :
    wp emitStackCheck Q { c with asm := a } := by
  unfold emitStackCheck
  rw [wp_bind]
  refine wp_allocate h (h.room_free hcard) fun tmp c₁ h₁ htmp _ hs₁ hf₁ => ?_
  simp only [wp_bind, wp_asm]
  intros
  refine wp_releaseReg h₁ (h₁.1.temp_free tmp (Finset.mem_insert_self tmp T))
    fun c₂ h₂ hc₂ hf₂ => ?_
  rw [Finset.erase_insert htmp] at h₂
  simp only [wp_modify]
  refine quiet_callBuiltin _ _ _ fun _ _ => ?_
  intros
  refine hQ _ h₂ (hs₁.trans ?_) (hf₁.trans (hf₂.trans ⟨rfl, rfl⟩))
  rw [hc₂]
  exact Spills.of_used _

theorem wp_preamble (hg : c.stack.gpPool = gpPool) (hv : c.stack.vecPool = vecPool)
    {Q : Unit → Compiler → Prop} (hQ : ∀ c', Fit ∅ c'.stack → Frame c c' → Q () c') :
    wp preamble Q c := by
  unfold preamble
  simp only [wp_bind, wp_fn, wp_stk]
  intro _ s hinit
  refine wp_initModuleContext (c := { c with stack := s }) (init_laid hinit hg hv) (by simp)
    fun c₁ h₁ _ hf₁ => ?_
  refine wp_emitStackCheck (a := c₁.asm) h₁ (by simp) fun c₂ h₂ _ hf₂ => ?_
  rw [wp_get]
  refine wp_ite_prefix (quiet_callBuiltin _) fun _ => ?_
  rw [wp_bind]
  refine quiet_initStackBase _ _ fun _ _ => ?_
  exact quiet_initMemory _ _ fun _ _ => hQ _ h₂ (hf₁.trans hf₂)

theorem wp_emitReturn (h : Fit T c.stack) (hcard : T.card + 1 < 9) {Q : Unit → Compiler → Prop}
    (hQ : ∀ c', Fit T c'.stack → Frame c c' → Q () c') :
    wp emitReturn Q { c with asm := a } := by
  unfold emitReturn
  rw [wp_bind]
  refine wp_releaseAllToStack h (by omega) fun c₁ h₁ _ _ hf₁ => ?_
  simp only [wp_bind]
  rw [wp_get]
  refine wp_ite_prefix (quiet_callBuiltin _) fun _ => ?_
  simp only [wp_bind, wp_fn]
  refine wp_allocate h₁ (h₁.room_free (by omega)) fun ra c₂ h₂ hra _ _ hf₂ => ?_
  refine wp_allocate (a := c₂.asm) h₂
    (h₂.room_free (by rw [Finset.card_insert_of_notMem hra]; omega))
    fun tmp c₃ h₃ htmp _ _ hf₃ => ?_
  simp only [wp_asm, wp_slot]
  intros
  refine quiet_exit _ _ _ fun _ _ => ?_
  intros
  have hne : ra ≠ tmp := fun e => htmp (e ▸ Finset.mem_insert_self ra T)
  refine wp_releaseReg h₃ (h₃.1.temp_free tmp (Finset.mem_insert_self _ _))
    fun c₄ h₄ hc₄ hf₄ => ?_
  have hfree : ¬ c₄.stack.Holds ra := by
    rw [hc₄]
    exact h₃.1.temp_free ra (Finset.mem_insert_of_mem (Finset.mem_insert_self _ _))
  refine wp_releaseReg h₄ hfree fun c₅ h₅ _ hf₅ => ?_
  rw [Finset.erase_insert htmp, Finset.erase_insert hra] at h₅
  exact hQ _ h₅ (hf₁.trans (hf₂.trans (hf₃.trans (hf₄.trans hf₅))))

theorem Fit.adopt {s : ValueStack} (h : Fit T s) (s' : ValueStack) : Fit T (s'.adopt s) :=
  ⟨{ toBlock := h.1.toBlock, used_iff := h.1.used_iff, temp_free := h.1.temp_free }, h.2⟩

theorem wp_bindLabel (h : Sound c) (l : Label) :
    wp (bindLabel l) (fun dead c' => Sound c' ∧ c'.fn = c.fn ∧
      (∀ P, c.labels.Grows (fun _ => False) P c'.labels) ∧
      ∀ s, c.labels.entryOf l = some s → dead = false ∧ c'.stack = c.stack.adopt s) c := by
  unfold bindLabel
  obtain ⟨hlabels, hentry⟩ := h.entries.resolve (l := l)
  simp only [wp_bind, wp_get, wp_modify]
  split
  · rename_i hnone
    refine ⟨⟨h.fit, hlabels⟩, rfl, fun _ => .resolve, fun s hs => ?_⟩
    rw [LabelTable.resolve_fst] at hnone
    simp [hnone] at hs
  · rename_i s hs
    rw [wp_bind]
    refine wp_nativeLabel l fun n c' hc' => ?_
    simp only [wp_bind, wp_asm, wp_modify, wp_pure]
    intro _ _ _
    have hs' : c.labels.entryOf l = some s := LabelTable.resolve_fst ▸ hs
    refine ⟨⟨(hentry s hs).adopt _, hc'.entries _ hlabels⟩, hc'.fn, fun _ =>
      (LabelTable.Grows.resolve.trans (hc'.grows _)).of_reached fun l' hl' => ?_,
      fun s' hs'' => ⟨trivial, by rw [hc'.stack, ← Option.some.inj (hs'.symm.trans hs'')]⟩⟩
    rcases hl' with hl' | hl'
    · exact hl'.elim
    · exact hl' ▸ LabelTable.Reached.of_entryOf hs'

theorem wp_jumpTo (target : Label) (h : Fit ∅ c.stack) (he : c.labels.Entries (Fit ∅))
    (hs : Settled c.fn.labelCallers target c.stack)
    {Q : Unit → Compiler → Prop} (hQ : ∀ c', Sound c' → Branched c target c' → Q () c') :
    wp (do
      modify fun c => { c with labels := c.labels.setEntryIfAbsent target c.stack }
      let native ← nativeLabel target
      asm (Asm.jmp native)) Q c := by
  simp only [wp_bind, wp_modify]
  refine wp_nativeLabel target fun n c' hc' => ?_
  rw [wp_asm]
  intro _ _ _
  refine hQ _ ⟨by rw [hc'.stack]; exact h, hc'.entries _ (he.setEntryIfAbsent h)⟩
    ⟨⟨hc'.fn, ((LabelTable.Grows.setEntryIfAbsent hs).trans (hc'.grows _)).mono ?_⟩,
      fun _ => ?_, fun _ => by rw [hc'.stack]; exact hs⟩
  · intro l hl
    exact hl.elim id id
  · rw [hc'.entryOf, hc'.stack]
    exact LabelTable.entryOf_setEntryIfAbsent _

theorem wp_branchInto (h : Sound c) (target : Label) {Q : Unit → Compiler → Prop}
    (hQ : ∀ c', Sound c' → Branched c target c' → Q () c') :
    wp (branchInto target) Q { c with asm := a } := by
  unfold branchInto
  rw [wp_bind]
  refine wp_materializeTopFlag h.fit (by simp) fun c₁ h₁ _ hf₁ _ => ?_
  have he₁ : c₁.labels.Entries (Fit ∅) := by
    rw [hf₁.1]
    exact h.entries
  rw [wp_ite]
  refine ⟨fun hret => wp_emitReturn (c := c₁) (a := c₁.asm) h₁ (by simp) fun c' h' hf' => ?_,
    fun _ => ?_⟩
  · exact hQ c' ⟨h', by rw [hf'.1]; exact he₁⟩ (.of_return (hf₁.trans hf') hret)
  · rw [wp_bind, wp_fn, wp_ite]
    refine ⟨fun _ => ?_, fun hone => wp_jumpTo target h₁ he₁ (fun hlt => absurd hlt hone)
      fun c' hc' hb => hQ c' hc' (hb.of_frame hf₁)⟩
    rw [wp_bind]
    refine wp_releaseAllToStack (c := c₁) (a := c₁.asm) h₁ (by simp)
      fun c₂ h₂ _ him₂ hf₂ => ?_
    refine wp_jumpTo target h₂ (by rw [hf₂.1]; exact he₁) (fun _ => him₂) fun c' hc' hb => ?_
    exact hQ c' hc' ((hb.of_frame hf₂).of_frame hf₁)

theorem wp_dropRange (h : Fit T c.stack) (hcard : T.card < 9) {r : Option DropRange}
    (hw : DropRange.Whole c.stack.slots r) {Q : Unit → Compiler → Prop}
    (hQ : ∀ c', Fit T c'.stack → Frame c c' → Q () c') :
    wp (dropRange r) Q { c with asm := a } := by
  cases r with
  | none => exact hQ _ h Frame.rfl'
  | some r =>
    obtain ⟨hlive, hdrop⟩ := hw
    unfold dropRange
    rw [wp_ite]
    refine ⟨fun hz => ?_, fun _ => ?_⟩
    · -- dropping from the top: the slots are discarded one by one
      refine wp_discardSlots _ fun c' heq hused hf => hQ c' (h.discard ?_ heq hused) hf
      rcases DropRange.len_of_start_zero (beq_iff_eq.mp hz) with hl | hl
      · rw [hl, show c.stack.sp - (r.stop.toNat + 1) = c.stack.slots.size - 1 - r.stop.toNat by
          simp only [ValueStack.sp]; omega]
        exact hdrop
      · rw [hl, Nat.sub_zero]
        intro l hl'
        simp [ValueStack.sp] at hl'
    · -- dropping below live values: those in memory are copied down
      rw [wp_bind]
      refine wp_materializeTopFlag h hcard fun c₁ h₁ hm₁ hf₁ _ => ?_
      simp only [wp_bind, wp_stk]
      intro moves s hok
      have hs : Fit T s := by
        refine ⟨h₁.1.dropRange hok ?_ ?_, ?_⟩
        · rw [hm₁.sp_eq]
          exact hm₁.notHiAt hlive
        · rw [hm₁.sp_eq]
          exact hm₁.notHiAt hdrop
        · obtain ⟨-, -, u, rfl, -⟩ := StackM.dropRange_ok hok
          exact h₁.2
      refine Quiet.forIn_list moves () (fun m _ => Quiet.bind (quiet_slot _) fun _ =>
        Quiet.bind (quiet_slot _) fun _ => Quiet.bind (Quiet.asm' _) fun _ => Quiet.pure' _)
        _ _ fun _ _ => hQ _ hs hf₁

theorem wp_brIf (h : Sound c) {t e : BranchTarget}
    (hw : (Operation.brIf t e).ReadsWhole c.fn.module c.stack.slots) {Q : Unit → Compiler → Prop}
    (hQ : ∀ c', Sound c' → Grown (· ∈ (Operation.brIf t e).branchLabels) c c' → Q () c') :
    wp (brIf t e) Q { c with asm := a } := by
  obtain ⟨hcond, hwt, hwe⟩ := hw
  unfold brIf
  simp -zeta only [wp_bind]
  rw [wp_stk]
  intro cond s hpop
  obtain ⟨hl, rfl⟩ := StackM.pop_ok hpop
  have hhi : cond.type ≠ .v128hi := hcond cond (by rwa [← Array.back?_eq_getElem?])
  have h₀ : Fit (∅ ∪ cond.reg.toFinset) { c.stack with slots := c.stack.slots.pop } :=
    ⟨h.fit.1.popTop hl hhi, h.fit.2⟩
  rw [wp_asm]
  intro stub _ _
  lift_lets
  intro jp
  have hjp : ∀ c₂ u, Fit ∅ c₂.stack → c₂.labels.Entries (Fit ∅) → Frame c c₂ →
      Moves { c.stack with slots := c.stack.slots.pop } c₂.stack → wp (jp u) Q c₂ := by
    intro c₂ u h₂ he₂ hf₂ hm₂
    simp only [jp, wp_bind, wp_get]
    refine wp_dropRange (c := c₂) (a := c₂.asm) h₂ (by simp) (hwe.moves hm₂)
      fun c₃ h₃ hf₃ => ?_
    refine wp_branchInto ⟨h₃, by rw [hf₃.1]; exact he₂⟩ e.label fun c₄ h₄ hb₄ => ?_
    simp only [wp_modify, wp_asm]
    intro _ s₄ _
    refine wp_dropRange (c := { c₄ with stack := c₂.stack }) (a := s₄) h₂ (by simp)
      (hwt.moves hm₂) fun c₅ h₅ hf₅ => ?_
    refine wp_branchInto ⟨h₅, by rw [hf₅.1]; exact h₄.entries⟩ t.label fun c₆ h₆ hb₆ => ?_
    refine hQ c₆ h₆ ((((Grown.of_frame (T := fun _ => False) (hf₂.trans hf₃)).trans
      hb₄.toGrown).trans
      (hb₆.of_frame (c := c₄) hf₅).toGrown).mono fun l hl => ?_)
    simp only [Operation.branchLabels, List.mem_cons, List.not_mem_nil, or_false]
    rcases hl with (hl | hl) | hl
    · exact hl.elim
    · exact .inr hl
    · exact .inl hl
  have hl' : c.stack.slots[c.stack.slots.size - 1]? = some cond := by
    rwa [← Array.back?_eq_getElem?]
  split
  · -- a condition in the flags holds no register
    rename_i f hf
    have hreg : cond.reg = none := (h.fit.1.flagged hl' (by rw [hf]; rfl)).1
    rw [wp_bind, wp_asm]
    intro u _ _
    exact hjp _ u (by simpa [hreg] using h₀) h.entries Frame.rfl' (Moves.refl _)
  · rename_i hf
    rw [wp_bind]
    have hcard : (∅ ∪ cond.reg.toFinset).card + (∅ : Finset Reg).card < 9 := by
      have := card_union_reg ∅ cond
      simp only [Finset.card_empty] at this ⊢
      omega
    refine wp_loadDetached (c := { c with stack := { c.stack with slots := c.stack.slots.pop } })
      h₀ (by simp) hcard (fun r hr => by simp [hr]) (fun hs => by simp [hf] at hs)
      fun r c₁ h₁ _ _ hs₁ hf₁ => ?_
    rw [wp_bind, wp_regOf (Location.setRegister_reg cond r), wp_bind, wp_asm]
    intro _ s₂ _
    rw [wp_bind]
    refine wp_release (c := c₁) (a := s₂) h₁ (fun r' hr' => ?_) fun c₂ h₂ hs₂ hf₂ => ?_
    · simp only [Location.setRegister_reg, Option.some.injEq] at hr'
      exact h₁.1.temp_free r' (hr' ▸ Finset.mem_insert_self _ _)
    · have h₂' : Fit ∅ c₂.stack := by simpa using h₂
      rw [wp_bind, wp_asm]
      intro u _ _
      exact hjp _ u h₂' (by rw [hf₂.1, hf₁.1]; exact h.entries) (hf₁.trans hf₂)
        (hs₁.moves.trans hs₂.moves)
theorem wp_brTable (h : Sound c) {ts : List BranchTarget} {d : BranchTarget}
    (hw : (Operation.brTable ts d).ReadsWhole c.fn.module c.stack.slots)
    {Q : Unit → Compiler → Prop}
    (hQ : ∀ c', Sound c' → Grown (· ∈ (Operation.brTable ts d).branchLabels) c c' → Q () c') :
    wp (brTable ts d) Q { c with asm := a } := by
  obtain ⟨hidx, hwt⟩ := hw
  unfold brTable
  rw [wp_bind]
  refine wp_popToRegister h.fit (by simp) fun x n r c₁ ht hs₁ hr₁ h₁ hf₁ => ?_
  have hpop : c.stack.below n = { c.stack with slots := c.stack.slots.pop } :=
    (h.fit.1.topAt_scalar ht hidx).2
  have hw₁ : ∀ t ∈ ts ++ [d], DropRange.Whole c₁.stack.slots t.drop := fun t ht' =>
    (hwt t ht').moves (hpop ▸ hs₁.moves)
  have he₁ : c₁.labels.Entries (Fit ∅) := by
    rw [hf₁.1]
    exact h.entries
  rw [wp_ite]
  refine ⟨fun _ => ?_, fun _ => ?_⟩
  · rw [wp_bind]
    refine wp_release (c := c₁) (a := c₁.asm) h₁ (fun r' hr' => ?_) fun c₂ h₂ hs₂ hf₂ => ?_
    · simp only [Location.setRegister_reg, Option.some.injEq] at hr'
      exact h₁.1.temp_free r' (hr' ▸ Finset.mem_insert_self _ _)
    have h₂' : Fit ∅ c₂.stack := by simpa using h₂
    rw [wp_bind]
    refine wp_dropRange (c := c₂) (a := c₂.asm) h₂' (by simp)
      ((hw₁ d (by simp)).moves hs₂.moves) fun c₃ h₃ hf₃ => ?_
    refine wp_branchInto ⟨h₃, by rw [hf₃.1, hf₂.1]; exact he₁⟩ d.label fun c₄ h₄ hb₄ => ?_
    refine hQ c₄ h₄ ((hb₄.of_frame (hf₁.trans (hf₂.trans hf₃))).toGrown.mono fun l hl => ?_)
    simp [Operation.branchLabels, hl]
  · simp only [wp_ite, wp_bind, wp_throw]
    refine ⟨fun _ => by simp, fun _ => ?_⟩
    rw [wp_regOf (Location.setRegister_reg x r)]
    refine wp_allocate (a := c₁.asm) h₁ (h₁.room_free (by simp))
      fun tmp c₂ h₂ htmp _ hs₂ hf₂ => ?_
    simp only [wp_asm]
    intros
    refine wp_releaseReg h₂ (h₂.1.temp_free tmp (Finset.mem_insert_self _ _))
      fun c₃ h₃ hc₃ hf₃ => ?_
    have hfree : ¬ c₃.stack.Holds r := by
      rw [hc₃]
      exact h₂.1.temp_free r (Finset.mem_insert_of_mem (Finset.mem_insert_self _ _))
    refine wp_releaseReg h₃ hfree fun c₄ h₄ hc₄ hf₄ => ?_
    rw [Finset.erase_insert htmp, Finset.erase_insert hr₁] at h₄
    have hm₄ : Moves c₁.stack c₄.stack := by
      rw [hc₄, hc₃]
      exact hs₂.moves.trans ((Moves.of_used _).trans (Moves.of_used _))
    intro jt _ _
    rw [wp_get]
    refine (wp_forIn_list _ _ _
      (fun rest _ c' => (∀ y ∈ rest, y.1 ∈ ts ++ [d] ∧ DropRange.Whole c₄.stack.slots y.1.drop) ∧
        Fit ∅ c'.stack ∧ c'.labels.Entries (Fit ∅) ∧
        Grown (· ∈ (Operation.brTable ts d).branchLabels) c c') ?_ ⟨?_, h₄, ?_, ?_⟩).mono
      fun _ c' hc' => hQ c' ⟨hc'.2.1, hc'.2.2.1⟩ hc'.2.2.2
    · rintro y rest _ c₅ ⟨hwy, -, hent, hg⟩
      simp only [wp_bind, wp_modify, wp_asm]
      intro _ s₅ _
      refine wp_dropRange (c := { c₅ with stack := c₄.stack }) (a := s₅) h₄ (by simp)
        (hwy y (List.mem_cons_self ..)).2 fun c₆ h₆ hf₆ => ?_
      refine wp_branchInto ⟨h₆, by rw [hf₆.1]; exact hent⟩ y.1.label fun c₇ h₇ hb₇ => ?_
      refine ⟨fun z hz => hwy z (List.mem_cons_of_mem _ hz), h₇.fit, h₇.entries,
        (hg.trans (hb₇.of_frame (c := c₅) hf₆).toGrown).mono fun l hl => ?_⟩
      rcases hl with hl | hl
      · exact hl
      · exact hl ▸ Operation.label_mem_brTable (hwy y (List.mem_cons_self ..)).1
    · intro y hy
      have hy' := List.fst_mem_of_mem_zipIdx hy
      exact ⟨hy', (hw₁ y.1 hy').moves hm₄⟩
    · rw [hf₄.1, hf₃.1, hf₂.1]
      exact he₁
    · exact .of_frame (hf₁.trans (hf₂.trans (hf₃.trans hf₄)))

theorem wp_emitCall (h : Fit T c.stack) {callee : Signature} {target : CallTarget}
    (hT : match target with
      | .direct _ => T = ∅
      | .indirect r => T = {r})
    (hcut : NotHiAt c.stack.slots (c.stack.sp - callee.paramSlots))
    {Q : Unit → Compiler → Prop} (hQ : ∀ c', Fit ∅ c'.stack → Frame c c' → Q () c') :
    wp (emitCall callee target) Q { c with asm := a } := by
  have hcard : T.card ≤ 1 := by
    cases target with
    | direct _ => simp only at hT; simp [hT]
    | indirect r => simp only at hT; simp [hT]
  unfold emitCall
  simp -zeta only [wp_bind]
  refine wp_releaseAllToStack h (by omega) fun c₁ h₁ hm₁ _ hf₁ => ?_
  lift_lets
  intro exclude
  simp -zeta only [wp_bind]
  have hroom : ∃ r ∈ c₁.stack.pool .gp, r.kind = .gp ∧ r ∉ T ∧ exclude.contains r = false := by
    cases target with
    | direct _ =>
      simp only at hT
      exact h₁.room_free (by simp [hT])
    | indirect r =>
      simp only at hT
      refine h₁.room (E := {r}) (fun x hx => ?_) (by simp [hT])
      simp only [exclude, RegSet.contains_insert, RegSet.contains_empty, Bool.or_false,
        Bool.and_eq_true, beq_iff_eq] at hx
      simp [hx.1]
  refine wp_allocate (c := c₁) (a := c₁.asm) h₁ hroom fun tmp c₂ h₂ htmp _ hs₂ hf₂ => ?_
  lift_lets
  intro jp
  have hjp : ∀ function c₃, Fit {tmp, function} c₃.stack → function ≠ tmp →
      NotHiAt c₃.stack.slots (c₃.stack.sp - callee.paramSlots) → Frame c c₃ →
      wp (jp function) Q c₃ := by
    intro function c₃ h₃ hne hcut₃ hf₃
    simp -zeta only [jp, wp_bind, wp_get]
    lift_lets
    intro sp nextBase jp₂
    rw [wp_ite]
    refine ⟨fun _ => by simp [wp_bind], fun hsp => ?_⟩
    simp -zeta only [jp₂, wp_bind]
    rw [wp_stk]
    intro frame s hpush
    have hs : Fit {tmp, function} s := keeps_pushCallFrame callee _ _ _ h₃ hpush
    have hcs : NotHiAt s.slots nextBase ∧ nextBase ≤ s.sp :=
      keeps_cut_pushCallFrame callee nextBase _ _ _ ⟨hcut₃, by omega⟩ hpush
    lift_lets
    intro jp₃
    have hjp₃ : ∀ u x, wp (jp₃ u) Q { c₃ with stack := s, asm := x } := by
      intro u x
      simp -zeta only [jp₃, wp_bind, wp_asm, wp_slot]
      intros
      refine wp_releaseReg (c := { c₃ with stack := s }) hs (hs.1.temp_free tmp (by simp))
        fun c₄ h₄ hc₄ hf₄ => ?_
      have hfree : ¬ c₄.stack.Holds function := by
        rw [hc₄]
        exact hs.1.temp_free function (by simp)
      refine wp_releaseReg h₄ hfree fun c₅ h₅ hc₅ hf₅ => ?_
      rw [Finset.erase_insert (by simpa using hne.symm), Finset.erase_singleton] at h₅
      intro _ _ _
      refine wp_initModuleContext h₅ (by simp) fun c₆ h₆ hs₆ hf₆ => ?_
      refine quiet_initStackBase _ _ fun _ _ => ?_
      refine quiet_initMemory _ _ fun _ _ => ?_
      rw [wp_stk]
      intro _ st htr
      have hm : Moves s c₆.stack := by
        have : Moves s c₅.stack := by
          rw [hc₅, hc₄]
          exact (Moves.of_used _).trans (Moves.of_used _)
        exact this.trans hs₆.moves
      obtain rfl : st = c₆.stack.truncate nextBase := by
        rw [StackM.truncate_of_le (hm.sp_eq ▸ hcs.2)] at htr
        cases htr
        rfl
      have ht : Fit ∅ (c₆.stack.truncate nextBase) := ⟨h₆.1.truncate (hm.notHiAt hcs.1), h₆.2⟩
      refine wp.mono (wp_forIn_list _ _ _ (fun _ _ c' => Fit ∅ c'.stack ∧ Frame c c') ?_
        ⟨ht, hf₃.trans (hf₄.trans (hf₅.trans (hf₆.trans ⟨rfl, rfl⟩)))⟩)
        fun _ c' hc' => hQ c' hc'.1 hc'.2
      rintro t rest _ c' ⟨hc', hfc'⟩
      simp only [wp_bind, wp_discard]
      exact wp_stk_keeps (keeps_pushValue t) hc' fun _ st _ hst => ⟨hst, hfc'.trans ⟨rfl, rfl⟩⟩
    simp -zeta only [wp_bind, wp_asm, wp_slot, wp_disp]
    intros
    rw [wp_ite]
    refine ⟨fun _ => ?_, fun _ => hjp₃ () _⟩
    rw [wp_bind, wp_asm]
    intro u x _
    exact hjp₃ u x
  have hm₂ : Moves c.stack c₂.stack := hm₁.trans hs₂.moves
  cases target with
  | direct i =>
    simp only at hT
    dsimp -zeta only
    rw [wp_bind]
    refine wp_allocate (c := c₂) (a := c₂.asm) h₂ (h₂.room_free (by simp [hT]))
      fun r c₄ h₄ hr₄ _ hs₄ hf₄ => ?_
    lift_lets
    intro jpd
    simp -zeta only [wp_bind, wp_asm, wp_disp]
    intros
    have hm₄ : Moves c.stack c₄.stack := hm₂.trans hs₄.moves
    rw [hT, Finset.insert_empty, Finset.pair_comm] at h₄
    have hr : r ≠ tmp := fun e => hr₄ (by simp [hT, e])
    rw [wp_ite]
    refine ⟨fun _ => ?_, fun _ => ?_⟩
    · simp only [jpd, wp_bind, wp_asm, wp_pure]
      intro _ _ _
      exact hjp r _ h₄ hr (by rw [hm₄.sp_eq]; exact hm₄.notHiAt hcut)
        (hf₁.trans (hf₂.trans hf₄))
    · simp only [jpd, wp_bind, wp_pure]
      exact hjp r _ h₄ hr (by rw [hm₄.sp_eq]; exact hm₄.notHiAt hcut)
        (hf₁.trans (hf₂.trans hf₄))
  | indirect fr =>
    simp only at hT
    rw [hT] at h₂ htmp
    simp only [wp_bind, wp_pure]
    exact hjp fr c₂ h₂ (fun e => htmp (by simp [e])) (by rw [hm₂.sp_eq]; exact hm₂.notHiAt hcut)
      (hf₁.trans hf₂)

theorem wp_call (h : Sound c) {f : UInt32}
    (hw : (Operation.call f).ReadsWhole c.fn.module c.stack.slots)
    {Q : Unit → Compiler → Prop} (hQ : ∀ c', Sound c' → Frame c c' → Q () c') :
    wp (call f) Q { c with asm := a } := by
  unfold call
  simp only [wp_bind, wp_fn]
  split
  · rename_i sig hsig
    exact wp_emitCall h.fit rfl (hw sig hsig) fun c' h' hf' =>
      hQ c' (h.of_frame h' hf') hf'
  · simp

theorem wp_callIndirect (h : Sound c) {ty tb : UInt32}
    (hw : (Operation.callIndirect ty tb).ReadsWhole c.fn.module c.stack.slots)
    {Q : Unit → Compiler → Prop} (hQ : ∀ c', Sound c' → Frame c c' → Q () c') :
    wp (callIndirect ty tb) Q { c with asm := a } := by
  obtain ⟨hidx, hargs⟩ := hw
  unfold callIndirect
  simp only [wp_bind, wp_fn]
  split
  rotate_left
  · simp
  rename_i sig hsig
  rw [wp_bind]
  refine wp_popToRegister h.fit (by simp) fun x n r c₁ ht hs₁ hr₁ h₁ hf₁ => ?_
  have hpop : c.stack.below n = { c.stack with slots := c.stack.slots.pop } :=
    (h.fit.1.topAt_scalar ht hidx).2
  rw [wp_bind, wp_regOf (Location.setRegister_reg x r), wp_bind]
  refine wp_allocate (a := c₁.asm) h₁ (h₁.room_free (by simp)) fun tmp c₂ h₂ htmp _ hs₂ hf₂ => ?_
  simp only [wp_bind, wp_asm, wp_disp, checkSignature]
  intros
  refine quiet_exit _ _ _ fun _ _ => ?_
  intros
  refine quiet_exit _ _ _ fun _ _ => ?_
  intros
  refine quiet_exit _ _ _ fun _ _ => ?_
  intros
  refine wp_releaseReg h₂ (h₂.1.temp_free tmp (Finset.mem_insert_self _ _))
    fun c₃ h₃ hc₃ hf₃ => ?_
  rw [Finset.erase_insert htmp] at h₃
  have hm : Moves { c.stack with slots := c.stack.slots.pop } c₃.stack := by
    rw [← hpop, hc₃]
    exact (hs₁.moves.trans hs₂.moves).trans (Moves.of_used _)
  have hcut : NotHiAt c₃.stack.slots (c₃.stack.sp - sig.paramSlots) := by
    rw [hm.sp_eq]
    simpa [ValueStack.sp] using hm.notHiAt (NotHiAt.pop (hargs sig hsig))
  rw [Finset.insert_empty] at h₃
  have hT : match CallTarget.indirect r with
      | .direct _ => ({r} : Finset Reg) = ∅
      | .indirect r' => ({r} : Finset Reg) = {r'} := rfl
  exact wp_emitCall (c := c₃) (a := c₃.asm) h₃ hT hcut fun c' h' hf' =>
    have hf := hf₁.trans (hf₂.trans (hf₃.trans hf'))
    hQ c' (h.of_frame h' hf) hf

theorem wp_select (h : Sound c) {v : Bool}
    (hw : (Operation.select v).ReadsWhole c.fn.module c.stack.slots)
    {Q : Unit → Compiler → Prop} (hQ : ∀ c', Sound c' → Frame c c' → Q () c') :
    wp (select v) Q { c with asm := a } := by
  unfold select
  rw [wp_bind]
  refine wp_popSlot (c := { c with asm := a }) h.fit hw fun cond _ hflag hdis h₀ => ?_
  rw [wp_bind]
  have hcard : (∅ ∪ cond.reg.toFinset).card + (∅ : Finset Reg).card < 9 := by
    have := card_union_reg ∅ cond
    simp only [Finset.card_empty] at this ⊢
    omega
  refine wp_loadDetached (c := { c with stack := { c.stack with slots := c.stack.slots.pop } })
    (a := a) h₀ (by simp) hcard (fun r hr => by simp [hr]) hflag
    fun rc c₁ h₁ hrc _ hs₁ hf₁ => ?_
  rw [Finset.union_sdiff_cancel_right hdis] at h₁
  rw [wp_bind]
  refine wp_popToRegister (a := c₁.asm) h₁ (by simp) fun x₂ n₂ r₂ c₂ ht₂ hs₂ hr₂ h₂ hf₂ => ?_
  rw [wp_bind]
  have hcard₂ : (insert r₂ (insert rc ∅) : Finset Reg).card + 1 < 9 := by
    have := Finset.card_le_two (a := r₂) (b := rc)
    simp only [Finset.insert_empty] at this ⊢
    omega
  refine wp_popToRegister (a := c₂.asm) h₂ hcard₂ fun x₁ n₁ r₁ c₃ ht₁ hs₃ hr₁ h₃ hf₃ => ?_
  simp -zeta only [wp_bind, wp_regOf (Location.setRegister_reg _ _), wp_asm]
  intro _ s₃ _
  have hne₂ : r₂ ≠ rc := by simpa using hr₂
  have hne₁ : r₁ ≠ r₂ ∧ r₁ ≠ rc := by simpa [not_or] using hr₁
  lift_lets
  intro jp
  have hjp : ∀ u s, wp (jp u) Q { c₃ with asm := s } := by
    intro u s
    simp only [jp, wp_bind]
    refine wp_release (c := c₃) (a := s) h₃ (fun r hr => ?_) fun c₄ h₄ hs₄ hf₄ => ?_
    · simp only [Location.setRegister_reg, Option.some.injEq] at hr
      exact h₃.1.temp_free r (by simp [hr])
    refine wp_release h₄ (fun r hr => ?_) fun c₅ h₅ hs₅ hf₅ => ?_
    · simp only [Location.setRegister_reg, Option.some.injEq] at hr
      subst hr
      exact h₄.1.temp_free r₂ (by simpa using hne₂)
    refine wp_pushRegister h₅ (by simp [hne₁.1, hne₁.2]) (by simpa using ht₁.whole)
      fun c₆ h₆ _ hf₆ => ?_
    have hempty : ((insert r₁ (insert r₂ (insert rc ∅)) \ (cond.setRegister rc).reg.toFinset) \
        (x₂.setRegister r₂).reg.toFinset).erase r₁ = ∅ :=
      Finset.eq_empty_of_forall_notMem fun x hx => by
        simp only [Location.setRegister_reg, Option.toFinset_some, Finset.mem_erase,
          Finset.mem_sdiff, Finset.mem_insert, Finset.mem_singleton, Finset.notMem_empty] at hx
        tauto
    rw [hempty] at h₆
    have hf := hf₁.trans (hf₂.trans (hf₃.trans (hf₄.trans (hf₅.trans hf₆))))
    exact hQ c₆ (h.of_frame h₆ hf) hf
  split
  · simp only [wp_bind, wp_asm]
    intros
    exact hjp () _
  · simp only [wp_bind, wp_asm]
    intros
    exact hjp () _

theorem wp_depthIndex {d : UInt32} {Q : Nat → Compiler → Prop}
    (hQ : 1 + d.toNat ≤ c.stack.sp → Q (c.stack.sp - 1 - d.toNat) c) :
    wp (depthIndex d) Q c := by
  unfold depthIndex
  simp only [wp_bind, wp_get, wp_ite, wp_throw, wp_pure]
  exact ⟨fun _ => by simp, fun hle => hQ (by omega)⟩

theorem wp_pick (h : Sound c) {d : UInt32} {v : Bool}
    (hw : (Operation.pick d v).ReadsWhole c.fn.module c.stack.slots)
    {Q : Unit → Compiler → Prop} (hQ : ∀ c', Sound c' → Frame c c' → Q () c') :
    wp (pick d v) Q { c with asm := a } := by
  unfold pick
  rw [wp_bind]
  refine wp_materializeTopFlag h.fit (by simp) fun c₁ h₁ hm₁ hf₁ _ => ?_
  rw [wp_bind]
  refine wp_depthIndex fun _ => ?_
  simp -zeta only [wp_bind]
  refine wp_stk_get fun l _ => ?_
  lift_lets
  intro kind
  rw [wp_bind]
  refine wp_allocate (a := c₁.asm) h₁ (h₁.room_free (by simp)) fun r c₂ h₂ _ _ hs₂ hf₂ => ?_
  rw [wp_bind]
  refine wp_stk_get fun picked hp => ?_
  have hhi : picked.type ≠ .v128hi := by
    have hn := (hm₁.trans hs₂.moves).notHiAt (n := c.stack.slots.size - 1 - d.toNat) hw
    rw [hm₁.sp_eq] at hp
    exact hn picked hp
  lift_lets
  intro push copy
  have hpush : ∀ u s, wp (push u) Q { c₂ with asm := s } := by
    intro u s
    refine wp_pushRegister (c := c₂) (a := s) h₂ (Finset.mem_insert_self r ∅) hhi
      fun c₃ h₃ _ hf₃ => ?_
    rw [Finset.erase_insert (Finset.notMem_empty r)] at h₃
    have hf := hf₁.trans (hf₂.trans hf₃)
    exact hQ c₃ (h.of_frame h₃ hf) hf
  split
  · simp [wp_bind]
  · simp only [copy]
    split
    · rw [wp_bind]
      exact quiet_movValue _ _ _ _ _ fun u s => hpush u s
    · rw [wp_bind]
      exact quiet_loadSlot _ _ _ _ _ fun u s => hpush u s

theorem wp_setDepth (h : Sound c) {d : UInt32} {v : Bool}
    (hw : (Operation.set d v).ReadsWhole c.fn.module c.stack.slots)
    {Q : Unit → Compiler → Prop} (hQ : ∀ c', Sound c' → Frame c c' → Q () c') :
    wp (setDepth d) Q { c with asm := a } := by
  unfold setDepth
  rw [wp_bind]
  refine wp_depthIndex fun _ => ?_
  rw [wp_bind]
  refine wp_popToRegister h.fit (by simp) fun x n r c₁ ht hs₁ _ h₁ hf₁ => ?_
  rw [wp_bind]
  refine wp_stk_get fun l hl => ?_
  have hhi : l.type ≠ .v128hi := hs₁.moves.notHiAt (NotHiAt.below hw n) l hl
  have hpair := h₁.1.pair_lt hl
  dsimp only at hl hpair
  lift_lets
  intro jp
  split
  · -- the value overwritten held a register: it is given back first
    rename_i old hold
    simp only [wp_bind, releaseReg, wp_stk, markUnused_eq]
    intro _ _ hm
    cases hm
    simp only [jp, wp_bind, wp_regOf (Location.setRegister_reg x r), wp_stk]
    intro _ _ hs
    rw [StackM.setRegister_eq (s := { c₁.stack with used := c₁.stack.used.erase old }) hl hpair]
      at hs
    cases hs
    have h₂ := h₁.1.reassign hl hold hhi (Finset.mem_insert_self r ∅)
    rw [Finset.erase_insert (Finset.notMem_empty r)] at h₂
    exact hQ _ (h.of_frame ⟨h₂, h₁.2⟩ hf₁) hf₁
  · rename_i hnone
    simp only [jp, wp_bind, wp_regOf (Location.setRegister_reg x r), wp_stk]
    intro _ _ hs
    rw [StackM.setRegister_eq hl hpair] at hs
    cases hs
    have hreg : l.reg = none := Option.eq_none_iff_forall_ne_some.mpr fun old e => hnone old e
    have h₂ := h₁.1.setRegister hl hreg hhi (Finset.mem_insert_self r ∅)
    rw [Finset.erase_insert (Finset.notMem_empty r)] at h₂
    exact hQ _ (h.of_frame ⟨h₂, h₁.2⟩ hf₁) hf₁

end OnePassJit.Amd64.Lower
