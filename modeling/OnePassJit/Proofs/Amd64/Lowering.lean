import OnePassJit.Proofs.Amd64.Memory
import OnePassJit.Proofs.Amd64.Vector
import OnePassJit.Amd64.Lower

/-!
Every amd64 lowering keeps the layout, and so does a whole compilation.

`wp_operation` collects the lemmas of the lowerings: from a sound state, an operation
that reads whole values ends in a sound state of the same function, or fails for
another reason than a register shortage. With the preamble, label binding and the exit
code check it gives the invariant of the run lemma, and `layout_between_operations`
states what it says of the value stack after every prefix of a body.
-/

namespace OnePassJit.Amd64.Lower

open ValueStack StackM

variable {c : Compiler} {a : Assembler} {Q : Unit → Compiler → Prop}

theorem wp_checkExitCode (h : Sound c) (hQ : ∀ c', Sound c' → Frame c c' → Q () c') :
    wp checkExitCode Q { c with asm := a } := by
  unfold checkExitCode
  rw [wp_bind]
  refine wp_releaseAllToStack h.fit (by simp) fun c₁ h₁ _ _ hf₁ => ?_
  exact quiet_callBuiltin _ c₁ _ fun _ s => h.finish (c := { c₁ with asm := s }) h₁ hf₁ hQ

/-- Every operation but a label, lowered from a sound state and reading whole values; only
a branch touches the label table, at its own targets. -/
theorem wp_operation (h : Sound c) {op : Operation} (hop : ∀ l, op ≠ .label l)
    (hw : op.ReadsWhole c.fn.module c.stack.slots)
    (hQ : ∀ c', Sound c' → Grown (· ∈ op.branchLabels) c c' → Q () c') :
    wp (operation op) Q { c with asm := a } := by
  have hQ' : ∀ c', Sound c' → Frame c c' → Q () c' := fun c' h' hf => hQ c' h' (.of_frame hf)
  cases op
  case label l => exact absurd rfl (hop l)
  case unreachable => exact quiet_exit _ _ _ fun _ _ => hQ' _ ⟨h.1, h.2⟩ Frame.rfl'
  case drop r => exact wp_dropRange h.fit (by simp) hw fun c' h' hf' => h.finish h' hf' hQ'
  case br l =>
    exact wp_branchInto h l fun c' h' hb =>
      hQ c' h' (hb.toGrown.mono fun l' hl' => by simp [Operation.branchLabels, hl'])
  case brIf t e => exact wp_brIf h hw hQ
  case brTable ts d => exact wp_brTable h hw hQ
  case load t _ | load8 t _ | load16 t _ =>
    cases t <;> dsimp only [operation] <;> with_reducible first
      | exact wp_loadInt h _ _ (by decide) _ hQ'
      | exact wp_loadVector h _ (by decide) _ hQ'
  all_goals dsimp only [operation]
  all_goals with_reducible first
    | exact wp_call h hw hQ'
    | exact wp_callIndirect h hw hQ'
    | exact wp_select h hw hQ'
    | exact wp_pick h hw hQ'
    | exact wp_setDepth h hw hQ'
    | exact wp_globalGet h _ hQ'
    | exact wp_globalSet h _ hQ'
    | exact wp_loadInt h _ _ (by decide) _ hQ'
    | exact wp_loadVector h _ (by decide) _ hQ'
    | exact wp_store h _ _ hQ'
    | exact wp_memorySize h hQ'
    | exact wp_memoryGrow h hw hQ'
    | exact wp_constInt h (by decide) _ hQ'
    | exact wp_constFloat h _ _ hQ'
    | exact wp_eqOrNe h _ _ hQ'
    | exact wp_eqz h _ hQ'
    | exact wp_compare h _ _ hQ'
    | exact wp_addSubMul h _ _ hQ'
    | exact wp_clz h _ hQ'
    | exact wp_ctz h _ hQ'
    | exact wp_popcnt h _ hQ'
    | exact wp_div h _ hQ'
    | exact wp_intDivision h _ _ hQ'
    | exact wp_bitwise h _ _ hQ'
    | exact wp_shift h _ _ hQ'
    | exact wp_signMask h _ _ hQ'
    | exact wp_round h _ _ hQ'
    | exact wp_sqrt h _ hQ'
    | exact wp_minMax h _ _ hQ'
    | exact wp_copysign h _ hQ'
    | exact wp_wrap h hQ'
    | exact wp_truncToInt h _ _ _ hQ'
    | exact wp_convertFromInt h _ _ hQ'
    | exact wp_demote h hQ'
    | exact wp_promote h hQ'
    | exact wp_reinterpret h (by decide) hQ'
    | exact wp_extend h _ hQ'
    | exact wp_signExtend h _ _ hQ'
    | exact wp_memoryInit h _ hQ'
    | exact wp_segmentDrop h _ _ hQ'
    | exact wp_memoryCopy h hQ'
    | exact wp_memoryFill h hQ'
    | exact wp_tableInit h _ _ hQ'
    | exact wp_tableCopy h _ _ hQ'
    | exact wp_refFunc h _ hQ'
    | exact wp_tableGet h _ hQ'
    | exact wp_tableSet h _ hQ'
    | exact wp_tableSize h _ hQ'
    | exact wp_tableGrow h hw hQ'
    | exact wp_tableFill h _ hQ'
    | exact wp_v128Const h _ _ hQ'
    | exact wp_v128Binary h _ hQ'
    | exact wp_v128Not h hQ'
    | exact wp_v128Splat h _ hQ'
    | exact wp_v128ExtractLane h _ _ _ hQ'
    | exact wp_v128ReplaceLane h _ _ hQ'
    | exact wp_v128AnyTrue h hQ'
    | exact wp_checkExitCode h hQ'

end OnePassJit.Amd64.Lower

namespace OnePassJit.Amd64

open Lower ValueStack

theorem Compiler.start_ok {ir : FunctionIr} {cfg : CompilerConfig} {c₀ : Compiler}
    (h : Compiler.start ir cfg = .ok c₀) :
    c₀.stack = ValueStack.new gpPool vecPool ∧ c₀.labels = {} ∧ c₀.fn = ir := by
  unfold Compiler.start at h
  cases hf : cfg.features.checkRequired with
  | error e =>
    rw [hf] at h
    cases h
  | ok u =>
    rw [hf] at h
    cases h
    exact ⟨rfl, rfl, rfl⟩

/-- Between two operations of a well-stacked body, the amd64 value stack is laid out with no
temporary: every slot records its own index, the used registers are exactly those held by
live values, and a register is held twice only by the adjacent halves of one vector. No
lowering up to there fails for want of registers. -/
theorem layout_between_operations {ir : FunctionIr} {cfg : CompilerConfig} {c₀ : Compiler}
    (hstart : backend.start ir cfg = .ok c₀)
    (hw : backend.WellStacked cfg.ensureTermination
      (fun c op => op.ReadsWhole ir.module c.stack.slots) c₀ ir.operations)
    {ops₁ ops₂ : List Operation} (hops : ir.operations = ops₁ ++ ops₂) :
    wp (backend.prefixRun cfg.ensureTermination ops₁) (fun _ c => Layout c.stack ∅) c₀ := by
  obtain ⟨hstack, hlabels, hfn⟩ := Compiler.start_ok hstart
  have hrun := Backend.wp_prefixRun (I := fun c => Sound c ∧ c.fn = ir) hw
    (wp_preamble (by rw [hstack]; rfl) (by rw [hstack]; rfl) fun c' h' hf' =>
      ⟨⟨h', by rw [hf'.1, hlabels]; exact LabelTable.entries_empty⟩, hf'.2.trans hfn⟩)
    (fun c l hc => (wp_bindLabel hc.1 l).mono fun _ c' h' => ⟨h'.1, h'.2.1.trans hc.2⟩)
    (fun c hc => wp_checkExitCode (a := c.asm) hc.1 fun c' h' hf' => ⟨h', hf'.2.trans hc.2⟩)
    (fun c op hc hop hr => wp_operation (a := c.asm) hc.1 hop (by rw [hc.2]; exact hr)
      fun c' h' hg' => ⟨h', hg'.fn.trans hc.2⟩)
    ops₁ ops₂ hops
  exact hrun.mono fun _ c hc => hc.1.fit.1

end OnePassJit.Amd64
