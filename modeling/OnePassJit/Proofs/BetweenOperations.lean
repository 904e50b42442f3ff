import OnePassJit.Proofs.Amd64.Lowering
import OnePassJit.Proofs.Arm64.Lowering

/-!
What both backends keep between two operations of a body.

After the preamble and after every label and lowered operation, the value stack is laid out
with no temporary: every slot records its own index, the used registers are exactly those
held by live values, and a register is held twice only by the two adjacent halves of one
vector. On arm64 a value in the condition flags can moreover only be the top one; amd64's
`global.get` pushes over a comparison left in the flags, so there the flag may sink.
No lowering on the way fails for want of registers.

This needs a body that never cuts a vector in two (`Operation.ReadsWhole` wherever an
operation is lowered). A body that drops only the upper half of a vector leaves its lower
half holding a register the allocator no longer counts as used.
-/

namespace OnePassJit

open ValueStack

/-- Between two operations of a well-stacked body, on either backend, the value stack is
laid out with no temporary, and on arm64 a value in the flags is the top one. No lowering
up to there fails for want of registers. -/
theorem stack_invariant_between_operations {ir : FunctionIr} {cfg : CompilerConfig}
    {ops₁ ops₂ : List Operation} (hops : ir.operations = ops₁ ++ ops₂) :
    (∀ c₀, Amd64.backend.start ir cfg = .ok c₀ →
      Amd64.backend.WellStacked cfg.ensureTermination
        (fun c op => op.ReadsWhole ir.module c.stack.slots) c₀ ir.operations →
      wp (Amd64.backend.prefixRun cfg.ensureTermination ops₁)
        (fun _ c => Layout c.stack ∅) c₀) ∧
    (∀ c₀, Arm64.backend.start ir cfg = .ok c₀ →
      Arm64.backend.WellStacked cfg.ensureTermination
        (fun c op => op.ReadsWhole ir.module c.stack.slots) c₀ ir.operations →
      wp (Arm64.backend.prefixRun cfg.ensureTermination ops₁)
        (fun _ c => Layout c.stack ∅ ∧ FlagTop c.stack) c₀) :=
  ⟨fun _ hstart hw => Amd64.layout_between_operations hstart hw hops,
    fun _ hstart hw => Arm64.flag_at_top_between_operations hstart hw hops⟩

def compareBody : FunctionIr :=
  FunctionIr.ofBody { params := [], results := [.i32] } {}
    [.constI32 2, .constI32 3, .add .i32, .constI32 5, .eq .i32]

theorem stack_invariant_of_compareBody :
    (∃ c₀, Amd64.backend.start compareBody {} = .ok c₀ ∧
      wp (Amd64.backend.prefixRun false compareBody.operations)
        (fun _ c => Layout c.stack ∅) c₀) ∧
    (∃ c₀, Arm64.backend.start compareBody {} = .ok c₀ ∧
      wp (Arm64.backend.prefixRun false compareBody.operations)
        (fun _ c => Layout c.stack ∅ ∧ FlagTop c.stack) c₀) := by
  have hreads : ∀ op ∈ compareBody.operations, ∀ xs, op.ReadsWhole compareBody.module xs := by
    intro op hop xs
    simp only [compareBody, FunctionIr.ofBody, List.mem_cons, List.not_mem_nil, or_false] at hop
    rcases hop with rfl | rfl | rfl | rfl | rfl <;> trivial
  have h := @stack_invariant_between_operations compareBody {} compareBody.operations []
    (List.append_nil _).symm
  exact ⟨⟨_, rfl, h.1 _ rfl (Backend.wellStacked_of_readsWhole _ _ _ hreads)⟩,
    ⟨_, rfl, h.2 _ rfl (Backend.wellStacked_of_readsWhole _ _ _ hreads)⟩⟩

def splitVectorBody : FunctionIr :=
  FunctionIr.ofBody { params := [], results := [.i64, .i64] } {}
    [.v128Const 11 22, .drop (some ⟨0, 0⟩)]

/-- Dropping only the upper half of a vector releases the register its lower half still
holds: after the drop, the used registers are not those held by live values. -/
theorem vector_split_leaves_register_unrecorded :
    ∃ c₀, Amd64.backend.start splitVectorBody {} = .ok c₀ ∧
      ¬ wp (Amd64.backend.prefixRun false splitVectorBody.operations)
        (fun _ c => Layout c.stack ∅) c₀ := by
  refine ⟨_, rfl, fun hw => ?_⟩
  have hrun : ((Amd64.backend.prefixRun false splitVectorBody.operations
      { stack := ValueStack.new Amd64.gpPool Amd64.vecPool, fn := splitVectorBody,
        listener := false, features := {} }).toOption.map
        fun p => (p.2.stack.slots[5]?, p.2.stack.used)) =
      some (some ⟨.v128lo, some ⟨1, 0⟩, none, 5⟩, {}) := by
    decide +kernel
  cases h : Amd64.backend.prefixRun false splitVectorBody.operations
      { stack := ValueStack.new Amd64.gpPool Amd64.vecPool, fn := splitVectorBody,
        listener := false, features := {} } with
  | error e =>
    rw [h] at hrun
    cases hrun
  | ok p =>
    rw [h] at hrun
    simp only [Except.toOption, Option.map_some, Option.some.injEq, Prod.mk.injEq] at hrun
    rw [wp_ok h] at hw
    have hheld : p.2.stack.Holds ⟨1, 0⟩ := mem_regsOf.mpr ⟨5, _, hrun.1, rfl⟩
    have hused := (hw.used_iff ⟨1, 0⟩).mpr (Or.inl hheld)
    rw [hrun.2] at hused
    exact absurd hused (by decide)

end OnePassJit
