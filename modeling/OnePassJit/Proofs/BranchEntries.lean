import OnePassJit.Proofs.Amd64.Lowering
import OnePassJit.Proofs.Arm64.Lowering

/-!
The stacks a label is entered with, on both backends.

A label's code is compiled under the stack its first branch site recorded: binding adopts
it. A later branch site to the label finds it reached, and a label reached before a site is
a target of an operation already lowered, so the body counts more than one site for it.
Such a site, like the entry it found, holds every value in memory (`Settled`), and two laid
out stacks with every value in memory and the same slot types hold the same slots. A label
with one counted site is entered only from that site, with the stack it records.

The run invariant is indexed by the operations lowered so far (`EntryDiscipline`), so the
run lemma used is `Backend.wp_prefixRun_indexed`.
-/

namespace OnePassJit.Amd64

open Lower ValueStack

theorem entry_discipline_between_operations {ir : FunctionIr} {cfg : CompilerConfig}
    {c₀ : Compiler} (hstart : backend.start ir cfg = .ok c₀)
    (hw : backend.WellStacked cfg.ensureTermination
      (fun c op => op.ReadsWhole ir.module c.stack.slots) c₀ ir.operations)
    {ops₁ ops₂ : List Operation} (hops : ir.operations = ops₁ ++ ops₂) :
    wp (backend.prefixRun cfg.ensureTermination ops₁)
      (fun _ c => Sound c ∧ c.fn = ir ∧ EntryDiscipline ir.labelCallers ops₁ c.labels) c₀ := by
  obtain ⟨hstack, hlabels, hfn⟩ := Compiler.start_ok hstart
  have hrun := Backend.wp_prefixRun_indexed
    (J := fun ops c => Sound c ∧ c.fn = ir ∧ EntryDiscipline ir.labelCallers ops c.labels) hw
    (wp_preamble (by rw [hstack]; rfl) (by rw [hstack]; rfl) fun c' h' hf' =>
      ⟨⟨h', by rw [hf'.1, hlabels]; exact LabelTable.entries_empty⟩, hf'.2.trans hfn,
        by rw [hf'.1, hlabels]; exact .empty⟩)
    (fun _ c l hc => (wp_bindLabel hc.1 l).mono fun _ c' h' =>
      ⟨h'.1, h'.2.1.trans hc.2.1, hc.2.2.grows ((h'.2.2.1 _).mono fun _ h => h.elim)⟩)
    (fun _ c hc => wp_checkExitCode (a := c.asm) hc.1 fun c' h' hf' =>
      ⟨h', hf'.2.trans hc.2.1, by rw [hf'.1]; exact hc.2.2⟩)
    (fun _ c op hc hop hr => wp_operation (a := c.asm) hc.1 hop (by rw [hc.2.1]; exact hr)
      fun c' h' hg' => ⟨h', hg'.fn.trans hc.2.1, hc.2.2.grows (hc.2.1 ▸ hg'.grows)⟩)
    (fun _ _ op hc _ => ⟨hc.1, hc.2.1, hc.2.2.append op⟩)
    ops₁ ops₂ hops
  exact hrun

end OnePassJit.Amd64

namespace OnePassJit.Arm64

open Lower ValueStack

theorem entry_discipline_between_operations {ir : FunctionIr} {cfg : CompilerConfig}
    {c₀ : Compiler} (hstart : backend.start ir cfg = .ok c₀)
    (hw : backend.WellStacked cfg.ensureTermination
      (fun c op => op.ReadsWhole ir.module c.stack.slots) c₀ ir.operations)
    {ops₁ ops₂ : List Operation} (hops : ir.operations = ops₁ ++ ops₂) :
    wp (backend.prefixRun cfg.ensureTermination ops₁)
      (fun _ c => Sound c ∧ c.fn = ir ∧ EntryDiscipline ir.labelCallers ops₁ c.labels) c₀ := by
  obtain ⟨hstack, hlabels, hfn⟩ := Compiler.start_ok hstart
  have hrun := Backend.wp_prefixRun_indexed
    (J := fun ops c => Sound c ∧ c.fn = ir ∧ EntryDiscipline ir.labelCallers ops c.labels) hw
    (wp_preamble (by rw [hstack]; rfl) (by rw [hstack]; rfl) fun c' h' hn' hf' =>
      ⟨⟨h', hn'.flagTop, by rw [hf'.1, hlabels]; exact LabelTable.entries_empty⟩,
        hf'.2.trans hfn, by rw [hf'.1, hlabels]; exact .empty⟩)
    (fun _ c l hc => (wp_bindLabel hc.1 l).mono fun _ c' h' =>
      ⟨h'.1, h'.2.1.trans hc.2.1, hc.2.2.grows ((h'.2.2.1 _).mono fun _ h => h.elim)⟩)
    (fun _ c hc => wp_checkExitCode (a := c.asm) hc.1 fun c' h' hf' =>
      ⟨h', hf'.2.trans hc.2.1, by rw [hf'.1]; exact hc.2.2⟩)
    (fun _ c op hc hop hr => wp_operation (a := c.asm) hc.1 hop (by rw [hc.2.1]; exact hr)
      fun c' h' hg' => ⟨h', hg'.fn.trans hc.2.1, hc.2.2.grows (hc.2.1 ▸ hg'.grows)⟩)
    (fun _ _ op hc _ => ⟨hc.1, hc.2.1, hc.2.2.append op⟩)
    ops₁ ops₂ hops
  exact hrun

end OnePassJit.Arm64

namespace OnePassJit

open ValueStack

theorem Settled.slots_eq_of_site {cs : LabelCallers} {l : Label} {s e : ValueStack}
    {o o' : Option ValueStack} (hs : Layout s ∅) (he : Layout e ∅) (hss : Settled cs l s)
    (hse : Settled cs l e) (hentry : o' = (o <|> some s))
    (hsite : o = none ∧ o' = some e ∨ 1 < cs.count l)
    (ht : e.slots.map (·.type) = s.slots.map (·.type)) : s.slots = e.slots := by
  rcases hsite with ⟨hnone, hrec⟩ | hc
  · rw [hentry, hnone] at hrec
    obtain rfl : s = e := by simpa using hrec
    rfl
  · exact hs.slots_eq_of_inMemory he (hss hc) (hse hc) ht.symm

def backEdgeBody : FunctionIr :=
  FunctionIr.ofBody { params := [], results := [] } {}
    [.constI32 7, .br ⟨.header, 0⟩, .label ⟨.header, 0⟩, .br ⟨.header, 0⟩]

end OnePassJit
