import Mathlib.Data.List.Induction
import OnePassJit.Backend
import OnePassJit.Proofs.Residence
import OnePassJit.Proofs.Wp

/-!
The one-pass compilation of a body as a run of steps.

`lowerBody` is a loop over the operations with two loop variables, the dead-code flag and
the count. `Backend.step` is one turn of that loop, and `lowerBody_eq` says the loop is a
fold of it, so the states the compilation passes through between two operations are the
results of `prefixRun` over the prefixes of the body.

`wp_prefixRun` is the run lemma every invariant of the compiler state goes through: an
invariant the preamble establishes and every step keeps holds after every prefix, and no
step on the way runs out of registers. A step may need more of the state than the
invariant, namely what the operation reads (`reads`); a body is `WellStacked` when every
operation that is lowered, dead code aside, finds it.
-/

namespace OnePassJit.Backend

variable {σ α : Type} (b : Backend σ α) (e : Bool)

/-- One turn of the body loop: bind a label, or lower an operation unless it is dead. -/
def step (st : Bool × Nat) : Operation → StateT σ (Except CompileError) (Bool × Nat)
  | .label l => do
    let skip ← b.bindLabel l
    if !skip && e && l.kind == .header then b.checkExitCode
    pure (skip, st.2)
  | op => if !st.1 then do b.lower op; pure (st.1, st.2 + 1) else pure st

theorem lowerBody_eq (ops : List Operation) :
    b.lowerBody e ops = Prod.snd <$> ops.foldlM (b.step e) (false, 0) := by
  unfold lowerBody
  simp only [map_eq_pure_bind]
  congr 1
  generalize (false, 0) = st
  induction ops generalizing st with
  | nil => rfl
  | cons op ops ih =>
    rw [List.forIn_cons, List.foldlM_cons]
    simp only [← ih]
    split
    · simp only [step, bind_assoc]
      congr 1
      funext skip
      split <;> simp
    · rename_i op hop
      rw [step.eq_2 _ _ _ _ hop]
      split <;> simp

/-- The compilation of a function with a body, up to the end of `ops`: the preamble, then
the operations of `ops`. -/
def prefixRun (ops : List Operation) : StateT σ (Except CompileError) (Bool × Nat) := do
  b.preamble
  ops.foldlM (b.step e) (false, 0)

theorem prefixRun_append_singleton (ops : List Operation) (op : Operation) :
    b.prefixRun e (ops ++ [op]) = b.prefixRun e ops >>= fun st => b.step e st op := by
  simp only [prefixRun, List.foldlM_append, List.foldlM_cons, List.foldlM_nil, bind_pure,
    bind_assoc]

/-- Every operation lowered from `c₀` on, dead code aside, finds what it reads
(`reads c op`) in the state `c` it is lowered in. -/
def WellStacked (reads : σ → Operation → Prop) (c₀ : σ) (ops : List Operation) : Prop :=
  ∀ ops₁ op ops₂, ops = ops₁ ++ op :: ops₂ → ∀ n c,
    b.prefixRun e ops₁ c₀ = .ok ((false, n), c) → reads c op

end OnePassJit.Backend

namespace OnePassJit

open ValueStack

def DropRange.Whole (xs : Array Location) : Option DropRange → Prop
  | none => True
  | some r => NotHiAt xs (xs.size - r.start.toNat) ∧ NotHiAt xs (xs.size - 1 - r.stop.toNat)

def Operation.ReadsWhole (m : ModuleDecls) (xs : Array Location) : Operation → Prop
  | .brIf t e => NotHiAt xs (xs.size - 1) ∧ DropRange.Whole xs.pop t.drop ∧
      DropRange.Whole xs.pop e.drop
  | .brTable ts d => NotHiAt xs (xs.size - 1) ∧ ∀ t ∈ ts ++ [d], DropRange.Whole xs.pop t.drop
  | .drop r => DropRange.Whole xs r
  | .select _ => NotHiAt xs (xs.size - 1)
  | .pick d _ => NotHiAt xs (xs.size - 1 - d.toNat)
  | .set d _ => NotHiAt xs (xs.size - 1 - d.toNat)
  | .call f => ∀ sig, m.functionSignature? f.toNat = some sig →
      NotHiAt xs (xs.size - sig.paramSlots)
  | .callIndirect ty _ => NotHiAt xs (xs.size - 1) ∧ ∀ sig, m.types[ty.toNat]? = some sig →
      NotHiAt xs (xs.size - 1 - sig.paramSlots)
  | .memoryGrow => NotHiAt xs (xs.size - 1)
  | .tableGrow _ => NotHiAt xs (xs.size - 2)
  | _ => True

theorem Backend.wellStacked_of_readsWhole {σ α : Type} (b : Backend σ α) (e : Bool)
    {m : ModuleDecls} (slots : σ → Array Location) {c₀ : σ} {ops : List Operation}
    (h : ∀ op ∈ ops, ∀ xs, op.ReadsWhole m xs) :
    b.WellStacked e (fun c op => op.ReadsWhole m (slots c)) c₀ ops := by
  intro ops₁ op ops₂ hops _ c _
  exact h op (by simp [hops]) (slots c)

theorem ValueStack.NotHiAt.pop {xs : Array Location} {k : Nat} (h : NotHiAt xs k) : NotHiAt xs.pop k := by
  intro l hl
  rw [Array.getElem?_pop] at hl
  split at hl
  · exact h l hl
  · cases hl

theorem ValueStack.NotHiAt.below {s : ValueStack} {k : Nat} (h : NotHiAt s.slots k) (n : Nat) :
    NotHiAt (s.below n).slots k := by
  intro l hl
  simp only [ValueStack.below, Array.getElem?_extract] at hl
  split at hl
  · exact h l (by simpa using hl)
  · cases hl

theorem DropRange.Whole.moves {s s' : ValueStack} (h : Moves s s') {r : Option DropRange}
    (hw : DropRange.Whole s.slots r) : DropRange.Whole s'.slots r := by
  cases r with
  | none => trivial
  | some r =>
    rw [DropRange.Whole, h.size_eq]
    exact ⟨h.notHiAt hw.1, h.notHiAt hw.2⟩

theorem DropRange.len_of_start_zero {r : DropRange} (h : r.start = 0) :
    r.len.toNat = r.stop.toNat + 1 ∨ r.len.toNat = 0 := by
  have hlt := r.stop.toNat_lt
  simp only [DropRange.len, h, UInt32.sub_zero, UInt32.toNat_add, UInt32.reduceToNat]
  by_cases hs : r.stop.toNat + 1 < 4294967296
  · exact .inl (Nat.mod_eq_of_lt hs)
  · right
    have : r.stop.toNat + 1 = 4294967296 := by omega
    rw [this]

end OnePassJit

namespace OnePassJit.Backend

variable {σ α : Type} (b : Backend σ α) (e : Bool)

section Run

variable {b e} {I : σ → Prop} {reads : σ → Operation → Prop}

theorem wp_step {J : List Operation → σ → Prop}
    (hlabel : ∀ ops c l, J ops c → wp (b.bindLabel l) (fun _ => J (ops ++ [.label l])) c)
    (hexit : ∀ ops c, J ops c → wp b.checkExitCode (fun _ => J ops) c)
    (hlower : ∀ ops c op, J ops c → (∀ l, op ≠ .label l) → reads c op →
      wp (b.lower op) (fun _ => J (ops ++ [op])) c)
    (hskip : ∀ ops c op, J ops c → (∀ l, op ≠ .label l) → J (ops ++ [op]) c)
    {ops : List Operation} {c : σ} (hc : J ops c) {st : Bool × Nat} {op : Operation}
    (hr : st.1 = false → reads c op) :
    wp (b.step e st op) (fun _ => J (ops ++ [op])) c := by
  by_cases hop : ∃ l, op = .label l
  · obtain ⟨l, rfl⟩ := hop
    simp only [step, wp_bind]
    refine (hlabel ops c l hc).mono fun skip c' hc' => ?_
    split
    · rw [wp_bind]
      exact (hexit _ c' hc').mono fun _ c'' h => h
    · exact hc'
  · have hne : ∀ l, op ≠ .label l := fun l h => hop ⟨l, h⟩
    rw [step.eq_2 _ _ _ _ hne]
    simp only [Bool.not_eq_true', wp_ite, wp_bind, wp_pure]
    exact ⟨fun hs => (hlower ops c _ hc hne (hr hs)).mono fun _ _ h => h,
      fun _ => hskip ops c op hc hne⟩

theorem wp_prefixRun_indexed {c₀ : σ} {ops : List Operation} (hw : b.WellStacked e reads c₀ ops)
    {J : List Operation → σ → Prop}
    (hpre : wp b.preamble (fun _ => J []) c₀)
    (hlabel : ∀ ops c l, J ops c → wp (b.bindLabel l) (fun _ => J (ops ++ [.label l])) c)
    (hexit : ∀ ops c, J ops c → wp b.checkExitCode (fun _ => J ops) c)
    (hlower : ∀ ops c op, J ops c → (∀ l, op ≠ .label l) → reads c op →
      wp (b.lower op) (fun _ => J (ops ++ [op])) c)
    (hskip : ∀ ops c op, J ops c → (∀ l, op ≠ .label l) → J (ops ++ [op]) c) :
    ∀ ops₁ ops₂, ops = ops₁ ++ ops₂ → wp (b.prefixRun e ops₁) (fun _ => J ops₁) c₀ := by
  intro ops₁
  induction ops₁ using List.reverseRecOn with
  | nil =>
    intro _ _
    simp only [prefixRun, List.foldlM_nil, wp_bind, wp_pure]
    exact hpre
  | append_singleton ops₁ op ih =>
    intro ops₂ hops
    have hprefix := ih (op :: ops₂) (by simp [hops])
    rw [prefixRun_append_singleton, wp_bind]
    cases hrun : b.prefixRun e ops₁ c₀ with
    | error err =>
      rwa [wp_error hrun] at hprefix ⊢
    | ok p =>
      obtain ⟨⟨skip, n⟩, c⟩ := p
      rw [wp_ok hrun] at hprefix ⊢
      refine wp_step hlabel hexit hlower hskip hprefix fun hs => ?_
      subst hs
      exact hw ops₁ op ops₂ (by simp [hops]) n c hrun

/-- The run lemma for an invariant of the state alone. -/
theorem wp_prefixRun {c₀ : σ} {ops : List Operation} (hw : b.WellStacked e reads c₀ ops)
    (hpre : wp b.preamble (fun _ => I) c₀)
    (hlabel : ∀ c l, I c → wp (b.bindLabel l) (fun _ => I) c)
    (hexit : ∀ c, I c → wp b.checkExitCode (fun _ => I) c)
    (hlower : ∀ c op, I c → (∀ l, op ≠ .label l) → reads c op →
      wp (b.lower op) (fun _ => I) c) :
    ∀ ops₁ ops₂, ops = ops₁ ++ ops₂ → wp (b.prefixRun e ops₁) (fun _ => I) c₀ :=
  wp_prefixRun_indexed (J := fun _ => I) hw hpre (fun _ c l hc => hlabel c l hc)
    (fun _ c hc => hexit c hc) (fun _ c op hc hop hr => hlower c op hc hop hr)
    (fun _ _ _ hc _ => hc)

end Run

end OnePassJit.Backend
