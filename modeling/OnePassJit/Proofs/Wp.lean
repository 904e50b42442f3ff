import OnePassJit.Error

/-!
What a compilation step guarantees, as a weakest precondition.

Both backends lower an operation as a state transformer that may fail, over their own
compiler state `σ`. `wp m Q c` says: run from `c`, the step `m` either fails for some
other reason than running out of registers, or answers `a` in a state `c'` with
`Q a c'`. Failing is allowed because a lowering may reject its input (an index out of
range, a value the encoder cannot take); a register shortage is not, as the allocator
must always find a register or a value to spill.

The equations below follow the shape of `do` blocks, so a lowering is proved by
following its text: `wp_bind` peels one step, `wp.mono` applies a step's own lemma, and
`wp_forIn_list` runs a loop with an invariant.
-/

namespace OnePassJit

def CompileError.Routine (e : CompileError) : Prop := ∀ k, e ≠ .registerAllocation k

@[simp] theorem CompileError.routine_iff {e : CompileError} :
    e.Routine ↔ ∀ k, e ≠ .registerAllocation k := Iff.rfl

def wp {σ α : Type} (m : StateT σ (Except CompileError) α) (Q : α → σ → Prop) (c : σ) : Prop :=
  match m c with
  | .ok (a, c') => Q a c'
  | .error e => e.Routine

def Spec {σ α : Type} (P : σ → Prop) (m : StateT σ (Except CompileError) α)
    (Q : α → σ → Prop) : Prop :=
  ∀ c, P c → wp m Q c

section

variable {σ α β : Type} {c : σ} {Q Q' : α → σ → Prop}

theorem wp_ok {m : StateT σ (Except CompileError) α} {a : α} {c' : σ}
    (h : m c = .ok (a, c')) : wp m Q c ↔ Q a c' := by
  simp only [wp, h]

theorem wp_error {m : StateT σ (Except CompileError) α} {e : CompileError}
    (h : m c = .error e) : wp m Q c ↔ e.Routine := by
  simp only [wp, h]

theorem wp.mono {m : StateT σ (Except CompileError) α} (h : wp m Q c)
    (hq : ∀ a c', Q a c' → Q' a c') : wp m Q' c := by
  unfold wp at *
  split
  · rename_i a c' he
    rw [he] at h
    exact hq a c' h
  · rename_i e he
    rw [he] at h
    exact h

@[simp] theorem wp_pure (a : α) : wp (pure a : StateT σ (Except CompileError) α) Q c ↔ Q a c :=
  Iff.rfl

theorem wp_bind (m : StateT σ (Except CompileError) α)
    (f : α → StateT σ (Except CompileError) β) {Q : β → σ → Prop} :
    wp (m >>= f) Q c ↔ wp m (fun a c' => wp (f a) Q c') c := by
  show (match (m c >>= fun p => f p.1 p.2) with
    | .ok (a, c') => Q a c'
    | .error e => e.Routine) ↔ _
  unfold wp
  cases m c with
  | error e => rfl
  | ok p => rfl

theorem wp_map (f : α → β) (m : StateT σ (Except CompileError) α) {Q : β → σ → Prop} :
    wp (f <$> m) Q c ↔ wp m (fun a c' => Q (f a) c') c := by
  show (match (m c >>= fun p => pure (f p.1, p.2)) with
    | .ok (a, c') => Q a c'
    | .error e => e.Routine) ↔ _
  unfold wp
  cases m c with
  | error e => rfl
  | ok p => rfl

theorem wp_seqRight (m : StateT σ (Except CompileError) α)
    (k : StateT σ (Except CompileError) β) {Q : β → σ → Prop} :
    wp (m *> k) Q c ↔ wp m (fun _ c' => wp k Q c') c := by
  show (match (m c >>= fun p => k p.2) with
    | .ok (a, c') => Q a c'
    | .error e => e.Routine) ↔ _
  unfold wp
  cases m c with
  | error e => rfl
  | ok p => rfl

theorem wp_discard (m : StateT σ (Except CompileError) α) {Q : PUnit → σ → Prop} :
    wp (discard m) Q c ↔ wp m (fun _ c' => Q () c') c := by
  simp only [discard, Functor.mapConst, Function.comp, StateT.map, wp]
  cases m c with
  | error e => rfl
  | ok p => rfl

@[simp] theorem wp_get {Q : σ → σ → Prop} :
    wp (get : StateT σ (Except CompileError) σ) Q c ↔ Q c c := Iff.rfl

@[simp] theorem wp_getThe {Q : σ → σ → Prop} :
    wp (getThe σ : StateT σ (Except CompileError) σ) Q c ↔ Q c c := Iff.rfl

@[simp] theorem wp_set (c' : σ) {Q : PUnit → σ → Prop} :
    wp (set c' : StateT σ (Except CompileError) PUnit) Q c ↔ Q () c' := Iff.rfl

@[simp] theorem wp_modify (f : σ → σ) {Q : PUnit → σ → Prop} :
    wp (modify f : StateT σ (Except CompileError) PUnit) Q c ↔ Q () (f c) := Iff.rfl

@[simp] theorem wp_modifyGet (f : σ → α × σ) :
    wp (modifyGet f : StateT σ (Except CompileError) α) Q c ↔ Q (f c).1 (f c).2 := Iff.rfl

@[simp] theorem wp_throw (e : CompileError) :
    wp (throw e : StateT σ (Except CompileError) α) Q c ↔ e.Routine := Iff.rfl

@[simp] theorem wp_ite {p : Prop} [Decidable p] {m₁ m₂ : StateT σ (Except CompileError) α} :
    wp (if p then m₁ else m₂) Q c ↔ (p → wp m₁ Q c) ∧ (¬p → wp m₂ Q c) := by
  by_cases hp : p <;> simp [hp]

/-- A `for` loop over a list keeps an invariant indexed by the elements still to run. -/
theorem wp_forIn_list {γ : Type} (xs : List γ) (b : β)
    (f : γ → β → StateT σ (Except CompileError) (ForInStep β))
    (I : List γ → β → σ → Prop)
    (hstep : ∀ x rest b c, I (x :: rest) b c → wp (f x b)
      (fun r c' => match r with
        | .yield b' => I rest b' c'
        | .done b' => I [] b' c') c)
    (hc : I xs b c) :
    wp (forIn xs b f) (fun b' c' => I [] b' c') c := by
  induction xs generalizing b c with
  | nil => exact hc
  | cons x rest ih =>
    rw [List.forIn_cons, wp_bind]
    refine (hstep x rest b c hc).mono fun r c' h => ?_
    cases r with
    | done b' => exact h
    | yield b' => exact ih b' h

end

end OnePassJit
