import OnePassJit.Amd64.Emit
import OnePassJit.Proofs.Machine.Exec

/-!
Running the code a lowering step emits.

A compiled function is laid out as a program: `Code` holds the instructions of its
assembler at addresses `addr`, branches aimed at the addresses of the instructions their
labels are bound to. A lowering step `m` run from compiler state `c` appends code to
`c`'s; `Runs K X m Q c M` says that the machine, started in `M` at the first address of
that code, either reaches the end of the code in a state `Q` or leaves it in a state `X`
(an exit to the host, or a branch to a label further on). Every step only appends
instructions and binds new labels (`Grows`), so the code of a step is still in place at
the end of the function, which is what `Code` holds.

The rules follow the shape of `do` blocks: `Runs.bind` runs one step and then the rest,
`Runs.emit` runs one emitted instruction, and steps that emit nothing keep the machine
where it is.
-/

namespace OnePassJit.Amd64

open Lower

variable {α β : Type}

/-! Code that only grows. -/

namespace Assembler

/-- `b` continues `a`: it starts with `a`'s instructions and binds `a`'s labels where `a`
binds them. -/
structure Extends (a b : Assembler) : Prop where
  instrs_eq : ∃ more, b.instrs = a.instrs ++ more
  labelAt_eq : ∀ l j, a.labelAt l = some j → b.labelAt l = some j

namespace Extends

variable {a b d : Assembler}

theorem refl (a : Assembler) : a.Extends a := ⟨⟨#[], by simp⟩, fun _ _ h => h⟩

theorem trans (h₁ : a.Extends b) (h₂ : b.Extends d) : a.Extends d := by
  obtain ⟨m₁, e₁⟩ := h₁.instrs_eq
  obtain ⟨m₂, e₂⟩ := h₂.instrs_eq
  exact ⟨⟨m₁ ++ m₂, by rw [e₂, e₁, Array.append_assoc]⟩,
    fun l j hl => h₂.labelAt_eq l j (h₁.labelAt_eq l j hl)⟩

theorem size_le (h : a.Extends b) : a.instrs.size ≤ b.instrs.size := by
  obtain ⟨m, e⟩ := h.instrs_eq
  rw [e, Array.size_append]
  omega

theorem getElem?_eq (h : a.Extends b) {k : Nat} (hk : k < a.instrs.size) :
    b.instrs[k]? = a.instrs[k]? := by
  obtain ⟨m, e⟩ := h.instrs_eq
  rw [e, Array.getElem?_append_left hk]

end Extends

end Assembler

def AsmGrows (m : AsmM α) : Prop := ∀ a x a', m a = .ok (x, a') → a.Extends a'

namespace AsmGrows

theorem pure' (x : α) : AsmGrows (pure x : AsmM α) := by
  intro a y a' h
  cases h
  exact .refl a

theorem bind {m : AsmM α} {f : α → AsmM β} (hm : AsmGrows m) (hf : ∀ x, AsmGrows (f x)) :
    AsmGrows (m >>= f) := by
  intro a y a' h
  change (m a >>= fun p => f p.1 p.2) = _ at h
  cases hma : m a with
  | error e => rw [hma] at h; cases h
  | ok p =>
    rw [hma] at h
    exact (hm a p.1 p.2 hma).trans (hf p.1 p.2 y a' h)

theorem fail' (e : EncodeError) : AsmGrows (Asm.fail e : AsmM α) := by
  intro a x a' h
  cases h

theorem add (i : Instr Nat) : AsmGrows (Asm.add i) := by
  intro a x a' h
  cases h
  exact ⟨⟨#[i], by simp⟩, fun l j hl => hl⟩

theorem createLabel : AsmGrows Asm.createLabel := by
  intro a x a' h
  cases h
  exact ⟨⟨#[], by simp⟩, fun l j hl => hl⟩

theorem gp (op : String) (r : Reg) : AsmGrows (Asm.gp op r) := by
  intro a x a' h
  unfold Asm.gp at h
  split at h
  · cases h
    exact .refl a
  · cases h

theorem xmm (op : String) (r : Reg) : AsmGrows (Asm.xmm op r) := by
  intro a x a' h
  unfold Asm.xmm at h
  split at h
  · cases h
    exact .refl a
  · cases h

theorem mem (m : MemRef) : AsmGrows (Asm.mem m) := by
  unfold Asm.mem
  refine bind (gp _ _) fun b => ?_
  split
  · exact pure' _
  · exact bind (gp _ _) fun _ => pure' _

theorem ite' {p : Prop} [Decidable p] {m₁ m₂ : AsmM α} (h₁ : AsmGrows m₁) (h₂ : AsmGrows m₂) :
    AsmGrows (if p then m₁ else m₂) := by
  split
  · exact h₁
  · exact h₂

end AsmGrows

theorem Assembler.labelAt_cons {a : Assembler} {l l' j n : Nat}
    (hfresh : a.bound.any (·.1 == l) = false) (h : a.labelAt l' = some j) :
    ({ a with bound := (l, n) :: a.bound } : Assembler).labelAt l' = some j := by
  unfold Assembler.labelAt at *
  have hne : l ≠ l' := by
    rintro rfl
    obtain ⟨p, hp, hpl⟩ := Option.map_eq_some_iff.mp h
    have := List.find?_some hp
    have hmem := List.mem_of_find?_eq_some hp
    rw [List.any_eq_false] at hfresh
    exact hfresh p hmem this
  rw [List.find?_cons_of_neg (by simpa using hne)]
  exact h

theorem Asm.get_bind_apply (f : Assembler → AsmM β) (a : Assembler) :
    (StateT.get >>= f) a = f a a := rfl

theorem Asm.bind_eq (l : Nat) (a : Assembler) :
    Asm.bind l a =
      let b := if a.lastLabelAt == some a.instrs.size then Asm.pushed a .nop else a
      if b.bound.any (·.1 == l) then
        .error (.assembly "Labels can't be re-used and can only be set once.")
      else
        .ok ((), { b with bound := (l, b.instrs.size) :: b.bound, lastLabelAt := some b.instrs.size })
      := by
  unfold Asm.bind
  simp only [get, getThe, MonadStateOf.get, get_bind_apply]
  cases h1 : (a.lastLabelAt == some a.instrs.size) <;> cases h2 : a.bound.any (·.1 == l) <;>
    simp only [h2, if_true, if_false, Bool.false_eq_true, Asm.bind_ok (Asm.add_eq _ _),
      get_bind_apply] <;> rfl

theorem Asm.bind_eq_ok {l : Nat} {a a' : Assembler} (h : Asm.bind l a = .ok ((), a')) :
    ∃ b : Assembler, (b = a ∨ b = Asm.pushed a .nop) ∧ a.bound.any (·.1 == l) = false ∧
      a' = { b with bound := (l, b.instrs.size) :: b.bound, lastLabelAt := some b.instrs.size } := by
  rw [Asm.bind_eq] at h
  have hb : (if a.lastLabelAt == some a.instrs.size then Asm.pushed a .nop else a).bound =
      a.bound := by
    split <;> rfl
  simp only at h
  by_cases hfresh : (if a.lastLabelAt == some a.instrs.size then Asm.pushed a .nop else a).bound.any
      (·.1 == l) = true
  · rw [if_pos hfresh] at h
    cases h
  · rw [if_neg hfresh] at h
    cases h
    refine ⟨_, ?_, by rw [← hb]; exact Bool.eq_false_iff.mpr hfresh, rfl⟩
    split
    · exact .inr rfl
    · exact .inl rfl

theorem Asm.labelAt_of_bind {l : Nat} {a a' : Assembler} (h : Asm.bind l a = .ok ((), a')) :
    a'.labelAt l = some a'.instrs.size := by
  obtain ⟨b, -, -, rfl⟩ := Asm.bind_eq_ok h
  simp [Assembler.labelAt]

theorem AsmGrows.bindLabel (l : Nat) : AsmGrows (Asm.bind l) := by
  intro a x a' h
  obtain ⟨b, hb, hfresh, rfl⟩ := Asm.bind_eq_ok h
  rcases hb with rfl | rfl
  · exact ⟨⟨#[], by simp⟩, fun l' j hl' => Assembler.labelAt_cons hfresh hl'⟩
  · exact ⟨⟨#[.nop], by simp⟩, fun l' j hl' => Assembler.labelAt_cons hfresh hl'⟩

namespace AsmGrows

theorem movRR (w : Width) (d s : Reg) : AsmGrows (Asm.movRR w d s) :=
  .bind (.gp _ _) fun _ => .bind (.gp _ _) fun _ => .add _

theorem aluRR (op : AluOp) (w : Width) (d s : Reg) : AsmGrows (Asm.aluRR op w d s) :=
  .bind (.gp _ _) fun _ => .bind (.gp _ _) fun _ => .add _

theorem testRR (w : Width) (a b : Reg) : AsmGrows (Asm.testRR w a b) :=
  .bind (.gp _ _) fun _ => .bind (.gp _ _) fun _ => .add _

theorem aluRI (op : AluOp) (w : Width) (d : Reg) (imm : Int) : AsmGrows (Asm.aluRI op w d imm) :=
  .bind (.gp _ _) fun _ => .add _

theorem movRI32 (d : Reg) (imm : UInt32) : AsmGrows (Asm.movRI32 d imm) :=
  .bind (.gp _ _) fun _ => .add _

theorem movRI64 (d : Reg) (imm : UInt64) : AsmGrows (Asm.movRI64 d imm) :=
  ite' (movRI32 _ _) (.bind (.gp _ _) fun _ => .add _)

theorem load (k : LoadKind) (d : Reg) (m : MemRef) : AsmGrows (Asm.load k d m) :=
  .bind (.mem _) fun _ => .bind (.gp _ _) fun _ => .add _

theorem store (n : Nat) (m : MemRef) (s : Reg) : AsmGrows (Asm.store n m s) :=
  .bind (.mem _) fun _ => .bind (.gp _ _) fun _ => .add _

theorem storeImm32 (m : MemRef) (imm : UInt32) : AsmGrows (Asm.storeImm32 m imm) :=
  .bind (.mem _) fun _ => .add _

theorem storeImm64 (m : MemRef) (imm : Int) : AsmGrows (Asm.storeImm64 m imm) :=
  .bind (.mem _) fun _ => .add _

theorem cmpRM (w : Width) (d : Reg) (m : MemRef) : AsmGrows (Asm.cmpRM w d m) :=
  .bind (.mem _) fun _ => .bind (.gp _ _) fun _ => .add _

theorem leaLabel (d : Reg) (l : Nat) : AsmGrows (Asm.leaLabel d l) :=
  .bind (.gp _ _) fun _ => .add _

theorem movzx8RR (d s : Reg) : AsmGrows (Asm.movzx8RR d s) :=
  .bind (.gp _ _) fun _ => .bind (.gp _ _) fun _ => .add _

theorem setcc (c : Cond) (d : Reg) : AsmGrows (Asm.setcc c d) :=
  .bind (.gp _ _) fun _ => .add _

theorem div (w : Width) (signed : Bool) (s : Reg) : AsmGrows (Asm.div w signed s) :=
  .bind (.gp _ _) fun _ => .add _

theorem vec (op : VecOp) (d s : Reg) : AsmGrows (Asm.vec op d s) :=
  .bind (.xmm _ _) fun _ => .bind (.xmm _ _) fun _ => .add _

theorem loadXmm (n : Nat) (d : Reg) (m : MemRef) : AsmGrows (Asm.loadXmm n d m) :=
  .bind (.xmm _ _) fun _ => .bind (.mem _) fun _ => .add _

theorem storeXmm (n : Nat) (m : MemRef) (s : Reg) : AsmGrows (Asm.storeXmm n m s) :=
  .bind (.xmm _ _) fun _ => .bind (.mem _) fun _ => .add _

theorem bindNew : AsmGrows Asm.bindNew :=
  .bind createLabel fun _ => .bind (bindLabel _) fun _ => .pure' _

end AsmGrows

/-- A lowering step that only appends code. -/
def Grows (m : LowerM α) : Prop := ∀ c x c', m c = .ok (x, c') → c.asm.Extends c'.asm

theorem LowerM.bind_eq_ok {m : LowerM α} {f : α → LowerM β} {c c' : Compiler} {y : β}
    (h : (m >>= f) c = .ok (y, c')) : ∃ x c₁, m c = .ok (x, c₁) ∧ f x c₁ = .ok (y, c') := by
  change (m c >>= fun p => f p.1 p.2) = _ at h
  cases hm : m c with
  | error e => rw [hm] at h; cases h
  | ok p => rw [hm] at h; exact ⟨p.1, p.2, rfl, h⟩

namespace Grows

theorem pure' (x : α) : Grows (pure x : LowerM α) := by
  intro c y c' h
  cases h
  exact .refl _

theorem bind {m : LowerM α} {f : α → LowerM β} (hm : Grows m) (hf : ∀ x, Grows (f x)) :
    Grows (m >>= f) := by
  intro c y c' h
  obtain ⟨x, c₁, h₁, h₂⟩ := LowerM.bind_eq_ok h
  exact (hm c x c₁ h₁).trans (hf x c₁ y c' h₂)

theorem asm' {m : AsmM α} (hm : AsmGrows m) : Grows (asm m) := by
  intro c x c' h
  unfold asm at h
  cases hs : m c.asm with
  | ok p =>
    rw [hs] at h
    cases h
    exact hm _ _ _ hs
  | error e =>
    rw [hs] at h
    cases h

theorem stk' (m : StackM α) : Grows (stk m) := by
  intro c x c' h
  unfold stk at h
  cases hs : m c.stack with
  | ok y s =>
    rw [hs] at h
    cases h
    exact .refl _
  | error e s =>
    rw [hs] at h
    cases h

theorem get' : Grows (get : LowerM Compiler) := by
  intro c x c' h
  cases h
  exact .refl _

theorem modify' {f : Compiler → Compiler} (hf : ∀ c, (f c).asm = c.asm) :
    Grows (modify f : LowerM PUnit) := by
  intro c x c' h
  cases h
  show c.asm.Extends (f c).asm
  rw [hf]
  exact .refl _

theorem throw' (e : CompileError) : Grows (throw e : LowerM α) := by
  intro c x c' h
  cases h

theorem ite' {p : Prop} [Decidable p] {m₁ m₂ : LowerM α} (h₁ : Grows m₁) (h₂ : Grows m₂) :
    Grows (if p then m₁ else m₂) := by
  split
  · exact h₁
  · exact h₂

end Grows

def Silent (m : LowerM α) : Prop :=
  ∀ c x c', m c = .ok (x, c') → c.asm.Extends c'.asm ∧ c'.asm.instrs = c.asm.instrs

namespace Silent

theorem grows {m : LowerM α} (h : Silent m) : Grows m := fun c x c' hm => (h c x c' hm).1

theorem pure' (x : α) : Silent (pure x : LowerM α) := by
  intro c y c' h
  cases h
  exact ⟨.refl _, rfl⟩

theorem bind {m : LowerM α} {f : α → LowerM β} (hm : Silent m) (hf : ∀ x, Silent (f x)) :
    Silent (m >>= f) := by
  intro c y c' h
  obtain ⟨x, c₁, h₁, h₂⟩ := LowerM.bind_eq_ok h
  obtain ⟨e₁, i₁⟩ := hm c x c₁ h₁
  obtain ⟨e₂, i₂⟩ := hf x c₁ y c' h₂
  exact ⟨e₁.trans e₂, i₂.trans i₁⟩

theorem stk' (m : StackM α) : Silent (stk m) := by
  intro c x c' h
  unfold stk at h
  cases hs : m c.stack with
  | ok y s =>
    rw [hs] at h
    cases h
    exact ⟨.refl _, rfl⟩
  | error e s =>
    rw [hs] at h
    cases h

theorem get' : Silent (get : LowerM Compiler) := by
  intro c x c' h
  cases h
  exact ⟨.refl _, rfl⟩

theorem modify' {f : Compiler → Compiler} (hf : ∀ c, (f c).asm = c.asm) :
    Silent (modify f : LowerM PUnit) := by
  intro c x c' h
  cases h
  show c.asm.Extends (f c).asm ∧ (f c).asm.instrs = c.asm.instrs
  rw [hf]
  exact ⟨.refl _, rfl⟩

theorem throw' (e : CompileError) : Silent (throw e : LowerM α) := by
  intro c x c' h
  cases h

theorem ite' {p : Prop} [Decidable p] {m₁ m₂ : LowerM α} (h₁ : Silent m₁) (h₂ : Silent m₂) :
    Silent (if p then m₁ else m₂) := by
  split
  · exact h₁
  · exact h₂

theorem createLabel : Silent (asm Asm.createLabel) := by
  intro c x c' h
  cases h
  exact ⟨⟨⟨#[], by simp⟩, fun l j hl => hl⟩, rfl⟩

end Silent

/-! The program the code is placed in. -/

/-- A program holding the instructions of `asm` at the addresses `addr`, each branch aimed
at `target`, which sends a bound label to the address of the instruction it names. -/
structure Code where
  program : Program
  asm : Assembler
  addr : Nat → UInt64
  target : Nat → UInt64
  target_eq : ∀ l j, asm.labelAt l = some j → target l = addr j
  fetch_eq : ∀ (k : Nat) (h : k < asm.instrs.size),
    program.fetch (addr k) = some (asm.instrs[k].mapTarget target, addr (k + 1))

namespace Code

variable (K : Code)

theorem fetch_of_extends {a : Assembler} (ha : a.Extends K.asm) {k : Nat}
    (hk : k < a.instrs.size) :
    K.program.fetch (K.addr k) = some (a.instrs[k].mapTarget K.target, K.addr (k + 1)) := by
  have hK : k < K.asm.instrs.size := Nat.lt_of_lt_of_le hk ha.size_le
  have he : K.asm.instrs[k] = a.instrs[k] := by
    have := ha.getElem?_eq hk
    rw [Array.getElem?_eq_getElem hK, Array.getElem?_eq_getElem hk] at this
    exact Option.some.inj this
  rw [K.fetch_eq k hK, he]

theorem target_of_extends {a : Assembler} (ha : a.Extends K.asm) {l j : Nat}
    (hl : a.labelAt l = some j) : K.target l = K.addr j :=
  K.target_eq l j (ha.labelAt_eq l j hl)

end Code

/-! Running a step. -/

variable (K : Code)

def Runs (X : Machine → Prop) (m : LowerM α) (Q : α → Compiler → Machine → Prop) (c : Compiler)
    (M : Machine) : Prop :=
  ∀ x c', m c = .ok (x, c') → c'.asm.Extends K.asm → M.cpu.rip = K.addr c.asm.instrs.size →
    ∃ M', Steps K.program M M' ∧
      (X M' ∨ (M'.cpu.rip = K.addr c'.asm.instrs.size ∧ Q x c' M'))

namespace Runs

variable {K} {X X' : Machine → Prop} {Q Q' : α → Compiler → Machine → Prop} {c : Compiler}
  {M : Machine}

theorem mono {m : LowerM α} (h : Runs K X m Q c M) (hX : ∀ M, X M → X' M)
    (hQ : ∀ x c' M', Q x c' M' → Q' x c' M') : Runs K X' m Q' c M := by
  intro x c' hm hK hrip
  obtain ⟨M', hs, hout⟩ := h x c' hm hK hrip
  exact ⟨M', hs, hout.imp (hX M') fun h => ⟨h.1, hQ x c' M' h.2⟩⟩

theorem pure' {x : α} (h : Q x c M) : Runs K X (pure x) Q c M := by
  intro y c' hm _ hrip
  cases hm
  exact ⟨M, .refl M, .inr ⟨hrip, h⟩⟩

theorem bind {m : LowerM α} {f : α → LowerM β} {Q : β → Compiler → Machine → Prop}
    (hm : Runs K X m (fun x c₁ M₁ => Runs K X (f x) Q c₁ M₁) c M) (hf : ∀ x, Grows (f x)) :
    Runs K X (m >>= f) Q c M := by
  intro y c' h hK hrip
  obtain ⟨x, c₁, h₁, h₂⟩ := LowerM.bind_eq_ok h
  have hK₁ := (hf x c₁ y c' h₂).trans hK
  obtain ⟨M₁, hs₁, hout⟩ := hm x c₁ h₁ hK₁ hrip
  rcases hout with hX | ⟨hrip₁, hk⟩
  · exact ⟨M₁, hs₁, .inl hX⟩
  · obtain ⟨M₂, hs₂, hout₂⟩ := hk y c' h₂ hK hrip₁
    exact ⟨M₂, hs₁.trans hs₂, hout₂⟩

theorem withEq {m : LowerM α} (h : Runs K X m (fun x c' M' => m c = .ok (x, c') → Q x c' M') c M) :
    Runs K X m Q c M := by
  intro x c' hm hK hrip
  obtain ⟨M', hs, hout⟩ := h x c' hm hK hrip
  exact ⟨M', hs, hout.imp id fun h => ⟨h.1, h.2 hm⟩⟩

theorem stk' {sm : StackM α} (h : ∀ x s, sm c.stack = .ok x s → Q x { c with stack := s } M) :
    Runs K X (stk sm) Q c M := by
  intro x c' hm _ hrip
  unfold stk at hm
  cases hs : sm c.stack with
  | ok y s =>
    rw [hs] at hm
    cases hm
    exact ⟨M, .refl M, .inr ⟨hrip, h _ _ hs⟩⟩
  | error e s =>
    rw [hs] at hm
    cases hm

theorem get' {Q : Compiler → Compiler → Machine → Prop} (h : Q c c M) :
    Runs K X (get : LowerM Compiler) Q c M := by
  intro x c' hm _ hrip
  cases hm
  exact ⟨M, .refl M, .inr ⟨hrip, h⟩⟩

theorem modify' {f : Compiler → Compiler} {Q : PUnit → Compiler → Machine → Prop}
    (hf : (f c).asm = c.asm) (h : Q () (f c) M) : Runs K X (modify f : LowerM PUnit) Q c M := by
  intro x c' hm _ hrip
  cases hm
  exact ⟨M, .refl M, .inr ⟨by rw [hf]; exact hrip, h⟩⟩

theorem quiet {m : AsmM α} {x : α} {s : Assembler} (hm : m c.asm = .ok (x, s))
    (hs : s.instrs = c.asm.instrs) (h : Q x { c with asm := s } M) : Runs K X (asm m) Q c M := by
  intro y c' he _ hrip
  unfold asm at he
  rw [hm] at he
  cases he
  exact ⟨M, .refl M, .inr ⟨by rw [hs]; exact hrip, h⟩⟩

/-- An assembler step that appends one instruction: the machine runs it. -/
theorem emit {m : AsmM α} {x : α} {i : Instr Nat} (hm : m c.asm = .ok (x, Asm.pushed c.asm i))
    (h : ∃ M', M.exec (i.mapTarget K.target) (K.addr (c.asm.instrs.size + 1)) = .ok M' ∧
      (X M' ∨ (M'.cpu.rip = K.addr (c.asm.instrs.size + 1) ∧
        Q x { c with asm := Asm.pushed c.asm i } M'))) :
    Runs K X (asm m) Q c M := by
  intro y c' he hK hrip
  unfold asm at he
  rw [hm] at he
  cases he
  obtain ⟨M', hex, hout⟩ := h
  have hf := K.fetch_of_extends hK (k := c.asm.instrs.size) (by simp)
  simp only [Array.getElem_push_eq] at hf
  rw [← hrip] at hf
  refine ⟨M', Steps.head hf hex (.refl M'), ?_⟩
  simpa using hout

theorem step {m : AsmM α} {x : α} {i : Instr Nat} {M' : Machine}
    (hm : m c.asm = .ok (x, Asm.pushed c.asm i))
    (hex : M.exec (i.mapTarget K.target) (K.addr (c.asm.instrs.size + 1)) = .ok M')
    (hrip : M'.cpu.rip = K.addr (c.asm.instrs.size + 1))
    (h : Q x { c with asm := Asm.pushed c.asm i } M') : Runs K X (asm m) Q c M :=
  emit hm ⟨M', hex, .inr ⟨hrip, h⟩⟩

theorem silent {m : LowerM α} (hs : Silent m) (h : ∀ x c', m c = .ok (x, c') → Q x c' M) :
    Runs K X m Q c M := by
  intro x c' hm _ hrip
  refine ⟨M, .refl M, .inr ⟨?_, h x c' hm⟩⟩
  rw [(hs c x c' hm).2]
  exact hrip

theorem padded {m : AsmM α}
    (h : ∀ x s, m c.asm = .ok (x, s) →
      (s.instrs = c.asm.instrs ∨ s.instrs = c.asm.instrs.push .nop) ∧
        Q x { c with asm := s } (M.goto (K.addr s.instrs.size))) :
    Runs K X (asm m) Q c M := by
  intro y c' he hK hrip
  unfold asm at he
  cases hs : m c.asm with
  | error e =>
    rw [hs] at he
    cases he
  | ok p =>
    rw [hs] at he
    cases he
    obtain ⟨hi, hQ⟩ := h p.1 p.2 hs
    rcases hi with hi | hi
    · have hM : M.goto (K.addr p.2.instrs.size) = M := by rw [hi, ← hrip]; rfl
      exact ⟨M, .refl M, .inr ⟨by rw [hi]; exact hrip, by rw [← hM]; exact hQ⟩⟩
    · have hf := K.fetch_of_extends hK (k := c.asm.instrs.size) (by simp [hi])
      simp only [hi, Array.getElem_push_eq] at hf
      rw [← hrip] at hf
      exact ⟨_, Steps.head hf Machine.exec_nop (.refl _), .inr ⟨by simp [hi], by simpa [hi] using hQ⟩⟩

theorem bindLabel {l : Nat} {Q : Unit → Compiler → Machine → Prop}
    (h : ∀ s, Asm.bind l c.asm = .ok ((), s) → s.labelAt l = some s.instrs.size →
      Q () { c with asm := s } (M.goto (K.addr s.instrs.size))) :
    Runs K X (asm (Asm.bind l)) Q c M := by
  refine padded fun _ s hs => ⟨?_, h s hs (Asm.labelAt_of_bind hs)⟩
  obtain ⟨b, hb, -, rfl⟩ := Asm.bind_eq_ok hs
  rcases hb with rfl | rfl <;> simp

theorem bindNew {Q : Nat → Compiler → Machine → Prop}
    (h : ∀ l s, Asm.bindNew c.asm = .ok (l, s) →
      Q l { c with asm := s } (M.goto (K.addr s.instrs.size))) :
    Runs K X (asm Asm.bindNew) Q c M := by
  refine padded fun l s hs => ⟨?_, h l s hs⟩
  have hb : Asm.bind (c.asm.labels + 1) { c.asm with labels := c.asm.labels + 1 } = .ok ((), s) ∧
      l = c.asm.labels + 1 := by
    unfold Asm.bindNew at hs
    rw [Asm.bind_ok (show Asm.createLabel c.asm = .ok (c.asm.labels + 1,
      { c.asm with labels := c.asm.labels + 1 }) from rfl)] at hs
    change (Asm.bind (c.asm.labels + 1) { c.asm with labels := c.asm.labels + 1 } >>=
      fun p => (pure (c.asm.labels + 1) : AsmM Nat) p.2) = _ at hs
    cases hb : Asm.bind (c.asm.labels + 1) { c.asm with labels := c.asm.labels + 1 } with
    | error e =>
      rw [hb] at hs
      cases hs
    | ok p =>
      rw [hb] at hs
      cases hs
      exact ⟨rfl, rfl⟩
  obtain ⟨b, hb', -, rfl⟩ := Asm.bind_eq_ok hb.1
  rcases hb' with rfl | rfl <;> simp

end Runs

/-! Jumps forward. -/

def Skip (X : Machine → Prop) (L : Nat) (m : LowerM α) (Q : α → Compiler → Machine → Prop)
    (c : Compiler) (M : Machine) : Prop :=
  ∀ x c', m c = .ok (x, c') → c'.asm.Extends K.asm → M.cpu.rip = K.target L →
    ∃ M', Steps K.program M M' ∧
      (X M' ∨ (M'.cpu.rip = K.addr c'.asm.instrs.size ∧ Q x c' M'))

namespace Skip

variable {K} {X : Machine → Prop} {L : Nat} {Q : β → Compiler → Machine → Prop} {c : Compiler}
  {M : Machine}

theorem pass {m : LowerM α} {f : α → LowerM β}
    (h : ∀ x c₁, m c = .ok (x, c₁) → Skip K X L (f x) Q c₁ M) : Skip K X L (m >>= f) Q c M := by
  intro y c' hm hK hrip
  obtain ⟨x, c₁, h₁, h₂⟩ := LowerM.bind_eq_ok hm
  exact h x c₁ h₁ y c' h₂ hK hrip

theorem ite' {p : Prop} [Decidable p] {m₁ m₂ : LowerM β} (h₁ : p → Skip K X L m₁ Q c M)
    (h₂ : ¬ p → Skip K X L m₂ Q c M) : Skip K X L (if p then m₁ else m₂) Q c M := by
  split
  · exact h₁ ‹_›
  · exact h₂ ‹_›

theorem bindLabel {rest : Unit → LowerM β} (hg : ∀ x, Grows (rest x))
    (h : ∀ s, Asm.bind L c.asm = .ok ((), s) → Runs K X (rest ()) Q { c with asm := s } M) :
    Skip K X L (asm (Asm.bind L) >>= rest) Q c M := by
  intro y c' hm hK hrip
  obtain ⟨x, c₁, h₁, h₂⟩ := LowerM.bind_eq_ok hm
  unfold asm at h₁
  cases hs : Asm.bind L c.asm with
  | error e =>
    rw [hs] at h₁
    cases h₁
  | ok p =>
    rw [hs] at h₁
    cases h₁
    have hK₁ := (hg () _ y c' h₂).trans hK
    have hat : K.target L = K.addr p.2.instrs.size :=
      K.target_of_extends hK₁ (Asm.labelAt_of_bind hs)
    exact h p.2 hs y c' h₂ hK (hrip.trans hat)

end Skip

namespace Runs

variable {K} {X : Machine → Prop} {Q : β → Compiler → Machine → Prop} {c : Compiler}
  {M : Machine}

theorem jcc {cond : Cond} {L : Nat} {k : Unit → LowerM β} (hg : ∀ x, Grows (k x))
    (htaken : cond.holds M.cpu.flags = true →
      Skip K X L (k ()) Q { c with asm := Asm.pushed c.asm (.jcc cond L) }
        (M.goto (K.target L)))
    (hfall : cond.holds M.cpu.flags = false →
      Runs K X (k ()) Q { c with asm := Asm.pushed c.asm (.jcc cond L) }
        (M.goto (K.addr (c.asm.instrs.size + 1)))) :
    Runs K X (asm (Asm.jcc cond L) >>= k) Q c M := by
  intro y c' hm hK hrip
  obtain ⟨x, c₁, h₁, h₂⟩ := LowerM.bind_eq_ok hm
  cases h₁
  have hK₁ := (hg () _ y c' h₂).trans hK
  have hf := K.fetch_of_extends hK₁ (k := c.asm.instrs.size) (by simp)
  simp only [Array.getElem_push_eq] at hf
  rw [← hrip] at hf
  cases hc : cond.holds M.cpu.flags
  · obtain ⟨M', hs, hout⟩ := hfall hc y c' h₂ hK (by simp)
    have he : M.exec (Instr.jcc cond (K.target L)) (K.addr (c.asm.instrs.size + 1)) =
        .ok (M.goto (K.addr (c.asm.instrs.size + 1))) := by
      rw [Machine.exec_jcc, hc]
      rfl
    exact ⟨M', Steps.head hf he hs, hout⟩
  · obtain ⟨M', hs, hout⟩ := htaken hc y c' h₂ hK (by simp)
    have he : M.exec (Instr.jcc cond (K.target L)) (K.addr (c.asm.instrs.size + 1)) =
        .ok (M.goto (K.target L)) := by
      rw [Machine.exec_jcc, hc]
      rfl
    exact ⟨M', Steps.head hf he hs, hout⟩

theorem jmp {L : Nat} {k : Unit → LowerM β} (hg : ∀ x, Grows (k x))
    (h : Skip K X L (k ()) Q { c with asm := Asm.pushed c.asm (.jmp L) } (M.goto (K.target L))) :
    Runs K X (asm (Asm.jmp L) >>= k) Q c M := by
  intro y c' hm hK hrip
  obtain ⟨x, c₁, h₁, h₂⟩ := LowerM.bind_eq_ok hm
  cases h₁
  have hK₁ := (hg () _ y c' h₂).trans hK
  have hf := K.fetch_of_extends hK₁ (k := c.asm.instrs.size) (by simp)
  simp only [Array.getElem_push_eq] at hf
  rw [← hrip] at hf
  obtain ⟨M', hs, hout⟩ := h y c' h₂ hK (by simp)
  exact ⟨M', Steps.head hf Machine.exec_jmp hs, hout⟩

end Runs

end OnePassJit.Amd64
