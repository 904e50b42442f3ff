import Mathlib.Logic.Relation
import OnePassJit.Amd64.Asm
import OnePassJit.Amd64.Machine.Step
import OnePassJit.Proofs.Machine.Bytes

/-!
What an emitted instruction is, and what the machine does when it runs it.

The assembler checks the registers of an instruction and numbers them; for a register it
takes, the number is `Reg.gpr` or `Reg.xmm` (`Asm.gp_eq`, `Asm.xmm_eq`), so each emitter
appends one known instruction (`Asm.testRR_eq` and the like). On the machine, one step
executes the instruction at `rip`; the `exec_` lemmas say what each instruction the
lowerings here emit does, and the `Machine` lemmas what each change of the machine leaves
as it was. `Steps` is running for any number of steps.
-/

namespace OnePassJit

namespace Reg

/-- The machine's general register with this register's number. -/
def gpr (r : Reg) : Amd64.Gpr := ⟨r.id.toNat % 16, Nat.mod_lt _ (by decide)⟩

/-- The machine's xmm register with this register's number. -/
def xmm (r : Reg) : Amd64.Xmm := ⟨r.id.toNat % 16, Nat.mod_lt _ (by decide)⟩

def IsGp (r : Reg) : Prop := r.bank = 0 ∧ r.id.toNat < 16

def IsXmm (r : Reg) : Prop := r.bank = 1 ∧ r.id.toNat < 16

instance (r : Reg) : Decidable r.IsGp := inferInstanceAs (Decidable (_ ∧ _))

instance (r : Reg) : Decidable r.IsXmm := inferInstanceAs (Decidable (_ ∧ _))

theorem gpr_inj {r r' : Reg} (h : r.IsGp) (h' : r'.IsGp) : r.gpr = r'.gpr ↔ r = r' := by
  constructor
  · intro he
    have hv := congrArg Fin.val he
    simp only [gpr, Nat.mod_eq_of_lt h.2, Nat.mod_eq_of_lt h'.2] at hv
    obtain ⟨b, i⟩ := r
    obtain ⟨b', i'⟩ := r'
    simp only [Reg.mk.injEq]
    exact ⟨h.1.trans h'.1.symm, UInt8.toNat_inj.mp hv⟩
  · rintro rfl
    rfl

theorem xmm_inj {r r' : Reg} (h : r.IsXmm) (h' : r'.IsXmm) : r.xmm = r'.xmm ↔ r = r' := by
  constructor
  · intro he
    have hv := congrArg Fin.val he
    simp only [xmm, Nat.mod_eq_of_lt h.2, Nat.mod_eq_of_lt h'.2] at hv
    obtain ⟨b, i⟩ := r
    obtain ⟨b', i'⟩ := r'
    simp only [Reg.mk.injEq]
    exact ⟨h.1.trans h'.1.symm, UInt8.toNat_inj.mp hv⟩
  · rintro rfl
    rfl

end Reg

namespace Amd64

def MemRef.toMem (m : MemRef) : Mem :=
  { base := m.base.gpr, index := m.index.map fun p => (p.1.gpr, p.2), disp := m.disp }

def MemRef.Valid (m : MemRef) : Prop := m.base.IsGp ∧ ∀ p, m.index = some p → p.1.IsGp

theorem MemRef.valid_at {base : Reg} (h : base.IsGp) (disp : Int) : (MemRef.at base disp).Valid :=
  ⟨h, fun _ hp => by cases hp⟩

theorem MemRef.valid_indexed {base index : Reg} (h : base.IsGp) (hi : index.IsGp) (s : Scale)
    (disp : Int) : (MemRef.indexed base index s disp).Valid :=
  ⟨h, fun p hp => by cases hp; exact hi⟩

/-! Emitting. -/

namespace Asm

variable {α β : Type} {r : Reg} {a a' : Assembler}

abbrev pushed (a : Assembler) (i : Instr Nat) : Assembler := { a with instrs := a.instrs.push i }

theorem bind_ok {m : AsmM α} {f : α → AsmM β} {x : α} (h : m a = .ok (x, a')) :
    (m >>= f) a = f x a' := by
  show (m a >>= fun p => f p.1 p.2) = _
  rw [h]
  rfl

theorem gp_eq (h : r.IsGp) (op : String) (a : Assembler) : gp op r a = .ok (r.gpr, a) := by
  have h' : r.bank = 0 ∧ r.id.toNat < 16 := h
  have hg : (⟨r.id.toNat, h.2⟩ : Gpr) = r.gpr := Fin.ext (Nat.mod_eq_of_lt h.2).symm
  unfold gp
  rw [dif_pos h']
  show Except.ok ((⟨r.id.toNat, h.2⟩ : Gpr), a) = _
  rw [hg]

theorem xmm_eq (h : r.IsXmm) (op : String) (a : Assembler) : xmm op r a = .ok (r.xmm, a) := by
  have h' : r.bank = 1 ∧ r.id.toNat < 16 := h
  have hg : (⟨r.id.toNat, h.2⟩ : Xmm) = r.xmm := Fin.ext (Nat.mod_eq_of_lt h.2).symm
  unfold xmm
  rw [dif_pos h']
  show Except.ok ((⟨r.id.toNat, h.2⟩ : Xmm), a) = _
  rw [hg]

theorem mem_eq {m : MemRef} (h : m.Valid) (a : Assembler) : mem m a = .ok (m.toMem, a) := by
  unfold mem
  rw [bind_ok (gp_eq h.1 _ _)]
  cases hi : m.index with
  | none => simp only [MemRef.toMem, hi]; rfl
  | some p =>
    obtain ⟨i, s⟩ := p
    dsimp only
    rw [bind_ok (gp_eq (h.2 _ hi) _ _)]
    simp only [MemRef.toMem, hi]
    rfl

theorem add_eq (i : Instr Nat) (a : Assembler) : add i a = .ok ((), pushed a i) := rfl

theorem movRR_eq {d s : Reg} (hd : d.IsGp) (hs : s.IsGp) (w : Width) (a : Assembler) :
    movRR w d s a = .ok ((), pushed a (.movRR w d.gpr s.gpr)) := by
  rw [movRR, bind_ok (gp_eq hd _ _), bind_ok (gp_eq hs _ _)]
  rfl

theorem aluRR_eq {d s : Reg} (hd : d.IsGp) (hs : s.IsGp) (op : AluOp) (w : Width)
    (a : Assembler) : aluRR op w d s a = .ok ((), pushed a (.aluRR op w d.gpr s.gpr)) := by
  rw [aluRR, bind_ok (gp_eq hd _ _), bind_ok (gp_eq hs _ _)]
  rfl

theorem testRR_eq {x y : Reg} (hx : x.IsGp) (hy : y.IsGp) (w : Width) (a : Assembler) :
    testRR w x y a = .ok ((), pushed a (.testRR w x.gpr y.gpr)) := by
  rw [testRR, bind_ok (gp_eq hx _ _), bind_ok (gp_eq hy _ _)]
  rfl

theorem aluRI_eq {d : Reg} (hd : d.IsGp) (op : AluOp) (w : Width) (imm : Int) (a : Assembler) :
    aluRI op w d imm a = .ok ((), pushed a (.aluRI op w d.gpr imm)) := by
  rw [aluRI, bind_ok (gp_eq hd _ _)]
  rfl

theorem movRI32_eq {d : Reg} (hd : d.IsGp) (imm : UInt32) (a : Assembler) :
    movRI32 d imm a = .ok ((), pushed a (.movRI32 d.gpr imm)) := by
  rw [movRI32, bind_ok (gp_eq hd _ _)]
  rfl

theorem movRI64_eq_long {d : Reg} (hd : d.IsGp) {imm : UInt64} (hl : ¬ imm.toNat < Nat.pow 2 32)
    (a : Assembler) : movRI64 d imm a = .ok ((), pushed a (.movRI64 d.gpr imm)) := by
  rw [movRI64, if_neg hl, bind_ok (gp_eq hd _ _)]
  rfl

theorem movRI64_eq_short {d : Reg} (hd : d.IsGp) {imm : UInt64} (hs : imm.toNat < Nat.pow 2 32)
    (a : Assembler) : movRI64 d imm a = .ok ((), pushed a (.movRI32 d.gpr imm.toUInt32)) := by
  rw [movRI64, if_pos hs, movRI32_eq hd]

theorem load_eq {d : Reg} {m : MemRef} (hd : d.IsGp) (hm : m.Valid) (k : LoadKind)
    (a : Assembler) : load k d m a = .ok ((), pushed a (.load k d.gpr m.toMem)) := by
  unfold load
  rw [bind_ok (mem_eq hm _), bind_ok (gp_eq hd _ _)]
  rfl

theorem store_eq {s : Reg} {m : MemRef} (hs : s.IsGp) (hm : m.Valid) (n : Nat) (a : Assembler) :
    store n m s a = .ok ((), pushed a (.store n m.toMem s.gpr)) := by
  rw [store, bind_ok (mem_eq hm _), bind_ok (gp_eq hs _ _)]
  rfl

theorem storeImm32_eq {m : MemRef} (hm : m.Valid) (imm : UInt32) (a : Assembler) :
    storeImm32 m imm a = .ok ((), pushed a (.storeImm32 m.toMem imm)) := by
  rw [storeImm32, bind_ok (mem_eq hm _)]
  rfl

theorem storeImm64_eq {m : MemRef} (hm : m.Valid) (imm : Int) (a : Assembler) :
    storeImm64 m imm a = .ok ((), pushed a (.storeImm64 m.toMem imm)) := by
  rw [storeImm64, bind_ok (mem_eq hm _)]
  rfl

theorem cmpRM_eq {d : Reg} {m : MemRef} (hd : d.IsGp) (hm : m.Valid) (w : Width) (a : Assembler) :
    cmpRM w d m a = .ok ((), pushed a (.cmpRM w d.gpr m.toMem)) := by
  rw [cmpRM, bind_ok (mem_eq hm _), bind_ok (gp_eq hd _ _)]
  rfl

theorem leaLabel_eq {d : Reg} (hd : d.IsGp) (l : Nat) (a : Assembler) :
    leaLabel d l a = .ok ((), pushed a (.leaRip d.gpr l)) := by
  rw [leaLabel, bind_ok (gp_eq hd _ _)]
  rfl

theorem movzx8RR_eq {d s : Reg} (hd : d.IsGp) (hs : s.IsGp) (a : Assembler) :
    movzx8RR d s a = .ok ((), pushed a (.movzx8RR d.gpr s.gpr)) := by
  rw [movzx8RR, bind_ok (gp_eq hd _ _), bind_ok (gp_eq hs _ _)]
  rfl

theorem setcc_eq {d : Reg} (hd : d.IsGp) (c : Cond) (a : Assembler) :
    setcc c d a = .ok ((), pushed a (.setcc c d.gpr)) := by
  rw [setcc, bind_ok (gp_eq hd _ _)]
  rfl

theorem div_eq {s : Reg} (hs : s.IsGp) (w : Width) (signed : Bool) (a : Assembler) :
    div w signed s a = .ok ((), pushed a (.div w signed s.gpr)) := by
  rw [div, bind_ok (gp_eq hs _ _)]
  rfl

theorem vec_eq {d s : Reg} (hd : d.IsXmm) (hs : s.IsXmm) (op : VecOp) (a : Assembler) :
    vec op d s a = .ok ((), pushed a (.vec op d.xmm s.xmm)) := by
  rw [vec, bind_ok (xmm_eq hd _ _), bind_ok (xmm_eq hs _ _)]
  rfl

theorem loadXmm_eq {d : Reg} {m : MemRef} (hd : d.IsXmm) (hm : m.Valid) (n : Nat)
    (a : Assembler) : loadXmm n d m a = .ok ((), pushed a (.loadXmm n d.xmm m.toMem)) := by
  rw [loadXmm, bind_ok (xmm_eq hd _ _), bind_ok (mem_eq hm _)]
  rfl

theorem storeXmm_eq {s : Reg} {m : MemRef} (hs : s.IsXmm) (hm : m.Valid) (n : Nat)
    (a : Assembler) : storeXmm n m s a = .ok ((), pushed a (.storeXmm n m.toMem s.xmm)) := by
  rw [storeXmm, bind_ok (xmm_eq hs _ _), bind_ok (mem_eq hm _)]
  rfl

end Asm

/-! Running. -/

namespace Machine

variable {M M' : Machine} {r r' : Gpr} {x x' : Xmm} {t next : UInt64}

def goto (M : Machine) (t : UInt64) : Machine := M.withCpu fun c => { c with rip := t }

@[simp] theorem gpr_goto : (M.goto t).cpu.gpr = M.cpu.gpr := rfl
@[simp] theorem xmm_goto : (M.goto t).cpu.xmm = M.cpu.xmm := rfl
@[simp] theorem flags_goto : (M.goto t).cpu.flags = M.cpu.flags := rfl
@[simp] theorem rip_goto : (M.goto t).cpu.rip = t := rfl
@[simp] theorem mem_goto : (M.goto t).mem = M.mem := rfl

@[simp] theorem gpr_setFlags (f : Flags) : (M.setFlags f).cpu.gpr = M.cpu.gpr := rfl
@[simp] theorem xmm_setFlags (f : Flags) : (M.setFlags f).cpu.xmm = M.cpu.xmm := rfl
@[simp] theorem flags_setFlags (f : Flags) : (M.setFlags f).cpu.flags = f := rfl
@[simp] theorem rip_setFlags (f : Flags) : (M.setFlags f).cpu.rip = M.cpu.rip := rfl
@[simp] theorem mem_setFlags (f : Flags) : (M.setFlags f).mem = M.mem := rfl

@[simp] theorem xmm_setGpW (w : Width) (v : UInt64) : (M.setGpW w r v).cpu.xmm = M.cpu.xmm := rfl
@[simp] theorem flags_setGpW (w : Width) (v : UInt64) :
    (M.setGpW w r v).cpu.flags = M.cpu.flags := rfl
@[simp] theorem rip_setGpW (w : Width) (v : UInt64) : (M.setGpW w r v).cpu.rip = M.cpu.rip := rfl
@[simp] theorem mem_setGpW (w : Width) (v : UInt64) : (M.setGpW w r v).mem = M.mem := rfl
@[simp] theorem size_gpr_setGpW (w : Width) (v : UInt64) :
    (M.setGpW w r v).cpu.gpr.size = M.cpu.gpr.size := by
  simp [setGpW, withCpu, Cpu.setGpW, Cpu.setGp]

@[simp] theorem gpr_setXr (v : Vec128) : (M.setXr x v).cpu.gpr = M.cpu.gpr := rfl
@[simp] theorem flags_setXr (v : Vec128) : (M.setXr x v).cpu.flags = M.cpu.flags := rfl
@[simp] theorem rip_setXr (v : Vec128) : (M.setXr x v).cpu.rip = M.cpu.rip := rfl
@[simp] theorem mem_setXr (v : Vec128) : (M.setXr x v).mem = M.mem := rfl
@[simp] theorem size_xmm_setXr (v : Vec128) : (M.setXr x v).cpu.xmm.size = M.cpu.xmm.size := by
  simp [setXr, withCpu, Cpu.setXr]

def widen (w : Width) (v : UInt64) : UInt64 := if w == .w32 then v &&& low32 else v

theorem gp_setGpW (h : M.cpu.gpr.size = 16) (w : Width) (v : UInt64) (r' : Gpr) :
    (M.setGpW w r v).gp r' = if r' = r then widen w v else M.gp r' := by
  simp only [gp, setGpW, withCpu, Cpu.gp, Cpu.setGpW, Cpu.setGp, Array.set!_eq_setIfInBounds,
    Array.getD_eq_getD_getElem?, Array.getElem?_setIfInBounds, widen]
  by_cases hr : r' = r
  · subst hr
    simp [h, r'.isLt]
  · have hv : r.val ≠ r'.val := fun he => hr (Fin.ext he).symm
    simp [hr, hv]

theorem xr_setXr (h : M.cpu.xmm.size = 16) (v : Vec128) (x' : Xmm) :
    (M.setXr x v).xr x' = if x' = x then v else M.xr x' := by
  simp only [xr, setXr, withCpu, Cpu.xr, Cpu.setXr, Array.set!_eq_setIfInBounds,
    Array.getD_eq_getD_getElem?, Array.getElem?_setIfInBounds]
  by_cases hx : x' = x
  · subst hx
    simp [h, x'.isLt]
  · have hv : x.val ≠ x'.val := fun he => hx (Fin.ext he).symm
    simp [hx, hv]

theorem read_eq_ok {a : UInt64} {n : Nat} {v : UInt64} (h : M.mem.read a n = some v) :
    M.read a n = .ok v := by
  simp [read, h]
  rfl

theorem write_eq_ok {a : UInt64} {n : Nat} {v : UInt64} {mem : AddressSpace}
    (h : M.mem.write a n v = some mem) : M.write a n v = .ok { M with mem } := by
  simp [write, h]
  rfl

/-! What each instruction does. -/

theorem exec_movRR (w : Width) (d s : Gpr) :
    M.exec (.movRR w d s) next = .ok ((M.goto next).setGpW w d (M.gp s)) := rfl

theorem exec_aluRR (op : AluOp) (w : Width) (d s : Gpr) :
    M.exec (.aluRR op w d s) next =
      .ok (let m := (M.goto next).setFlags (alu op w (M.gp d) (M.gp s) M.cpu.flags).2
        if op == .cmp then m else m.setGpW w d (alu op w (M.gp d) (M.gp s) M.cpu.flags).1) := rfl

theorem exec_testRR (w : Width) (a b : Gpr) :
    M.exec (.testRR w a b) next =
      .ok ((M.goto next).setFlags (aluLogic w (M.gp a &&& M.gp b) M.cpu.flags).2) := rfl

theorem exec_aluRI (op : AluOp) (w : Width) (d : Gpr) (imm : Int) :
    M.exec (.aluRI op w d imm) next =
      .ok (let m := (M.goto next).setFlags (alu op w (M.gp d) (UInt64.ofInt imm) M.cpu.flags).2
        if op == .cmp then m
        else m.setGpW w d (alu op w (M.gp d) (UInt64.ofInt imm) M.cpu.flags).1) := rfl

theorem exec_movRI32 (d : Gpr) (imm : UInt32) :
    M.exec (.movRI32 d imm) next = .ok ((M.goto next).setGpW .w32 d imm.toUInt64) := rfl

theorem exec_movRI64 (d : Gpr) (imm : UInt64) :
    M.exec (.movRI64 d imm) next = .ok ((M.goto next).setGpW .w64 d imm) := rfl

def loadWidth : LoadKind → Width
  | .s8To64 | .s16To64 | .s32To64 | .u64 => .w64
  | _ => .w32

theorem exec_load {k : LoadKind} {d : Gpr} {mem : Mem} {v : UInt64}
    (h : M.mem.read (M.addr mem) (loadBytes k) = some v) :
    M.exec (.load k d mem) next = .ok ((M.goto next).setGpW (loadWidth k) d (extendLoad k v)) := by
  have h' : (M.goto next).read ((M.goto next).addr mem) (loadBytes k) = .ok v := read_eq_ok h
  have he : M.exec (.load k d mem) next = (do
      let v ← (M.goto next).read ((M.goto next).addr mem) (loadBytes k)
      pure ((M.goto next).setGpW (loadWidth k) d (extendLoad k v))) := by
    cases k <;> rfl
  rw [he, h']
  rfl

theorem exec_store (n : Nat) (mem : Mem) (s : Gpr) :
    M.exec (.store n mem s) next = (M.goto next).write (M.addr mem) n (M.gp s) := rfl

theorem exec_storeImm32 (mem : Mem) (imm : UInt32) :
    M.exec (.storeImm32 mem imm) next = (M.goto next).write (M.addr mem) 4 imm.toUInt64 := rfl

theorem exec_storeImm64 (mem : Mem) (imm : Int) :
    M.exec (.storeImm64 mem imm) next = (M.goto next).write (M.addr mem) 8 (UInt64.ofInt imm) :=
  rfl

theorem exec_cmpRM {w : Width} {d : Gpr} {mem : Mem} {v : UInt64}
    (h : M.mem.read (M.addr mem) (if w == .w32 then 4 else 8) = some v) :
    M.exec (.cmpRM w d mem) next =
      .ok ((M.goto next).setFlags (aluSub w (M.gp d) v M.cpu.flags).2) := by
  have h' : (M.goto next).read ((M.goto next).addr mem) (if w == .w32 then 4 else 8) = .ok v :=
    read_eq_ok h
  have he : M.exec (.cmpRM w d mem) next = (do
      let v ← (M.goto next).read ((M.goto next).addr mem) (if w == .w32 then 4 else 8)
      pure ((M.goto next).setFlags (aluSub w (M.gp d) v M.cpu.flags).2)) := rfl
  rw [he, h']
  rfl

theorem exec_leaRip (d : Gpr) (t : UInt64) :
    M.exec (.leaRip d t) next = .ok ((M.goto next).setGpW .w64 d t) := rfl

theorem exec_movzx8RR (d s : Gpr) :
    M.exec (.movzx8RR d s) next = .ok ((M.goto next).setGpW .w32 d (M.gp s &&& 0xFF)) := rfl

theorem exec_setcc (c : Cond) (d : Gpr) :
    M.exec (.setcc c d) next =
      .ok ((M.goto next).setGpW .w64 d
        ((M.gp d &&& ~~~0xFF) ||| if c.holds M.cpu.flags then 1 else 0)) := rfl

theorem exec_div (w : Width) (signed : Bool) (s : Gpr) :
    M.exec (.div w signed s) next = (M.goto next).divide w signed s := rfl

theorem exec_signExtendAcc (w : Width) :
    M.exec (.signExtendAcc w) next =
      .ok ((M.goto next).setGpW w rdx (if M.gp rax &&& w.signBit != 0 then w.mask else 0)) := rfl

theorem exec_jmp : M.exec (.jmp t) next = .ok (M.goto t) := rfl

theorem exec_jcc (c : Cond) :
    M.exec (.jcc c t) next = .ok (if c.holds M.cpu.flags then M.goto t else M.goto next) := rfl

theorem exec_ret {t : UInt64} (h : M.mem.read (M.gp rsp) 8 = some t) :
    M.exec .ret next = .ok (((M.goto next).setGpW .w64 rsp (M.gp rsp + 8)).goto t) := by
  have h' : (M.goto next).read ((M.goto next).gp rsp) 8 = .ok t := read_eq_ok h
  have he : M.exec .ret next = (do
      let t ← (M.goto next).read ((M.goto next).gp rsp) 8
      pure (((M.goto next).setGpW .w64 rsp ((M.goto next).gp rsp + 8)).withCpu
        fun c => { c with rip := t })) := rfl
  rw [he, h']
  rfl

theorem exec_nop : M.exec .nop next = .ok (M.goto next) := rfl

theorem exec_storeXmm (n : Nat) (mem : Mem) (s : Xmm) :
    M.exec (.storeXmm n mem s) next =
      if n == 16 then (M.goto next).write128 (M.addr mem) (M.xr s)
      else (M.goto next).write (M.addr mem) n (M.xr s).lo := rfl

theorem exec_loadXmm {n : Nat} {d : Xmm} {mem : Mem} {v : UInt64} (hn : n ≠ 16)
    (h : M.mem.read (M.addr mem) n = some v) :
    M.exec (.loadXmm n d mem) next = .ok ((M.goto next).setXr d (.ofLow v)) := by
  have h' : (M.goto next).read ((M.goto next).addr mem) n = .ok v := read_eq_ok h
  have he : M.exec (.loadXmm n d mem) next =
      if n == 16 then (do pure ((M.goto next).setXr d (← (M.goto next).read128 (M.addr mem))))
      else (do pure ((M.goto next).setXr d (.ofLow (← (M.goto next).read (M.addr mem) n)))) := rfl
  rw [he, if_neg (by simpa using hn), show (M.goto next).read (M.addr mem) n = .ok v from h']
  rfl

theorem exec_loadXmm16 {d : Xmm} {mem : Mem} {lo hi : UInt64}
    (hlo : M.mem.read (M.addr mem) 8 = some lo) (hhi : M.mem.read (M.addr mem + 8) 8 = some hi) :
    M.exec (.loadXmm 16 d mem) next = .ok ((M.goto next).setXr d ⟨lo, hi⟩) := by
  have he : M.exec (.loadXmm 16 d mem) next =
      (do pure ((M.goto next).setXr d (← (M.goto next).read128 (M.addr mem)))) := rfl
  have hr : (M.goto next).read128 (M.addr mem) = .ok ⟨lo, hi⟩ := by
    simp only [read128, show (M.goto next).read (M.addr mem) 8 = .ok lo from read_eq_ok hlo,
      show (M.goto next).read (M.addr mem + 8) 8 = .ok hi from read_eq_ok hhi]
    rfl
  rw [he, hr]
  rfl

theorem exec_vec (op : VecOp) (d s : Xmm) :
    M.exec (.vec op d s) next =
      if op == .ptest then .ok ((M.goto next).setFlags (ptestFlags (M.xr d) (M.xr s)))
      else .ok ((M.goto next).setXr d (op.apply (M.xr d) (M.xr s))) := rfl

end Machine

/-- `M'` is reached from `M` by steps of `p`. -/
def Steps (p : Program) : Machine → Machine → Prop :=
  Relation.ReflTransGen fun M M' => M.step p = .ok M'

namespace Steps

variable {p : Program} {M M' M'' : Machine}

theorem refl (M : Machine) : Steps p M M := Relation.ReflTransGen.refl

theorem trans (h : Steps p M M') (h' : Steps p M' M'') : Steps p M M'' :=
  Relation.ReflTransGen.trans h h'

theorem head {i : Instr UInt64} {next : UInt64} (hf : p.fetch M.cpu.rip = some (i, next))
    (he : M.exec i next = .ok M') (h : Steps p M' M'') : Steps p M M'' :=
  Relation.ReflTransGen.head (by simp [Machine.step, hf, he]) h

end Steps

end Amd64

end OnePassJit
