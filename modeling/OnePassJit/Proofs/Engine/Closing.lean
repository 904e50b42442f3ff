import OnePassJit.Proofs.Machine.Host
import OnePassJit.Proofs.Machine.ExitCheck
import OnePassJit.Proofs.Machine.Entry

/-!
Closing an instance.

The exit code of an instance is written once: `Instance.close` keeps the first code, and no
other step of the host touches it. `Dispatch.Invariant P m` says that every run of `m` from an
instance where `P` holds ends in one where it holds again, error or not; the host's steps are
checked against it one by one, from reading a slot up to the call loop. Two invariants follow
from one traversal (`Pinned`): a set exit code stays set, and without a host function that closes
the instance, no call changes the exit code at all.

A closed instance refuses every call (`Instance.call_of_closed`). A call that is running when the
instance is closed stops at its next exit status check (`Dispatch.loop_at_check`), and with
termination checks on every loop header a branch reaches starts with that check
(`Amd64.step_header_checks`, `Amd64.runs_checkExitCode`).
-/

namespace OnePassJit

namespace Instance

theorem functions_close (inst : Instance) (c : UInt32) : (inst.close c).functions = inst.functions := by
  unfold close
  split <;> rfl

theorem exitCode_close (inst : Instance) (c : UInt32) :
    (inst.close c).exitCode = inst.exitCode.or (some c) := by
  unfold close
  cases h : inst.exitCode <;> simp [h]

end Instance

def HostCloses (fs : Array FunctionInfo) : Prop :=
  ∃ fi ∈ fs, ∃ h, fi.host = some h ∧ h.routine = .close

theorem hostCloses_of_getD {fs : Array FunctionInfo} {k : Nat} {h : HostFunction}
    (hk : (fs.getD k default).host = some h) (hc : h.routine = .close) : HostCloses fs := by
  unfold Array.getD at hk
  split at hk
  · exact ⟨_, Array.getElem_mem _, h, hk, hc⟩
  · cases hk

namespace Dispatch

variable {α β : Type}

/-! Running the host's steps. -/

theorem run_bind (m : EngineM α) (f : α → EngineM β) (inst : Instance) :
    (m >>= f).run inst = match m.run inst with
      | (.ok a, s) => (f a).run s
      | (.error e, s) => (.error e, s) := by
  show (ExceptT.bindCont f (m.run inst).1 (m.run inst).2) = _
  rcases m.run inst with ⟨_ | a, s⟩ <;> rfl

theorem run_bind_ok {m : EngineM α} {f : α → EngineM β} {inst inst' : Instance} {a : α}
    (h : m.run inst = (.ok a, inst')) : (m >>= f).run inst = (f a).run inst' := by
  rw [run_bind, h]

theorem run_bind_error {m : EngineM α} {f : α → EngineM β} {inst inst' : Instance}
    {e : ExecutionError} (h : m.run inst = (.error e, inst')) :
    (m >>= f).run inst = (.error e, inst') := by
  rw [run_bind, h]

theorem run_get (inst : Instance) : (MonadState.get : EngineM Instance).run inst = (.ok inst, inst) :=
  rfl

theorem run_readCtx (field : Int) (n : Nat) (inst : Instance) :
    (readCtx field n).run inst = (.ok (inst.space.peek (ctxAddr field) n), inst) := rfl

theorem run_info (k : Nat) (inst : Instance) :
    (info k).run inst = (.ok (inst.functions.getD k default), inst) := rfl

/-! Invariants of the host's steps. -/

def Invariant (P : Instance → Prop) (m : EngineM α) : Prop :=
  ∀ inst, P inst → P (m.run inst).2

namespace Invariant

variable {P : Instance → Prop}

theorem bind {m : EngineM α} {f : α → EngineM β} (hm : Invariant P m)
    (hf : ∀ a, Invariant P (f a)) : Invariant P (m >>= f) := by
  intro inst h
  rw [run_bind]
  have h₁ := hm inst h
  rcases hr : m.run inst with ⟨_ | a, s⟩
  · rw [hr] at h₁
    exact h₁
  · rw [hr] at h₁
    exact hf a s h₁

theorem of_pure (a : α) : Invariant P (pure a : EngineM α) := fun _ h => h

theorem of_throw (e : ExecutionError) : Invariant P (throw e : EngineM α) := fun _ h => h

theorem throw_bind (e : ExecutionError) (f : α → EngineM β) : Invariant P (throw e >>= f) :=
  fun _ h => h

theorem get_bind {f : Instance → EngineM α} (hf : ∀ i, P i → Invariant P (f i)) :
    Invariant P (MonadState.get >>= f) := fun inst h => hf inst h inst h

theorem bind_of_reads {m : EngineM α} {f : α → EngineM β} {g : Instance → α}
    (hm : ∀ inst, m.run inst = (.ok (g inst), inst)) (hf : ∀ inst, P inst → Invariant P (f (g inst))) :
    Invariant P (m >>= f) := by
  intro inst h
  rw [run_bind, hm]
  exact hf inst h inst h

theorem of_modify {g : Instance → Instance} (hg : ∀ i, P i → P (g i)) :
    Invariant P (modify g : EngineM PUnit) := fun inst h => hg inst h

theorem of_set {s : Instance} (hs : P s) : Invariant P (set s : EngineM PUnit) := fun _ _ => hs

theorem mapM {f : β → EngineM α} (hf : ∀ b, Invariant P (f b)) :
    ∀ l : List β, Invariant P (l.mapM f)
  | [] => of_pure _
  | b :: l => by
    rw [List.mapM_cons]
    exact (hf b).bind fun _ => (mapM hf l).bind fun _ => of_pure _

theorem forM {f : β → EngineM PUnit} (hf : ∀ b, Invariant P (f b)) :
    ∀ l : List β, Invariant P (l.forM f)
  | [] => of_pure _
  | b :: l => by
    show Invariant P (f b >>= fun _ => l.forM f)
    exact (hf b).bind fun _ => forM hf l

end Invariant

/-- The instance's functions are `fs` and its exit code passes `E`. -/
def Pinned (fs : Array FunctionInfo) (E : Option UInt32 → Prop) (inst : Instance) : Prop :=
  inst.functions = fs ∧ E inst.exitCode

def CloseKeeps (fs : Array FunctionInfo) (E : Option UInt32 → Prop) : Prop :=
  HostCloses fs → ∀ e c, E e → E (e.or (some c))

variable {fs : Array FunctionInfo} {E : Option UInt32 → Prop}

theorem Pinned.space {i : Instance} (h : Pinned fs E i) (s : Amd64.AddressSpace) :
    Pinned fs E { i with space := s } := h

theorem Pinned.setMemory {i : Instance} (h : Pinned fs E i) (m : LinearMemory) :
    Pinned fs E (i.setMemory m) := h

theorem Pinned.setTable {i : Instance} (h : Pinned fs E i) (k : Nat) (t : RefTable) :
    Pinned fs E (i.setTable k t) := h

/-! Each step of the host keeps the functions, and the exit code but for a close. -/

theorem inv_readCtx (field : Int) (n : Nat) : Invariant (Pinned fs E) (readCtx field n) := by
  unfold readCtx
  exact .get_bind fun _ _ => .of_pure _

theorem inv_writeCtx (field : Int) (v : UInt64) (n : Nat) :
    Invariant (Pinned fs E) (writeCtx field v n) :=
  .of_modify fun _ h => h.space _

theorem inv_stackLen : Invariant (Pinned fs E) stackLen := by
  unfold stackLen
  exact .get_bind fun _ _ => .of_pure _

theorem inv_readSlot (k : Nat) : Invariant (Pinned fs E) (readSlot k) := by
  unfold readSlot
  exact .get_bind fun _ _ => .of_pure _

theorem inv_writeSlot (k : Nat) (v : UInt64) : Invariant (Pinned fs E) (writeSlot k v) :=
  .of_modify fun _ h => h.space _

theorem inv_readSlots (start n : Nat) : Invariant (Pinned fs E) (readSlots start n) :=
  Invariant.mapM (fun _ => inv_readSlot _) _

theorem inv_stackBase : Invariant (Pinned fs E) stackBase := by
  unfold stackBase
  exact (inv_readCtx _ _).bind fun _ => .of_pure _

theorem inv_enter (code module : UInt64) : Invariant (Pinned fs E) (enter code module) := by
  unfold enter
  refine .get_bind fun i hi => ?_
  dsimp only
  split
  · exact .of_set hi
  · exact .of_throw _

theorem inv_currentFunction : Invariant (Pinned fs E) currentFunction := by
  unfold currentFunction
  refine (inv_readCtx _ _).bind fun f => .get_bind fun i _ => ?_
  split
  · exact .of_pure _
  · exact .of_throw _

theorem inv_info (k : Nat) : Invariant (Pinned fs E) (info k) := by
  unfold info
  exact .get_bind fun _ _ => .of_pure _

theorem inv_refreshMemory : Invariant (Pinned fs E) refreshMemory := by
  unfold refreshMemory
  refine .get_bind fun i _ => ?_
  split
  · exact (inv_writeCtx _ _ _).bind fun _ => inv_writeCtx _ _ _
  · exact .of_pure _

theorem inv_growMemory (m : LinearMemory) (delta : UInt64) :
    Invariant (Pinned fs E) (growMemory m delta) := by
  unfold growMemory
  split
  · exact (Invariant.of_modify fun _ h => h.setMemory _).bind fun _ => .of_pure _
  · exact .of_pure _

theorem inv_growStack : Invariant (Pinned fs E) growStack := by
  unfold growStack
  refine (inv_stackLen).bind fun oldLen => .get_bind fun i _ => ?_
  dsimp only
  split
  · exact .throw_bind _ _
  refine inv_currentFunction.bind fun index => (inv_info _).bind fun fi => ?_
  exact (Invariant.of_modify fun _ h => h.space _).bind fun _ => inv_writeCtx _ _ _

theorem inv_hostRoutine (hE : CloseKeeps fs E) {r : HostRoutine} (hr : r = .close → HostCloses fs)
    (params frame : List UInt64) : Invariant (Pinned fs E) (hostRoutine r params frame) := by
  unfold hostRoutine
  dsimp only
  split
  · exact .of_pure _
  · exact .of_pure _
  · refine (Invariant.of_modify fun i h => ⟨(i.functions_close _).trans h.1, ?_⟩).bind
      fun _ => .of_pure _
    rw [Instance.exitCode_close]
    exact hE (hr rfl) _ _ h.2
  · exact .of_throw _
  · refine .get_bind fun i _ => ?_
    split
    · split
      · exact (Invariant.of_modify fun _ h => h.setMemory _).bind fun _ => .of_pure _
      · exact .of_throw _
    · exact .of_throw _
  · refine .get_bind fun i _ => ?_
    split
    · exact (inv_growMemory _ _).bind fun _ => .of_pure _
    · exact .of_throw _
  · exact .get_bind fun _ _ => .of_pure _

theorem inv_callHost (hE : CloseKeeps fs E) : Invariant (Pinned fs E) callHost := by
  unfold callHost
  refine inv_currentFunction.bind fun index => .bind_of_reads (run_info index) fun i hi => ?_
  split
  case h_2 => exact .of_throw _
  rename_i h hh
  refine inv_stackBase.bind fun base => ?_
  dsimp only
  refine inv_stackLen.bind fun len => ?_
  split
  · exact .throw_bind _ _
  refine (inv_readSlots _ _).bind fun frame => ?_
  refine (inv_hostRoutine hE (fun hc => hostCloses_of_getD (hi.1 ▸ hh) hc) _ _).bind fun _ => ?_
  exact (Invariant.forM (fun _ => inv_writeSlot _ _) _).bind fun _ => inv_refreshMemory

theorem inv_callBuiltin : Invariant (Pinned fs E) callBuiltin := by
  unfold callBuiltin
  refine (inv_readCtx _ _).bind fun raw => ?_
  split
  case h_2 => exact .of_throw _
  refine inv_stackBase.bind fun base => (inv_readCtx _ _).bind fun sp => ?_
  dsimp only
  split
  · exact inv_growStack
  · -- memory.grow
    refine .get_bind fun i _ => ?_
    split
    case h_2 => exact .of_throw _
    refine inv_stackLen.bind fun len => ?_
    split
    · exact .throw_bind _ _
    refine (inv_readSlot _).bind fun delta => (inv_growMemory _ _).bind fun _ => ?_
    exact (inv_writeSlot _ _).bind fun _ => inv_refreshMemory
  · -- table.grow
    refine inv_stackLen.bind fun len => ?_
    split
    · exact .throw_bind _ _
    refine (inv_readSlot _).bind fun init => (inv_readSlot _).bind fun delta =>
      (inv_readSlot _).bind fun t => .get_bind fun i _ => ?_
    split
    case h_2 => exact .of_throw _
    split
    · exact (Invariant.of_modify fun _ h => h.setTable _ _).bind fun _ => inv_writeSlot _ _
    · exact inv_writeSlot _ _
  · refine inv_currentFunction.bind fun index => (inv_info _).bind fun fi => ?_
    refine inv_stackLen.bind fun len => ?_
    split
    · exact (inv_readSlots _ _).bind fun _ => .of_modify fun _ h => h
    · exact (Invariant.of_pure _).bind fun _ => .of_modify fun _ h => h
  · refine inv_currentFunction.bind fun index => (inv_info _).bind fun fi => ?_
    refine inv_stackLen.bind fun len => ?_
    split
    · exact (inv_readSlots _ _).bind fun _ => .of_modify fun _ h => h
    · exact (Invariant.of_pure _).bind fun _ => .of_modify fun _ h => h
  · refine .get_bind fun i _ => ?_
    split
    · exact .of_throw _
    · exact .of_pure _

theorem inv_backtrace : Invariant (Pinned fs E) backtrace := by
  unfold backtrace
  exact .get_bind fun _ _ => .get_bind fun _ _ => (inv_readCtx _ _).bind fun _ =>
    inv_stackBase.bind fun _ => .of_pure _

theorem inv_loop (hE : CloseKeeps fs E) (fuel : Nat) (code module : UInt64) :
    Invariant (Pinned fs E) (loop fuel code module) := by
  induction fuel generalizing code module with
  | zero => exact .of_throw _
  | succ fuel ih =>
    unfold loop
    refine (inv_enter _ _).bind fun _ => (inv_readCtx _ _).bind fun raw => ?_
    split
    · exact .of_throw _
    · exact .of_pure _
    · exact .get_bind fun _ _ => .of_throw _
    · exact inv_backtrace.bind fun _ => .of_throw _
    all_goals
      dsimp only
      split
      · exact (inv_callHost hE).bind fun _ => (inv_readCtx _ _).bind fun _ =>
          (inv_readCtx _ _).bind fun _ => ih _ _
      · exact inv_callBuiltin.bind fun _ => (inv_readCtx _ _).bind fun _ =>
          (inv_readCtx _ _).bind fun _ => ih _ _

theorem inv_call (hE : CloseKeeps fs E) (index : UInt32) (params : List UInt64) :
    Invariant (Pinned fs E) (Instance.call index params) := by
  unfold Instance.call
  refine .get_bind fun i hi => ?_
  dsimp only
  split
  · exact .throw_bind _ _
  split
  · exact .throw_bind _ _
  split
  case h_2 => exact .of_throw _
  split
  · exact .throw_bind _ _
  exact (Invariant.of_set (hi.space _)).bind fun _ => (inv_loop hE _ _ _).bind fun _ =>
    inv_readSlots _ _

theorem loop_keeps_closed {inst : Instance} {c : UInt32} (hc : inst.exitCode = some c)
    (fuel : Nat) (code module : UInt64) :
    ((loop fuel code module).run inst).2.exitCode = some c :=
  (inv_loop (E := (· = some c)) (fun _ e _ he => by rw [he]; rfl) fuel code module inst
    ⟨rfl, hc⟩).2

/-! The exit status check. -/

theorem toUInt32_peek {inst : Instance} {field : Int} {code : UInt32}
    (h : inst.space.read (ctxAddr field) 4 = some code.toUInt64) :
    (inst.space.peek (ctxAddr field) 4).toUInt32 = code := by
  rw [Amd64.AddressSpace.peek_eq h, UInt32.toUInt32_toUInt64]

theorem run_callBuiltin_check {inst : Instance}
    (hb : inst.space.read (ctxAddr Abi.ctxBuiltin) 4 = some Builtin.checkExitCode.code.toUInt64) :
    callBuiltin.run inst = (match inst.exitCode with
      | some c => .error (.moduleClosed c)
      | none => .ok (), inst) := by
  unfold callBuiltin
  rw [run_bind_ok (run_readCtx _ _ inst)]
  simp only [toUInt32_peek hb, Builtin.ofCode?_code]
  rw [run_bind_ok (show stackBase.run inst = (.ok _, inst) from rfl),
    run_bind_ok (run_readCtx _ _ inst), run_bind_ok (run_get inst)]
  cases inst.exitCode <;> rfl

/-- Generated code that exits at the status check: a closed instance stops the call with its
exit code, an open one resumes the code where it left. -/
theorem loop_at_check {fuel : Nat} {code module : UInt64} {inst inst₁ : Instance}
    (henter : (enter code module).run inst = (.ok (), inst₁))
    (hst : inst₁.space.read (ctxAddr Abi.ctxStatus) 4 = some Status.callBuiltin.code.toUInt64)
    (hb : inst₁.space.read (ctxAddr Abi.ctxBuiltin) 4 = some Builtin.checkExitCode.code.toUInt64) :
    (loop (fuel + 1) code module).run inst = match inst₁.exitCode with
      | some c => (.error (.moduleClosed c), inst₁)
      | none =>
        let m := inst₁.space.peek (ctxAddr Abi.ctxModule) 8
        (loop fuel (inst₁.space.peek (ctxAddr Abi.ctxReturnAddress) 8)
          (if m != 0 then m else module)).run inst₁ := by
  rw [loop, run_bind_ok henter, run_bind_ok (run_readCtx _ _ inst₁)]
  simp only [toUInt32_peek hst, Status.ofCode?_code]
  rw [if_neg (by decide)]
  cases hc : inst₁.exitCode with
  | some c =>
    rw [run_bind_error ((run_callBuiltin_check hb).trans (by rw [hc]))]
  | none =>
    rw [run_bind_ok ((run_callBuiltin_check hb).trans (by rw [hc])),
      run_bind_ok (run_readCtx _ _ inst₁), run_bind_ok (run_readCtx _ _ inst₁)]

end Dispatch

namespace Instance

open Dispatch

/-- A closed instance refuses a call with its exit code and is left as it was: no generated
code runs. -/
theorem call_of_closed {inst : Instance} {c : UInt32} (hc : inst.exitCode = some c)
    (index : UInt32) (params : List UInt64) :
    (Instance.call index params).run inst = (.error (.moduleClosed c), inst) := by
  unfold Instance.call
  rw [run_bind_ok (run_get inst)]
  simp only [hc]
  rfl

end Instance

/-! The state word of a close handle: `0` while open, and the closed bit above the code once
closed, set by a compare-exchange from `0`. An instance's exit code stands for that word, and
the two agree through every close. -/

def closeWord : Option UInt32 → UInt64
  | none => 0
  | some c => (1 : UInt64) <<< 32 ||| c.toUInt64

def closeOnWord (w : UInt64) (code : UInt32) : UInt64 :=
  if w = 0 then (1 : UInt64) <<< 32 ||| code.toUInt64 else w

def exitCodeOfWord (w : UInt64) : Option UInt32 :=
  if w = 0 then none else some w.toUInt32

theorem toNat_closeWord (c : UInt32) : (closeWord (some c)).toNat = 2 ^ 32 + c.toNat := by
  have h := Nat.two_pow_add_eq_or_of_lt c.toNat_lt 1
  rw [closeWord, UInt64.toNat_or]
  simpa using h.symm

theorem closeWord_some_ne_zero (c : UInt32) : closeWord (some c) ≠ 0 := by
  intro h
  have := toNat_closeWord c
  rw [h, UInt64.toNat_zero] at this
  omega

theorem exitCodeOfWord_closeWord (e : Option UInt32) : exitCodeOfWord (closeWord e) = e := by
  cases e with
  | none => rfl
  | some c =>
    rw [exitCodeOfWord, if_neg (closeWord_some_ne_zero c)]
    congr 1
    apply UInt32.toNat_inj.mp
    rw [UInt64.toNat_toUInt32, toNat_closeWord]
    have := c.toNat_lt
    omega

theorem closeWord_close (inst : Instance) (c : UInt32) :
    closeWord (inst.close c).exitCode = closeOnWord (closeWord inst.exitCode) c := by
  rw [Instance.exitCode_close]
  cases inst.exitCode with
  | none => simp [closeWord, closeOnWord]
  | some c' => rw [closeOnWord, if_neg (closeWord_some_ne_zero c')]; rfl

/-! Histories of closes and calls. -/

/-- What the host does to an instance: close it, from any handle, or call one of its functions. -/
inductive HostAction where
  | close (code : UInt32)
  | call (index : UInt32) (params : List UInt64)

namespace HostAction

def apply (inst : Instance) : HostAction → Instance
  | .close c => inst.close c
  | .call index params => ((Instance.call index params).run inst).2

def closeCode? : HostAction → Option UInt32
  | .close c => some c
  | .call _ _ => none

end HostAction

def Instance.replay (inst : Instance) (h : List HostAction) : Instance :=
  h.foldl HostAction.apply inst

namespace Instance

open Dispatch

@[simp] theorem replay_nil (inst : Instance) : inst.replay [] = inst := rfl

@[simp] theorem replay_cons (inst : Instance) (a : HostAction) (h : List HostAction) :
    inst.replay (a :: h) = (a.apply inst).replay h := rfl

theorem exitCode_replay_of_closed {inst : Instance} {c : UInt32} (hc : inst.exitCode = some c)
    (h : List HostAction) : (inst.replay h).exitCode = some c := by
  induction h generalizing inst with
  | nil => exact hc
  | cons a h ih =>
    rw [replay_cons]
    apply ih
    cases a with
    | close c' => rw [HostAction.apply, exitCode_close, hc]; rfl
    | call index params =>
      exact (inv_call (E := (· = some c)) (fun _ e _ he => by rw [he]; rfl) index params inst
        ⟨rfl, hc⟩).2

theorem exitCode_replay {inst : Instance} (hno : ¬ HostCloses inst.functions)
    (h : List HostAction) :
    (inst.replay h).exitCode = inst.exitCode.or (h.findSome? HostAction.closeCode?) := by
  induction h generalizing inst with
  | nil => simp
  | cons a h ih =>
    rw [replay_cons]
    cases a with
    | close c =>
      rw [List.findSome?_cons, HostAction.closeCode?, HostAction.apply]
      obtain ⟨c', hc'⟩ : ∃ c', (inst.close c).exitCode = some c' := by
        rw [exitCode_close]
        cases inst.exitCode <;> simp
      rw [exitCode_replay_of_closed hc' h, ← hc', exitCode_close]
    | call index params =>
      have hkeep := inv_call (E := (· = inst.exitCode)) (fun hc => absurd hc hno) index params
        inst ⟨rfl, rfl⟩
      rw [HostAction.apply, ih (hkeep.1 ▸ hno), hkeep.2, List.findSome?_cons]
      rfl


theorem exitCode_replay_first {inst : Instance} (hopen : inst.exitCode = none)
    (h : List HostAction) :
    (inst.replay h).exitCode = none ∨
      ∃ h₁ a h₂ c, h = h₁ ++ a :: h₂ ∧ (inst.replay h₁).exitCode = none ∧
        (a.apply (inst.replay h₁)).exitCode = some c ∧
        (a = .close c ∨ (∃ index params, a = .call index params) ∧ HostCloses inst.functions) ∧
        (inst.replay h).exitCode = some c := by
  induction h generalizing inst with
  | nil => exact .inl hopen
  | cons a h ih =>
    rw [replay_cons]
    have hfns : (a.apply inst).functions = inst.functions := by
      cases a with
      | close c => exact functions_close inst c
      | call index params =>
        exact (inv_call (E := fun _ => True) (fun _ _ _ _ => trivial) index params inst
          ⟨rfl, trivial⟩).1
    cases hA : (a.apply inst).exitCode with
    | some c =>
      refine .inr ⟨[], a, h, c, rfl, hopen, hA, ?_, exitCode_replay_of_closed hA h⟩
      cases a with
      | close c' =>
        rw [HostAction.apply, exitCode_close, hopen] at hA
        cases hA
        exact .inl rfl
      | call index params =>
        refine .inr ⟨⟨index, params, rfl⟩, Classical.byContradiction fun hno => ?_⟩
        have hkeep := inv_call (E := (· = inst.exitCode)) (fun hc => absurd hc hno) index
          params inst ⟨rfl, rfl⟩
        rw [HostAction.apply, hkeep.2, hopen] at hA
        cases hA
    | none =>
      rcases ih hA with hnone | ⟨h₁, b, h₂, c, hsplit, hopen₁, hb, hwho, hfin⟩
      · exact .inl hnone
      · exact .inr ⟨a :: h₁, b, h₂, c, by rw [hsplit]; rfl, hopen₁, hb, hfns ▸ hwho, hfin⟩

end Instance

open Dispatch in
/-- Closing is final and stops calls. The first close sets the exit code, `0` included, and no
later close or call changes it; without a closing host function nothing else sets it, and
with one the first action to close, a handle's close or a call, fixes the code for good. The
state word of the handle tells a close with code `0` from an open instance, and a close is
the compare-exchange on it. A closed
instance refuses every call without running code, and a running call keeps a close it made
through every later exit. When the code exits at the status check, a closed instance ends the
call with its exit code and an open one resumes it. With termination checks on, a loop header
that a branch reaches is followed by that check, whose code writes the stack back and leaves to
the host with the check builtin before the loop body runs again. -/
theorem close_stops_calls :
    (∀ (inst : Instance) (c : UInt32) (h : List HostAction),
      inst.exitCode = some c → (inst.replay h).exitCode = some c) ∧
    (∀ (inst : Instance) (h : List HostAction), ¬ HostCloses inst.functions →
      (inst.replay h).exitCode = inst.exitCode.or (h.findSome? HostAction.closeCode?)) ∧
    (∀ (inst : Instance) (h : List HostAction), inst.exitCode = none →
      (inst.replay h).exitCode = none ∨
        ∃ h₁ a h₂ c, h = h₁ ++ a :: h₂ ∧ (inst.replay h₁).exitCode = none ∧
          (a.apply (inst.replay h₁)).exitCode = some c ∧
          (a = .close c ∨ (∃ index params, a = .call index params) ∧ HostCloses inst.functions) ∧
          (inst.replay h).exitCode = some c) ∧
    (∀ c, closeWord (some c) ≠ closeWord none) ∧
    (∀ e, exitCodeOfWord (closeWord e) = e) ∧
    (∀ (inst : Instance) (c : UInt32),
      closeWord (inst.close c).exitCode = closeOnWord (closeWord inst.exitCode) c) ∧
    (∀ (inst : Instance) (c index : UInt32) (params : List UInt64), inst.exitCode = some c →
      (Instance.call index params).run inst = (.error (.moduleClosed c), inst)) ∧
    (∀ (inst : Instance) (c : UInt32) (fuel : Nat) (code module : UInt64),
      inst.exitCode = some c → ((loop fuel code module).run inst).2.exitCode = some c) ∧
    (∀ (fuel : Nat) (code module : UInt64) (inst inst₁ : Instance),
      (enter code module).run inst = (.ok (), inst₁) →
      inst₁.space.read (ctxAddr Abi.ctxStatus) 4 = some Status.callBuiltin.code.toUInt64 →
      inst₁.space.read (ctxAddr Abi.ctxBuiltin) 4 = some Builtin.checkExitCode.code.toUInt64 →
      (loop (fuel + 1) code module).run inst = match inst₁.exitCode with
        | some c => (.error (.moduleClosed c), inst₁)
        | none =>
          let m := inst₁.space.peek (ctxAddr Abi.ctxModule) 8
          (loop fuel (inst₁.space.peek (ctxAddr Abi.ctxReturnAddress) 8)
            (if m != 0 then m else module)).run inst₁) ∧
    (∀ (l : Label) (c c₁ : Amd64.Compiler) (st : Bool × Nat), l.kind = .header →
      Amd64.Lower.bindLabel l c = .ok (false, c₁) →
      Amd64.backend.step true st (.label l) c =
        (do Amd64.Lower.checkExitCode; pure (false, st.2) : Amd64.LowerM (Bool × Nat)) c₁) ∧
    (∀ (K : Amd64.Code) (X : Amd64.Machine → Prop) (Q : Unit → Amd64.Compiler → Amd64.Machine → Prop)
      (c : Amd64.Compiler) (M : Amd64.Machine) (fb cap : Nat) (T : Finset Reg)
      (vs : List UInt64), Amd64.Rep M fb cap c.stack vs → Amd64.Lower.Fit T c.stack → T.card < 9 →
      (∀ M', Amd64.Exited M' .callBuiltin c.stack.sp →
        M'.mem.read (ctxAddr Abi.ctxBuiltin) 4 = some Builtin.checkExitCode.code.toUInt64 → X M') →
      Amd64.Runs K X Amd64.Lower.checkExitCode Q c M) :=
  ⟨fun _ _ h hc => Instance.exitCode_replay_of_closed hc h,
    fun _ h hno => Instance.exitCode_replay hno h,
    fun _ h hopen => Instance.exitCode_replay_first hopen h,
    closeWord_some_ne_zero, exitCodeOfWord_closeWord, closeWord_close,
    fun _ _ index params hc => Instance.call_of_closed hc index params,
    fun _ _ fuel code module hc => loop_keeps_closed hc fuel code module,
    fun _ _ _ _ _ henter hst hb => loop_at_check henter hst hb,
    fun _ _ _ st hl hb => Amd64.step_header_checks hl hb st,
    fun _ _ _ _ _ _ _ _ _ h hfit hcard hX => Amd64.runs_checkExitCode h hfit hcard hX⟩

/-- Closing with code `0` first wins over a later close, a call between them changing nothing,
and leaves a state word other than the open one; the check after a loop header, entered from
the host, leaves to the host with the check builtin. -/
theorem close_zero_first_wins :
    ¬ HostCloses (default : Instance).functions ∧
      ((default : Instance).replay [.close 0, .call 0 [], .close 5]).exitCode = some 0 ∧
      closeWord (some 0) ≠ closeWord none ∧
      Amd64.Runs (Amd64.Code.spaced {} (by decide))
        (fun M' => M'.mem.read (Dispatch.ctxAddr Abi.ctxBuiltin) 4 =
          some Builtin.checkExitCode.code.toUInt64)
        Amd64.Lower.checkExitCode (fun _ _ _ => True)
        { stack := Amd64.memoryStack [.i32], listener := false, features := {}
          fn := FunctionIr.ofBody { params := [.i32], results := [.i32] } {} [] }
        (Amd64.entryMachine [7]) := by
  have hno : ¬ HostCloses (default : Instance).functions := by
    rintro ⟨fi, hfi, -⟩
    rw [show (default : Instance).functions = #[] from rfl] at hfi
    exact Array.not_mem_empty fi hfi
  have hrep : Amd64.Rep (Amd64.entryMachine [7]) 0 1 (Amd64.memoryStack [.i32]) ([] ++ [7]) := by
    refine Amd64.rep_entryMachine rfl (by decide) fun i t v ht hv => ?_
    have : t = .i32 := by simpa using List.mem_of_getElem? ht
    subst this
    have : v = 7 := by simpa using List.mem_of_getElem? hv
    subst this
    decide
  refine ⟨hno, ?_, close_stops_calls.2.2.2.1 0, ?_⟩
  · rw [close_stops_calls.2.1 _ _ hno]
    rfl
  · exact close_stops_calls.2.2.2.2.2.2.2.2.2.2 _ _ _ _ _ 0 1 ∅ _ hrep
      (Amd64.fit_memoryStack (by decide)) (by decide) fun _ _ h => h

end OnePassJit
