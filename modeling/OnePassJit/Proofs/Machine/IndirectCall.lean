import OnePassJit.Proofs.Engine.TypeIds
import OnePassJit.Proofs.Machine.Tables

/-!
The signature check of an indirect call.

Before it calls through a table, the code loads the id of the expected type from the type id
region the context points at and compares it with the id in the callee's record: where they
differ it leaves with `indirectCallTypeMismatch` (`runs_checkSignature`). The ids are the
engine's (`OnePassJit.internTypes`), one for each distinct signature seen by any module of
the engine, so the check passes
exactly when the callee's declared signature is the expected one, whatever the position of
either in the module's list of types (`indirect_call_checks_signature`).
-/

namespace OnePassJit.Amd64

open Lower ValueStack StackM

variable {K : Code} {X : Machine → Prop} {c : Compiler} {M : Machine} {fb cap : Nat}
  {vs : List UInt64} {T : Finset Reg}

theorem AddressSpace.toNat_lt_of_read {m : AddressSpace} {a v : UInt64} {n : Nat}
    (h : m.read a n = some v) (hn : n ≤ 8) : v.toNat < 2 ^ (8 * n) := by
  cases hl : m.locate a n with
  | none => simp [AddressSpace.read, hl] at h
  | some p =>
    rw [AddressSpace.read_of_locate hl, Option.some.injEq] at h
    rw [← h]
    exact toNat_readLE_lt _ _ hn

theorem runs_cmpRM {r : Reg} (hr : r.IsGp) {m : MemRef} (hm : m.Valid) (w : Width) {v : UInt64}
    (hv : M.mem.read (M.addr m.toMem) (if w == .w32 then 4 else 8) = some v)
    {Q : Unit → Compiler → Machine → Prop}
    (hQ : ∀ M', Steady M M' fb ∅ →
      (M'.cpu.flags.zf = true ↔ (M.gp r.gpr).toNat % 2 ^ w.bits = v.toNat % 2 ^ w.bits) →
      Q () { c with asm := Asm.pushed c.asm (.cmpRM w r.gpr m.toMem) } M') :
    Runs K X (asm (Asm.cmpRM w r m)) Q c M :=
  Runs.step (Asm.cmpRM_eq hr hm w _) (Machine.exec_cmpRM hv) rfl
    (hQ _ (Steady.goto_setFlags _ _) (zf_aluSub _ _ _ _))

theorem grows_guardEnd {cond : Cond} {L : Nat} {st : Status} :
    Grows (do asm (Asm.jcc cond L); exit st; asm (Asm.bind L)) :=
  .bind (.asm' (.add _)) fun _ => .bind (grows_exit st) fun _ => .asm' (.bindLabel L)

theorem runs_guardEnd (henv : Env M fb cap) {cond : Cond} {L : Nat} {st : Status}
    {Q : Unit → Compiler → Machine → Prop}
    (hX : cond.holds M.cpu.flags = false → ∀ M', Exited M' st c.stack.sp → X M')
    (hQ : cond.holds M.cpu.flags = true → ∀ c' t, c' = { c with asm := c'.asm } →
      Q () c' (M.goto t)) :
    Runs K X (do asm (Asm.jcc cond L); exit st; asm (Asm.bind L)) Q c M := by
  have h : Runs K X (do asm (Asm.jcc cond L); exit st; asm (Asm.bind L); pure ()) Q c M :=
    runs_guard (k := fun _ => pure ()) henv (fun _ => Grows.pure' _) hX
      fun hc c' t hc' => Runs.pure' (hQ hc c' t hc')
  simpa only [bind_pure_unit] using h

/-- The signature check of an indirect call: the id of type `typeIndex` in the type id region
against the one in the record of the callee. The code leaves with
`indirectCallTypeMismatch` exactly when they differ, and otherwise goes on with only the
scratch register and the flags changed. -/
theorem runs_checkSignature (h : Rep M fb cap c.stack vs) (hfit : Fit T c.stack)
    {tmp function : Reg} (htmp : tmp ∈ gpPool) (htT : tmp ∈ T) (hfn : function.IsGp)
    (hne : function ≠ tmp) {typeIndex : UInt32} {i : Nat} (hi : i < 2 ^ 32)
    (hfa : M.gp function.gpr = functionRecord i) {idT idF : UInt64}
    (htypeIds : M.mem.read (Dispatch.ctxAddr Abi.ctxTypeIds) 8 = some Area.typeIds.base)
    (hidT : M.mem.read (Area.typeIds.base + (typeIndex.toNat * 4).toUInt64) 4 = some idT)
    (hidF : M.mem.read (functionRecord i + UInt64.ofInt Abi.fnTypeId) 4 = some idF) :
    Runs K (fun M' => idT ≠ idF ∧ Exited M' (.trap .indirectCallTypeMismatch) c.stack.sp)
      (checkSignature typeIndex function tmp)
      (fun _ c' M' => idT = idF ∧ c'.stack = c.stack ∧ Steady M M' fb {tmp}) c M := by
  have hgp := isGp_of_mem_gpPool htmp
  have hltT : idT.toNat < 2 ^ 32 := AddressSpace.toNat_lt_of_read hidT (by decide)
  have hltF : idF.toNat < 2 ^ 32 := AddressSpace.toNat_lt_of_read hidF (by decide)
  have hfnW : ∀ w ∈ ({tmp} : Finset Reg), w.IsGp → w.gpr ≠ function.gpr :=
    gpr_ne_of_not_mem hfn (by simpa using hne)
  unfold checkSignature
  refine Runs.bind (runs_loadTemp (k := .u64) (v := Area.typeIds.base)
    (MemRef.valid_at (by decide) _) htmp h hfit htT
    (by rw [Machine.addr_at, h.env.context]; exact htypeIds) fun M₁ hR₁ hk₁ hgp₁ => ?_)
    fun _ => .bind (silent_disp _ _ _).grows fun _ =>
      .bind (.asm' (.load _ _ _)) fun _ => .bind Silent.createLabel.grows fun _ =>
        .bind (.asm' (.cmpRM _ _ _)) fun _ => grows_guardEnd
  refine Runs.bind (Runs.silent (silent_disp _ _ _) fun x c₂ h₂ => ?_) fun _ =>
    .bind (.asm' (.load _ _ _)) fun _ => .bind Silent.createLabel.grows fun _ =>
      .bind (.asm' (.cmpRM _ _ _)) fun _ => grows_guardEnd
  obtain ⟨rfl, rfl⟩ := disp_ok h₂
  have hidx : typeIndex.toNat * 4 < 2 ^ 40 := by have := typeIndex.toNat_lt; omega
  refine Runs.bind (runs_loadTemp (k := .u32) (v := idT) (c := { c with
    asm := Asm.pushed c.asm (.load .u64 tmp.gpr (MemRef.at contextReg Abi.ctxTypeIds).toMem) })
    (MemRef.valid_at hgp _) htmp hR₁ hfit htT
    (by
      rw [Machine.addr_at, hgp₁, ofInt_natCast_eq, ← hidT]
      exact hk₁.read_area (by decide) (by decide) hidx 4)
    fun M₂ hR₂ hk₂ hgp₂ => ?_) fun _ => .bind Silent.createLabel.grows fun _ =>
      .bind (.asm' (.cmpRM _ _ _)) fun _ => grows_guardEnd
  refine Runs.bind (Runs.silent Silent.createLabel fun L c₃ h₃ => ?_) fun _ =>
    .bind (.asm' (.cmpRM _ _ _)) fun _ => grows_guardEnd
  cases h₃
  have hk₁₂ := hk₁.trans hk₂
  have hfa₂ : M₂.gp function.gpr = functionRecord i := by
    rw [hk₁₂.gp _ (by simpa using hfnW), hfa]
  have hrec : i * Abi.fnSize + 8 < 2 ^ 40 := by unfold Abi.fnSize; omega
  have hF₂ : M₂.mem.read (M₂.addr (MemRef.at function Abi.fnTypeId).toMem)
      (if Width.w32 == .w32 then 4 else 8) = some idF := by
    rw [Machine.addr_at, hfa₂, ← hidF, functionRecord_typeId]
    exact hk₁₂.read_area (by decide) (by decide) hrec 4
  refine Runs.bind (runs_cmpRM hgp (MemRef.valid_at hfn _) .w32 hF₂
    fun M₃ (hs₃ : Steady M₂ M₃ fb ∅) hz₃ => ?_)
    fun _ => grows_guardEnd
  have hz : M₃.cpu.flags.zf = true ↔ idT = idF := by
    rw [hz₃, hgp₂, ← UInt64.toNat_inj]
    show (idT &&& low32).toNat % 2 ^ 32 = idF.toNat % 2 ^ 32 ↔ _
    rw [toNat_and_low32, Nat.mod_mod, Nat.mod_eq_of_lt hltT, Nat.mod_eq_of_lt hltF]
  have hs : Steady M M₃ fb {tmp} :=
    ((Steady.of_keeps hk₁₂).trans hs₃).mono (by simp)
  have henv₃ : Env M₃ fb cap := hR₂.env.of_steady hs₃ (by simp)
  refine runs_guardEnd henv₃ (fun hc M' hM' => ⟨fun he => ?_, hM'⟩) fun hc c' t hc' => ⟨?_, ?_, ?_⟩
  · simp [Cond.holds, hz.mpr he] at hc
  · simpa [Cond.holds] using hz.mp hc
  · rw [hc']
  · exact (hs.trans (Steady.goto t)).mono (by simp)

/-! Type identity, from the registry to the check. -/

/-- Type identity. The engine gives signatures ids in order of first appearance, so over any
sequence of signatures two ids are equal exactly when the signatures are. The registry is
the engine's, shared by every instantiation: interning into the registry the signatures
`pre` left numbers the next ones as the one sequence `pre` and then them would, and an
instantiation leaves the registry in that form, so any number of instantiations on one
engine number their types as one sequence. An instance keeps the ids of its types and of
its functions' declared types, and the signature check of an indirect call to function `i`
with type `t` leaves with `indirectCallTypeMismatch` exactly when the function's declared
signature is not type `t`, even where the module lists a signature twice. -/
theorem indirect_call_checks_signature :
    (∀ ss : List Signature, internTypes [] ss = (ss.eraseDups, ss.map (internedId ss)) ∧
      (ss.length ≤ 2 ^ 32 → ∀ s₁ ∈ ss, ∀ s₂ ∈ ss,
        internedId ss s₁ = internedId ss s₂ ↔ s₁ = s₂)) ∧
    (∀ pre ss : List Signature,
      internTypes pre.eraseDups ss = ((pre ++ ss).eraseDups, ss.map (internedId (pre ++ ss)))) ∧
    (∀ (m : ModuleDef) (e : Engine) (pre : List Signature), e.types = pre.eraseDups →
      match (instantiate m).run e with
      | .ok _ e' => e'.types = (pre ++ m.types.toList).eraseDups
      | .error _ e' => e'.types = pre.eraseDups ∨ e'.types = (pre ++ m.types.toList).eraseDups) ∧
    ∀ (m : ModuleDef) (e e' : Engine) (pre : List Signature) (inst : Instance),
      e.types = pre.eraseDups → (instantiate m).run e = .ok inst e' →
      pre.length + m.types.size ≤ 2 ^ 32 → ∀ (t i : UInt32), t.toNat < m.types.size →
      i.toNat < m.functions.size →
      ∀ (K : Code) (c : Compiler) (M : Machine) (fb cap : Nat) (vs : List UInt64)
        (T : Finset Reg) (tmp function : Reg),
        Rep M fb cap c.stack vs → Fit T c.stack → tmp ∈ gpPool → tmp ∈ T → function.IsGp →
        function ≠ tmp → M.gp function.gpr = functionRecord i.toNat →
        M.mem.read (Dispatch.ctxAddr Abi.ctxTypeIds) 8 = some Area.typeIds.base →
        M.mem.read (Area.typeIds.base + (t.toNat * 4).toUInt64) 4 =
          inst.space.read (Area.typeIds.base + (t.toNat * 4).toUInt64) 4 →
        M.mem.read (functionRecord i.toNat + UInt64.ofInt Abi.fnTypeId) 4 =
          inst.space.read (functionRecord i.toNat + UInt64.ofInt Abi.fnTypeId) 4 →
        Runs K (fun M' => m.decls.functionSignature? i.toNat ≠ m.types[t.toNat]? ∧
            Exited M' (.trap .indirectCallTypeMismatch) c.stack.sp)
          (checkSignature t function tmp)
          (fun _ c' M' => m.decls.functionSignature? i.toNat = m.types[t.toNat]? ∧
            c'.stack = c.stack ∧ Steady M M' fb {tmp}) c M := by
  refine ⟨fun ss => ⟨internTypes_nil ss, fun hss s₁ h₁ s₂ h₂ => internedId_inj hss h₁ h₂⟩,
    internTypes_eraseDups, fun m e pre hpre => instantiate_registry m hpre, ?_⟩
  intro m e e' pre inst hpre hinst hsize t i ht hi K c M fb cap vs T tmp function h hfit htmp
    htT hfn hne hfa htypeIds hT hF
  obtain ⟨hty, hfns⟩ := instantiate_typeIds hpre hinst
  obtain ⟨sigT, hsigT, hreadT⟩ := hty t.toNat ht t.toNat_lt
  obtain ⟨sigF, hsigF, hreadF⟩ := hfns i.toNat hi i.toNat_lt
  rw [hreadT] at hT
  rw [hreadF] at hF
  have hmemT : sigT ∈ pre ++ m.types.toList :=
    List.mem_append_right pre (Array.mem_toList_iff.mpr (Array.mem_of_getElem? hsigT))
  have hmemF : sigF ∈ pre ++ m.types.toList := by
    simp only [ModuleDef.decls, ModuleDecls.functionSignature?, Option.bind_eq_bind,
      Option.bind_eq_some_iff] at hsigF
    obtain ⟨_, -, hs⟩ := hsigF
    exact List.mem_append_right pre (Array.mem_toList_iff.mpr (Array.mem_of_getElem? hs))
  have hiff : (internedId (pre ++ m.types.toList) sigT).toUInt64 =
      (internedId (pre ++ m.types.toList) sigF).toUInt64 ↔
      m.decls.functionSignature? i.toNat = m.types[t.toNat]? := by
    rw [hsigF, hsigT, Option.some.injEq, UInt32.toUInt64_inj,
      internedId_inj (by simpa using hsize) hmemT hmemF, eq_comm]
  exact (runs_checkSignature h hfit htmp htT hfn hne i.toNat_lt hfa htypeIds hT hF).mono
    (fun M' hM' => ⟨fun he => hM'.1 (hiff.mpr he), hM'.2⟩)
    fun _ c' M' hQ => ⟨hiff.mp hQ.1, hQ.2⟩

/-- A second module on an engine that has seen two signatures: its types, one of them listed
twice and one seen before, take the ids of the one sequence. -/
theorem interned_ids_across_modules :
    internTypes [⟨[.i32], []⟩, ⟨[], [.i64]⟩] [⟨[], [.i64]⟩, ⟨[.f32], []⟩, ⟨[], [.i64]⟩] =
      ([⟨[.i32], []⟩, ⟨[], [.i64]⟩, ⟨[.f32], []⟩], [1, 2, 1]) := by
  have h := indirect_call_checks_signature.2.1 [⟨[.i32], []⟩, ⟨[], [.i64]⟩]
    [⟨[], [.i64]⟩, ⟨[.f32], []⟩, ⟨[], [.i64]⟩]
  rw [show List.eraseDups [(⟨[.i32], []⟩ : Signature), ⟨[], [.i64]⟩] =
    [⟨[.i32], []⟩, ⟨[], [.i64]⟩] by decide] at h
  rw [h]
  decide

end OnePassJit.Amd64
