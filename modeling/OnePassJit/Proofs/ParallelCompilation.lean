import OnePassJit.Session

/-!
Compiling a module on several workers gives what one worker gives.

The workers' runs put back together are the module's functions (`flatten_workerRuns`), and
a worker answers what compiling its run in order answers (`compileRun_fst`), so
the module's answer is the first failure in function order or all code in order, whatever
the parallelism (`compileModuleRun_result`). Counting two compiled functions commutes
(`SessionStats.record_right_comm`), so every order the statistics lock may take the
workers' counts in gives the counts in function order
(`parallel_compilation_agrees_with_serial`).
-/

namespace OnePassJit

/-! The runs of the workers. -/

theorem flatten_chunksOf {α : Type} (size : Nat) (xs : List α) :
    (chunksOf size xs).flatten = xs := by
  fun_induction chunksOf size xs with
  | case1 => rfl
  | case2 => simp
  | case3 n x xs ih => simp [ih]

theorem flatten_workerRuns (p : Nat) (irs : List FunctionIr) :
    (workerRuns p irs).flatten = irs := by
  unfold workerRuns
  dsimp only
  split
  · simp
  · exact flatten_chunksOf _ _

theorem compileFunction_parallelism (cfg : CompilerConfig) (p : Nat) :
    compileFunction { cfg with parallelism := p } = compileFunction cfg := by
  funext ir
  rfl

/-! One worker. -/

theorem length_of_mapM_ok {α β ε : Type} {f : α → Except ε β} {xs : List α} {ys : List β}
    (h : xs.mapM f = .ok ys) : ys.length = xs.length := by
  induction xs generalizing ys with
  | nil =>
    cases h
    rfl
  | cons x xs ih =>
    rw [List.mapM_cons] at h
    cases hx : f x with
    | error e => simp [hx] at h; cases h
    | ok y =>
      cases hr : xs.mapM f with
      | error e => simp [hx, hr] at h; cases h
      | ok zs =>
        simp [hx, hr] at h
        cases h
        simp [ih hr]

/-- A worker answers its run compiled in order. -/
theorem compileRun_fst (cfg : CompilerConfig) (run : List FunctionIr) :
    (compileRun cfg run).1 = run.mapM (compileFunction cfg) := by
  induction run with
  | nil => rfl
  | cons ir run ih =>
    simp only [compileRun, List.mapM_cons]
    cases compileFunction cfg ir with
    | error e => rfl
    | ok c =>
      simp only [← ih]
      cases (compileRun cfg run).1 <;> rfl

theorem compileRun_snd (cfg : CompilerConfig) {run : List FunctionIr} {cs : List Compiled}
    (h : run.mapM (compileFunction cfg) = .ok cs) :
    (compileRun cfg run).2 = (run.map FunctionIr.isHost).zip cs := by
  induction run generalizing cs with
  | nil =>
    cases h
    rfl
  | cons ir run ih =>
    rw [List.mapM_cons] at h
    cases hc : compileFunction cfg ir with
    | error e => simp [hc] at h; cases h
    | ok c =>
      cases hr : run.mapM (compileFunction cfg) with
      | error e => simp [hc, hr] at h; cases h
      | ok cs' =>
        simp [hc, hr] at h
        cases h
        simp [compileRun, hc, ih hr]

/-! All workers. -/

theorem mapM_flatten {α β ε : Type} (f : α → Except ε β) (runs : List (List α)) :
    List.flatten <$> runs.mapM (fun run => run.mapM f) = runs.flatten.mapM f := by
  induction runs with
  | nil => rfl
  | cons run runs ih =>
    rw [List.flatten_cons, List.mapM_append, ← ih, List.mapM_cons]
    cases run.mapM f with
    | error e => rfl
    | ok a =>
      cases runs.mapM (fun run => run.mapM f) with
      | error e => rfl
      | ok b => rfl

theorem compileModuleRun_result (cfg : CompilerConfig) (irs : List FunctionIr) :
    (compileModuleRun cfg irs).result = irs.mapM (compileFunction cfg) := by
  have hfst : (Prod.fst ∘ compileRun cfg) = fun run => run.mapM (compileFunction cfg) :=
    funext (compileRun_fst cfg)
  simp only [compileModuleRun, List.mapM_map, hfst]
  rw [mapM_flatten, flatten_workerRuns]

theorem counted_flatten_of_ok (cfg : CompilerConfig) (runs : List (List FunctionIr))
    (cs : List Compiled)
    (h : List.flatten <$> (runs.map (compileRun cfg)).mapM Prod.fst = .ok cs) :
    ((runs.map (compileRun cfg)).map Prod.snd).flatten =
      (runs.flatten.map FunctionIr.isHost).zip cs := by
  induction runs generalizing cs with
  | nil =>
    cases h
    rfl
  | cons run runs ih =>
    simp only [List.map_cons, List.mapM_cons, compileRun_fst] at h
    cases hr : run.mapM (compileFunction cfg) with
    | error e => simp [hr] at h; cases h
    | ok a =>
      cases hs : (runs.map (compileRun cfg)).mapM Prod.fst with
      | error e => simp [hr, hs] at h; cases h
      | ok b =>
        simp [hr, hs] at h
        cases h
        have hrest := ih b.flatten (by rw [hs]; rfl)
        have hlen : (run.map FunctionIr.isHost).length = a.length := by
          simp [length_of_mapM_ok hr]
        simp only [List.map_cons, List.flatten_cons, hrest, compileRun_snd cfg hr,
          List.map_append, List.zip_append hlen]

/-! The statistics. -/

namespace SessionStats

theorem record_right_comm (s : SessionStats) (a b : Bool) (x y : Compiled) :
    (s.record a x).record b y = (s.record b y).record a x := by
  simp only [record, mk.injEq]
  exact ⟨Nat.add_right_comm .., Nat.add_right_comm .., Nat.add_right_comm ..,
    Nat.add_right_comm .., Nat.add_right_comm ..,
    by rw [Nat.max_assoc, Nat.max_comm x.ceil y.ceil, ← Nat.max_assoc]⟩

theorem recordAll_perm {counts counts' : List (Bool × Compiled)} (h : counts.Perm counts')
    (s : SessionStats) : s.recordAll counts = s.recordAll counts' :=
  h.foldl_eq' (fun x _ y _ s => record_right_comm s x.1 y.1 x.2 y.2) s

end SessionStats

theorem Interleaving.perm {α : Type} {logs : List (List α)} {order : List α}
    (h : Interleaving logs order) : order.Perm logs.flatten := by
  induction h with
  | done hnil => simp [List.flatten_eq_nil_iff.mpr hnil]
  | @take pre post x rest order _ ih =>
    simp only [List.flatten_append, List.flatten_cons] at ih ⊢
    exact (ih.cons x).trans List.perm_middle.symm

theorem Interleaving.cons_nil {α : Type} {logs : List (List α)} {order : List α}
    (h : Interleaving logs order) : Interleaving ([] :: logs) order := by
  induction h with
  | done hnil => exact .done (by simpa using hnil)
  | @take pre post x rest order _ ih => exact @Interleaving.take _ ([] :: pre) post x rest order ih

theorem Interleaving.flatten {α : Type} (logs : List (List α)) :
    Interleaving logs logs.flatten := by
  induction logs with
  | nil => exact .done (by simp)
  | cons log logs ih =>
    induction log with
    | nil => simpa using ih.cons_nil
    | cons x rest ihl => exact @Interleaving.take _ [] logs x rest _ ihl

/-- Whatever the parallelism, a module compiles to what one worker gives: the code of every
function in order, or the first failure in function order. On success, in whatever order
the statistics lock takes the workers' counts, the statistics are those of counting the
functions in function order. -/
theorem parallel_compilation_agrees_with_serial (cfg : CompilerConfig)
    (irs : List FunctionIr) (p : Nat) :
    (compileModuleRun { cfg with parallelism := p } irs).result =
        (compileModuleRun { cfg with parallelism := 1 } irs).result ∧
      (compileModuleRun { cfg with parallelism := p } irs).result =
        irs.mapM (compileFunction cfg) ∧
      ∀ cs, (compileModuleRun { cfg with parallelism := p } irs).result = .ok cs →
        ∀ (s : SessionStats) (order : List (Bool × Compiled)),
          Interleaving (compileModuleRun { cfg with parallelism := p } irs).counted order →
          s.recordAll order = s.recordAll ((irs.map FunctionIr.isHost).zip cs) := by
  have hresult : ∀ q, (compileModuleRun { cfg with parallelism := q } irs).result =
      irs.mapM (compileFunction cfg) := fun q => by
    rw [compileModuleRun_result, compileFunction_parallelism]
  refine ⟨(hresult p).trans (hresult 1).symm, hresult p, fun cs hok s order horder => ?_⟩
  have hcounted : (compileModuleRun { cfg with parallelism := p } irs).counted.flatten =
      (irs.map FunctionIr.isHost).zip cs := by
    have h := counted_flatten_of_ok { cfg with parallelism := p } (workerRuns p irs) cs hok
    rwa [flatten_workerRuns] at h
  calc s.recordAll order
      = s.recordAll (compileModuleRun { cfg with parallelism := p } irs).counted.flatten :=
        SessionStats.recordAll_perm horder.perm s
    _ = s.recordAll ((irs.map FunctionIr.isHost).zip cs) := by rw [hcounted]

def armSession : CompilerConfig := { arch := .arm64 }

def echoHost : FunctionIr := FunctionIr.host { params := [.i32], results := [.i32] } {}

def sinkHost : FunctionIr := FunctionIr.host { params := [.i64, .i64], results := [] } {}

/-- The second of two workers may count its trampoline first; the statistics are still
those of counting in function order. -/
theorem hostPair_second_worker_counted_first :
    (compileModuleRun { armSession with parallelism := 2 } [echoHost, sinkHost]).result =
        (compileModuleRun { armSession with parallelism := 1 } [echoHost, sinkHost]).result ∧
      ∃ c₁ c₂,
        (compileModuleRun { armSession with parallelism := 2 } [echoHost, sinkHost]).result =
          .ok [c₁, c₂] ∧
        Interleaving
          (compileModuleRun { armSession with parallelism := 2 } [echoHost, sinkHost]).counted
          [(true, c₂), (true, c₁)] ∧
        ({} : SessionStats).recordAll [(true, c₂), (true, c₁)] =
          ({} : SessionStats).recordAll
            (([echoHost, sinkHost].map FunctionIr.isHost).zip [c₁, c₂]) := by
  have h := parallel_compilation_agrees_with_serial armSession [echoHost, sinkHost] 2
  obtain ⟨c₁, h₁⟩ : ∃ c, compileFunction armSession echoHost = .ok c := by
    have hok : (compileFunction armSession echoHost).isOk = true := by decide +kernel
    cases hc : compileFunction armSession echoHost with
    | error e => simp [hc, Except.isOk, Except.toBool] at hok
    | ok c => exact ⟨c, rfl⟩
  obtain ⟨c₂, h₂⟩ : ∃ c, compileFunction armSession sinkHost = .ok c := by
    have hok : (compileFunction armSession sinkHost).isOk = true := by decide +kernel
    cases hc : compileFunction armSession sinkHost with
    | error e => simp [hc, Except.isOk, Except.toBool] at hok
    | ok c => exact ⟨c, rfl⟩
  have hres : (compileModuleRun { armSession with parallelism := 2 }
      [echoHost, sinkHost]).result = .ok [c₁, c₂] := by
    rw [h.2.1, List.mapM_cons, List.mapM_cons, List.mapM_nil, h₁, h₂]
    rfl
  have hcounted : (compileModuleRun { armSession with parallelism := 2 }
      [echoHost, sinkHost]).counted = [[(true, c₁)], [(true, c₂)]] := by
    have hhost : echoHost.isHost = true ∧ sinkHost.isHost = true := ⟨rfl, rfl⟩
    simp [compileModuleRun, workerRuns, workerCount, chunksOf, compileRun,
      compileFunction_parallelism, h₁, h₂, hhost]
  have horder : Interleaving (compileModuleRun { armSession with parallelism := 2 }
      [echoHost, sinkHost]).counted [(true, c₂), (true, c₁)] := by
    rw [hcounted]
    exact @Interleaving.take _ [[(true, c₁)]] [] _ [] _
      (@Interleaving.take _ [] [[]] _ [] _ (.done (by simp)))
  exact ⟨h.1, c₁, c₂, hres, horder, h.2.2 _ hres _ _ horder⟩

end OnePassJit
