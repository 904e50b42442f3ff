import OnePassJit.Proofs.Labels
import OnePassJit.Proofs.Layout
import OnePassJit.Proofs.Residence
import OnePassJit.Ir.Module

/-!
Branch sites of a label and the stacks they enter it with.

`LabelCallers.ofOperations` counts, for every label but the return, how often the operations
name it as a branch target (`count_ofOperations`): a `br_if` whose two arms go to one label
and a `br_table` that repeats a target count once per arm, as each arm is a branch of its
own. A branch to a label counted more than once sends every value to memory first, so
every stack such a label is entered with is `Settled`. Two laid out stacks with every value
in memory and the same slot types hold the same slots (`Layout.slots_eq_of_inMemory`), so
all the sites of such a label agree with the stack its code is compiled under.

`EntryDiscipline` is what the label table keeps between two operations: every recorded
entry is settled, and every label reached so far is a target of an operation already
lowered. A branch site that finds its label reached is therefore not its only site.
-/

namespace OnePassJit

namespace LabelCallers

variable {cs : LabelCallers} {l : Label}

theorem count_nil : count [] l = 0 := rfl

theorem count_cons (k : Label) (n : Nat) (rest : LabelCallers) :
    count ((k, n) :: rest) l = if k = l then n else count rest l := by
  by_cases h : k = l <;> simp [count, h]

theorem count_record (l' : Label) :
    (cs.record l').count l = cs.count l + if l' = l then 1 else 0 := by
  induction cs with
  | nil => by_cases h : l' = l <;> simp [record, count_cons, count_nil, h]
  | cons e rest ih =>
    obtain ⟨k, n⟩ := e
    by_cases hk : k = l'
    · subst hk
      by_cases h : k = l <;> simp [record, count_cons, h]
    · -- the site is recorded further down, past `k`
      simp only [record, hk, if_false, count_cons, ih]
      by_cases h : k = l
      · subst h
        simp [Ne.symm hk]
      · simp [h]

theorem count_foldl_record (xs : List Label) :
    (xs.foldl record cs).count l = cs.count l + xs.count l := by
  induction xs generalizing cs with
  | nil => simp
  | cons x xs ih =>
    rw [List.foldl_cons, ih, count_record, List.count_cons]
    by_cases h : x = l <;> simp [h, Nat.add_assoc, Nat.add_comm]

/-- The count of a label is the number of times the operations branch to it; the return
label is not counted. -/
theorem count_ofOperations (ops : List Operation) (l : Label) :
    (ofOperations ops).count l =
      if l.isReturn then 0 else (ops.flatMap Operation.branchLabels).count l := by
  suffices h : ∀ cs : LabelCallers, (ops.foldl (fun cs op =>
      (op.branchLabels.filter (!·.isReturn)).foldl record cs) cs).count l =
      cs.count l + if l.isReturn then 0 else (ops.flatMap Operation.branchLabels).count l by
    simpa [ofOperations, count_nil] using h []
  induction ops with
  | nil => simp
  | cons op ops ih =>
    intro cs
    rw [List.foldl_cons, ih, count_foldl_record, List.flatMap_cons, List.count_append]
    split
    · rename_i hret
      have hnot : ¬ (!l.isReturn) = true := by simp [hret]
      simp [List.count_eq_zero, hnot]
    · rename_i hret
      rw [List.count_filter (by simpa using hret)]
      omega

end LabelCallers

theorem Operation.label_mem_brTable {ts : List BranchTarget} {d y : BranchTarget}
    (hy : y ∈ ts ++ [d]) : y.label ∈ (Operation.brTable ts d).branchLabels := by
  rw [Operation.branchLabels, ← List.map_singleton (f := BranchTarget.label), ← List.map_append]
  exact List.mem_map_of_mem hy

open ValueStack

/-- A stack label `l` may be entered with: when the body counts more than one branch site
for `l`, every value is in memory. -/
def Settled (cs : LabelCallers) (l : Label) (s : ValueStack) : Prop :=
  1 < cs.count l → InMemory s

/-- Two laid out stacks with every value in memory and the same slot types hold the same
slots: each slot is in its own memory cell. -/
theorem ValueStack.Layout.slots_eq_of_inMemory {s s' : ValueStack} {T T' : Finset Reg}
    (h : Layout s T) (h' : Layout s' T') (hm : InMemory s) (hm' : InMemory s')
    (ht : s.slots.map (·.type) = s'.slots.map (·.type)) : s.slots = s'.slots := by
  apply Array.ext_getElem?
  intro i
  have hti := congrArg (·[i]?) ht
  simp only [Array.getElem?_map] at hti
  cases hl : s.slots[i]? with
  | none =>
    rw [hl] at hti
    cases hl' : s'.slots[i]? with
    | none => rfl
    | some l' => simp [hl'] at hti
  | some l =>
    rw [hl] at hti
    cases hl' : s'.slots[i]? with
    | none => simp [hl'] at hti
    | some l' =>
      simp only [hl', Option.map_some, Option.some.injEq] at hti
      have hs : l.slot = l'.slot := by rw [h.slot_eq hl, h'.slot_eq hl']
      have ho := hm hl
      have ho' := hm' hl'
      simp only [Location.onStack, Bool.and_eq_true, Option.isNone_iff_eq_none] at ho ho'
      cases l
      cases l'
      simp_all

variable {ν : Type}

open LabelTable

/-- What the label table keeps between two operations, once `ops` are lowered: every entry
it records is settled, and every label a branch has reached is a target of one of `ops`. -/
structure EntryDiscipline (cs : LabelCallers) (ops : List Operation) (t : LabelTable ν) :
    Prop where
  settled : t.EntriesAt (Settled cs)
  reached : ∀ l, t.Reached l → ∃ op ∈ ops, l ∈ op.branchLabels

namespace EntryDiscipline

variable {cs : LabelCallers} {ops : List Operation} {t t' : LabelTable ν}

theorem empty : EntryDiscipline cs [] ({} : LabelTable ν) where
  settled _ _ h := by cases h
  reached _ h := by
    obtain ⟨_, h, _⟩ := h
    cases h

theorem append (h : EntryDiscipline cs ops t) (op : Operation) :
    EntryDiscipline cs (ops ++ [op]) t where
  settled := h.settled
  reached l hl := by
    obtain ⟨op', hop', hl'⟩ := h.reached l hl
    exact ⟨op', List.mem_append_left _ hop', hl'⟩

theorem grows (h : EntryDiscipline cs ops t) {op : Operation}
    (hg : t.Grows (· ∈ op.branchLabels) (Settled cs) t') :
    EntryDiscipline cs (ops ++ [op]) t' where
  settled := h.settled.grows hg
  reached l hl := by
    rcases hg.reached l hl with hl | hl
    · exact (h.append op).reached l hl
    · exact ⟨op, by simp, hl⟩

theorem count_lt (h : EntryDiscipline cs ops t) {rest : List Operation}
    (hcs : cs = LabelCallers.ofOperations (ops ++ rest)) {l : Label} (hl : t.Reached l)
    {op : Operation} (hop : op ∈ rest) (hlop : l ∈ op.branchLabels)
    (hret : l.isReturn = false) :
    1 < cs.count l := by
  obtain ⟨op', hop', hl'⟩ := h.reached l hl
  have h₁ : 0 < (ops.flatMap Operation.branchLabels).count l :=
    List.count_pos_iff.mpr (List.mem_flatMap.mpr ⟨op', hop', hl'⟩)
  have h₂ : 0 < (rest.flatMap Operation.branchLabels).count l :=
    List.count_pos_iff.mpr (List.mem_flatMap.mpr ⟨op, hop, hlop⟩)
  rw [hcs, LabelCallers.count_ofOperations, hret, List.flatMap_append, List.count_append]
  simp only [Bool.false_eq_true, if_false]
  omega

end EntryDiscipline

end OnePassJit
