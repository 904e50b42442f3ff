import OnePassJit.LabelTable

/-!
What the label table keeps of the value stacks it records.

A label's entry stack is fixed by the first branch to it and handed back, once, when the
label is bound. A property of the value stack that holds at every branch therefore holds
of every stack the table hands back: `Entries P` says that every recorded entry satisfies
`P`, and each table operation keeps it (`Entries.update` is the one argument, the other
operations being updates).

Which label a branch touches matters too: `entryOf` reads one label's entry and `Reached`
says some branch has referred to it. `Grows T P t t'` says that from `t` to `t'` every new
entry satisfies `P` and only labels in `T` were newly reached; a step that does not branch
keeps the table, and a branch grows it at its targets only.
-/

namespace OnePassJit.LabelTable

variable {ν : Type} {P : ValueStack → Prop} {t : LabelTable ν} {l : Label}

def Entries (P : ValueStack → Prop) (t : LabelTable ν) : Prop :=
  ∀ e ∈ t.entries, ∀ s, e.2.entry = some s → P s

theorem entries_empty : ({} : LabelTable ν).Entries P := by
  intro e he
  cases he

theorem Entries.mono {P' : ValueStack → Prop} (h : t.Entries P) (hP : ∀ s, P s → P' s) :
    t.Entries P' :=
  fun e he s hs => hP s (h e he s hs)

/-- An update whose function keeps `P` of the entry it changes keeps `P` of the table. -/
theorem Entries.update {f : LabelInfo ν → LabelInfo ν} (h : t.Entries P)
    (hf : ∀ i : LabelInfo ν, (∀ s, i.entry = some s → P s) → ∀ s, (f i).entry = some s → P s) :
    (t.update l f).Entries P := by
  unfold LabelTable.update
  split
  · intro e he s hs
    obtain ⟨e', he', rfl⟩ := List.mem_map.mp he
    split at hs
    · exact hf e'.2 (h e' he') s hs
    · exact h e' he' s hs
  · intro e he s hs
    rcases List.mem_append.mp he with he | he
    · exact h e he s hs
    · rw [List.mem_singleton] at he
      subst he
      exact hf {} (fun s hs => by cases hs) s hs

theorem Entries.get? (h : t.Entries P) {i : LabelInfo ν} (hi : t.get? l = some i) :
    ∀ s, i.entry = some s → P s := by
  unfold LabelTable.get? at hi
  obtain ⟨e, he, rfl⟩ := Option.map_eq_some_iff.mp hi
  exact h e (List.mem_of_find?_eq_some he)

theorem Entries.setEntryIfAbsent (h : t.Entries P) {s : ValueStack} (hs : P s) :
    (t.setEntryIfAbsent l s).Entries P := by
  refine h.update fun i hi s' hs' => ?_
  cases he : i.entry with
  | none =>
    rw [he] at hs'
    exact Option.some.inj (hs' : some s = some s') ▸ hs
  | some s'' =>
    rw [he] at hs'
    exact Option.some.inj (hs' : some s'' = some s') ▸ hi s'' he

theorem Entries.nativeOrInsert (h : t.Entries P) (fresh : ν) :
    (t.nativeOrInsert l fresh).2.Entries P :=
  h.update fun _ hi => hi

theorem Entries.resolve (h : t.Entries P) :
    (t.resolve l).2.Entries P ∧ ∀ s, (t.resolve l).1 = some s → P s := by
  have hid : (t.update l id).Entries P := h.update fun _ hi => hi
  refine ⟨hid.update (fun _ _ s hs => by cases hs), fun s hs => ?_⟩
  simp only [LabelTable.resolve, LabelTable.entry] at hs
  cases hg : (t.update l id).get? l with
  | none =>
    rw [hg] at hs
    cases hs
  | some i =>
    rw [hg] at hs
    exact hid.get? hg s hs

/-! ### One label at a time -/

theorem comp_label_update (l l' : Label) (f : LabelInfo ν → LabelInfo ν) :
    ((fun e : Label × LabelInfo ν => e.1 == l') ∘ fun e => if e.1 == l then (e.1, f e.2) else e) =
      fun e => e.1 == l' := by
  funext e
  simp only [Function.comp]
  split <;> rfl

theorem get?_update_self (t : LabelTable ν) (l : Label) (f : LabelInfo ν → LabelInfo ν) :
    (t.update l f).get? l = some (f ((t.get? l).getD {})) := by
  unfold LabelTable.update LabelTable.get?
  split
  · rename_i hany
    obtain ⟨e, he, hel⟩ := List.any_eq_true.mp hany
    rw [List.find?_map]
    rw [comp_label_update]
    cases hf : t.entries.find? (fun e => e.1 == l) with
    | none => exact absurd hel (List.find?_eq_none.mp hf e he)
    | some e' =>
      have hl : e'.1 = l := by simpa using List.find?_some hf
      simp [hl]
  · rename_i hany
    have hnone : t.entries.find? (fun e => e.1 == l) = none :=
      List.find?_eq_none.mpr fun x hx hxl => hany (List.any_eq_true.mpr ⟨x, hx, hxl⟩)
    simp [List.find?_append, hnone]

theorem get?_update_of_ne (t : LabelTable ν) {l l' : Label} (h : l' ≠ l)
    (f : LabelInfo ν → LabelInfo ν) : (t.update l f).get? l' = t.get? l' := by
  unfold LabelTable.update LabelTable.get?
  split
  · rw [List.find?_map]
    rw [comp_label_update]
    cases hf : t.entries.find? (fun e => e.1 == l') with
    | none => rfl
    | some e' =>
      have hl' : e'.1 = l' := by simpa using List.find?_some hf
      simp [hl', h]
  · rw [List.find?_append]
    cases hf : t.entries.find? (fun e => e.1 == l') with
    | none => simp [Ne.symm h]
    | some e' => rfl

/-- The entry stack recorded for `l`, if any. -/
def entryOf (t : LabelTable ν) (l : Label) : Option ValueStack := (t.get? l).bind (·.entry)

/-- Some branch has referred to `l`: it has a native handle or a recorded entry. -/
def Reached (t : LabelTable ν) (l : Label) : Prop :=
  ∃ i, t.get? l = some i ∧ (i.native.isSome ∨ i.entry.isSome)

theorem Reached.of_entryOf {s : ValueStack} (h : t.entryOf l = some s) : t.Reached l := by
  unfold entryOf at h
  obtain ⟨i, hi, hs⟩ := Option.bind_eq_some_iff.mp h
  exact ⟨i, hi, .inr (by rw [hs]; rfl)⟩

theorem entryOf_update_of_ne {l' : Label} (h : l' ≠ l) (f : LabelInfo ν → LabelInfo ν) :
    (t.update l f).entryOf l' = t.entryOf l' := by
  rw [entryOf, get?_update_of_ne t h, entryOf]

theorem reached_update_of_ne {l' : Label} (h : l' ≠ l) (f : LabelInfo ν → LabelInfo ν) :
    (t.update l f).Reached l' ↔ t.Reached l' := by
  rw [Reached, get?_update_of_ne t h, Reached]

theorem entryOf_setEntryIfAbsent (s : ValueStack) :
    (t.setEntryIfAbsent l s).entryOf l = (t.entryOf l <|> some s) := by
  simp only [entryOf, setEntryIfAbsent, get?_update_self]
  cases t.get? l <;> rfl

theorem entryOf_nativeOrInsert (fresh : ν) (l' : Label) :
    (t.nativeOrInsert l fresh).2.entryOf l' = t.entryOf l' := by
  by_cases h : l' = l
  · subst h
    simp only [entryOf, nativeOrInsert, get?_update_self]
    cases t.get? l' <;> rfl
  · exact entryOf_update_of_ne h _

theorem resolve_snd : (t.resolve l).2 =
    (t.update l id).update l fun i => { i with bound := true, entry := none } := rfl

theorem resolve_fst : (t.resolve l).1 = t.entryOf l := by
  simp only [resolve, entry, entryOf, get?_update_self]
  cases t.get? l <;> rfl

/-! ### Growing the table -/

/-- From `t` to `t'` every entry is one `t` had or one `P` accepts, and only labels in `T`
are newly reached. -/
structure Grows (T : Label → Prop) (P : Label → ValueStack → Prop) (t t' : LabelTable ν) :
    Prop where
  entry : ∀ l s, t'.entryOf l = some s → t.entryOf l = some s ∨ P l s
  reached : ∀ l, t'.Reached l → t.Reached l ∨ T l

variable {T T' : Label → Prop} {Q : Label → ValueStack → Prop}

theorem Grows.of_eq {t' : LabelTable ν} (h : t' = t) : t.Grows T Q t' :=
  ⟨fun _ _ hs => .inl (h ▸ hs), fun _ hr => .inl (h ▸ hr)⟩

theorem Grows.trans {t' t'' : LabelTable ν} (h₁ : t.Grows T Q t') (h₂ : t'.Grows T' Q t'') :
    t.Grows (fun l => T l ∨ T' l) Q t'' := by
  refine ⟨fun l s hs => ?_, fun l hr => ?_⟩
  · rcases h₂.entry l s hs with h | h
    · exact h₁.entry l s h
    · exact .inr h
  · rcases h₂.reached l hr with h | h
    · exact (h₁.reached l h).imp_right .inl
    · exact .inr (.inr h)

theorem Grows.mono {t' : LabelTable ν} (h : t.Grows T Q t') (hT : ∀ l, T l → T' l) :
    t.Grows T' Q t' :=
  ⟨h.entry, fun l hr => (h.reached l hr).imp_right (hT l)⟩

theorem Grows.of_reached {t' : LabelTable ν} (h : t.Grows T Q t') (hT : ∀ l, T l → t.Reached l) :
    t.Grows T' Q t' :=
  ⟨h.entry, fun l hr => .inl ((h.reached l hr).elim id (hT l))⟩

theorem Grows.setEntryIfAbsent {s : ValueStack} (hs : Q l s) :
    t.Grows (· = l) Q (t.setEntryIfAbsent l s) := by
  refine ⟨fun l' s' hs' => ?_, fun l' hr => ?_⟩
  · by_cases h : l' = l
    · subst h
      rw [entryOf_setEntryIfAbsent] at hs'
      cases he : t.entryOf l' with
      | none =>
        rw [he] at hs'
        exact .inr (Option.some.inj hs' ▸ hs)
      | some s'' =>
        rw [he] at hs'
        exact .inl hs'
    · exact .inl (by rwa [LabelTable.setEntryIfAbsent, entryOf_update_of_ne h] at hs')
  · by_cases h : l' = l
    · exact .inr h
    · exact .inl (by rwa [LabelTable.setEntryIfAbsent, reached_update_of_ne h] at hr)

theorem Grows.nativeOrInsert (fresh : ν) :
    t.Grows (· = l) Q (t.nativeOrInsert l fresh).2 := by
  refine ⟨fun l' s hs => .inl (by rwa [entryOf_nativeOrInsert] at hs), fun l' hr => ?_⟩
  by_cases h : l' = l
  · exact .inr h
  · exact .inl (by rwa [LabelTable.nativeOrInsert, reached_update_of_ne h] at hr)

theorem Grows.resolve : t.Grows (fun _ => False) Q (t.resolve l).2 := by
  have hid : (t.update l id).get? l = some ((t.get? l).getD {}) := get?_update_self t l id
  rw [resolve_snd]
  refine ⟨fun l' s hs => ?_, fun l' hr => ?_⟩
  · by_cases h : l' = l
    · subst h
      simp only [entryOf, get?_update_self] at hs
      cases hs
    · rw [entryOf_update_of_ne h, entryOf_update_of_ne h] at hs
      exact .inl hs
  · by_cases h : l' = l
    · subst h
      obtain ⟨i, hi, hn⟩ := hr
      rw [get?_update_self, hid, Option.getD_some, Option.some.injEq] at hi
      subst hi
      cases hg : t.get? l' with
      | none => simp [hg] at hn
      | some i =>
        simp only [hg, Option.getD_some, Option.isSome_none, Bool.false_eq_true,
          or_false] at hn
        exact .inl ⟨i, hg, .inl hn⟩
    · rw [reached_update_of_ne h, reached_update_of_ne h] at hr
      exact .inl hr

def EntriesAt (P : Label → ValueStack → Prop) (t : LabelTable ν) : Prop :=
  ∀ l s, t.entryOf l = some s → P l s

theorem EntriesAt.grows {t' : LabelTable ν} (h : t.EntriesAt Q) (hg : t.Grows T Q t') :
    t'.EntriesAt Q := fun l s hs => (hg.entry l s hs).elim (h l s) id

theorem Entries.entriesAt (h : t.Entries P) : t.EntriesAt fun _ => P := by
  intro l s hs
  obtain ⟨i, hi, he⟩ := Option.bind_eq_some_iff.mp hs
  exact h.get? hi s he

end OnePassJit.LabelTable
