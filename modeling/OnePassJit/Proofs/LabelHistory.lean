import Mathlib.Data.List.Induction
import OnePassJit.Proofs.Labels

/-!
Histories of a label table.

Compiling a function drives its label table through four operations that can change it:
looking an entry up (creating it empty), asking for a native handle (created on first
use), recording an entry stack unless one is recorded, and binding. `LabelOp` names them
and `replay` runs a history of them from the empty table. The queries `state`, `get?` and
`dangling` change nothing, so they may stand anywhere in a history.

Each operation touches the information of its own label only (`get?_apply_of_ne`), and
what a label holds is a function of its history: its handle is the one the first request
supplied (`nativeOf_replay`), its entry stack the first one recorded since it was last
bound (`entryOf_replay`), and it is bound once some operation bound it (`isBound_replay`).
Tables built this way hold each label once (`keyed_replay`), so a handle request after the
first changes nothing (`nativeOrInsert_of_nativeOf`). `label_history` puts these together.
-/

namespace OnePassJit

def LabelState.rank : LabelState → Nat
  | .unreached => 0
  | .pending => 1
  | .resolved => 2

/-- An operation that can change a label table. `native l fresh` asks for the handle of `l`,
with `fresh` as the handle to create when there is none. -/
inductive LabelOp (ν : Type) where
  | entry (l : Label)
  | native (l : Label) (fresh : ν)
  | setEntry (l : Label) (s : ValueStack)
  | resolve (l : Label)

namespace LabelOp

variable {ν : Type}

def label : LabelOp ν → Label
  | .entry l | .native l _ | .setEntry l _ | .resolve l => l

def apply (t : LabelTable ν) : LabelOp ν → LabelTable ν
  | .entry l => (t.entry l).2
  | .native l fresh => (t.nativeOrInsert l fresh).2
  | .setEntry l s => t.setEntryIfAbsent l s
  | .resolve l => (t.resolve l).2

def effect : LabelOp ν → LabelInfo ν → LabelInfo ν
  | .entry _ => id
  | .native _ fresh => fun i => { i with native := i.native <|> some fresh }
  | .setEntry _ s => fun i => { i with entry := i.entry <|> some s }
  | .resolve _ => fun i => { i with bound := true, entry := none }

def handleFor (l : Label) : LabelOp ν → Option ν
  | .native l' fresh => if l' = l then some fresh else none
  | _ => none

def stackFor (l : Label) : LabelOp ν → Option ValueStack
  | .setEntry l' s => if l' = l then some s else none
  | _ => none

def binds (l : Label) : LabelOp ν → Bool
  | .resolve l' => decide (l' = l)
  | _ => false

theorem binds_eq_true {l : Label} {op : LabelOp ν} : op.binds l = true ↔ op = .resolve l := by
  cases op <;> simp [binds]

theorem handleFor_isSome {l : Label} {op : LabelOp ν} :
    (op.handleFor l).isSome ↔ ∃ fresh, op = .native l fresh := by
  cases op <;> simp [handleFor]

theorem of_label_ne {l : Label} {op : LabelOp ν} (h : op.label ≠ l) :
    op.handleFor l = none ∧ op.stackFor l = none ∧ op.binds l = false := by
  cases op <;> simp_all [label, handleFor, stackFor, binds]

theorem native_effect (op : LabelOp ν) (i : LabelInfo ν) :
    (op.effect i).native = i.native.or (op.handleFor op.label) := by
  cases op <;> simp [effect, handleFor, label]

theorem entry_effect (op : LabelOp ν) (i : LabelInfo ν) :
    (op.effect i).entry = if op.binds op.label then none else i.entry.or (op.stackFor op.label) := by
  cases op <;> simp [effect, stackFor, binds, label]

theorem bound_effect (op : LabelOp ν) (i : LabelInfo ν) :
    (op.effect i).bound = (i.bound || op.binds op.label) := by
  cases op <;> simp [effect, binds, label]

end LabelOp

namespace LabelTable

variable {ν : Type}

/-- The table a history leaves, from the empty one. -/
def replay (ops : List (LabelOp ν)) : LabelTable ν := ops.foldl LabelOp.apply {}

def sinceBound (l : Label) (ops : List (LabelOp ν)) : List (LabelOp ν) :=
  (ops.reverse.takeWhile fun op => !op.binds l).reverse

def nativeOf (t : LabelTable ν) (l : Label) : Option ν := (t.get? l).bind (·.native)

def isBound (t : LabelTable ν) (l : Label) : Bool := (t.get? l).any (·.bound)

def Keyed (t : LabelTable ν) : Prop := (t.entries.map (·.1)).Nodup

theorem replay_append_singleton (ops : List (LabelOp ν)) (op : LabelOp ν) :
    replay (ops ++ [op]) = op.apply (replay ops) := by
  simp [replay, List.foldl_append]

theorem sinceBound_append_singleton (l : Label) (ops : List (LabelOp ν)) (op : LabelOp ν) :
    sinceBound l (ops ++ [op]) = if op.binds l then [] else sinceBound l ops ++ [op] := by
  unfold sinceBound
  rw [List.reverse_append, List.reverse_singleton, List.singleton_append, List.takeWhile_cons]
  cases op.binds l <;> simp

/-! ### One operation -/

theorem get?_update (t : LabelTable ν) (l l' : Label) (f : LabelInfo ν → LabelInfo ν) :
    (t.update l f).get? l' = if l = l' then some (f ((t.get? l').getD {})) else t.get? l' := by
  split
  · rename_i h
    subst h
    exact get?_update_self t l f
  · rename_i h
    exact get?_update_of_ne t (Ne.symm h) f

theorem get?_apply (t : LabelTable ν) (op : LabelOp ν) (l : Label) :
    (op.apply t).get? l =
      if op.label = l then some (op.effect ((t.get? l).getD {})) else t.get? l := by
  cases op with
  | resolve l' =>
    rw [LabelOp.apply, resolve_snd, get?_update, get?_update]
    by_cases h : l' = l
    · simp [h, LabelOp.effect, LabelOp.label]
    · simp [h, LabelOp.label]
  | _ => exact get?_update t _ l _

theorem get?_apply_of_ne (t : LabelTable ν) {op : LabelOp ν} {l : Label} (h : op.label ≠ l) :
    (op.apply t).get? l = t.get? l := by
  rw [get?_apply, if_neg h]

theorem getD_native (o : Option (LabelInfo ν)) : (o.getD {}).native = o.bind (·.native) := by
  cases o <;> rfl

theorem getD_entry (o : Option (LabelInfo ν)) : (o.getD {}).entry = o.bind (·.entry) := by
  cases o <;> rfl

theorem getD_bound (o : Option (LabelInfo ν)) : (o.getD {}).bound = o.any (·.bound) := by
  cases o <;> rfl

theorem nativeOf_apply (t : LabelTable ν) (op : LabelOp ν) (l : Label) :
    (op.apply t).nativeOf l = (t.nativeOf l).or (op.handleFor l) := by
  rw [nativeOf, get?_apply]
  split
  · rename_i h
    subst h
    rw [Option.bind_some, LabelOp.native_effect, getD_native, nativeOf]
  · rename_i h
    rw [(LabelOp.of_label_ne h).1, Option.or_none, nativeOf]

theorem entryOf_apply (t : LabelTable ν) (op : LabelOp ν) (l : Label) :
    (op.apply t).entryOf l = if op.binds l then none else (t.entryOf l).or (op.stackFor l) := by
  rw [entryOf, get?_apply]
  split
  · rename_i h
    subst h
    rw [Option.bind_some, LabelOp.entry_effect, getD_entry, entryOf]
  · rename_i h
    obtain ⟨-, hs, hb⟩ := LabelOp.of_label_ne h
    rw [hs, hb, if_neg Bool.false_ne_true, Option.or_none, entryOf]

theorem isBound_apply (t : LabelTable ν) (op : LabelOp ν) (l : Label) :
    (op.apply t).isBound l = (t.isBound l || op.binds l) := by
  rw [isBound, get?_apply]
  split
  · rename_i h
    subst h
    rw [Option.any_some, LabelOp.bound_effect, getD_bound, isBound]
  · rename_i h
    rw [(LabelOp.of_label_ne h).2.2, Bool.or_false, isBound]

/-! ### Each label once -/

theorem find?_of_keyed {es : List (Label × LabelInfo ν)} (hk : (es.map (·.1)).Nodup)
    {e : Label × LabelInfo ν} (he : e ∈ es) : es.find? (·.1 == e.1) = some e := by
  induction es with
  | nil => cases he
  | cons a rest ih =>
    rw [List.map_cons, List.nodup_cons] at hk
    rcases List.mem_cons.mp he with rfl | hmem
    · simp
    · have hne : a.1 ≠ e.1 := fun h => hk.1 (h ▸ List.mem_map_of_mem hmem)
      rw [List.find?_cons_of_neg (by simpa using hne)]
      exact ih hk.2 hmem

theorem get?_of_mem {t : LabelTable ν} (hk : t.Keyed) {e : Label × LabelInfo ν}
    (he : e ∈ t.entries) : t.get? e.1 = some e.2 := by
  rw [get?, find?_of_keyed hk he, Option.map_some]

theorem exists_mem_of_get? {t : LabelTable ν} {l : Label} {i : LabelInfo ν}
    (h : t.get? l = some i) : ∃ e ∈ t.entries, e.1 = l ∧ e.2 = i := by
  obtain ⟨e, he, rfl⟩ := Option.map_eq_some_iff.mp h
  exact ⟨e, List.mem_of_find?_eq_some he, by simpa using List.find?_some he, rfl⟩

theorem Keyed.update {t : LabelTable ν} (hk : t.Keyed) (l : Label) (f : LabelInfo ν → LabelInfo ν) :
    (t.update l f).Keyed := by
  unfold Keyed LabelTable.update
  split
  · -- the labels stay as they were
    have hfst : (t.entries.map fun e => if e.1 == l then (e.1, f e.2) else e).map (·.1) =
        t.entries.map (·.1) := by
      rw [List.map_map]
      exact List.map_congr_left fun e _ => by simp only [Function.comp]; split <;> rfl
    rw [hfst]
    exact hk
  · rename_i hany
    rw [List.map_append, List.nodup_append]
    refine ⟨hk, by simp, fun a ha b hb => ?_⟩
    obtain ⟨e, he, rfl⟩ := List.mem_map.mp ha
    rw [List.map_singleton, List.mem_singleton] at hb
    subst hb
    exact fun h => hany (List.any_eq_true.mpr ⟨e, he, by simp [h]⟩)

theorem Keyed.apply {t : LabelTable ν} (hk : t.Keyed) (op : LabelOp ν) : (op.apply t).Keyed := by
  cases op with
  | resolve l => exact (hk.update l id).update l _
  | _ => exact hk.update _ _

theorem keyed_replay (ops : List (LabelOp ν)) : (replay ops).Keyed := by
  induction ops using List.reverseRecOn with
  | nil => exact List.nodup_nil
  | append_singleton ops op ih =>
    rw [replay_append_singleton]
    exact ih.apply op

theorem update_eq_self {t : LabelTable ν} (hk : t.Keyed) {l : Label} {i : LabelInfo ν}
    (hi : t.get? l = some i) {f : LabelInfo ν → LabelInfo ν} (hf : f i = i) : t.update l f = t := by
  obtain ⟨e, he, rfl, rfl⟩ := exists_mem_of_get? hi
  unfold LabelTable.update
  rw [if_pos (List.any_eq_true.mpr ⟨e, he, by simp⟩)]
  congr 1
  refine (List.map_congr_left fun e' he' => ?_).trans (List.map_id _)
  split
  · -- the one entry for the label is the one found
    rename_i hl
    have hl : e'.1 = e.1 := by simpa using hl
    have he'' := get?_of_mem hk he'
    rw [hl, hi, Option.some.injEq] at he''
    rw [← he'', hf, he'']
    rfl
  · rfl

theorem nativeOrInsert_snd (t : LabelTable ν) (l : Label) (fresh : ν) :
    (t.nativeOrInsert l fresh).2 = t.update l fun i => { i with native := i.native <|> some fresh } :=
  rfl

theorem nativeOrInsert_fst (t : LabelTable ν) (l : Label) (fresh : ν) :
    (t.nativeOrInsert l fresh).1 = (t.nativeOf l).getD fresh := by
  simp only [nativeOrInsert, get?_update_self, Option.bind_some, getD_native, nativeOf]
  cases (t.get? l).bind (·.native) <;> rfl

/-- Asking again for a handle that exists changes nothing and answers that handle. -/
theorem nativeOrInsert_of_nativeOf {t : LabelTable ν} (hk : t.Keyed) {l : Label} {n : ν}
    (h : t.nativeOf l = some n) (fresh : ν) : t.nativeOrInsert l fresh = (n, t) := by
  obtain ⟨i, hi, hn⟩ := Option.bind_eq_some_iff.mp h
  refine Prod.ext ?_ ?_
  · rw [nativeOrInsert_fst, h, Option.getD_some]
  · rw [nativeOrInsert_snd]
    refine update_eq_self hk hi ?_
    obtain ⟨native, entry, bound⟩ := i
    change native = some n at hn
    subst hn
    rfl

theorem mem_dangling {t : LabelTable ν} (hk : t.Keyed) {l : Label} :
    l ∈ t.dangling ↔ t.isBound l = false ∧ (t.nativeOf l).isSome := by
  unfold dangling
  constructor
  · intro h
    obtain ⟨e, he, rfl⟩ := List.mem_map.mp h
    obtain ⟨hmem, hp⟩ := List.mem_filter.mp he
    rw [nativeOf, isBound, get?_of_mem hk hmem]
    simpa using hp
  · rintro ⟨hb, hn⟩
    obtain ⟨i, hi, -⟩ := Option.bind_eq_some_iff.mp (Option.get_mem hn)
    obtain ⟨e, he, rfl, rfl⟩ := exists_mem_of_get? hi
    refine List.mem_map.mpr ⟨e, List.mem_filter.mpr ⟨he, ?_⟩, rfl⟩
    rw [nativeOf, hi, Option.bind_some] at hn
    rw [isBound, hi, Option.any_some] at hb
    simp [hb, hn]

theorem nodup_dangling {t : LabelTable ν} (hk : t.Keyed) : t.dangling.Nodup :=
  hk.sublist (List.filter_sublist.map _)

/-! ### The state of a label -/

theorem state_eq (t : LabelTable ν) (l : Label) :
    t.state l = if t.isBound l then .resolved
      else if (t.entryOf l).isSome then .pending else .unreached := by
  unfold state isBound entryOf
  cases t.get? l <;> rfl

theorem rank_le_two (s : LabelState) : s.rank ≤ 2 := by
  cases s <;> decide

theorem rank_state_le_apply (t : LabelTable ν) (op : LabelOp ν) (l : Label) :
    (t.state l).rank ≤ ((op.apply t).state l).rank := by
  rw [state_eq, state_eq, isBound_apply, entryOf_apply]
  by_cases hb : (t.isBound l || op.binds l) = true
  · -- bound now: the top of the order
    rw [if_pos hb]
    exact rank_le_two _
  · -- bound neither before nor now: an entry can only appear
    simp only [Bool.or_eq_true, not_or, Bool.not_eq_true] at hb
    rw [hb.1, hb.2, Bool.or_false, if_neg Bool.false_ne_true, if_neg Bool.false_ne_true,
      if_neg Bool.false_ne_true]
    cases t.entryOf l <;> cases op.stackFor l <;> simp [LabelState.rank]

/-! ### A whole history -/

theorem nativeOf_replay (ops : List (LabelOp ν)) (l : Label) :
    (replay ops).nativeOf l = ops.findSome? (·.handleFor l) := by
  induction ops using List.reverseRecOn with
  | nil => rfl
  | append_singleton ops op ih =>
    rw [replay_append_singleton, nativeOf_apply, ih, List.findSome?_append,
      List.findSome?_singleton]

theorem entryOf_replay (ops : List (LabelOp ν)) (l : Label) :
    (replay ops).entryOf l = (sinceBound l ops).findSome? (·.stackFor l) := by
  induction ops using List.reverseRecOn with
  | nil => rfl
  | append_singleton ops op ih =>
    rw [replay_append_singleton, entryOf_apply, ih, sinceBound_append_singleton]
    split
    · rfl
    · rw [List.findSome?_append, List.findSome?_singleton]

theorem isBound_replay (ops : List (LabelOp ν)) (l : Label) :
    (replay ops).isBound l = true ↔ .resolve l ∈ ops := by
  have h : (replay ops).isBound l = ops.any (·.binds l) := by
    induction ops using List.reverseRecOn with
    | nil => rfl
    | append_singleton ops op ih =>
      rw [replay_append_singleton, isBound_apply, ih, List.any_append, List.any_cons,
        List.any_nil, Bool.or_false]
  rw [h, List.any_eq_true]
  simp [LabelOp.binds_eq_true]

theorem nativeOrInsert_replay (ops : List (LabelOp ν)) (l : Label) (fresh : ν) :
    (replay ops).nativeOrInsert l fresh =
      match ops.findSome? (·.handleFor l) with
      | some n => (n, replay ops)
      | none => (fresh, replay (ops ++ [.native l fresh])) := by
  rw [← nativeOf_replay]
  cases h : (replay ops).nativeOf l with
  | some n => exact nativeOrInsert_of_nativeOf (keyed_replay ops) h fresh
  | none =>
    refine Prod.ext ?_ ?_
    · rw [nativeOrInsert_fst, h]
      rfl
    · rw [replay_append_singleton]
      rfl

theorem state_replay (ops : List (LabelOp ν)) (l : Label) :
    (replay ops).state l = .resolved ↔ .resolve l ∈ ops := by
  rw [state_eq, ← isBound_replay]
  cases (replay ops).isBound l with
  | true => simp
  | false =>
    rw [if_neg Bool.false_ne_true]
    split <;> simp

/-- The label table over any history: a label's state only rises, and is resolved exactly
once the label has been bound; binding hands back the first entry stack recorded since the
previous binding; only the first handle request creates a handle, and every request answers
it; the dangling labels are, once each, those with a handle that were never bound; and an
operation leaves every other label as it was. -/
theorem label_history (ops : List (LabelOp ν)) (l : Label) :
    (∀ op : LabelOp ν, ((replay ops).state l).rank ≤ ((op.apply (replay ops)).state l).rank) ∧
    ((replay ops).state l = .resolved ↔ .resolve l ∈ ops) ∧
    ((replay ops).resolve l).1 = (sinceBound l ops).findSome? (·.stackFor l) ∧
    (∀ fresh : ν, (replay ops).nativeOrInsert l fresh =
      match ops.findSome? (·.handleFor l) with
      | some n => (n, replay ops)
      | none => (fresh, replay (ops ++ [.native l fresh]))) ∧
    (replay ops).dangling.Nodup ∧
    (l ∈ (replay ops).dangling ↔ .resolve l ∉ ops ∧ ∃ fresh, .native l fresh ∈ ops) ∧
    ∀ op : LabelOp ν, op.label ≠ l → (op.apply (replay ops)).get? l = (replay ops).get? l := by
  have hk := keyed_replay ops
  refine ⟨fun op => rank_state_le_apply _ op l, state_replay ops l, ?_,
    nativeOrInsert_replay ops l, nodup_dangling hk, ?_, fun op h => get?_apply_of_ne _ h⟩
  · rw [resolve_fst, entryOf_replay]
  · -- a handle exists exactly when some operation asked for one
    have hn : ((replay ops).nativeOf l).isSome ↔ ∃ fresh, .native l fresh ∈ ops := by
      rw [nativeOf_replay, List.findSome?_isSome_iff]
      constructor
      · rintro ⟨op, hop, hs⟩
        obtain ⟨fresh, rfl⟩ := LabelOp.handleFor_isSome.mp hs
        exact ⟨fresh, hop⟩
      · rintro ⟨fresh, hop⟩
        exact ⟨_, hop, LabelOp.handleFor_isSome.mpr ⟨fresh, rfl⟩⟩
    rw [mem_dangling hk, ← hn, ← isBound_replay, Bool.not_eq_true]

/-- A loop header branched to and recorded, then a continuation only referred to: binding the
header leaves the continuation as it was. -/
theorem label_history_binding_keeps_other :
    (LabelOp.resolve (ν := Nat) ⟨.header, 1⟩).label ≠ ⟨.continuation, 1⟩ ∧
      ((LabelOp.resolve ⟨.header, 1⟩).apply (replay [.native ⟨.header, 1⟩ 1,
        .setEntry ⟨.header, 1⟩ (ValueStack.new [] []), .native ⟨.continuation, 1⟩ 2])).get?
          ⟨.continuation, 1⟩ =
        (replay [.native ⟨.header, 1⟩ 1, .setEntry ⟨.header, 1⟩ (ValueStack.new [] []),
          .native ⟨.continuation, 1⟩ 2]).get? ⟨.continuation, 1⟩ :=
  ⟨by decide, (label_history _ _).2.2.2.2.2.2 _ (by decide)⟩

end LabelTable

end OnePassJit
