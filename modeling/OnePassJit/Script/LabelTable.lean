import OnePassJit.LabelTable

/-!
Scripts over a label table.

Native handles are numbered 1, 2, 3, … in the order they are created. `setEntry l n`
gives `l` a fresh entry stack holding `n` memory-resident `i64` slots.
-/

namespace OnePassJit

/-- One command of a label table script. -/
inductive LabelCommand where
  | state (l : Label)
  | native (l : Label)
  | setEntry (l : Label) (depth : Nat)
  | resolve (l : Label)
  | get (l : Label)
  | entryBound (l : Label)
  | dangling

/-- Answer of one label command. -/
inductive LabelAnswer where
  | state (s : LabelState)
  | native (n : Nat)
  | unit
  /-- Stack pointer and ceiling of the entry stack taken, if any. -/
  | entry (e : Option (Nat × Nat))
  | info (i : Option (LabelInfo Nat))
  | bool (b : Bool)
  | labels (ls : List String)

namespace LabelCommand

/-- A label table with the number of native handles made so far. -/
structure Table where
  table : LabelTable Nat := {}
  made : Nat := 0

/-- Stack with `n` memory-resident `i64` slots, allocating from `gp` and `vec`. -/
def entryStack (gp vec : List Reg) (n : Nat) : ValueStack :=
  match ((List.replicate n ()).forM fun _ => do let _ ← StackM.pushOnStack .i64).run
      (ValueStack.new gp vec) with
  | .ok _ s => s
  | .error _ s => s

def step (gp vec : List Reg) (t : Table) : LabelCommand → LabelAnswer × Table
  | .state l => (.state (t.table.state l), t)
  | .native l =>
    match (t.table.get? l).bind (·.native) with
    | some n => (.native n, t)
    | none =>
      let (n, tab) := t.table.nativeOrInsert l (t.made + 1)
      (.native n, { table := tab, made := t.made + 1 })
  | .setEntry l n => (.unit, { t with table := t.table.setEntryIfAbsent l (entryStack gp vec n) })
  | .resolve l =>
    let (e, tab) := t.table.resolve l
    (.entry (e.map fun s => (s.sp, s.ceil)), { t with table := tab })
  | .get l => (.info (t.table.get? l), t)
  | .entryBound l =>
    let (i, tab) := t.table.entry l
    (.bool i.bound, { t with table := tab })
  | .dangling =>
    (.labels ((t.table.dangling.map Label.render).mergeSort (fun a b => decide (a ≤ b))), t)

def run (gp vec : List Reg) (cmds : List LabelCommand) : List LabelAnswer :=
  (cmds.foldl (fun (acc : List LabelAnswer × Table) c =>
    let (a, t) := step gp vec acc.2 c
    (acc.1 ++ [a], t)) ([], {})).1

end LabelCommand

end OnePassJit
