import OnePassJit.ValueStack

/-!
The labels of the function being compiled.

A label moves through three states: unreached (no branch has fixed its entry state),
pending (a branch fixed the value stack it is entered with, but its code is not
emitted yet) and resolved (bound). The native handle `ν` that branches refer to is
created on first reference. Entries are kept in order of first mention.
-/

namespace OnePassJit

/-- Compilation state of one label. -/
inductive LabelState where
  | unreached
  | pending
  | resolved
  deriving DecidableEq, Repr

def LabelState.name : LabelState → String
  | .unreached => "unreached"
  | .pending => "pending"
  | .resolved => "resolved"

/-- What is known of one label. -/
structure LabelInfo (ν : Type) where
  native : Option ν := none
  /-- Value stack every path enters the label with. -/
  entry : Option ValueStack := none
  bound : Bool := false
  deriving Inhabited

def LabelInfo.state {ν : Type} (i : LabelInfo ν) : LabelState :=
  if i.bound then .resolved else if i.entry.isSome then .pending else .unreached

/-- All labels of a function, in order of first mention. -/
structure LabelTable (ν : Type) where
  entries : List (Label × LabelInfo ν) := []
  deriving Inhabited

namespace LabelTable

variable {ν : Type}

def get? (t : LabelTable ν) (l : Label) : Option (LabelInfo ν) :=
  (t.entries.find? (·.1 == l)).map (·.2)

def state (t : LabelTable ν) (l : Label) : LabelState :=
  match t.get? l with
  | some i => i.state
  | none => .unreached

/-- Apply `f` to the entry of `l`, creating an empty entry first if there is none. -/
def update (t : LabelTable ν) (l : Label) (f : LabelInfo ν → LabelInfo ν) : LabelTable ν :=
  if t.entries.any (·.1 == l) then
    ⟨t.entries.map fun e => if e.1 == l then (e.1, f e.2) else e⟩
  else ⟨t.entries ++ [(l, f {})]⟩

def entry (t : LabelTable ν) (l : Label) : LabelInfo ν × LabelTable ν :=
  let t := t.update l id
  ((t.get? l).getD {}, t)

/-- Native handle of `l`; `fresh` becomes the handle when there is none yet. -/
def nativeOrInsert (t : LabelTable ν) (l : Label) (fresh : ν) : ν × LabelTable ν :=
  let t := t.update l fun i => { i with native := i.native <|> some fresh }
  (((t.get? l).bind (·.native)).getD fresh, t)

/-- Record the entry stack of `l` unless an earlier branch already fixed it. -/
def setEntryIfAbsent (t : LabelTable ν) (l : Label) (s : ValueStack) : LabelTable ν :=
  t.update l fun i => { i with entry := i.entry <|> some s }

def resolve (t : LabelTable ν) (l : Label) : Option ValueStack × LabelTable ν :=
  let (i, t) := t.entry l
  (i.entry, t.update l fun i => { i with bound := true, entry := none })

def dangling (t : LabelTable ν) : List Label :=
  (t.entries.filter fun e => !e.2.bound && e.2.native.isSome).map (·.1)

end LabelTable

end OnePassJit
