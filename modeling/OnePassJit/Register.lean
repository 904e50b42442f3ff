/-!
Physical registers and register sets.

A register is a bank and an id inside the bank, so both instruction sets share one
allocator: bank 0 holds the general purpose registers and bank 1 the vector and scalar
float registers, ids being the hardware numbers. A `RegSet` is a bit mask per bank;
only banks 0 and 1 and ids below 64 can be members, anything else is silently ignored.
-/

namespace OnePassJit

/-- The register class a value needs. -/
inductive RegKind where
  | gp
  | vector
  deriving DecidableEq, Repr, Inhabited

def RegKind.bank : RegKind → UInt8
  | .gp => 0
  | .vector => 1

/-- A register: bank and id within the bank. -/
structure Reg where
  bank : UInt8
  id : UInt8
  deriving DecidableEq, Repr, Inhabited, Hashable

namespace Reg

def gp (id : UInt8) : Reg := ⟨0, id⟩

def vec (id : UInt8) : Reg := ⟨1, id⟩

def isVector (r : Reg) : Bool := r.bank == 1

/-- Class of a register: the vector bank, or general purpose for every other bank. -/
def kind (r : Reg) : RegKind := if r.isVector then .vector else .gp

/-- Text of a register: `rN`, `vN`, or `bB:N` outside the two known banks. -/
def render (r : Reg) : String :=
  if r.bank == 0 then s!"r{r.id.toNat}"
  else if r.bank == 1 then s!"v{r.id.toNat}"
  else s!"b{r.bank.toNat}:{r.id.toNat}"

theorem kind_gp (id : UInt8) : (gp id).kind = .gp := rfl

theorem kind_vec (id : UInt8) : (vec id).kind = .vector := rfl

end Reg

/-- A set of registers of banks 0 and 1 with ids below 64. -/
structure RegSet where
  gpMask : UInt64 := 0
  vecMask : UInt64 := 0
  deriving DecidableEq, Repr, Inhabited

namespace RegSet

def empty : RegSet := {}

def storable (r : Reg) : Bool := r.bank < 2 && r.id < 64

def mask (s : RegSet) (bank : UInt8) : UInt64 :=
  if bank == 0 then s.gpMask else if bank == 1 then s.vecMask else 0

def contains (s : RegSet) (r : Reg) : Bool :=
  storable r && (s.mask r.bank >>> r.id.toUInt64) &&& 1 == 1

def insert (s : RegSet) (r : Reg) : RegSet :=
  if !storable r then s
  else if r.bank == 0 then { s with gpMask := s.gpMask ||| ((1 : UInt64) <<< r.id.toUInt64) }
  else { s with vecMask := s.vecMask ||| ((1 : UInt64) <<< r.id.toUInt64) }

def erase (s : RegSet) (r : Reg) : RegSet :=
  if !storable r then s
  else if r.bank == 0 then { s with gpMask := s.gpMask &&& ~~~((1 : UInt64) <<< r.id.toUInt64) }
  else { s with vecMask := s.vecMask &&& ~~~((1 : UInt64) <<< r.id.toUInt64) }

def ofList (rs : List Reg) : RegSet := rs.foldl insert empty

def union (a b : RegSet) : RegSet := ⟨a.gpMask ||| b.gpMask, a.vecMask ||| b.vecMask⟩

def isEmpty (s : RegSet) : Bool := s.gpMask == 0 && s.vecMask == 0

def bankMembers (bank : UInt8) (m : UInt64) : List Reg :=
  (List.range 64).filterMap fun i =>
    if (m >>> i.toUInt64) &&& 1 == 1 then some ⟨bank, i.toUInt8⟩ else none

def toList (s : RegSet) : List Reg := bankMembers 0 s.gpMask ++ bankMembers 1 s.vecMask

def countInBank (s : RegSet) (bank : UInt8) : Nat := (bankMembers bank (s.mask bank)).length

end RegSet

end OnePassJit
