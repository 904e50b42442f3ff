import OnePassJit.Json.Write
import OnePassJit.Text.Blank
import OnePassJit.Text.Unsigned

/-!
Decoding the values of a request.

Decoding runs in `Decode`, whose failure is the text of a malformed-input answer.

* A field that is absent takes its default. A field that is present is decoded as it
  stands, so `null` fails where a value is needed (`optField`); the few fields where
  `null` means absent use `nullableField`. Where a field must be given, its absence
  has a message of its own.
* An unsigned 64-bit integer is a JSON integer in `[0, 2^64)` or a string. In a string,
  blanks around it are ignored; then come `0x` and hexadecimal digits, or `-` and decimal
  digits for the two's complement of their value, or decimal digits, each run of digits
  with an optional `+`. A 32-bit integer is such a value below `2^32`.
* A message that quotes a value writes it as compact JSON.
-/

namespace OnePassJit

/-- Decoding of a request; a failure says what is malformed. -/
abbrev Decode := Except String

namespace JsonNode

/-- Value of field `k` of an object, `null` included; `none` when absent or not an
object. -/
def field? (j : JsonNode) (k : String) : Option JsonNode :=
  match j with
  | .obj kvs => (kvs.find? (·.1 == k)).map (·.2)
  | _ => none

/-- Field `k` of a request part where it is required: `null` when absent. -/
def get (j : JsonNode) (k : String) : JsonNode := (j.field? k).getD .null

def item (xs : List JsonNode) (i : Nat) : JsonNode := xs.getD i .null

def asArray : JsonNode → Decode (List JsonNode)
  | .arr xs => .ok xs
  | j => .error s!"expected array, got {j.render}"

def asString : JsonNode → Decode String
  | .str s => .ok s
  | j => .error s!"expected string, got {j.render}"

def asBool : JsonNode → Decode Bool
  | .bool b => .ok b
  | j => .error s!"expected bool, got {j.render}"

def wordBound : Nat := Nat.pow 2 64

def u64OfText (s : String) : Decode UInt64 :=
  let t := Text.trimBlank s
  if t.startsWith "0x" then
    match Text.readUnsigned 16 wordBound (t.drop 2).toString with
    | .ok n => .ok (UInt64.ofNat n)
    | .error e => .error s!"bad hex {t}: {e.message}"
  else if t.startsWith "-" then
    match Text.readUnsigned 10 wordBound (t.drop 1).toString with
    | .ok n => .ok (0 - UInt64.ofNat n)
    | .error e => .error s!"bad number {t}: {e.message}"
  else
    match Text.readUnsigned 10 wordBound t with
    | .ok n => .ok (UInt64.ofNat n)
    | .error e => .error s!"bad number {t}: {e.message}"

def asU64 : JsonNode → Decode UInt64
  | .num n =>
    if 0 ≤ n ∧ n < wordBound then .ok (UInt64.ofNat n.toNat)
    else .error s!"not a u64: {n}"
  | .float b => .error s!"not a u64: {doubleText b}"
  | .str s => u64OfText s
  | j => .error s!"expected number, got {j.render}"

def asU32 (j : JsonNode) : Decode UInt32 := do
  let v ← j.asU64
  if v.toNat < Nat.pow 2 32 then pure v.toUInt32 else throw s!"{v.toNat} does not fit u32"

def asNat (j : JsonNode) : Decode Nat := do
  return (← j.asU64).toNat

/-- Field `k` decoded by `f` when present, `null` included. -/
def optField {α : Type} (j : JsonNode) (k : String) (f : JsonNode → Decode α) :
    Decode (Option α) :=
  match j.field? k with
  | some v => some <$> f v
  | none => .ok none

def fieldOr {α : Type} (j : JsonNode) (k : String) (f : JsonNode → Decode α) (d : α) :
    Decode α := do
  return (← j.optField k f).getD d

/-- Field `k` decoded by `f` when present and not `null`. -/
def nullableField {α : Type} (j : JsonNode) (k : String) (f : JsonNode → Decode α) :
    Decode (Option α) :=
  match j.field? k with
  | some .null | none => .ok none
  | some v => some <$> f v

def list {α : Type} (f : JsonNode → Decode α) (j : JsonNode) : Decode (List α) := do
  (← j.asArray).mapM f

/-- Bytes of hexadecimal text: each two bytes of its UTF-8 form are one byte, read as an
unsigned integer in base 16; a byte outside ASCII is never a digit. -/
def bytesOfHex (s : String) : Decode ByteArray :=
  let bs := s.toUTF8.toList
  if bs.length % 2 != 0 then .error "odd hex length" else
  let rec go : List UInt8 → ByteArray → Decode ByteArray
    | a :: b :: rest, acc =>
      match Text.readUnsigned 16 256 (String.ofList [Char.ofNat a.toNat, Char.ofNat b.toNat]) with
      | .ok v => go rest (acc.push v.toUInt8)
      | .error e => .error e.message
    | _, acc => .ok acc
  go bs ByteArray.empty

end JsonNode

end OnePassJit
