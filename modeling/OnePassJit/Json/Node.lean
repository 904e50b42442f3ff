import OnePassJit.Error

/-!
JSON documents, the format requests and answers are written in.

A number is kept as a reader that maps JSON numbers to machine values keeps it: `num` is
an integer written without fraction or exponent that fits a 64-bit word, unsigned or
signed (from `-2^63` below `2^64`); every other number, minus zero included, is the
binary64 datum `float` the reader computed for it. An object read from text holds each
key once, in ascending order. The helpers here build answers.
-/

namespace OnePassJit

/-- A JSON value. -/
inductive JsonNode where
  | null
  | bool (b : Bool)
  | num (n : Int)
  | float (bits : Nat)
  | str (s : String)
  | arr (xs : List JsonNode)
  | obj (kvs : List (String × JsonNode))
  deriving Inhabited

namespace JsonNode

def u64 (v : UInt64) : JsonNode := .str (toString v.toNat)

def nat (n : Nat) : JsonNode := .num n

def nat? : Option Nat → JsonNode
  | some n => .num n
  | none => .null

def strs (xs : List String) : JsonNode := .arr (xs.map .str)

def nats (xs : List Nat) : JsonNode := .arr (xs.map fun n => .num (Int.ofNat n))

def hexOf (b : ByteArray) : String :=
  b.foldl (fun acc x =>
    let d := Nat.toDigits 16 x.toNat
    acc ++ String.ofList (if d.length < 2 then '0' :: d else d)) ""

def badInput (msg : String) : JsonNode :=
  .obj [("error", .str "BadInput"), ("message", .str msg)]

def ofCompileError (e : CompileError) : JsonNode :=
  .obj [("error", .str e.kind), ("message", .str e.message)]

end JsonNode

end OnePassJit
