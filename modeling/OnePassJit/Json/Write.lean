import OnePassJit.Json.Node
import OnePassJit.Ieee.Shortest

/-!
Writing JSON text.

Values are written compactly, with no blank between tokens. A string escapes the quote,
the backslash and the control characters, the usual ones by letter. An integer is
written in full, a binary64 datum as `doubleText` writes it.
-/

namespace OnePassJit

/-- Text of a binary64 datum: the shortest digits that read back, nearest the datum
among them. With the decimal point after `k` of those digits (the datum is
`0.d₁d₂… · 10^k`), the datum is written positionally when `-5 < k ≤ 16`, with `.0` after
an integer; otherwise as its first digit, the others after a point, `e`, and the
exponent `k - 1` with its sign. A datum that is not finite has no JSON text and is
written `null`. -/
def doubleText (b : Nat) : String :=
  let f := Ieee.Format.double
  let sign := if f.sign b then "-" else ""
  if f.isNaN b || f.isInfinite b then "null"
  else if f.isZero b then sign ++ "0.0"
  else
    let (c, t) := f.shortest (f.magnitude b)
    let ds := (toString c).toList
    let n := ds.length
    let k : Int := t + n
    let zeros (m : Nat) := String.ofList (List.replicate m '0')
    if 0 ≤ t ∧ k ≤ 16 then sign ++ String.ofList ds ++ zeros t.toNat ++ ".0"
    else if 0 < k ∧ k ≤ 16 then
      sign ++ String.ofList (ds.take k.toNat) ++ "." ++ String.ofList (ds.drop k.toNat)
    else if -5 < k ∧ k ≤ 0 then sign ++ "0." ++ zeros (-k).toNat ++ String.ofList ds
    else
      let x := k - 1
      let mant := if n > 1 then String.ofList (ds.take 1) ++ "." ++ String.ofList (ds.drop 1)
        else String.ofList ds
      sign ++ mant ++ "e" ++ (if x < 0 then "-" else "+") ++ toString x.natAbs

namespace JsonNode

/-- A string literal: quote and backslash escaped, control characters by their usual
letter or as `\u00XX` with lower-case digits. -/
def quote (s : String) : String :=
  let esc (c : Char) : String :=
    match c with
    | '"' => "\\\""
    | '\\' => "\\\\"
    | '\n' => "\\n"
    | '\r' => "\\r"
    | '\t' => "\\t"
    | '\x08' => "\\b"
    | '\x0c' => "\\f"
    | c =>
      if c.toNat < 0x20 then
        let d := Nat.toDigits 16 c.toNat
        "\\u" ++ String.ofList (List.replicate (4 - d.length) '0' ++ d)
      else String.singleton c
  "\"" ++ s.foldl (fun acc c => acc ++ esc c) "" ++ "\""

mutual

def render : JsonNode → String
  | .null => "null"
  | .bool b => if b then "true" else "false"
  | .num n => toString n
  | .float b => doubleText b
  | .str s => quote s
  | .arr xs => "[" ++ renderItems xs ++ "]"
  | .obj kvs => "\x7b" ++ renderMembers kvs ++ "\x7d"

def renderItems : List JsonNode → String
  | [] => ""
  | [x] => render x
  | x :: xs => render x ++ "," ++ renderItems xs

def renderMembers : List (String × JsonNode) → String
  | [] => ""
  | [(k, v)] => quote k ++ ":" ++ render v
  | (k, v) :: kvs => quote k ++ ":" ++ render v ++ "," ++ renderMembers kvs

end

end JsonNode

end OnePassJit
