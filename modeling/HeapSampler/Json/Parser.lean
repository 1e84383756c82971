import HeapSampler.Json.Syntax
import HeapSampler.Number.Reading
import HeapSampler.Text.Hex

/-!
# Reading JSON
-/

namespace HeapSampler.Json

def skipBlank : List Char → List Char
  | [] => []
  | char :: rest =>
      if char = ' ' ∨ char = '\t' ∨ char = '\n' ∨ char = '\r' then skipBlank rest
      else char :: rest

def escape? : Char → Option Char
  | '"' => some '"'
  | '\\' => some '\\'
  | '/' => some '/'
  | 'b' => some '\x08'
  | 'f' => some '\x0c'
  | 'n' => some '\n'
  | 'r' => some '\r'
  | 't' => some '\t'
  | _ => none

/-- The rest of a string behind its opening quote. -/
def stringBody? : List Char → Option (List JsonUnit × List Char)
  | [] => none
  | '"' :: rest => some ([], rest)
  | '\\' :: 'u' :: d3 :: d2 :: d1 :: d0 :: rest => do
      let unit := (← Text.hexDigit? d3) * 4096 + (← Text.hexDigit? d2) * 256 +
        (← Text.hexDigit? d1) * 16 + (← Text.hexDigit? d0)
      let (units, rest) ← stringBody? rest
      return (.escaped unit :: units, rest)
  | '\\' :: letter :: rest => do
      let char ← escape? letter
      let (units, rest) ← stringBody? rest
      return (.plain char :: units, rest)
  | char :: rest =>
      if char < ' ' ∨ char = '\\' then none
      else (stringBody? rest).map fun (units, rest) => (.plain char :: units, rest)

def digits? (chars : List Char) : Option (List Nat × List Char) :=
  match Number.digitsOf chars with
  | [] => none
  | digits => some (digits, chars.drop digits.length)

def number? (chars : List Char) : Option (JsonNumber × List Char) := do
  let (negative, chars) := match chars with
    | '-' :: rest => (true, rest)
    | chars => (false, chars)
  let (whole, chars) ← digits? chars
  if whole.head? = some 0 ∧ 1 < whole.length then none
  else
    let (fraction, chars) ← match chars with
      | '.' :: rest => (digits? rest).map fun (digits, rest) => (some digits, rest)
      | chars => some (none, chars)
    let (exponent, chars) ← match chars with
      | 'e' :: rest | 'E' :: rest =>
          let (negative, rest) := Number.signed rest
          (digits? rest).map fun (digits, rest) => (some (negative, digits), rest)
      | chars => some (none, chars)
    return ({ negative, whole, fraction, exponent }, chars)

mutual

/-- A value and what follows it; every value and every item of a list costs a step. -/
def value? : Nat → List Char → Option (Json × List Char)
  | 0, _ => none
  | steps + 1, chars =>
      match skipBlank chars with
      | 'n' :: 'u' :: 'l' :: 'l' :: rest => some (.null, rest)
      | 't' :: 'r' :: 'u' :: 'e' :: rest => some (.bool true, rest)
      | 'f' :: 'a' :: 'l' :: 's' :: 'e' :: rest => some (.bool false, rest)
      | '"' :: rest => (stringBody? rest).map fun (units, rest) => (.string units, rest)
      | '[' :: rest =>
          match skipBlank rest with
          | ']' :: rest => some (.array [], rest)
          | rest => (items? steps rest).map fun (items, rest) => (.array items, rest)
      | '\x7b' :: rest =>
          match skipBlank rest with
          | '\x7d' :: rest => some (.object [], rest)
          | rest => (members? steps rest).map fun (members, rest) => (.object members, rest)
      | chars => (number? chars).map fun (parsed, rest) => (.number parsed, rest)

def items? : Nat → List Char → Option (List Json × List Char)
  | 0, _ => none
  | steps + 1, chars =>
      match value? steps chars with
      | none => none
      | some (item, rest) =>
          match skipBlank rest with
          | ',' :: rest => (items? steps rest).map fun (items, rest) => (item :: items, rest)
          | ']' :: rest => some ([item], rest)
          | _ => none

def members? : Nat → List Char → Option (List (List JsonUnit × Json) × List Char)
  | 0, _ => none
  | steps + 1, chars =>
      match skipBlank chars with
      | '"' :: rest =>
          match stringBody? rest with
          | none => none
          | some (name, rest) =>
              match skipBlank rest with
              | ':' :: rest =>
                  match value? steps rest with
                  | none => none
                  | some (value, rest) =>
                      match skipBlank rest with
                      | ',' :: rest =>
                          (members? steps rest).map fun (members, rest) =>
                            ((name, value) :: members, rest)
                      | '\x7d' :: rest => some ([(name, value)], rest)
                      | _ => none
              | _ => none
      | _ => none

end

def parse? (chars : List Char) : Option Json :=
  match value? (2 * chars.length + 2) chars with
  | some (value, rest) => if skipBlank rest = [] then some value else none
  | none => none

end HeapSampler.Json
