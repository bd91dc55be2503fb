import HomeControl.Decimal
import HomeControl.Value
import HomeControl.Text
/-!
Reading values from JSON text. A number without point and exponent is whole if it fits into 64
bits, signed or unsigned; every other number is a float.
-/

namespace HomeControl.Value

open Text

def isGap (c : Char) : Bool :=
  c == ' ' || c == '\n' || c == '\t' || c == '\r'

def skipGap (cs : List Char) : List Char :=
  cs.dropWhile isGap

def hex4? : List Char → Option (Nat × List Char)
  | a :: b :: c :: d :: rest => do
    let a ← hexValue? a
    let b ← hexValue? b
    let c ← hexValue? c
    let d ← hexValue? d
    some (((a * 16 + b) * 16 + c) * 16 + d, rest)
  | _ => none

def simpleEscape? : Char → Option Char
  | '"' => some '"'
  | '\\' => some '\\'
  | '/' => some '/'
  | 'b' => some '\x08'
  | 'f' => some '\x0c'
  | 'n' => some '\n'
  | 'r' => some '\r'
  | 't' => some '\t'
  | _ => none

def unicodeEscape? (cs : List Char) : Option (Char × List Char) := do
  let (high, rest) ← hex4? cs
  if 0xd800 ≤ high && high < 0xdc00 then
    match rest with
    | '\\' :: 'u' :: more =>
      let (low, rest) ← hex4? more
      if 0xdc00 ≤ low && low < 0xe000 then
        some (Char.ofNat (0x10000 + (high - 0xd800) * 0x400 + (low - 0xdc00)), rest)
      else none
    | _ => none
  else if 0xdc00 ≤ high && high < 0xe000 then none
  else some (Char.ofNat high, rest)

def readText? : Nat → List Char → List Char → Option (String × List Char)
  | 0, _, _ => none
  | fuel + 1, acc, cs =>
    match cs with
    | [] => none
    | '"' :: rest => some (String.ofList acc.reverse, rest)
    | '\\' :: 'u' :: rest => do
      let (c, rest) ← unicodeEscape? rest
      readText? fuel (c :: acc) rest
    | '\\' :: c :: rest => do
      let c ← simpleEscape? c
      readText? fuel (c :: acc) rest
    | c :: rest => if c.toNat < 0x20 then none else readText? fuel (c :: acc) rest

def fitting (n : Nat) : List Char → Nat × Nat
  | [] => (n, 0)
  | c :: rest =>
    let next := 10 * n + digitValue c
    if next ≤ maxU64 then fitting next rest else (n, rest.length + 1)

def maxPower : Nat := 308

def dividedBy (x : Float) (power : Nat) : Float :=
  if power ≤ maxPower then x / Decimal.nearest 1 power
  else if x == 0 then x
  else dividedBy (x / Decimal.nearest 1 maxPower) (power - maxPower)
  termination_by power
  decreasing_by simp only [maxPower] at *; omega

/-- The leading digits of a number times a power of ten, where digits, power and result are each
rounded. What is not finite is no number. -/
def scaled? (whole fraction : List Char) (power : Int) : Option Float :=
  let (n, left) := fitting 0 whole
  let (n, leftFraction) := fitting n fraction
  let exponent := power + left - (fraction.length - leftFraction : Nat)
  let digits := Decimal.nearest n 0
  let x := if exponent < 0 then dividedBy digits exponent.natAbs
    else if n = 0 then 0
    else digits * Decimal.nearest 1 exponent
  if x.isFinite then some x else none

def isNumberChar (c : Char) : Bool :=
  c.isDigit || c == '+' || c == '-' || c == '.' || c == 'e' || c == 'E'

def number (negative : Bool) (body : List Char) : Option Value :=
  if body.all Char.isDigit then
    let n := digitsValue body
    if body.isEmpty || (body.length > 1 && body.head? == some '0') then none
    else if negative && 0 < n && n ≤ bitRange 63 then some (int (-n))
    else if !negative && n ≤ maxU64 then some (int n)
    else (scaled? body [] 0).map fun size => float (if negative then -size else size)
  else do
    let p ← Decimal.parts? body
    let size ← scaled? p.whole p.fraction p.power
    some (float (if negative then -size else size))

def readNumber? (cs : List Char) : Option (Value × List Char) := do
  let (body, rest) := cs.span isNumberChar
  let value ← match body with
    | '-' :: digits => number true digits
    | _ => number false body
  some (value, rest)

mutual

/-- Reads one value and gives back what follows it. Every step takes a character, so a fuel of
one more than the length of the text never runs out. -/
def read? : Nat → List Char → Option (Value × List Char)
  | 0, _ => none
  | fuel + 1, cs =>
    match skipGap cs with
    | 'n' :: 'u' :: 'l' :: 'l' :: rest => some (null, rest)
    | 't' :: 'r' :: 'u' :: 'e' :: rest => some (bool true, rest)
    | 'f' :: 'a' :: 'l' :: 's' :: 'e' :: rest => some (bool false, rest)
    | '"' :: rest => (readText? (rest.length + 1) [] rest).map fun (s, rest) => (text s, rest)
    | '[' :: rest =>
      match skipGap rest with
      | ']' :: rest => some (list [], rest)
      | rest => (readItems? fuel [] rest).map fun (items, rest) => (list items, rest)
    | '\x7b' :: rest =>
      match skipGap rest with
      | '\x7d' :: rest => some (record [], rest)
      | rest => (readFields? fuel [] rest).map fun (fields, rest) => (record fields, rest)
    | rest => readNumber? rest

def readItems? : Nat → List Value → List Char → Option (List Value × List Char)
  | 0, _, _ => none
  | fuel + 1, acc, cs =>
    match read? fuel cs with
    | none => none
    | some (item, rest) =>
      match skipGap rest with
      | ',' :: rest => readItems? fuel (item :: acc) rest
      | ']' :: rest => some ((item :: acc).reverse, rest)
      | _ => none

def readFields? : Nat → List (String × Value) → List Char →
    Option (List (String × Value) × List Char)
  | 0, _, _ => none
  | fuel + 1, acc, cs =>
    match skipGap cs with
    | '"' :: rest =>
      match readText? (rest.length + 1) [] rest with
      | none => none
      | some (key, rest) =>
        match skipGap rest with
        | ':' :: rest =>
          match read? fuel rest with
          | none => none
          | some (item, rest) =>
            match skipGap rest with
            | ',' :: rest => readFields? fuel (putField key item acc) rest
            | '\x7d' :: rest => some (putField key item acc, rest)
            | _ => none
        | _ => none
    | _ => none

end

def ofJson? (s : String) : Option Value :=
  let cs := s.toList
  match read? (cs.length + 1) cs with
  | some (value, rest) => if (skipGap rest).isEmpty then some value else none
  | none => none

end HomeControl.Value
