import HomeControl.Decimal
import HomeControl.Value
/-!
What a word without quotes means: null, a truth value, a whole number, a float, or else a text.
-/

namespace HomeControl.Scalar

open Text

def isNullWord (word : String) : Bool :=
  ["~", "null", "Null", "NULL"].contains word

def truth? (word : String) : Option Bool :=
  if ["true", "True", "TRUE"].contains word then some true
  else if ["false", "False", "FALSE"].contains word then some false
  else none

def radixDigits? (radix : Nat) (cs : List Char) : Option Nat :=
  if cs.isEmpty then none
  else
    cs.foldlM (fun n c => do
      let d ← hexValue? c
      if d < radix then some (n * radix + d) else none) 0

def hasLeadingZero (digits : List Char) : Bool :=
  digits.length > 1 && digits.head? == some '0' && digits.all Char.isDigit

def natural? (body : List Char) : Option Nat :=
  match body with
  | '0' :: 'x' :: digits => radixDigits? 16 digits
  | '0' :: 'o' :: digits => radixDigits? 8 digits
  | '0' :: 'b' :: digits => radixDigits? 2 digits
  | digits => if hasLeadingZero digits then none else radixDigits? 10 digits

def integer? (cs : List Char) : Option Int :=
  match cs with
  | '-' :: body => do
    let n ← natural? body
    if n ≤ bitRange 63 then some (-n) else none
  | '+' :: body => do
    let n ← natural? body
    if n ≤ maxU64 then some n else none
  | body => do
    let n ← natural? body
    if n ≤ maxU64 then some n else none

def isWide (cs : List Char) : Bool :=
  let (limit, body) := match cs with
    | '-' :: rest => (bitRange 127, rest)
    | '+' :: rest => (bitRange 128 - 1, rest)
    | _ => (bitRange 128 - 1, cs)
  match natural? body with
  | some n => (integer? cs).isNone && n ≤ limit
  | none => false

def named? (word : String) : Option Float :=
  if [".inf", ".Inf", ".INF", "+.inf", "+.Inf", "+.INF"].contains word then some (1 / 0)
  else if ["-.inf", "-.Inf", "-.INF"].contains word then some (-1 / 0)
  else if [".nan", ".NaN", ".NAN"].contains word then some (0 / 0)
  else none

def float? (word : String) : Option Float :=
  (named? word).or ((Decimal.float? word.toList).filter Float.isFinite)

def withoutSign : List Char → List Char
  | '-' :: rest => rest
  | '+' :: rest => rest
  | cs => cs

def plain? (word : String) : Option Value :=
  let cs := word.toList
  if cs.isEmpty || isNullWord word then some .null
  else
    match truth? word, integer? cs with
    | some b, _ => some (.bool b)
    | none, some n => some (.int n)
    | none, none =>
      if isWide cs then none
      else if hasLeadingZero (withoutSign cs) then some (.text word)
      else some (((float? word).map .float).getD (.text word))

end HomeControl.Scalar
