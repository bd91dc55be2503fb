import HomeControl.Decimal
import HomeControl.Text.Hidden
import HomeControl.Value
/-!
Configuration documents before their tags are carried out, and how messages write them. Floats are
written without a plus sign in their exponent, and those that are not finite have names.
-/

namespace HomeControl

namespace Scalar

open Text

def floatLayout : Decimal.Layout :=
  ⟨-5, 16, false⟩

def floatText (x : Float) : String :=
  (floatLayout.float? x).getD (if x.isNaN then ".nan" else if x < 0 then "-.inf" else ".inf")

def escaped (c : Char) : List Char :=
  if c = '"' then ['\\', '"']
  else if c = '\\' then ['\\', '\\']
  else if c = '\n' then ['\\', 'n']
  else if c = '\r' then ['\\', 'r']
  else if c = '\t' then ['\\', 't']
  else if c = '\x00' then ['\\', '0']
  else if isHidden c then ['\\', 'u', '\x7b'] ++ Nat.toDigits 16 c.toNat ++ ['\x7d']
  else [c]

def quoted (s : String) : String :=
  String.ofList ('"' :: (s.toList.flatMap escaped ++ ['"']))

end Scalar

inductive Document where
  | null
  | bool (b : Bool)
  | int (n : Int)
  | float (x : Float)
  | text (s : String)
  | list (items : List Document)
  | map (fields : List (String × Document))
  | tagged (tag : String) (content : Document)
  deriving Repr, Inhabited

namespace Document

mutual

def shown : Document → String
  | null => "Null"
  | bool b => "Bool(" ++ (if b then "true" else "false") ++ ")"
  | int n => "Number(" ++ toString n ++ ")"
  | float x => "Number(" ++ Scalar.floatText x ++ ")"
  | text s => "String(" ++ Scalar.quoted s ++ ")"
  | list items => "Sequence [" ++ ", ".intercalate (shownItems items) ++ "]"
  | map fields => "Mapping \x7b" ++ ", ".intercalate (shownFields fields) ++ "\x7d"
  | tagged tag content =>
    "TaggedValue \x7b tag: " ++ tag ++ ", value: " ++ shown content ++ " \x7d"

def shownItems : List Document → List String
  | [] => []
  | d :: rest => shown d :: shownItems rest

def shownFields : List (String × Document) → List String
  | [] => []
  | (k, d) :: rest => (Scalar.quoted k ++ ": " ++ shown d) :: shownFields rest

end

mutual

def tagCount : Document → Nat
  | list items => tagCountItems items
  | map fields => tagCountFields fields
  | tagged _ content => tagCount content + 1
  | _ => 0

def tagCountItems : List Document → Nat
  | [] => 0
  | d :: rest => tagCount d + tagCountItems rest

def tagCountFields : List (String × Document) → Nat
  | [] => 0
  | (_, d) :: rest => tagCount d + tagCountFields rest

end

mutual

def untagged : Document → Value
  | null => .null
  | bool b => .bool b
  | int n => .int n
  | float x => .float x
  | text s => .text s
  | list items => .list (untaggedItems items)
  | map fields => .record (untaggedFields fields)
  | tagged _ content => untagged content

def untaggedItems : List Document → List Value
  | [] => []
  | d :: rest => untagged d :: untaggedItems rest

def untaggedFields : List (String × Document) → List (String × Value)
  | [] => []
  | (k, d) :: rest => (k, untagged d) :: untaggedFields rest

end

mutual

def ofValue : Value → Document
  | .null => null
  | .bool b => bool b
  | .int n => int n
  | .float x => float x
  | .text s => text s
  | .list items => list (ofValues items)
  | .record fields => map (ofFields fields)

def ofValues : List Value → List Document
  | [] => []
  | v :: rest => ofValue v :: ofValues rest

def ofFields : List (String × Value) → List (String × Document)
  | [] => []
  | (k, v) :: rest => (k, ofValue v) :: ofFields rest

end

def bare : Document → Document
  | tagged _ content => bare content
  | d => d

def value? (d : Document) : Option Value :=
  if d.tagCount = 0 then some d.untagged else none

end Document

end HomeControl
