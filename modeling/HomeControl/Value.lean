import HomeControl.Decimal
import HomeControl.Text
/-!
Attribute values. Whole numbers and floats are kept apart: `50` and `50.0` are different values.
The fields of a record are ordered by key. In JSON, records and lists are written without blanks,
and floats in the fewest digits that read back.
-/

namespace HomeControl

inductive Value where
  | null
  | bool (b : Bool)
  | int (n : Int)
  | float (x : Float)
  | text (s : String)
  | list (items : List Value)
  | record (fields : List (String × Value))
  deriving Repr, Inhabited

namespace Value

mutual

def decEq : (a b : Value) → Decidable (a = b)
  | null, null => isTrue rfl
  | bool a, bool b => if h : a = b then isTrue (h ▸ rfl) else isFalse fun e => h (bool.inj e)
  | int a, int b => if h : a = b then isTrue (h ▸ rfl) else isFalse fun e => h (int.inj e)
  | float a, float b => if h : a = b then isTrue (h ▸ rfl) else isFalse fun e => h (float.inj e)
  | text a, text b => if h : a = b then isTrue (h ▸ rfl) else isFalse fun e => h (text.inj e)
  | list a, list b =>
    match decEqItems a b with
    | isTrue h => isTrue (h ▸ rfl)
    | isFalse h => isFalse fun e => h (list.inj e)
  | record a, record b =>
    match decEqFields a b with
    | isTrue h => isTrue (h ▸ rfl)
    | isFalse h => isFalse fun e => h (record.inj e)
  | null, bool _ | null, int _ | null, float _ | null, text _ | null, list _ | null, record _
  | bool _, null | bool _, int _ | bool _, float _ | bool _, text _ | bool _, list _
  | bool _, record _ | int _, null | int _, bool _ | int _, float _ | int _, text _
  | int _, list _ | int _, record _ | float _, null | float _, bool _ | float _, int _
  | float _, text _ | float _, list _ | float _, record _ | text _, null | text _, bool _
  | text _, int _ | text _, float _ | text _, list _ | text _, record _ | list _, null
  | list _, bool _ | list _, int _ | list _, float _ | list _, text _ | list _, record _
  | record _, null | record _, bool _ | record _, int _ | record _, float _ | record _, text _
  | record _, list _ => isFalse (fun e => nomatch e)

def decEqItems : (a b : List Value) → Decidable (a = b)
  | [], [] => isTrue rfl
  | a :: as, b :: bs =>
    match decEq a b, decEqItems as bs with
    | isTrue h, isTrue t => isTrue (h ▸ t ▸ rfl)
    | isFalse h, _ => isFalse fun e => h (List.cons.inj e).1
    | _, isFalse t => isFalse fun e => t (List.cons.inj e).2
  | [], _ :: _ => isFalse (fun e => nomatch e)
  | _ :: _, [] => isFalse (fun e => nomatch e)

def decEqFields : (a b : List (String × Value)) → Decidable (a = b)
  | [], [] => isTrue rfl
  | (k, a) :: as, (l, b) :: bs =>
    if hk : k = l then
      match decEq a b, decEqFields as bs with
      | isTrue h, isTrue t => isTrue (hk ▸ h ▸ t ▸ rfl)
      | isFalse h, _ => isFalse fun e => h (Prod.mk.inj (List.cons.inj e).1).2
      | _, isFalse t => isFalse fun e => t (List.cons.inj e).2
    else isFalse fun e => hk (Prod.mk.inj (List.cons.inj e).1).1
  | [], _ :: _ => isFalse (fun e => nomatch e)
  | _ :: _, [] => isFalse (fun e => nomatch e)

end

instance : DecidableEq Value := decEq

mutual

/-- Equality as the program tests it: like `=`, except that floats compare as numbers, so that
zero and its negative agree. -/
def same : Value → Value → Bool
  | null, null => true
  | bool a, bool b => a == b
  | int a, int b => a == b
  | float a, float b => a == b
  | text a, text b => a == b
  | list a, list b => sameItems a b
  | record a, record b => sameFields a b
  | _, _ => false

def sameItems : List Value → List Value → Bool
  | [], [] => true
  | a :: as, b :: bs => same a b && sameItems as bs
  | _, _ => false

def sameFields : List (String × Value) → List (String × Value) → Bool
  | [], [] => true
  | (k, a) :: as, (l, b) :: bs => k == l && same a b && sameFields as bs
  | _, _ => false

end

def nat? : Value → Option Nat
  | int (.ofNat n) => some n
  | _ => none

def text? : Value → Option String
  | text s => some s
  | _ => none

def bool? : Value → Option Bool
  | bool b => some b
  | _ => none

def number? : Value → Option Float
  | int n => some (Float.ofInt n)
  | float x => some x
  | _ => none

def isNull : Value → Bool
  | null => true
  | _ => false

def putField (key : String) (value : Value) : List (String × Value) → List (String × Value)
  | [] => [(key, value)]
  | (k, v) :: rest =>
    if key < k then (key, value) :: (k, v) :: rest
    else if key = k then (key, value) :: rest
    else (k, v) :: putField key value rest

def ofFields (fields : List (String × Value)) : Value :=
  record (fields.foldl (fun acc (k, v) => putField k v acc) [])

def field? (key : String) : Value → Option Value
  | record fields => fields.lookup key
  | _ => none

open Text

/-- Floats are positional from `1e-5` to below `1e16`, always with a fraction; beyond that the
exponent carries its sign. -/
def floatLayout : Decimal.Layout :=
  ⟨-5, 16, true⟩

def floatText (x : Float) : String :=
  (floatLayout.float? x).getD "null"

def escaped (c : Char) : List Char :=
  if c = '"' then ['\\', '"']
  else if c = '\\' then ['\\', '\\']
  else if c = '\n' then ['\\', 'n']
  else if c = '\r' then ['\\', 'r']
  else if c = '\t' then ['\\', 't']
  else if c = '\x08' then ['\\', 'b']
  else if c = '\x0c' then ['\\', 'f']
  else if c.toNat < 0x20 then '\\' :: 'u' :: '0' :: '0' :: hexByte c.toNat.toUInt8
  else [c]

def quoted (s : String) : String :=
  String.ofList ('"' :: (s.toList.flatMap escaped ++ ['"']))

mutual

def json : Value → String
  | null => "null"
  | bool b => if b then "true" else "false"
  | int n => toString n
  | float x => floatText x
  | text s => quoted s
  | list items => "[" ++ ",".intercalate (jsonItems items) ++ "]"
  | record fields => "\x7b" ++ ",".intercalate (jsonFields fields) ++ "\x7d"

def jsonItems : List Value → List String
  | [] => []
  | v :: rest => json v :: jsonItems rest

def jsonFields : List (String × Value) → List String
  | [] => []
  | (k, v) :: rest => (quoted k ++ ":" ++ json v) :: jsonFields rest

end

def render : Value → String
  | text s => s
  | v => json v

end Value

end HomeControl
