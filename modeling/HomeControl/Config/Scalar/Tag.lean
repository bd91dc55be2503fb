import HomeControl.Config.Document
import HomeControl.Config.Scalar.Source
import HomeControl.Config.Scalar.Word
/-!
Tags of scalars. A tag is written as `!suffix`, `!!suffix` or `!handle!suffix`, where a handle
stands for the start of the tag, or in full as `!<tag>`. The tags of truth values, numbers and null
ask for a scalar of that kind; other tags without an exclamation mark at their start ask for a
text.
-/

namespace HomeControl.Scalar

open Text

def isNameChar (c : Char) : Bool :=
  c.isAlphanum || c == '_' || c == '-'

def isTagChar (full : Bool) (c : Char) : Bool :=
  isNameChar c || ";/?:@&=+$.%!~*'()".toList.contains c || (full && ",[]".toList.contains c)

def byteCount? (b : UInt8) : Option Nat :=
  if b < 0x80 then some 1
  else if 0xc0 ≤ b && b < 0xe0 then some 2
  else if 0xe0 ≤ b && b < 0xf0 then some 3
  else if 0xf0 ≤ b && b < 0xf8 then some 4
  else none

def isFurtherByte (b : UInt8) : Bool :=
  0x80 ≤ b && b < 0xc0

/-- The bytes of a part of a tag, where `%` and two hexadecimal digits stand for one. `left` bytes
of a character are still to come. -/
def tagBytes? (left : Nat) : List Char → Option (List UInt8)
  | [] => if left = 0 then some [] else none
  | '%' :: a :: b :: rest => do
    let high ← hexValue? a
    let low ← hexValue? b
    let byte := (16 * high + low).toUInt8
    let left ← if left = 0 then byteCount? byte
      else if isFurtherByte byte then some left else none
    (tagBytes? (left - 1) rest).map (byte :: ·)
  | c :: rest =>
    if left = 0 && c != '%' then (tagBytes? 0 rest).map (c.toNat.toUInt8 :: ·) else none

def tagPart? (full : Bool) (cs : List Char) : Option (List UInt8 × List Char) :=
  (tagBytes? 0 (cs.takeWhile (isTagChar full))).map fun bytes =>
    (bytes.takeWhile (· != 0), cs.dropWhile (isTagChar full))

def exclamationMark : UInt8 := 33

abbrev Handles := List (String × List UInt8)

def commonHandles : Handles :=
  [("!", [exclamationMark]), ("!!", "tag:yaml.org,2002:".toUTF8.toList)]

def handleName? (cs : List Char) : Option (String × List Char) :=
  match cs.dropWhile isNameChar with
  | '!' :: rest => some (String.ofList (cs.takeWhile isNameChar), rest)
  | _ => none

def tag? (handles : Handles) (cs : List Char) : Option (List UInt8 × List Char) :=
  match cs, handleName? cs with
  | '<' :: rest, _ => do
    let (bytes, back) ← tagPart? true rest
    match back with
    | '>' :: after => if back.length = rest.length then none else some (bytes, after)
    | _ => none
  | _, some (name, rest) => do
    let start ← handles.lookup ("!" ++ name ++ "!")
    let (bytes, back) ← tagPart? false rest
    if back.length = rest.length then none else some (start ++ bytes, back)
  | _, none => do
    let start ← handles.lookup "!"
    let (bytes, back) ← tagPart? false cs
    some (if bytes.isEmpty then [exclamationMark] else start ++ bytes, back)

inductive Tag where
  | plain
  | bool
  | int
  | float
  | null
  | text
  | foreign (name : String)
  deriving DecidableEq, Repr

/-- The meaning of a tag. One exclamation mark alone asks for nothing, and so does what starts with
one and is no text. -/
def Tag.ofBytes (bytes : List UInt8) : Tag :=
  let name? := String.fromUTF8? ⟨bytes.toArray⟩
  if bytes = [exclamationMark] then .plain
  else if bytes.head? = some exclamationMark then (name?.map .foreign).getD .plain
  else
    match name? with
    | some "tag:yaml.org,2002:bool" => .bool
    | some "tag:yaml.org,2002:int" => .int
    | some "tag:yaml.org,2002:float" => .float
    | some "tag:yaml.org,2002:null" => .null
    | _ => .text

structure Content where
  text : String
  isPlain : Bool
  deriving DecidableEq, Repr

def Content.value? (c : Content) : Option Value :=
  if c.isPlain then plain? c.text else some (.text c.text)

def Tag.document? (t : Tag) (c : Content) : Option Document :=
  match t with
  | plain => c.value?.map .ofValue
  | bool => (truth? c.text).map .bool
  | int => (integer? c.text.toList).map .int
  | float => (float? c.text).map .float
  | null => if isNullWord c.text then some .null else none
  | text => some (.text c.text)
  | foreign name => c.value?.map fun v => .tagged name (.ofValue v)

end HomeControl.Scalar
