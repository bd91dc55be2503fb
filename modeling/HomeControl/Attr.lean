import HomeControl.Text
import HomeControl.Value
/-!
The attributes that have a meaning of their own. `on`, `off` and `flip` are capabilities that change
`state`. A color has eight bits a channel; there are ways to write it, and it can be blended into
another one.
-/

namespace HomeControl

open Text

structure Color where
  red : UInt8
  green : UInt8
  blue : UInt8
  deriving DecidableEq, Repr, Inhabited

def blend (start goal : UInt8) (p : Float) : UInt8 :=
  let p := if p < 0 then 0 else if p > 1 then 1 else p
  let a := Float.ofNat start.toNat
  let b := Float.ofNat goal.toNat
  (a + (b - a) * p).toUInt8

namespace Color

def black : Color := ⟨0, 0, 0⟩

def ofHex? (s : String) : Option Color :=
  let digits := match s.toList with
    | '#' :: rest => rest
    | cs => cs
  match digits.mapM hexValue? with
  | some [a, b, c, d, e, f] =>
    some ⟨(16 * a + b).toUInt8, (16 * c + d).toUInt8, (16 * e + f).toUInt8⟩
  | _ => none

def channel? (cs : List Char) : Option UInt8 :=
  (natUpTo? 255 (trimChars cs)).map Nat.toUInt8

def ofLiteral? (s : String) : Option Color :=
  match s.toList with
  | '(' :: rest =>
    match rest.reverse with
    | ')' :: body =>
      match (body.reverse.splitOn ',').mapM channel? with
      | some [r, g, b] => some ⟨r, g, b⟩
      | _ => none
    | [] => none
    | _ => none
  | _ => none

def byte? (v : Value) : Option UInt8 :=
  match v.nat? with
  | some n => if n < 256 then some n.toUInt8 else none
  | none => none

def ofValue? : Value → Option Color
  | .list [r, g, b] => do some ⟨← byte? r, ← byte? g, ← byte? b⟩
  | .text s => ofHex? s
  | _ => none

def toValue (c : Color) : Value :=
  .list [.int c.red.toNat, .int c.green.toNat, .int c.blue.toNat]

def hex (c : Color) : String :=
  String.ofList ('#' :: (hexByte c.red ++ hexByte c.green ++ hexByte c.blue))

def toward (start goal : Color) (p : Float) : Color :=
  ⟨blend start.red goal.red p, blend start.green goal.green p, blend start.blue goal.blue p⟩

end Color

namespace Attr

def state : String := "state"
def on : String := "on"
def off : String := "off"
def flip : String := "flip"
def brightness : String := "brightness"
def color : String := "color"
def status : String := "status"
def online : String := "online"

def isTrigger (attr : String) : Bool :=
  attr == state || attr == flip

def restValue? (attr : String) : Option Value :=
  if attr = state then some (.bool false)
  else if attr = brightness then some (.int 0)
  else if attr = color then some Color.black.toValue
  else none

end Attr

end HomeControl
