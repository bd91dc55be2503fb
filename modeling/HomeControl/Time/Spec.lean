import HomeControl.Duration
import HomeControl.Time.Sun
/-!
Times as they are written down: a time of day (`22:00`), a sun event with an optional offset
(`sunset-30m`), or an absolute time, as digits or with date and offset.
-/

namespace HomeControl

open Text

inductive TimeSpec where
  | clock (time : TimeOfDay)
  | solar (event : SunEvent) (offset : Int)
  | absolute (instant : Instant)
  deriving DecidableEq, Repr

namespace TimeSpec

def isDaily : TimeSpec → Bool
  | absolute _ => false
  | _ => true

def digits? (least most : Nat) (cs : List Char) : Option (List Char × List Char) :=
  let digits := (cs.take most).takeWhile Char.isDigit
  if digits.length < least then none else some (digits, cs.drop digits.length)

def number? (least most : Nat) (cs : List Char) : Option (Nat × List Char) :=
  (digits? least most cs).map fun (ds, rest) => (digitsValue ds, rest)

def mark? (c : Char) : List Char → Option (List Char)
  | [] => none
  | d :: rest => if d = c then some rest else none

def fraction? : List Char → Option (Nat × List Char)
  | '.' :: rest => do
    let (ds, more) ← digits? 1 9 rest
    some (digitsValue ds * Nat.pow 10 (9 - ds.length), more.dropWhile Char.isDigit)
  | cs => some (0, cs)

def offset? (cs : List Char) : Option (Int × List Char) := do
  match cs with
  | [] => none
  | c :: rest =>
    if c = 'Z' || c = 'z' then some (0, rest)
    else if c = '+' || c = '-' || c = '−' then
      let (hours, rest) ← number? 2 2 rest
      let rest ← mark? ':' rest
      let (minutes, rest) ← number? 2 2 rest
      if hours < 24 && minutes < 60 then
        let size : Int := hours * 3600 + minutes * 60
        some (if c = '+' then size else -size, rest)
      else none
    else none

def dated? (cs : List Char) : Option Instant := do
  let (year, cs) ← number? 4 4 cs
  let cs ← mark? '-' cs
  let (month, cs) ← number? 2 2 cs
  let cs ← mark? '-' cs
  let (day, cs) ← number? 2 2 cs
  let cs ← match cs with
    | 'T' :: rest => some rest
    | 't' :: rest => some rest
    | ' ' :: rest => some rest
    | _ => none
  let (hour, cs) ← number? 2 2 cs
  let cs ← mark? ':' cs
  let (minute, cs) ← number? 2 2 cs
  let cs ← mark? ':' cs
  let (second, cs) ← number? 2 2 cs
  let (nanos, cs) ← fraction? cs
  let (offset, cs) ← offset? cs
  if cs.isEmpty then
    let date ← Date.ofCivil? ⟨year, month, day⟩
    let time ← TimeOfDay.ofParts? hour minute second
    some (LocalTime.instant ⟨date, ⟨time.seconds, time.nanos + nanos⟩⟩ offset)
  else none

def epoch? (cs : List Char) : Option Instant :=
  let n := digitsValue cs
  let ms := if cs.length ≤ 10 then n * 1000 else n
  let instant := Instant.ofMillis ms
  if instant.inCalendar then some instant else none

def datedText (i : Instant) : String :=
  let second := (i.seconds % 86400).toNat
  (i.dateAt 0).text ++ "T" ++ TimeOfDay.clockText ⟨second, i.nanos⟩ ++
    fractionText (i.nanos % 1000000000) ++ "+00:00"

def clockPart? (cs : List Char) : Option (Nat × List Char) :=
  number? 1 2 (dropBlank cs)

def clock? (cs : List Char) : Option TimeOfDay := do
  let (hour, cs) ← clockPart? cs
  let cs ← mark? ':' cs
  let (minute, cs) ← clockPart? cs
  if cs.isEmpty then TimeOfDay.ofParts? hour minute 0
  else
    let cs ← mark? ':' cs
    let (second, cs) ← clockPart? cs
    if cs.isEmpty then TimeOfDay.ofParts? hour minute second else none

def offsetLimit : Nat := 86400 * Duration.nanosPerSecond

def isSign (c : Char) : Bool :=
  c == '+' || c == '-'

def solar? (cs : List Char) : Option TimeSpec :=
  match cutAt? isSign cs with
  | none => (SunEvent.ofName? (String.ofList cs)).map fun event => solar event 0
  | some (name, sign, size) => do
    let d ← Duration.ofChars? (trimChars size)
    let event ← SunEvent.ofName? (String.ofList name)
    if d.nanos ≤ offsetLimit then
      some (solar event (if sign = '-' then -(d.nanos : Int) else d.nanos))
    else none

def ofChars? (cs : List Char) : Option TimeSpec :=
  if 10 ≤ cs.length && cs.all Char.isDigit then (epoch? cs).map absolute
  else
    match dated? cs, clock? cs with
    | some instant, _ => some (absolute instant)
    | none, some time => some (clock time)
    | none, none => solar? cs

def parse? (s : String) : Option TimeSpec :=
  ofChars? (trimChars s.toList)

def text : TimeSpec → String
  | clock time => time.clockText
  | solar event offset =>
    if offset = 0 then event.name
    else
      event.name ++ (if offset < 0 then "-" else "+") ++
        toString (offset.natAbs / Duration.nanosPerSecond) ++ "s"
  | absolute instant => datedText instant

end TimeSpec

end HomeControl
