import HomeControl.Decimal
import HomeControl.Text
/-!
Lengths of time, counted in nanoseconds, and the ways to write them: seconds (`90`, `1.5`),
minutes or hours with colons (`1:30`, `1:00:00`) and sequences of numbers with units (`1h30m`).
-/

namespace HomeControl

open Text

structure Duration where
  nanos : Nat
  deriving DecidableEq, Repr, Inhabited

namespace Duration

def nanosPerSecond : Nat := 1000000000

def ofParts (seconds nanos : Nat) : Duration :=
  ⟨seconds * nanosPerSecond + nanos⟩

def ofSeconds (seconds : Nat) : Duration :=
  ofParts seconds 0

def seconds (d : Duration) : Nat :=
  d.nanos / nanosPerSecond

def subsecond (d : Duration) : Nat :=
  d.nanos % nanosPerSecond

def millis (d : Duration) : Nat :=
  d.nanos / 1000000

def roundEven (numerator denominator : Nat) : Nat :=
  let low := numerator / denominator
  let rest := 2 * (numerator % denominator)
  if rest < denominator then low
  else if denominator < rest then low + 1
  else low + low % 2

/-- A float of seconds to the nearest nanosecond. Negative numbers, and those of 2 ^ 64 seconds
or more, are no durations. -/
def ofFloat? (x : Float) : Option Duration := do
  let b ← Decimal.Binary.ofFloat? x
  if b.negative && b.mantissa != 0 then none
  else if 64 < b.exponent then none
  else
    let (n, d) := Decimal.shifted b.exponent (b.mantissa * nanosPerSecond) 1
    let nanos := roundEven n d
    if nanos / nanosPerSecond ≤ maxU64 then some ⟨nanos⟩ else none

def unitScale? (unit : String) : Option Float :=
  if unit = "ms" then some 0.001
  else if ["s", "sec", "secs", "second", "seconds"].contains unit then some 1
  else if ["m", "min", "mins", "minute", "minutes"].contains unit then some 60
  else if ["h", "hr", "hrs", "hour", "hours"].contains unit then some 3600
  else if ["d", "day", "days"].contains unit then some 86400
  else none

def isNumeral (c : Char) : Bool :=
  c.isDigit || c == '.'

def unitsTotal? (total : Float) (cs : List Char) : Option Float :=
  match cs with
  | [] => some total
  | c :: rest =>
    if isNumeral c then
      let tail := rest.dropWhile isNumeral
      match Decimal.unsigned? (c :: rest.takeWhile isNumeral),
          unitScale? (String.ofList (tail.takeWhile Char.isAlpha)) with
      | some u, some scale =>
        unitsTotal? (total + Decimal.nearest u.coefficient u.exponent * scale)
          (tail.dropWhile Char.isAlpha)
      | _, _ => none
    else none
  termination_by cs.length
  decreasing_by
    have h := length_dropWhile_le isNumeral rest
    have h' := length_dropWhile_le Char.isAlpha (rest.dropWhile isNumeral)
    simp only [List.length_cons]
    omega

def withinRange? (seconds : Nat) : Option Duration :=
  if seconds ≤ maxU64 then some (ofSeconds seconds) else none

def ofColons? (cs : List Char) : Option Duration :=
  match (cs.splitOn ':').mapM (natUpTo? maxU64) with
  | some [m, s] => withinRange? (m * 60 + s)
  | some [h, m, s] => withinRange? (h * 3600 + m * 60 + s)
  | _ => none

def ofChars? (cs : List Char) : Option Duration :=
  match Decimal.float? cs with
  | some x => ofFloat? x
  | none =>
    if cs.isEmpty then none
    else if cs.contains ':' then ofColons? cs
    else (unitsTotal? 0 cs).bind ofFloat?

def parse? (s : String) : Option Duration :=
  ofChars? (trimChars s.toList)

end Duration

end HomeControl
