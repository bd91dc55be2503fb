import HomeControl.Text
/-!
Numbers of a limited number of bits, and their decimals.

A float is written as the shortest decimal that reads back. A finite float is a whole number times
a power of two; the decimals that round to it form an interval around it, whose ends belong to it
when the whole number is even. Coarser decimal grids are tried before finer ones, so the first grid
that meets the interval gives the fewest digits, and of its points next to the float the nearer one
is taken. The decimal is laid out with its point in place, or as a power of ten.

A number that is read is a run of digits with at most one point, at least one digit, and an
optional exponent; it means the float nearest to it.
-/

namespace HomeControl

def bitRange (bits : Nat) : Nat :=
  Nat.pow 2 bits

def maxU64 : Nat :=
  bitRange 64 - 1

/-- The whole numbers of 64 bits with a sign end here; sums stop at the ends. -/
def saturated (n : Int) : Int :=
  let limit : Int := bitRange 63
  if n < -limit then -limit else if limit - 1 < n then limit - 1 else n

namespace Decimal

open Text

structure Binary where
  negative : Bool
  mantissa : Nat
  exponent : Int
  deriving DecidableEq, Repr

def Binary.ofFloat? (x : Float) : Option Binary :=
  let bits := x.toBits.toNat
  let negative := bits / bitRange 63 == 1
  let biased : Nat := bits / bitRange 52 % 2048
  let fraction := bits % bitRange 52
  if biased = 2047 then none
  else if biased = 0 then some ⟨negative, fraction, -1074⟩
  else some ⟨negative, bitRange 52 + fraction, Int.ofNat biased - 1075⟩

structure Digits where
  coefficient : Nat
  exponent : Int
  deriving DecidableEq, Repr

def shifted (e : Int) (numerator denominator : Nat) : Nat × Nat :=
  (numerator * Nat.pow 2 e.toNat, denominator * Nat.pow 2 (-e).toNat)

def digitCount (n : Nat) : Nat :=
  (Nat.toDigits 10 n).length

def leadingExponent (numerator denominator : Nat) : Int :=
  if denominator ≤ numerator then digitCount (numerator / denominator) - 1
  else -(digitCount ((denominator - 1) / numerator) : Int)

/-- The point of the grid `10 ^ grid` next to `mantissa * 2 ^ exponent` that rounds to it. Sizes
are counted in quarters, since the interval ends half way to the neighbouring floats and, below
a power of two, a quarter. -/
def onGrid? (mantissa : Nat) (exponent grid : Int) : Option Digits :=
  let below := if mantissa = bitRange 52 && exponent > -1074 then 1 else 2
  let scale := Nat.pow 10 (-grid).toNat
  let (centre, quarters) := shifted exponent (4 * mantissa * scale) 4
  let unit := quarters * Nat.pow 10 grid.toNat
  let quarter := Nat.pow 2 exponent.toNat * scale
  let inside (n : Nat) : Bool :=
    if mantissa % 2 = 0 then
      centre ≤ n * unit + below * quarter && n * unit ≤ centre + 2 * quarter
    else centre < n * unit + below * quarter && n * unit < centre + 2 * quarter
  let low := centre / unit
  let rest := centre % unit
  let lowFirst := 2 * rest < unit || (2 * rest = unit && low % 2 = 0)
  let candidates := if lowFirst then [low, low + 1] else [low + 1, low]
  (candidates.find? inside).map (⟨·, grid⟩)

/-- The shortest decimal of a positive float. Seventeen digits always suffice; the first grid is
the one above the leading digit, for floats just below a power of ten. -/
def shortest (mantissa : Nat) (exponent : Int) : Digits :=
  let (n, d) := shifted exponent mantissa 1
  let lead := leadingExponent n d
  let grids := (List.range 18).map fun (i : Nat) => lead + 1 - Int.ofNat i
  (grids.findSome? (onGrid? mantissa exponent)).getD ⟨mantissa, 0⟩

/-- Where positional notation begins and ends, as exponents of the leading digit, and whether an
exponent that is not negative carries a sign. -/
structure Layout where
  positionalFrom : Int
  positionalBelow : Int
  plusInExponent : Bool
  deriving DecidableEq, Repr

def positional (digits : List Char) (lead : Int) : List Char :=
  if lead < 0 then
    '0' :: '.' :: (List.replicate (-lead - 1).toNat '0' ++ digits)
  else
    let whole := lead.toNat + 1
    let front := digits.take whole ++ List.replicate (whole - digits.length) '0'
    let back := digits.drop whole
    front ++ '.' :: (if back.isEmpty then ['0'] else back)

def scientific (plus : Bool) (digits : List Char) (lead : Int) : List Char :=
  let mantissa := match digits with
    | first :: second :: more => first :: '.' :: second :: more
    | _ => digits
  let sign := if lead < 0 then ['-'] else if plus then ['+'] else []
  mantissa ++ 'e' :: (sign ++ Nat.toDigits 10 lead.natAbs)

def Layout.digits (layout : Layout) (d : Digits) : List Char :=
  let written := Nat.toDigits 10 d.coefficient
  let lead := d.exponent + written.length - 1
  if layout.positionalFrom ≤ lead && lead < layout.positionalBelow then positional written lead
  else scientific layout.plusInExponent written lead

def Layout.float? (layout : Layout) (x : Float) : Option String :=
  (Binary.ofFloat? x).map fun b =>
    let body := if b.mantissa = 0 then positional ['0'] 0
      else layout.digits (shortest b.mantissa b.exponent)
    String.ofList (if b.negative then '-' :: body else body)

/-- The float nearest to `coefficient * 10 ^ exponent`. Numbers beyond the range of floats are
recognised by their size, so that no large power is computed for them. -/
def nearest (coefficient : Nat) (exponent : Int) : Float :=
  if coefficient = 0 then 0
  else
    let size := (Nat.toDigits 10 coefficient).length + exponent
    if size > 400 then 1 / 0
    else if size < -400 then 0
    else Float.ofScientific coefficient (exponent < 0) exponent.natAbs

structure Unsigned where
  coefficient : Nat
  exponent : Int
  deriving DecidableEq, Repr

structure Parts where
  whole : List Char
  fraction : List Char
  power : Int
  deriving DecidableEq, Repr

def signed? (cs : List Char) : Option Int :=
  let (negative, digits) := match cs with
    | '-' :: rest => (true, rest)
    | '+' :: rest => (false, rest)
    | _ => (false, cs)
  if digits.isEmpty || !digits.all Char.isDigit then none
  else
    let n : Int := digitsValue digits
    some (if negative then -n else n)

def parts? (cs : List Char) : Option Parts :=
  let isMark (c : Char) : Bool := c == 'e' || c == 'E'
  let (body, power) := match cutAt? isMark cs with
    | none => (cs, some 0)
    | some (body, _, power) => (body, signed? power)
  let (whole, fraction) := match cutAt? (· == '.') body with
    | none => (body, [])
    | some (whole, _, fraction) => (whole, fraction)
  let digits := whole ++ fraction
  if digits.isEmpty || !digits.all Char.isDigit then none else power.map (⟨whole, fraction, ·⟩)

def unsigned? (cs : List Char) : Option Unsigned :=
  (parts? cs).map fun p => ⟨digitsValue (p.whole ++ p.fraction), p.power - p.fraction.length⟩

def float? (cs : List Char) : Option Float :=
  let (negative, body) := match cs with
    | '-' :: rest => (true, rest)
    | '+' :: rest => (false, rest)
    | _ => (false, cs)
  let size : Option Float :=
    if sameLetters (String.ofList body) "inf" || sameLetters (String.ofList body) "infinity" then
      some (1 / 0)
    else if sameLetters (String.ofList body) "nan" then some (0 / 0)
    else (unsigned? body).map fun u => nearest u.coefficient u.exponent
  size.map fun x => if negative then -x else x

end Decimal

end HomeControl
