import HomeControl.Text
/-!
Days of the Gregorian calendar, counted from 1970-01-01, and their year, month and day.
-/

namespace HomeControl

open Text

structure Date where
  day : Int
  deriving DecidableEq, Repr, Inhabited

structure Civil where
  year : Int
  month : Nat
  day : Nat
  deriving DecidableEq, Repr

namespace Date

instance : LT Date := ⟨fun a b => a.day < b.day⟩
instance : LE Date := ⟨fun a b => a.day ≤ b.day⟩
instance (a b : Date) : Decidable (a < b) := inferInstanceAs (Decidable (a.day < b.day))
instance (a b : Date) : Decidable (a ≤ b) := inferInstanceAs (Decidable (a.day ≤ b.day))

def first : Date := ⟨-96465292⟩

def last : Date := ⟨95026236⟩

def inCalendar (d : Date) : Bool :=
  first ≤ d && d ≤ last

def plus (d : Date) (days : Int) : Date :=
  ⟨d.day + days⟩

def next? (d : Date) : Option Date :=
  if d < last then some (d.plus 1) else none

def previous? (d : Date) : Option Date :=
  if first < d then some (d.plus (-1)) else none

def daysFrom (first final : Date) : List Date :=
  ((List.range (final.day - first.day + 1).toNat).map fun i : Nat =>
    first.plus i).filter fun day => decide (day < last)

def isLeap (year : Int) : Bool :=
  year % 4 == 0 && (year % 100 != 0 || year % 400 == 0)

def monthLength (year : Int) (month : Nat) : Nat :=
  if month = 2 then if isLeap year then 29 else 28
  else if month = 4 || month = 6 || month = 9 || month = 11 then 30
  else 31

/-- Years are counted from March, so that the leap day ends a year; four hundred of them make an
era of 146097 days. -/
def ofCivil (c : Civil) : Date :=
  let year := if c.month ≤ 2 then c.year - 1 else c.year
  let era := year / 400
  let ofEra := year % 400
  let ofYear : Int := (153 * ((c.month + 9) % 12) + 2) / 5 + c.day - 1
  ⟨era * 146097 + ofEra * 365 + ofEra / 4 - ofEra / 100 + ofYear - 719468⟩

def civil (d : Date) : Civil :=
  let shifted := d.day + 719468
  let era := shifted / 146097
  let ofEra := shifted % 146097
  let year := (ofEra - ofEra / 1460 + ofEra / 36524 - ofEra / 146096) / 365
  let ofYear := ofEra - (365 * year + year / 4 - year / 100)
  let month := (5 * ofYear + 2) / 153
  let day := ofYear - (153 * month + 2) / 5 + 1
  let m := if month < 10 then month + 3 else month - 9
  ⟨era * 400 + year + (if m ≤ 2 then 1 else 0), m.toNat, day.toNat⟩

def ofCivil? (c : Civil) : Option Date :=
  if 1 ≤ c.month && c.month ≤ 12 && 1 ≤ c.day && c.day ≤ monthLength c.year c.month then
    some (ofCivil c)
  else none

def weekday (d : Date) : Nat :=
  ((d.day + 4) % 7).toNat

def yearText (year : Int) : String :=
  if 0 ≤ year && year ≤ 9999 then padded 4 year.toNat
  else (if year < 0 then "-" else "+") ++ padded 4 year.natAbs

def text (d : Date) : String :=
  let c := d.civil
  yearText c.year ++ "-" ++ padded 2 c.month ++ "-" ++ padded 2 c.day

/-- Reads year, month and day with dashes between them. Behind a sign the year may have more than
four digits. -/
def parse? (s : String) : Option Date :=
  let (sign, bound, cs) : Int × Nat × List Char := match s.toList with
    | '-' :: rest => (-1, 262143, rest)
    | '+' :: rest => (1, 262143, rest)
    | cs => (1, 9999, cs)
  match (cs.splitOn '-').mapM (natUpTo? bound) with
  | some [y, m, d] => (ofCivil? ⟨sign * y, m, d⟩).filter inCalendar
  | _ => none

end Date

end HomeControl
