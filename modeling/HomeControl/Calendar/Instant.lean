import HomeControl.Calendar.Date
/-!
Points in time: seconds since 1970-01-01T00:00:00Z and nanoseconds within the second. During a
leap second the nanoseconds run on from one to two thousand million, so an instant is ordered by
its second first.
-/

namespace HomeControl

open Text

structure Instant where
  seconds : Int
  nanos : Nat
  deriving DecidableEq, Repr, Inhabited

structure TimeOfDay where
  seconds : Nat
  nanos : Nat
  deriving DecidableEq, Repr, Inhabited

namespace Instant

instance : LT Instant :=
  ⟨fun a b => a.seconds < b.seconds ∨ (a.seconds = b.seconds ∧ a.nanos < b.nanos)⟩

instance : LE Instant := ⟨fun a b => ¬ b < a⟩

instance (a b : Instant) : Decidable (a < b) :=
  inferInstanceAs (Decidable (a.seconds < b.seconds ∨ (a.seconds = b.seconds ∧ a.nanos < b.nanos)))

instance (a b : Instant) : Decidable (a ≤ b) := inferInstanceAs (Decidable (¬ b < a))

def ofMillis (ms : Int) : Instant :=
  ⟨ms / 1000, (ms % 1000).toNat * 1000000⟩

def millis (i : Instant) : Int :=
  i.seconds * 1000 + i.nanos / 1000000

def plusNanos (i : Instant) (n : Int) : Instant :=
  let total := i.seconds * 1000000000 + i.nanos + n
  ⟨total / 1000000000, (total % 1000000000).toNat⟩

def plusMillis (i : Instant) (ms : Int) : Instant :=
  i.plusNanos (ms * 1000000)

/-- The instant some whole seconds later. From within a leap second they are counted from the
second before it, or backwards from the one after it. -/
def advance (i : Instant) (seconds : Int) : Instant :=
  if i.nanos < 1000000000 || seconds = 0 then ⟨i.seconds + seconds, i.nanos⟩
  else if 0 < seconds then ⟨i.seconds + seconds, i.nanos - 1000000000⟩
  else ⟨i.seconds + 1 + seconds, i.nanos - 1000000000⟩

def dateAt (i : Instant) (offset : Int) : Date :=
  ⟨(i.seconds + offset) / 86400⟩

def inCalendar (i : Instant) : Bool :=
  (i.dateAt 0).inCalendar

end Instant

namespace TimeOfDay

def clockText (t : TimeOfDay) : String :=
  padded 2 (t.seconds / 3600) ++ ":" ++ padded 2 (t.seconds / 60 % 60) ++ ":" ++
    padded 2 (t.seconds % 60 + t.nanos / 1000000000)

def ofParts? (hour minute second : Nat) : Option TimeOfDay :=
  if hour < 24 && minute < 60 && second ≤ 60 then
    if second = 60 then some ⟨hour * 3600 + minute * 60 + 59, 1000000000⟩
    else some ⟨hour * 3600 + minute * 60 + second, 0⟩
  else none

end TimeOfDay

def fractionText (nanos : Nat) : String :=
  if nanos = 0 then ""
  else if nanos % 1000000 = 0 then "." ++ padded 3 (nanos / 1000000)
  else if nanos % 1000 = 0 then "." ++ padded 6 (nanos / 1000)
  else "." ++ padded 9 nanos

structure LocalTime where
  date : Date
  time : TimeOfDay
  deriving DecidableEq, Repr

namespace LocalTime

def seconds (l : LocalTime) : Int :=
  l.date.day * 86400 + l.time.seconds

def text (l : LocalTime) : String :=
  l.date.text ++ " " ++ l.time.clockText ++ fractionText (l.time.nanos % 1000000000)

def instant (l : LocalTime) (offset : Int) : Instant :=
  ⟨l.seconds - offset, l.time.nanos⟩

end LocalTime

end HomeControl
