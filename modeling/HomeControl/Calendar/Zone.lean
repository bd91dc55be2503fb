import HomeControl.Calendar.Instant
/-!
Time zones: a standard offset and, in some zones, summer time. The text of a zone names the
offset as what is added to local time to get universal time, so `IST-5:30` is ahead of it.

Where summer time begins, the local times strictly inside the skipped hour do not exist; where it
ends, the repeated local times, both ends included, are taken as standard time.
-/

namespace HomeControl

open Text

/-- A weekday of a month, the fifth being the last, and the local second of that day. -/
structure YearlyRule where
  month : Nat
  week : Nat
  weekday : Nat
  second : Int
  deriving DecidableEq, Repr

structure SummerTime where
  offset : Int
  start : YearlyRule
  finish : YearlyRule
  deriving DecidableEq, Repr

structure Zone where
  offset : Int
  summer : Option SummerTime
  deriving DecidableEq, Repr

namespace YearlyRule

def date (r : YearlyRule) (year : Int) : Date :=
  let first := Date.ofCivil ⟨year, r.month, 1⟩
  let day := (r.weekday + 7 - first.weekday) % 7 + 7 * (r.week - 1)
  first.plus (if Date.monthLength year r.month ≤ day then day - 7 else day)

def seconds (r : YearlyRule) (year : Int) : Int :=
  (r.date year).day * 86400 + r.second

end YearlyRule

namespace Zone

def utc : Zone := ⟨0, none⟩

def offsetAt (z : Zone) (i : Instant) : Int :=
  match z.summer with
  | none => z.offset
  | some s =>
    let year := (i.dateAt 0).civil.year
    if s.start.seconds year - z.offset ≤ i.seconds &&
        i.seconds < s.finish.seconds year - s.offset then s.offset
    else z.offset

def dateOf? (z : Zone) (i : Instant) : Option Date :=
  let date := i.dateAt (z.offsetAt i)
  if date.inCalendar then some date else none

def offsetFor? (z : Zone) (l : LocalTime) : Option Int :=
  match z.summer with
  | none => some z.offset
  | some s =>
    let year := l.date.civil.year
    let ahead := s.offset - z.offset
    let start := s.start.seconds year
    if l.seconds ≤ start then some z.offset
    else if l.seconds < start + ahead then none
    else if l.seconds < s.finish.seconds year - ahead then some s.offset
    else some z.offset

def instant? (z : Zone) (l : LocalTime) : Option Instant := do
  let instant := l.instant (← z.offsetFor? l)
  if instant.inCalendar then some instant else none

def clockSeconds? (cs : List Char) : Option Int :=
  let (negative, body) := match cs with
    | '-' :: rest => (true, rest)
    | '+' :: rest => (false, rest)
    | _ => (false, cs)
  let size : Option Int :=
    match (body.splitOn ':').mapM (natUpTo? 167) with
    | some [h] => some (h * 3600)
    | some [h, m] => some (h * 3600 + m * 60)
    | some [h, m, s] => some (h * 3600 + m * 60 + s)
    | _ => none
  size.map fun n => if negative then -n else n

def rule? (cs : List Char) : Option YearlyRule :=
  let (day, time) := match cutAt? (· == '/') cs with
    | some (day, _, time) => (day, clockSeconds? time)
    | none => (cs, some 7200)
  match day with
  | 'M' :: day =>
    match (day.splitOn '.').mapM (natUpTo? 12), time with
    | some [m, w, d], some second => some ⟨m, w, d, second⟩
    | _, _ => none
  | _ => none

/-- Reads the text of a zone: a name and an offset, and for summer time its name and the rules
for its start and end. Summer time is one hour ahead of standard time. -/
def parse? (s : String) : Option Zone :=
  match s.toList.splitOn ',' with
  | [head] => (clockSeconds? (head.dropWhile Char.isAlpha)).map fun west => ⟨-west, none⟩
  | [head, start, finish] =>
    let west := (head.dropWhile Char.isAlpha).takeWhile (!·.isAlpha)
    match clockSeconds? west, rule? start, rule? finish with
    | some west, some start, some finish => some ⟨-west, some ⟨-west + 3600, start, finish⟩⟩
    | _, _, _ => none
  | _ => none

end Zone

end HomeControl
