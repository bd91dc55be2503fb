import HomeControl.Calendar.Instant
/-!
Sun events of a day at a place, from the usual low-precision formulas for the position of the
sun: mean anomaly, ecliptic longitude, declination and hour angle. They are good to a minute or
two.
-/

namespace HomeControl

open Text

inductive SunEvent where
  | sunrise
  | sunset
  | sunriseEnd
  | sunsetStart
  | dawn
  | dusk
  | nauticalDawn
  | nauticalDusk
  | nightEnd
  | night
  | goldenHourEnd
  | goldenHour
  | solarNoon
  | nadir
  deriving DecidableEq, Repr

namespace SunEvent

def all : List SunEvent :=
  [sunrise, sunset, sunriseEnd, sunsetStart, dawn, dusk, nauticalDawn, nauticalDusk, nightEnd,
   night, goldenHourEnd, goldenHour, solarNoon, nadir]

def name : SunEvent → String
  | sunrise => "sunrise"
  | sunset => "sunset"
  | sunriseEnd => "sunriseEnd"
  | sunsetStart => "sunsetStart"
  | dawn => "dawn"
  | dusk => "dusk"
  | nauticalDawn => "nauticalDawn"
  | nauticalDusk => "nauticalDusk"
  | nightEnd => "nightEnd"
  | night => "night"
  | goldenHourEnd => "goldenHourEnd"
  | goldenHour => "goldenHour"
  | solarNoon => "solarNoon"
  | nadir => "nadir"

def ofName? (s : String) : Option SunEvent :=
  all.find? fun e => sameLetters e.name s

/-- What marks an event: the sun passing an altitude in degrees, up or down, or its highest or
lowest point. -/
inductive Mark where
  | rising (altitude : Float)
  | setting (altitude : Float)
  | highest
  | lowest

def mark : SunEvent → Mark
  | sunrise => .rising (-0.833)
  | sunset => .setting (-0.833)
  | sunriseEnd => .rising (-0.3)
  | sunsetStart => .setting (-0.3)
  | dawn => .rising (-6)
  | dusk => .setting (-6)
  | nauticalDawn => .rising (-12)
  | nauticalDusk => .setting (-12)
  | nightEnd => .rising (-18)
  | night => .setting (-18)
  | goldenHourEnd => .rising 6
  | goldenHour => .setting 6
  | solarNoon => .highest
  | nadir => .lowest

end SunEvent

structure Location where
  lat : Float
  long : Float
  deriving DecidableEq, Repr

namespace Sun

def pi : Float := 3.141592653589793
def degree : Float := pi / 180
def obliquity : Float := degree * 23.4397
def dayMillis : Float := 86400000
def epochDay : Float := 2440588
def referenceDay : Float := 2451545
def noonShift : Float := 0.0009

structure Position where
  cycle : Float
  west : Float
  anomaly : Float
  longitude : Float
  declination : Float

def Position.transit (p : Position) (approx : Float) : Float :=
  referenceDay + approx + 0.0053 * p.anomaly.sin - 0.0069 * (2 * p.longitude).sin

def position (long : Float) (noon : Instant) : Position :=
  let west := degree * -long
  let days := Float.ofInt noon.millis / dayMillis - 0.5 + epochDay - referenceDay
  let cycle := (days - noonShift - west / (2 * pi)).round
  let ds := noonShift + west / (2 * pi) + cycle
  let m := degree * (357.5291 + 0.98560028 * ds)
  let centre := degree * (1.9148 * m.sin + 0.02 * (2 * m).sin + 0.0003 * (3 * m).sin)
  let l := m + centre + degree * 102.9372 + pi
  ⟨cycle, west, m, l, (l.sin * obliquity.sin).asin⟩

def Position.noon (p : Position) : Float :=
  p.transit (noonShift + p.west / (2 * pi) + p.cycle)

def Position.setting? (p : Position) (lat altitude : Float) : Option Float :=
  let phi := degree * lat
  let h := altitude * degree
  let cosine := (h.sin - phi.sin * p.declination.sin) / (phi.cos * p.declination.cos)
  if -1 ≤ cosine && cosine ≤ 1 then
    some (p.transit (noonShift + (cosine.acos + p.west) / (2 * pi) + p.cycle))
  else none

def Position.julian? (p : Position) (lat : Float) : SunEvent.Mark → Option Float
  | .highest => some p.noon
  | .lowest => some (p.noon - 0.5)
  | .setting altitude => p.setting? lat altitude
  | .rising altitude => (p.setting? lat altitude).map fun set => p.noon - (set - p.noon)

end Sun

namespace Location

/-- Noon of a day by the sun, to the second; none where the longitude shifts it out of the
calendar. -/
def noon? (l : Location) (day : Date) : Option Instant :=
  let shift := (l.long / 15 * 3600).toInt64.toInt
  let noon : Instant := ⟨day.day * 86400 + 43200 - shift, 0⟩
  if noon.inCalendar then some noon else none

def eventAt? (l : Location) (event : SunEvent) (noon : Instant) : Option Instant := do
  let julian ← (Sun.position l.long noon).julian? l.lat event.mark
  let ms := ((julian + 0.5 - Sun.epochDay) * Sun.dayMillis).round.toInt64.toInt
  let instant := Instant.ofMillis ms
  if instant.inCalendar then some instant else none

end Location

end HomeControl
