import HomeControl.Calendar.Zone
import HomeControl.Time.Spec
/-!
The instants that a written time means: on a given day, and next after a given instant.
-/

namespace HomeControl

inductive TimeError where
  | invalid (text : String)
  | noLocation (event : SunEvent)
  | doesNotOccur (event : SunEvent) (day : Date)
  | skipped (time : LocalTime)
  | outsideCalendar
  deriving DecidableEq, Repr

def TimeError.message : TimeError → String
  | invalid text => "invalid time \"" ++ text ++ "\""
  | noLocation event => "no location configured for sun event \"" ++ event.name ++ "\""
  | doesNotOccur event day =>
    "sun event \"" ++ event.name ++ "\" does not occur on " ++ day.text
  | skipped time => "local time " ++ time.text ++ " does not exist"
  | outsideCalendar => "time outside of the calendar"

/-- How written times become instants: the instant of a time on a day, and the local day of an
instant, which the calendar need not have although it has the instant. -/
structure Resolver where
  resolveOn : TimeSpec → Date → Except TimeError Instant
  dateOf? : Instant → Option Date

structure Place where
  zone : Zone
  location : Option Location
  deriving DecidableEq, Repr

namespace TimeSpec

def parse (s : String) : Except TimeError TimeSpec :=
  match parse? s with
  | some spec => .ok spec
  | none => .error (.invalid (Text.trim s))

end TimeSpec

namespace Place

def sunTime (p : Place) (event : SunEvent) (day : Date) : Except TimeError Instant :=
  match p.location with
  | none => .error (.noLocation event)
  | some location =>
    match location.noon? day with
    | none => .error .outsideCalendar
    | some noon =>
      match location.eventAt? event noon with
      | some instant => .ok instant
      | none => .error (.doesNotOccur event day)

def resolveOn (p : Place) (spec : TimeSpec) (day : Date) : Except TimeError Instant :=
  match spec with
  | .absolute instant => .ok instant
  | .clock time =>
    match p.zone.instant? ⟨day, time⟩ with
    | some instant => .ok instant
    | none => .error (.skipped ⟨day, time⟩)
  | .solar event offset => do
    let instant := (← p.sunTime event day).plusNanos offset
    if instant.inCalendar then .ok instant else .error (.invalid spec.text)

def resolver (p : Place) : Resolver :=
  ⟨p.resolveOn, p.zone.dateOf?⟩

end Place

namespace Resolver

def reaches (r : Resolver) (spec : TimeSpec) (day : Date) : Bool :=
  match r.resolveOn spec day with
  | .error .outsideCalendar => false
  | _ => true

/-- The instant of a time on the day of `now` if that is later than `now`, else on the next day.
An absolute time is itself, whenever it is. -/
def nextAfter (r : Resolver) (spec : TimeSpec) (now : Instant) : Except TimeError Instant :=
  match spec with
  | .absolute instant => .ok instant
  | _ =>
    match r.dateOf? now with
    | none => .error .outsideCalendar
    | some today => do
      let instant ← r.resolveOn spec today
      if now < instant then .ok instant
      else
        match today.next? with
        | some tomorrow => r.resolveOn spec tomorrow
        | none => .error (.invalid spec.text)

end Resolver

end HomeControl
