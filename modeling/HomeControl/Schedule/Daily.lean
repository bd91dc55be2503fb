import HomeControl.Config.Timers
/-!
Daily timers. A strict timer asks for the command of its latest event again and again; any other
timer gives each command once, when its time passes.
-/

namespace HomeControl.TimerDef

def insertLater (x : Instant × String) : List (Instant × String) → List (Instant × String)
  | [] => [x]
  | y :: rest => if x.1 < y.1 then x :: y :: rest else y :: insertLater x rest

def byTime (entries : List (Instant × String)) : List (Instant × String) :=
  entries.foldl (fun sorted x => insertLater x sorted) []

def latest? (entries : List (Instant × String)) : Option (Instant × String) :=
  entries.foldl (fun best x =>
    match best with
    | some b => if x.1 < b.1 then some b else some x
    | none => some x) none

def onDay (r : Resolver) (events : List (TimeSpec × String)) (day : Date) :
    List (Instant × String) :=
  events.filterMap fun (spec, command) =>
    match r.resolveOn spec day with
    | .ok instant => some (instant, command)
    | .error _ => none

def recentDays? (r : Resolver) (now : Instant) : Option (List Date) :=
  (r.dateOf? now).map fun today =>
    match today.previous? with
    | some yesterday => [yesterday, today]
    | none => []

def selectCurrent (events : List (TimeSpec × String)) (r : Resolver) (now : Instant) :
    Option String := do
  let candidates := (← recentDays? r now).flatMap (onDay r events)
  (latest? (candidates.filter fun c => decide (c.1 ≤ now))).map (·.2)

def reaches (t : TimerDef) (r : Resolver) (days : Option (List Date)) : Bool :=
  match days with
  | some days => days.all fun day => t.events.all fun event => r.reaches event.1 day
  | none => false

def currentCommand (t : TimerDef) (r : Resolver) (now : Instant) : Option String :=
  selectCurrent t.events r now

/-- The days from that of `last`, but yesterday at the earliest, to today. -/
def daysSince? (r : Resolver) (last now : Instant) : Option (List Date) := do
  let today ← r.dateOf? now
  let before ← r.dateOf? last
  let yesterday := (today.previous?).getD today
  some ((if before < yesterday then yesterday else before).daysFrom today)

/-- The instants of one event between `last` and `now`. An event that is not daily is looked up
on the first day only; there must be one. -/
def eventCrossings? (r : Resolver) (days : List Date) (last now : Instant)
    (event : TimeSpec × String) : Option (List (Instant × String)) :=
  let on (days : List Date) : List (Instant × String) :=
    days.filterMap fun day =>
      match r.resolveOn event.1 day with
      | .ok instant => if last < instant && instant ≤ now then some (instant, event.2) else none
      | .error _ => none
  if event.1.isDaily then some (on days)
  else
    match days with
    | [] => none
    | first :: _ => some (on [first])

/-- The commands whose time is after `last` and not after `now`, in order of time. There is no
answer where `last` or `now` has no day, and none for an absolute time where no day is left to look
at, as when the day of `last` is after that of `now`. -/
def crossed? (t : TimerDef) (r : Resolver) (last now : Instant) : Option (List String) := do
  let days ← daysSince? r last now
  let found ← t.events.mapM (eventCrossings? r days last now)
  some ((byTime found.flatten).map (·.2))

end HomeControl.TimerDef
