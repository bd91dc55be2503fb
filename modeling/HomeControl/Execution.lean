import HomeControl.Plan
import HomeControl.Response
import HomeControl.Schedule
/-!
Carrying out plans. First everything is read, then the setters that no later one overrides are
carried out; a setter that succeeds cancels the work that was scheduled for its attribute. Fades
and later setters of the plan are scheduled last, so a plan never cancels its own.
-/

namespace HomeControl

structure State where
  house : House
  schedule : Schedule
  now : Instant
  deriving DecidableEq, Repr, Inhabited

namespace State

def start (t : Topology) (now : Instant) : State :=
  ⟨.start t, .empty, now⟩

def read (t : Topology) (depth : Nat) (s : State) (g : Getter) :
    Except NodeError Value × State :=
  let (answer, house) := s.house.get t g.node g.attr depth
  (answer, { s with house := house })

def readAll (t : Topology) (depth : Nat) :
    List Getter → State → List (Getter × Except NodeError Value) × State
  | [], s => ([], s)
  | g :: rest, s =>
    let (answer, s) := s.read t depth g
    let (answers, s) := readAll t depth rest s
    ((g, answer) :: answers, s)

def write (t : Topology) (depth : Nat) (s : State) (setter : Setter) :
    Except NodeError Unit × State :=
  match s.house.set t setter depth with
  | (.ok _, house) =>
    (.ok (), ⟨house, s.schedule.cancel (.of setter.node setter.attr), s.now⟩)
  | (.error e, house) => (.error e, { s with house := house })

def writeAll (t : Topology) (depth : Nat) : List Setter → State → List NodeError × State
  | [], s => ([], s)
  | setter :: rest, s =>
    match s.write t depth setter with
    | (.ok _, s) => writeAll t depth rest s
    | (.error e, s) =>
      let (errors, s) := writeAll t depth rest s
      (e :: errors, s)

def enlist (s : State) (faders : List FaderSpec) (timed : List TimedSetter) : State :=
  let schedule := faders.foldl (fun t spec => t.addFader spec s.now.millis) s.schedule
  { s with schedule := timed.foldl .addSingle schedule }

def goodReadings (answers : List (Getter × Except NodeError Value)) : Readings :=
  .ofList (answers.filterMap fun (g, answer) =>
    match answer with
    | .ok value => some ⟨g.node, g.attr, value⟩
    | .error _ => none)

def failedReadings (answers : List (Getter × Except NodeError Value)) : List NodeError :=
  answers.filterMap fun (_, answer) =>
    match answer with
    | .ok _ => none
    | .error e => some e

def results (how : Option Aggregate) (readings : Readings) : Value × List ReadingError :=
  match how with
  | some how => (readings.totals how, readings.totalErrors how)
  | none => (readings.toValue, [])

def execute (t : Topology) (depth : Nat) (plan : Plan) (s : State) : Response × State :=
  let (answers, s) := s |> readAll t depth plan.getters.eraseDups
  let (value, readingErrors) := results plan.aggregate (goodReadings answers)
  let (writeErrors, s) := s |> writeAll t depth (Setter.survivors plan.setters)
  let response : Response :=
    { results := if plan.getters.isEmpty then none else some value
      errors := plan.errors.map .plan ++ (failedReadings answers).map .node ++
        readingErrors.map .reading ++ writeErrors.map .node }
  (response, s.enlist plan.faders plan.timed)

end State

end HomeControl
