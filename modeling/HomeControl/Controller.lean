import HomeControl.Bus
import HomeControl.Command.Compile
import HomeControl.Config.Timers
import HomeControl.Execution
import HomeControl.Schedule.Daily
/-!
The controller of a house: what is fixed by its configuration, how it carries out commands, and
what it does as time passes. Actions are set off by events: an action waits for any change of an
attribute, for a change to one value, or for a time of day; the last are daily timers.
-/

namespace HomeControl

structure Binding where
  event : String
  value : Option Value
  commands : List String
  deriving DecidableEq, Repr

/-- A binding to an attribute may ask for a value; one to a value key may not. -/
def Binding.matches (b : Binding) (e : Event) : Bool :=
  if b.event = e.key then
    match b.value with
    | some value => value.render == e.value.render
    | none => true
  else b.value.isNone && b.event == e.valueKey

structure Router where
  bindings : List Binding
  maxDepth : Nat
  deriving DecidableEq, Repr, Inhabited

namespace ActionConfig

def time? (a : ActionConfig) : Option TimeSpec :=
  a.event.bind TimeSpec.parse?

def binding? (a : ActionConfig) : Option Binding :=
  match a.event, a.time? with
  | some event, none => some ⟨event, a.value, a.commands.toList⟩
  | _, _ => none

def timer? (a : ActionConfig) (number : Nat) : Option TimerDef :=
  a.time?.map fun spec =>
    { id := a.id.getD ("action-" ++ toString number)
      node := none
      strict := false
      events := a.commands.toList.map fun command => (spec, command) }

end ActionConfig

def actionTimers (actions : List ActionConfig) : List TimerDef :=
  actions.zipIdx.filterMap fun (a, i) => a.timer? (i + 1)

namespace Router

def ofActions (actions : List ActionConfig) (maxDepth : Nat) : Router :=
  ⟨actions.filterMap (·.binding?), maxDepth⟩

def reactions (r : Router) (e : Event) : List String :=
  if e.depth + 1 ≤ r.maxDepth then (r.bindings.filter (·.matches e)).flatMap (·.commands) else []

end Router

structure Intervals where
  timers : Nat
  faders : Nat
  singles : Nat
  deriving DecidableEq, Repr, Inhabited

def Intervals.ofApp (a : AppConfig) : Intervals :=
  ⟨max a.timerInterval 1, max a.faderInterval 1, max a.singleInterval 1⟩

structure Controller where
  topology : Topology
  place : Place
  timers : List TimerDef
  router : Router
  intervals : Intervals

/-- Something to carry out. With `timed`, groups have the nodes of strict timers too. -/
inductive Order where
  | command (text : String) (timed : Bool)
  | setter (s : Setter)
  deriving DecidableEq, Repr

structure Dispatch where
  order : Order
  depth : Nat
  response : Response
  deriving DecidableEq, Repr

namespace Controller

def ofConfig (zone : Zone) (c : Config) : Except ConfigError Controller := do
  let topology ← Topology.ofConfig c
  let timers ← c.timerDefs
  return {
    topology := topology
    place := ⟨zone, c.location⟩
    timers := timers ++ actionTimers c.actions
    router := .ofActions c.actions c.app.maxTriggerDepth
    intervals := .ofApp c.app }

def situation (c : Controller) (s : State) : Situation :=
  ⟨c.topology, c.place.resolver, s.now, s.house.known?⟩

def compile (c : Controller) (timed : Bool) (text : String) (s : State) : Plan :=
  (c.situation s).compile timed text

def executePlan (c : Controller) (depth : Nat) (plan : Plan) (s : State) : Response × State :=
  s.execute c.topology depth plan

def execute (c : Controller) (timed : Bool) (depth : Nat) (text : String) (s : State) :
    Response × State :=
  c.executePlan depth (c.compile timed text s) s

def actionsCommand (ids : List String) : String :=
  "do " ++ " ".intercalate ids

def runActions (c : Controller) (depth : Nat) (ids : List String) (s : State) :
    Response × State :=
  if ids.isEmpty then (.failure .nothingToDo, s)
  else c.execute false depth (actionsCommand ids) s

def perform (c : Controller) (depth : Nat) (o : Order) (s : State) : Response × State :=
  match o with
  | .command text timed => c.execute timed depth text s
  | .setter setter => c.executePlan depth (.ofSetters [setter]) s

/-- The commands of one timer: for a strict one that of its latest event, for any other one those
whose time has come since the last look at the timers. -/
def timerOrders? (r : Resolver) (last : Option Instant) (now : Instant) (t : TimerDef) :
    Option (List Order) :=
  if t.strict then
    if t.reaches r (TimerDef.recentDays? r now) then
      some ((t.currentCommand r now).toList.map (.command · true))
    else none
  else
    match last with
    | some last =>
      if t.reaches r (TimerDef.daysSince? r last now) then
        (t.crossed? r last now).map fun commands => commands.map (.command · false)
      else none
    | none => some []

def tickTimers (c : Controller) (s : State) : Option (List Order) × State :=
  ((c.timers.mapM (timerOrders? c.place.resolver s.schedule.lastTick s.now)).map List.flatten,
    { s with schedule := { s.schedule with lastTick := some s.now } })

def stepFader (c : Controller) (now : Int) (s : State) (f : ActiveFader) : State :=
  let s := match f.step? now with
    | some value =>
      match s.house.set c.topology ⟨f.spec.node, f.spec.attr, some value⟩ 0 with
      | (.ok _, house) => ⟨house, s.schedule.noteApplied f.key f.generation value, s.now⟩
      | (.error _, house) => { s with house := house }
    | none => s
  if f.isFinished now then { s with schedule := s.schedule.dropFader f.key f.generation } else s

/-- Steps every fade that there is at the start, in order of node and attribute. -/
def tickFaders (c : Controller) (s : State) : State :=
  s.schedule.fadersInOrder.foldl (c.stepFader s.now.millis) s

def tickSingles (s : State) : List Order × State :=
  let now := s.now.millis
  let (shots, schedule) := s.schedule.takeAllDue now (s.schedule.dueKeys now)
  ((SingleShot.inOrder shots).map (.setter ·.setter), { s with schedule := schedule })

def nodeStatus (c : Controller) (s : State) (n : Node) : Value :=
  .ofFields [("device", .text n.device.id), ("online", .bool (s.house.device n.device).online),
    ("timed", .bool (c.topology.isTimed n.id)),
    ("values", .record ((s.house.snapshot? n.id).getD []))]

def scheduleStatus (c : Controller) (s : State) : Value :=
  .ofFields [("timers", .list (c.timers.map (·.toValue))),
    ("faders", .list (s.schedule.fadersInOrder.map (·.toValue))),
    ("singles", .list (s.schedule.singlesInOrder.map (·.toValue)))]

def status (c : Controller) (s : State) : Value :=
  .ofFields [
    ("nodes", .ofFields (c.topology.nodes.values.map fun n => (n.id, c.nodeStatus s n))),
    ("scheduler", c.scheduleStatus s)]

end Controller

end HomeControl
