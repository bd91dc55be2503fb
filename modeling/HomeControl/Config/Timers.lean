import HomeControl.Config.Error
import HomeControl.Config.Model
import HomeControl.Keyed
import HomeControl.Time.Resolve
/-!
Timers as their entries in the configuration make them up: entries of one id are one timer, which
is strict if one of them is, and has their events in order.
-/

namespace HomeControl

structure TimerDef where
  id : String
  node : Option String
  strict : Bool
  events : List (TimeSpec × String)
  deriving DecidableEq, Repr

namespace TimerConfig

/-- The times and commands of one entry. Switching and setting need a node; a time without
anything to do at it is left out. -/
def events (t : TimerConfig) : List (String × String) :=
  let switch (time : Option String) (word : String) : List (String × String) :=
    match t.node, time with
    | some node, some time => [(time, "set " ++ node ++ " " ++ word)]
    | _, _ => []
  let later : List (String × String) :=
    match t.atTime with
    | none => []
    | some time =>
      (match t.node, t.setWords with
        | some node, some words => [(time, "set " ++ node ++ " " ++ words)]
        | _, _ => []) ++
      (match t.action with
        | some action => [(time, "do " ++ action)]
        | none => []) ++
      (match t.command with
        | some command => [(time, command)]
        | none => [])
  switch t.onTime "on" ++ switch t.offTime "off" ++ switch t.flipTime "flip" ++ later

end TimerConfig

namespace TimerDef

structure Progress where
  timers : Keyed String TimerDef
  errors : List ConfigError

def addEvent (id : String) (p : TimerDef × List ConfigError) (event : String × String) :
    TimerDef × List ConfigError :=
  match TimeSpec.parse event.1 with
  | .ok spec => ({ p.1 with events := p.1.events ++ [(spec, event.2)] }, p.2)
  | .error e => (p.1, p.2 ++ [.invalidValue ("timers." ++ id) e.message])

def addEntry (p : Progress) (entry : TimerConfig) : Progress :=
  let timer := (p.timers.get? entry.id).getD ⟨entry.id, entry.node, entry.strict, []⟩
  if timer.node = entry.node then
    let start := { timer with strict := timer.strict || entry.strict }
    let (timer, errors) := entry.events.foldl (addEvent entry.id) (start, p.errors)
    ⟨p.timers.insert entry.id timer, errors⟩
  else ⟨p.timers.insert entry.id timer, p.errors ++ [.incompatibleTimer entry.id]⟩

def ofEntries (entries : List TimerConfig) : Except ConfigError (List TimerDef) :=
  let p := entries.foldl addEntry ⟨.empty, []⟩
  ConfigError.orElse p.errors p.timers.values

def toValue (t : TimerDef) : Value :=
  .ofFields [("id", .text t.id), ("node", .ofText? t.node), ("strict", .bool t.strict),
    ("events", .list (t.events.map fun (spec, command) =>
      .list [.text spec.text, .text command]))]

end TimerDef

end HomeControl
