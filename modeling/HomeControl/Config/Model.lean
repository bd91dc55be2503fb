import HomeControl.Attr
import HomeControl.Time.Sun
import HomeControl.Value
/-!
The sections of a configuration.
-/

namespace HomeControl

structure AppConfig where
  port : Nat := 1337
  timerInterval : Nat := 60
  faderInterval : Nat := 2
  singleInterval : Nat := 1
  maxTriggerDepth : Nat := 4
  logLevel : Option String := none
  deriving DecidableEq, Repr

structure DeviceConfig where
  id : String
  kind : String
  options : List (String × Value)
  deriving DecidableEq, Repr

/-- A node shows one device. Its threshold is the brightness from which a device that can only be
switched is on; its map gives device attributes other names. -/
structure NodeConfig where
  id : String
  device : String
  category : Option String
  threshold : Option Nat
  map : List (String × String)
  deriving DecidableEq, Repr

structure GroupConfig where
  id : String
  nodes : List String
  groups : List String
  deriving DecidableEq, Repr

structure TimerConfig where
  id : String
  node : Option String
  strict : Bool
  onTime : Option String
  offTime : Option String
  flipTime : Option String
  atTime : Option String
  setWords : Option String
  action : Option String
  command : Option String
  deriving DecidableEq, Repr

inductive Commands where
  | one (command : String)
  | many (commands : List String)
  deriving DecidableEq, Repr

def Commands.toList : Commands → List String
  | one command => [command]
  | many commands => commands

structure ActionConfig where
  id : Option String
  event : Option String
  value : Option Value
  commands : Commands
  deriving DecidableEq, Repr

structure ColorConfig where
  id : String
  rgb : Option Color
  hex : Option String
  sameAs : Option String
  deriving DecidableEq, Repr

structure Config where
  app : AppConfig := {}
  location : Option Location := none
  devices : List DeviceConfig := []
  nodes : List NodeConfig := []
  groups : List GroupConfig := []
  timers : List TimerConfig := []
  actions : List ActionConfig := []
  colors : List ColorConfig := []
  deriving DecidableEq, Repr

def Value.ofText? : Option String → Value
  | some s => .text s
  | none => .null

def AppConfig.toValue (a : AppConfig) : Value :=
  .ofFields [("port", .int a.port), ("timer_interval", .int a.timerInterval),
    ("fader_interval", .int a.faderInterval), ("single_interval", .int a.singleInterval),
    ("max_trigger_depth", .int a.maxTriggerDepth), ("log_level", .ofText? a.logLevel)]

def DeviceConfig.toValue (d : DeviceConfig) : Value :=
  .ofFields (d.options ++ [("id", .text d.id), ("type", .text d.kind)])

def NodeConfig.toValue (n : NodeConfig) : Value :=
  .ofFields [("id", .text n.id), ("device", .text n.device), ("class", .ofText? n.category),
    ("threshold", match n.threshold with
      | some t => .int t
      | none => .null),
    ("map", .ofFields (n.map.map fun (k, v) => (k, .text v)))]

def GroupConfig.toValue (g : GroupConfig) : Value :=
  .ofFields [("id", .text g.id), ("nodes", .list (g.nodes.map .text)),
    ("groups", .list (g.groups.map .text))]

def TimerConfig.toValue (t : TimerConfig) : Value :=
  .ofFields [("id", .text t.id), ("node", .ofText? t.node), ("strict", .bool t.strict),
    ("on", .ofText? t.onTime), ("off", .ofText? t.offTime), ("flip", .ofText? t.flipTime),
    ("at", .ofText? t.atTime), ("set", .ofText? t.setWords), ("do", .ofText? t.action),
    ("cmd", .ofText? t.command)]

def ActionConfig.toValue (a : ActionConfig) : Value :=
  .ofFields [("id", .ofText? a.id), ("event", .ofText? a.event), ("value", a.value.getD .null),
    ("do", match a.commands with
      | .one command => .text command
      | .many commands => .list (commands.map .text))]

def ColorConfig.toValue (c : ColorConfig) : Value :=
  .ofFields [("id", .text c.id), ("rgb", match c.rgb with
      | some rgb => rgb.toValue
      | none => .null),
    ("hex", .ofText? c.hex), ("color", .ofText? c.sameAs)]

def Location.toValue (l : Location) : Value :=
  .ofFields [("lat", .float l.lat), ("long", .float l.long)]

def Config.toValue (c : Config) : Value :=
  .ofFields [("app", c.app.toValue), ("location", match c.location with
      | some l => l.toValue
      | none => .null),
    ("devices", .list (c.devices.map (·.toValue))), ("nodes", .list (c.nodes.map (·.toValue))),
    ("groups", .list (c.groups.map (·.toValue))), ("timers", .list (c.timers.map (·.toValue))),
    ("actions", .list (c.actions.map (·.toValue))), ("colors", .list (c.colors.map (·.toValue)))]

end HomeControl
