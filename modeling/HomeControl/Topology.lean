import HomeControl.Config.Check
import HomeControl.Config.Error
import HomeControl.Config.Model
import HomeControl.Device
import HomeControl.Keyed
/-!
The devices, nodes and groups of a house, its colors and its actions. Commands speak of nodes. A
node shows one device, under its own names for the attributes of the device. A group has the members
of the groups inside it, in order, and then its own nodes, each once; where a group is inside
itself, that branch adds nothing and is reported. A color that is another name of a color is what
the end of its chain of names is.
-/

namespace HomeControl

structure Node where
  id : String
  device : Device
  category : Option String
  threshold : Option Nat
  map : List (String × String)
  deriving DecidableEq, Repr

namespace Node

def ofConfig (c : NodeConfig) (device : Device) : Node :=
  ⟨c.id, device, c.category, c.threshold, c.map⟩

def deviceAttr (n : Node) (attr : String) : String :=
  (n.map.lookup attr).getD attr

def nodeAttr (n : Node) (attr : String) : String :=
  match n.map.find? (·.2 == attr) with
  | some (name, _) => name
  | none => attr

def hasGet (n : Node) (attr : String) : Bool :=
  n.device.hasGet (n.deviceAttr attr)

def hasSet (n : Node) (capability : String) : Bool :=
  n.device.hasSet (n.deviceAttr capability)

def getters (n : Node) : List String :=
  n.device.getters.map n.nodeAttr

end Node

namespace Group

abbrev Table := Keyed String GroupConfig

def table (groups : List GroupConfig) : Table :=
  .ofList (groups.map fun g => (g.id, g))

/-- The nodes of a group in order, those of the groups inside it first. The path holds the groups
that are being listed; groups that are not known add nothing. -/
def listing (t : Table) (path : List String) (g : GroupConfig) : List String :=
  (g.groups.flatMap fun sub =>
    if _ : sub ∈ path then []
    else
      match _ : t.get? sub with
      | some inner => listing t (sub :: path) inner
      | none => []) ++ g.nodes
  termination_by (t.unvisited path).length
  decreasing_by exact Keyed.unvisited_cons_lt (by assumption) (by assumption)

/-- The groups that a listing meets on its own path, in order. -/
def circles (t : Table) (path : List String) (g : GroupConfig) : List String :=
  g.groups.flatMap fun sub =>
    if _ : sub ∈ path then [sub]
    else
      match _ : t.get? sub with
      | some inner => circles t (sub :: path) inner
      | none => []
  termination_by (t.unvisited path).length
  decreasing_by exact Keyed.unvisited_cons_lt (by assumption) (by assumption)

def members (t : Table) (g : GroupConfig) : List String :=
  (listing t [g.id] g).eraseDups

def flatten (groups : List GroupConfig) : Keyed String (List String) × List ConfigError :=
  let t := table groups
  (.ofList (groups.map fun g => (g.id, members t g)),
    ((groups.flatMap fun g => circles t [g.id] g).eraseDups).map .cyclicGroup)

end Group

namespace ColorTable

inductive End where
  | color (c : Color)
  | undefined
  | circle
  | unknown (name : String)
  deriving DecidableEq, Repr

def follow (t : Keyed String ColorConfig) (path : List String) (c : ColorConfig) : End :=
  match c.rgb.or (c.hex.bind Color.ofHex?) with
  | some color => .color color
  | none =>
    match c.sameAs with
    | none => .undefined
    | some name =>
      if _ : name ∈ path then .circle
      else
        match _ : t.get? name with
        | none => .unknown name
        | some next => follow t (name :: path) next
  termination_by (t.unvisited path).length
  decreasing_by exact Keyed.unvisited_cons_lt (by assumption) (by assumption)

def errorsOf (c : ColorConfig) : End → List ConfigError
  | .circle => [.cyclicColor c.id]
  | .unknown name => [.unknownReference .color c.id .color name]
  | _ => []

def entryOf (c : ColorConfig) : End → List (String × Color)
  | .color color => [(c.id, color)]
  | _ => []

def ofConfig (colors : List ColorConfig) : Except ConfigError (Keyed String Color) :=
  let t := Keyed.ofList (colors.map fun c => (c.id, c))
  let ends := colors.map fun c => (c, follow t [c.id] c)
  ConfigError.orElse (ends.flatMap fun e => errorsOf e.1 e.2)
    (.ofList (ends.flatMap fun e => entryOf e.1 e.2))

def find? (t : Keyed String Color) (token : String) : Option Color :=
  (t.get? token).or ((Color.ofHex? token).or (Color.ofLiteral? token))

end ColorTable

/-- Strict nodes are those that a strict timer owns. -/
structure Topology where
  devices : Keyed String Device
  nodes : Keyed String Node
  groups : Keyed String (List String)
  strictNodes : List String
  colors : Keyed String Color
  actions : Keyed String (List String)
  triggered : List ActionConfig
  deriving Repr, Inhabited

namespace Topology

def makeDevices (configs : List DeviceConfig) : Keyed String Device × List ConfigError :=
  configs.foldl (fun (t, errors) c =>
    match Device.ofConfig c with
    | .ok d => (t.insert c.id d, errors)
    | .error e => (t, errors ++ [e])) (.empty, [])

def makeNodes (devices : Keyed String Device) (configs : List NodeConfig) :
    Keyed String Node × List ConfigError :=
  configs.foldl (fun (t, errors) c =>
    match devices.get? c.device with
    | some d => (t.insert c.id (Node.ofConfig c d), errors)
    | none => (t, errors ++ [.unknownReference .node c.id .device c.device])) (.empty, [])

def strangers (nodes : List String) (groups : Keyed String (List String)) : List ConfigError :=
  groups.entries.flatMap fun (id, members) =>
    (members.filter (!nodes.contains ·)).map (.unknownReference .group id .node ·)

def strictNodesOf (timers : List TimerDef) : List String :=
  (timers.filter (·.strict)).filterMap (·.node)

def actionTable (actions : List ActionConfig) : Keyed String (List String) :=
  .ofList (actions.filterMap fun a => a.id.map (·, a.commands.toList))

def errorOf? {α : Type} : Except ConfigError α → List ConfigError
  | .ok _ => []
  | .error e => [e]

def valueOr {α : Type} (default : α) : Except ConfigError α → α
  | .ok x => x
  | .error _ => default

def ofConfig (c : Config) : Except ConfigError Topology :=
  let (devices, deviceErrors) := makeDevices c.devices
  let (nodes, nodeErrors) := makeNodes devices c.nodes
  let (groups, groupErrors) := Group.flatten c.groups
  let timers := c.timerDefs
  let colors := ColorTable.ofConfig c.colors
  ConfigError.orElse
    (deviceErrors ++ nodeErrors ++ groupErrors ++ strangers (c.nodes.map (·.id)) groups ++
      errorOf? timers ++ errorOf? colors)
    { devices := devices
      nodes := nodes
      groups := groups
      strictNodes := strictNodesOf (valueOr [] timers)
      colors := valueOr .empty colors
      actions := actionTable c.actions
      triggered := c.actions.filter (·.event.isSome) }

def isTimed (t : Topology) (node : String) : Bool :=
  t.strictNodes.contains node

/-- The nodes that a word stands for. A node stands for itself. A group stands for its members,
but for those of strict timers only where they are asked for. -/
def resolve (t : Topology) (timed : Bool) (token : String) : List Node :=
  match t.nodes.get? token with
  | some node => [node]
  | none =>
    match t.groups.get? token with
    | some members => (members.filter fun id => timed || !t.isTimed id).filterMap t.nodes.get?
    | none => []

def allNodes (t : Topology) (timed : Bool) : List Node :=
  t.nodes.values.filter fun n => timed || !t.isTimed n.id

end Topology

end HomeControl
