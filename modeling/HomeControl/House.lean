import HomeControl.Bus
import HomeControl.Plan
import HomeControl.Topology
/-!
The state of a house: what its devices hold, the last known values of its nodes, and the changes
that happened. A change is noted when a known value becomes another one.
-/

namespace HomeControl

inductive NodeError where
  | unknown (node : String)
  | driver (node : String) (cause : DriverError)
  deriving DecidableEq, Repr

def NodeError.message : NodeError → String
  | unknown node => "Node \"" ++ node ++ "\" not found"
  | driver node cause => "Node \"" ++ node ++ "\": " ++ cause.message

/-- Devices and known values go by the ids of devices and nodes; events are in order. -/
structure House where
  devices : Keyed String DeviceState
  known : Keyed String (List (String × Value))
  events : List Event
  deriving DecidableEq, Repr, Inhabited

namespace House

def start (t : Topology) : House where
  devices := ⟨t.devices.entries.map fun (id, d) => (id, d.start)⟩
  known := ⟨t.nodes.keys.map (·, [])⟩
  events := []

def device (h : House) (d : Device) : DeviceState :=
  (h.devices.get? d.id).getD d.start

def putDevice (h : House) (d : Device) (s : DeviceState) : House :=
  { h with devices := h.devices.insert d.id s }

def snapshot? (h : House) (node : String) : Option (List (String × Value)) :=
  h.known.get? node

def known? (h : House) (node attr : String) : Option Value :=
  (h.snapshot? node).bind (·.lookup attr)

def isNews (before : Option Value) (value : Value) : Bool :=
  match before with
  | some v => !v.same value
  | none => true

/-- Takes note of a value; if it is news, that is an event. -/
def remember (h : House) (node attr : String) (value : Value) (depth : Nat) : House :=
  let values := (h.snapshot? node).getD []
  { h with
    known := h.known.insert node (Value.putField attr value values)
    events :=
      if isNews (values.lookup attr) value then h.events ++ [⟨node, attr, value, depth⟩]
      else h.events }

def get (t : Topology) (h : House) (node attr : String) (depth : Nat) :
    Except NodeError Value × House :=
  match t.nodes.get? node with
  | none => (.error (.unknown node), h)
  | some n =>
    match n.device.get (n.deviceAttr attr) (h.device n.device) with
    | (.error e, s) => (.error (.driver node e), h.putDevice n.device s)
    | (.ok value, s) =>
      let h := h.putDevice n.device s
      (.ok value, if value.isNull then h else h.remember node attr value depth)

/-- What is known after a setter succeeded. A flip turns a known state round. -/
def noteSet (h : House) (s : Setter) (depth : Nat) : House :=
  if s.attr = Attr.flip then
    match h.known? s.node Attr.state with
    | some (.bool on) => h.remember s.node Attr.state (.bool !on) depth
    | _ => h
  else
    match s.value with
    | some value => h.remember s.node s.attr value depth
    | none => h

def set (t : Topology) (h : House) (s : Setter) (depth : Nat) : Except NodeError Unit × House :=
  match t.nodes.get? s.node with
  | none => (.error (.unknown s.node), h)
  | some n =>
    match n.device.set (n.deviceAttr s.capability) s.value (h.device n.device) with
    | (.error e, state) => (.error (.driver s.node e), h.putDevice n.device state)
    | (.ok _, state) => (.ok (), (h.putDevice n.device state).noteSet s depth)

def hasGet (t : Topology) (node attr : String) : Bool :=
  ((t.nodes.get? node).map (·.hasGet attr)).getD false

def hasSet (t : Topology) (node capability : String) : Bool :=
  ((t.nodes.get? node).map (·.hasSet capability)).getD false

end House

end HomeControl
