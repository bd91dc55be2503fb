import HomeControl.Attr
import HomeControl.Config.Error
import HomeControl.Config.Model
/-!
Devices kept in memory: what they can read and write, the values they hold, and whether the last
call reached them. Every device can read `online`.
-/

namespace HomeControl

inductive Capability where
  | getter
  | setter
  deriving DecidableEq, Repr

def Capability.name : Capability → String
  | getter => "getter"
  | setter => "setter"

inductive DriverError where
  | notSupported (device : String) (kind : Capability) (attr : String)
  | invalidValue (attr reason : String)
  | invalidConfig (device reason : String)
  | unreachable (device : String)
  deriving DecidableEq, Repr

def DriverError.message : DriverError → String
  | notSupported device kind attr =>
    "device " ++ device ++ " has no " ++ kind.name ++ " \"" ++ attr ++ "\""
  | invalidValue attr reason => "invalid value for \"" ++ attr ++ "\": " ++ reason
  | invalidConfig device reason => "invalid config for device " ++ device ++ ": " ++ reason
  | unreachable device => "device " ++ device ++ " failed: virtual device is offline"

/-- A device as it is configured. Every call to an unreachable device fails. -/
structure Device where
  id : String
  kind : String
  readable : List String
  writable : List String
  unreachable : Bool
  initial : List (String × Value)
  deriving DecidableEq, Repr

structure DeviceState where
  store : List (String × Value)
  online : Bool
  deriving DecidableEq, Repr, Inhabited

namespace Device

def virtualKind : String := "virtual"

def declared (c : DeviceConfig) (key : String) : List String :=
  match c.options.lookup key with
  | some (.list items) => (items.filterMap Value.text?).eraseDups
  | _ => []

def build (c : DeviceConfig) : Except DriverError Device :=
  let device (initial : List (String × Value)) : Device :=
    ⟨c.id, c.kind, declared c "getters", declared c "setters",
      ((c.options.lookup "offline").bind Value.bool?).getD false, initial⟩
  match c.options.lookup "values" with
  | none => .ok (device [])
  | some (.record fields) => .ok (device fields)
  | some _ => .error (.invalidConfig c.id "values must be a mapping")

def ofConfig (c : DeviceConfig) : Except ConfigError Device :=
  if c.kind = virtualKind then
    match build c with
    | .ok d => .ok d
    | .error e => .error (.invalidValue ("devices." ++ c.id) e.message)
  else .error (.unknownDeviceType c.id c.kind)

def start (d : Device) : DeviceState :=
  ⟨d.initial, true⟩

def hasGet (d : Device) (attr : String) : Bool :=
  attr == Attr.online || d.readable.contains attr

def hasSet (d : Device) (capability : String) : Bool :=
  d.writable.contains capability

def getters (d : Device) : List String :=
  if d.readable.contains Attr.online then d.readable else d.readable ++ [Attr.online]

def readStore (store : List (String × Value)) (attr : String) : Value :=
  match store.lookup attr with
  | some v => v
  | none => if attr = Attr.status then .record store else .null

def percentage? : Option Value → Option Nat
  | some v =>
    match v.nat? with
    | some n => if n ≤ 100 then some n else none
    | none => none
  | none => none

/-- The store after a capability is used. `on`, `off` and `flip` change the state; brightness and
color take values of their own form only. -/
def writeStore (store : List (String × Value)) (capability : String) (value : Option Value) :
    Except DriverError (List (String × Value)) :=
  if capability = Attr.on then .ok (Value.putField Attr.state (.bool true) store)
  else if capability = Attr.off then .ok (Value.putField Attr.state (.bool false) store)
  else if capability = Attr.flip then
    let on := ((store.lookup Attr.state).bind Value.bool?).getD false
    .ok (Value.putField Attr.state (.bool !on) store)
  else if capability = Attr.brightness then
    match percentage? value with
    | some n => .ok (Value.putField capability (.int n) store)
    | none => .error (.invalidValue capability "expected a percentage between 0 and 100")
  else if capability = Attr.color then
    match value.bind Color.ofValue? with
    | some c => .ok (Value.putField capability c.toValue store)
    | none => .error (.invalidValue capability "expected [r, g, b]")
  else .ok (Value.putField capability (value.getD .null) store)

/-- Reads an attribute. A failed call takes the device offline and a successful one brings it
back; reading `online` is no call unless the device declares it. -/
def get (d : Device) (attr : String) (s : DeviceState) : Except DriverError Value × DeviceState :=
  if d.readable.contains attr then
    if d.unreachable then (.error (.unreachable d.id), { s with online := false })
    else (.ok (readStore s.store attr), { s with online := true })
  else if attr = Attr.online then (.ok (.bool s.online), s)
  else (.error (.notSupported d.id .getter attr), s)

def set (d : Device) (capability : String) (value : Option Value) (s : DeviceState) :
    Except DriverError Unit × DeviceState :=
  if d.writable.contains capability then
    if d.unreachable then (.error (.unreachable d.id), { s with online := false })
    else
      match writeStore s.store capability value with
      | .ok store => (.ok (), ⟨store, true⟩)
      | .error e => (.error e, { s with online := false })
  else (.error (.notSupported d.id .setter capability), s)

end Device

end HomeControl
