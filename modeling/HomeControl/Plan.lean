import HomeControl.Attr
import HomeControl.Duration
import HomeControl.Time.Resolve
import HomeControl.Value
/-!
Plans: what a command asks for, as readings, settings, fades and settings at a later time, in
the order of the command, with the errors found on the way. Of the setters on one attribute of a
node only the last one is carried out, and a flip counts as one on the state.
-/

namespace HomeControl

structure Getter where
  node : String
  attr : String
  deriving DecidableEq, Repr

/-- Write one attribute of one node; a trigger such as `flip` has no value. -/
structure Setter where
  node : String
  attr : String
  value : Option Value
  deriving DecidableEq, Repr

namespace Setter

def state (node : String) (on : Bool) : Setter := ⟨node, Attr.state, some (.bool on)⟩
def flip (node : String) : Setter := ⟨node, Attr.flip, none⟩
def brightness (node : String) (percent : Nat) : Setter :=
  ⟨node, Attr.brightness, some (.int percent)⟩
def color (node : String) (c : Color) : Setter := ⟨node, Attr.color, some c.toValue⟩

/-- What a device must be able to do to carry out a setter: a state is switched on or off, and
every other attribute has the capability of its own name. -/
def capability (s : Setter) : String :=
  if s.attr = Attr.state then
    match s.value with
    | some (.bool true) => Attr.on
    | some (.bool false) => Attr.off
    | _ => s.attr
  else s.attr

def text (s : Setter) : String :=
  match s.value with
  | some v => s.node ++ " " ++ s.attr ++ " " ++ v.json
  | none => s.node ++ " " ++ s.attr

def overrides (later earlier : Setter) : Bool :=
  later.node == earlier.node &&
    (later.attr == earlier.attr ||
      (Attr.isTrigger later.attr && Attr.isTrigger earlier.attr))

/-- The setters that no later one overrides, in order. -/
def survivors : List Setter → List Setter
  | [] => []
  | s :: rest =>
    if rest.any (·.overrides s) then survivors rest else s :: survivors rest

end Setter

inductive FadeValues where
  | color (start goal : Color)
  | brightness (start goal : UInt8)
  deriving DecidableEq, Repr

namespace FadeValues

def attr : FadeValues → String
  | color _ _ => Attr.color
  | brightness _ _ => Attr.brightness

def valueAt (f : FadeValues) (p : Float) : Value :=
  match f with
  | color start goal => (start.toward goal p).toValue
  | brightness start goal => .int (blend start goal p).toNat

def goal : FadeValues → Value
  | color _ goal => goal.toValue
  | brightness _ goal => .int goal.toNat

end FadeValues

structure FaderSpec where
  node : String
  values : FadeValues
  duration : Duration
  deriving DecidableEq, Repr

def FaderSpec.attr (f : FaderSpec) : String :=
  f.values.attr

structure TimedSetter where
  setter : Setter
  due : Int
  deriving DecidableEq, Repr

inductive Aggregate where
  | sum
  | avg
  | min
  | max
  deriving DecidableEq, Repr

namespace Aggregate

def ofWord? (word : String) : Option Aggregate :=
  if ["sum", "total"].contains word then some sum
  else if ["avg", "average", "mean"].contains word then some avg
  else if ["min", "minimum"].contains word then some min
  else if ["max", "maximum"].contains word then some max
  else none

def name : Aggregate → String
  | sum => "sum"
  | avg => "avg"
  | min => "min"
  | max => "max"

/-- Added from left to right; the start is the negative zero, which changes no number. -/
def total (xs : List Float) : Float :=
  xs.foldl (· + ·) (-0.0)

def least (x : Float) (xs : List Float) : Float :=
  xs.foldl (fun a b => if a < b then a else b) x

def greatest (x : Float) (xs : List Float) : Float :=
  xs.foldl (fun a b => if b < a then a else b) x

def apply (c : Aggregate) : List Float → Option Float
  | [] => none
  | x :: xs =>
    some (match c with
      | sum => total (x :: xs)
      | avg => total (x :: xs) / Float.ofNat (x :: xs).length
      | min => least x xs
      | max => greatest x xs)

end Aggregate

inductive PlanError where
  | emptyCommand
  | nothingToDo
  | unknownVerb (verb : String)
  | unknownAction (id : String)
  | actionCycle (id : String)
  | notAStatusTarget (token : String)
  | noGetter (node attr : String)
  | noNodes
  | noSetter (device kind node word : String)
  | noColor (device kind node : String)
  | noBrightness (device node : String)
  | brightnessRange
  | unknownArgument (token : String)
  | remaining (tokens : String)
  | missingDuration
  | invalidDuration (token : String)
  | missingTime (keyword : String)
  | invalidTime (token : String) (reason : TimeError)
  | noFadeValues
  | noRestoreValue (node attr : String)
  | conflictingAggregates (first second : Aggregate)
  | noted (text : String)
  deriving DecidableEq, Repr

def PlanError.message : PlanError → String
  | emptyCommand => "Empty command"
  | nothingToDo => "Nothing to do"
  | unknownVerb verb => "Unknown command \"" ++ verb ++ "\""
  | unknownAction id => "Action \"" ++ id ++ "\" not found."
  | actionCycle id => "Action \"" ++ id ++ "\" calls itself"
  | notAStatusTarget token => "\"" ++ token ++ "\" is not a node or status command"
  | noGetter node attr => "Node \"" ++ node ++ "\" does not have a getter \"" ++ attr ++ "\""
  | noNodes => "No nodes found."
  | noSetter device kind node word =>
    "Device " ++ device ++ " type " ++ kind ++ " of node " ++ node ++ " has no setter " ++ word ++
      "."
  | noColor device kind node =>
    "Device " ++ device ++ " type " ++ kind ++ " of node " ++ node ++ " does not support color."
  | noBrightness device node =>
    "Device " ++ device ++ " of node " ++ node ++ " does not support brightness control."
  | brightnessRange => "Brightness must be a value between 0 and 100."
  | unknownArgument token => "Unknown argument \"" ++ token ++ "\""
  | remaining tokens => "Did not parse all arguments. Remaining: " ++ tokens
  | missingDuration => "Missing duration"
  | invalidDuration token => "Invalid duration \"" ++ token ++ "\""
  | missingTime keyword => "Missing time after \"" ++ keyword ++ "\""
  | invalidTime token reason => "Invalid time \"" ++ token ++ "\": " ++ reason.message
  | noFadeValues => "Fade needs a pair of colors or of brightness values"
  | noRestoreValue node attr =>
    "No value to restore for \"" ++ attr ++ "\" of node \"" ++ node ++ "\""
  | conflictingAggregates first second =>
    "Conflicting aggregate functions \"" ++ first.name ++ "\" and \"" ++ second.name ++ "\""
  | noted text => text

structure Plan where
  getters : List Getter := []
  setters : List Setter := []
  faders : List FaderSpec := []
  timed : List TimedSetter := []
  aggregate : Option Aggregate := none
  errors : List PlanError := []
  deriving DecidableEq, Repr

namespace Plan

def empty : Plan := {}

def failure (e : PlanError) : Plan := { errors := [e] }

def ofSetters (setters : List Setter) : Plan := { setters := setters }

def note (p : Plan) (e : PlanError) : Plan := { p with errors := p.errors ++ [e] }

def aggregateClash : Option Aggregate → Option Aggregate → List PlanError
  | some a, some b => if a = b then [] else [.conflictingAggregates a b]
  | _, _ => []

/-- One plan after another. The first aggregate counts, and a different one is an error. -/
def merge (p q : Plan) : Plan where
  getters := p.getters ++ q.getters
  setters := p.setters ++ q.setters
  faders := p.faders ++ q.faders
  timed := p.timed ++ q.timed
  aggregate := p.aggregate.or q.aggregate
  errors := p.errors ++ q.errors ++ aggregateClash p.aggregate q.aggregate

def hasNoActions (p : Plan) : Bool :=
  p.getters.isEmpty && p.setters.isEmpty && p.faders.isEmpty && p.timed.isEmpty

end Plan

def Getter.toValue (g : Getter) : Value :=
  .ofFields [("node", .text g.node), ("attr", .text g.attr)]

def Setter.toValue (s : Setter) : Value :=
  .ofFields ([("node", .text s.node), ("attr", .text s.attr)] ++
    match s.value with
    | some v => [("value", v)]
    | none => [])

def FadeValues.toValue (f : FadeValues) : Value :=
  let (start, goal) := match f with
    | color start goal => (start.toValue, goal.toValue)
    | brightness start goal => (.int start.toNat, .int goal.toNat)
  .ofFields [("attr", .text f.attr), ("from", start), ("to", goal)]

def Duration.toValue (d : Duration) : Value :=
  .ofFields [("secs", .int d.seconds), ("nanos", .int d.subsecond)]

def FaderSpec.toValue (f : FaderSpec) : Value :=
  .ofFields [("node", .text f.node), ("values", f.values.toValue),
    ("duration", f.duration.toValue)]

def TimedSetter.toValue (t : TimedSetter) : Value :=
  .ofFields [("setter", t.setter.toValue), ("at_ms", .int t.due)]

def Plan.toValue (p : Plan) : Value :=
  .ofFields [("getters", .list (p.getters.map (·.toValue))),
    ("setters", .list (p.setters.map (·.toValue))),
    ("faders", .list (p.faders.map (·.toValue))),
    ("timed_setters", .list (p.timed.map (·.toValue))),
    ("calc", match p.aggregate with
      | some a => .text a.name
      | none => .null),
    ("errors", .list (p.errors.map fun e => .text e.message))]

end HomeControl
