import HomeControl.Config.Document
import HomeControl.Config.Model
/-!
Typed reading of configurations. A field has one of a few names, of which no two may be given;
null stands for an absent section, list, table or optional field. Fields of other names are not
looked at, and neither are tags, except where a field takes values of several kinds: there a tag is
an error.
-/

namespace HomeControl.Config

def section? (d : Document) : Option (List (String × Document)) :=
  match d.bare with
  | .map fields => some fields
  | .null => some []
  | _ => none

def items? (d : Document) : Option (List Document) :=
  match d.bare with
  | .list items => some items
  | .null => some []
  | _ => none

def text? (d : Document) : Option String :=
  d.untagged.text?

def number? (d : Document) : Option Float :=
  d.untagged.number?

def flag? (d : Document) : Option Bool :=
  d.untagged.bool?

def natBelow? (bound : Nat) (d : Document) : Option Nat :=
  match d.untagged.nat? with
  | some n => if n < bound then some n else none
  | none => none

def field? (names : List String) (fields : List (String × Document)) : Option (Option Document) :=
  match fields.filter fun f => names.contains f.1 with
  | [] => some none
  | [f] => some (some f.2)
  | _ => none

def required? {α : Type} (read : Document → Option α) (names : List String)
    (fields : List (String × Document)) : Option α := do
  (← field? names fields).bind read

def default? {α : Type} (read : Document → Option α) (default : α) (names : List String)
    (fields : List (String × Document)) : Option α := do
  match ← field? names fields with
  | some d => read d
  | none => some default

def optional? {α : Type} (read : Document → Option α) (names : List String)
    (fields : List (String × Document)) : Option (Option α) := do
  match ← field? names fields with
  | none => some none
  | some .null => some none
  | some d => (read d).map some

def list? {α : Type} (read : Document → Option α) (d : Document) : Option (List α) := do
  (← items? d).mapM read

mutual

def finite : Value → Value
  | .float x => if x.isFinite then .float x else .null
  | .list items => .list (finiteItems items)
  | .record fields => .record (finiteFields fields)
  | v => v

def finiteItems : List Value → List Value
  | [] => []
  | v :: rest => finite v :: finiteItems rest

def finiteFields : List (String × Value) → List (String × Value)
  | [] => []
  | (k, v) :: rest => (k, finite v) :: finiteFields rest

end

def value? (d : Document) : Option Value :=
  d.value?.map finite

def scalar? : Document → Option String
  | .text s => some s
  | .int n => some (toString n)
  | .float x => some (Scalar.floatText x)
  | .bool b => some (if b then "true" else "false")
  | _ => none

def app? (d : Document) : Option AppConfig := do
  let fields ← section? d
  let usual : AppConfig := {}
  some {
    port := ← default? (natBelow? (bitRange 16)) usual.port ["port"] fields
    timerInterval :=
      ← default? (natBelow? (bitRange 64)) usual.timerInterval ["timer_interval", "timer_seconds"]
        fields
    faderInterval :=
      ← default? (natBelow? (bitRange 64)) usual.faderInterval ["fader_interval"] fields
    singleInterval :=
      ← default? (natBelow? (bitRange 64)) usual.singleInterval ["single_interval"] fields
    maxTriggerDepth :=
      ← default? (natBelow? (bitRange 32)) usual.maxTriggerDepth ["max_trigger_depth"] fields
    logLevel := ← optional? text? ["log_level"] fields }

def location? (d : Document) : Option Location := do
  let fields ← section? d
  some ⟨← required? number? ["lat"] fields,
    ← required? number? ["long", "lng", "lon"] fields⟩

def device? (d : Document) : Option DeviceConfig := do
  let fields ← section? d
  some {
    id := ← required? text? ["id"] fields
    kind := ← required? text? ["type"] fields
    options := ← (fields.filter fun f => f.1 != "id" && f.1 != "type").mapM fun (k, d) =>
      (value? d).map (k, ·) }

def names? (d : Document) : Option (List (String × String)) := do
  (← section? d).mapM fun (k, d) => (text? d).map (k, ·)

def node? (d : Document) : Option NodeConfig := do
  let fields ← section? d
  some {
    id := ← required? text? ["id"] fields
    device := ← required? text? ["device"] fields
    category := ← optional? text? ["class"] fields
    threshold := ← optional? (natBelow? (bitRange 8)) ["threshold", "thresh"] fields
    map := ← default? names? [] ["map"] fields }

def group? (d : Document) : Option GroupConfig := do
  let fields ← section? d
  some {
    id := ← required? text? ["id"] fields
    nodes := ← default? (list? text?) [] ["nodes"] fields
    groups := ← default? (list? text?) [] ["groups"] fields }

def timer? (d : Document) : Option TimerConfig := do
  let fields ← section? d
  some {
    id := ← required? text? ["id"] fields
    node := ← optional? text? ["node"] fields
    strict := ← default? flag? false ["strict"] fields
    onTime := ← optional? scalar? ["on"] fields
    offTime := ← optional? scalar? ["off"] fields
    flipTime := ← optional? scalar? ["flip"] fields
    atTime := ← optional? scalar? ["at"] fields
    setWords := ← optional? scalar? ["set"] fields
    action := ← optional? text? ["do"] fields
    command := ← optional? text? ["cmd"] fields }

def commands? (d : Document) : Option Commands := do
  match ← d.value? with
  | .text command => some (.one command)
  | .list items => (items.mapM Value.text?).map .many
  | _ => none

def action? (d : Document) : Option ActionConfig := do
  let fields ← section? d
  some {
    id := ← optional? text? ["id"] fields
    event := ← optional? scalar? ["event"] fields
    value := ← optional? value? ["value"] fields
    commands := ← required? commands? ["do"] fields }

def channels? (d : Document) : Option Color :=
  match d.untagged with
  | .list items => Color.ofValue? (.list items)
  | _ => none

def color? (d : Document) : Option ColorConfig := do
  let fields ← section? d
  some {
    id := ← required? text? ["id"] fields
    rgb := ← optional? channels? ["rgb"] fields
    hex := ← optional? text? ["hex"] fields
    sameAs := ← optional? text? ["color"] fields }

def ofDocument? (d : Document) : Option Config := do
  let fields ← section? d
  some {
    app := ← default? app? {} ["app"] fields
    location := ← optional? location? ["location"] fields
    devices := ← default? (list? device?) [] ["devices"] fields
    nodes := ← default? (list? node?) [] ["nodes"] fields
    groups := ← default? (list? group?) [] ["groups"] fields
    timers := ← default? (list? timer?) [] ["timers"] fields
    actions := ← default? (list? action?) [] ["actions"] fields
    colors := ← default? (list? color?) [] ["colors"] fields }

end HomeControl.Config
