import HomeControl.House
import HomeControl.Keyed
import HomeControl.Plan
/-!
Answers to commands: what was read, and what went wrong. Readings are kept for each node, with the
nodes in order of their first reading. Those of one attribute can be summed up over all nodes; null
readings do not count.
-/

namespace HomeControl

abbrev Readings := Keyed String (List (String × Value))

structure Reading where
  node : String
  attr : String
  value : Value
  deriving DecidableEq, Repr

inductive ReadingError where
  | notNumeric (reading : Reading)
  | noNumbers (attr : String)
  deriving DecidableEq, Repr

def ReadingError.message : ReadingError → String
  | notNumeric r => "Value " ++ r.value.json ++ " of \"" ++ r.node ++ "." ++ r.attr ++
      "\" is not a number"
  | noNumbers attr => "No numeric values for \"" ++ attr ++ "\""

namespace Readings

def add (t : Readings) (r : Reading) : Readings :=
  t.insert r.node (Value.putField r.attr r.value ((t.get? r.node).getD []))

def ofList (readings : List Reading) : Readings :=
  readings.foldl add .empty

def toList (t : Readings) : List Reading :=
  t.entries.flatMap fun (node, fields) => fields.map fun (attr, value) => ⟨node, attr, value⟩

def toValue (t : Readings) : Value :=
  .ofFields (t.entries.map fun (node, fields) => (node, .record fields))

def attrs (t : Readings) : List String :=
  (t.toList.map (·.attr)).eraseDups

def numbers (t : Readings) (attr : String) : List Float :=
  t.toList.filterMap fun r => if r.attr = attr then r.value.number? else none

def strangers (t : Readings) : List ReadingError :=
  (t.toList.filter fun r => !r.value.isNull && r.value.number?.isNone).map .notNumeric

def wholeLimit : Float := 9007199254740992

/-- A float as a result: as a whole number if it is one, and nothing if it is not finite. -/
def ofNumber? (x : Float) : Option Value :=
  if x.floor == x && x.abs ≤ wholeLimit then some (.int x.toInt64.toInt)
  else if x.isFinite then some (.float x)
  else none

def total? (t : Readings) (how : Aggregate) (attr : String) : Option Value :=
  (how.apply (t.numbers attr)).bind ofNumber?

def totalKey (how : Aggregate) (attr : String) : String :=
  attr ++ "_" ++ how.name

def totals (t : Readings) (how : Aggregate) : Value :=
  .ofFields (t.attrs.map fun attr => (totalKey how attr, (t.total? how attr).getD .null))

def totalErrors (t : Readings) (how : Aggregate) : List ReadingError :=
  t.strangers ++ (t.attrs.filter fun attr => (t.total? how attr).isNone).map .noNumbers

end Readings

inductive CommandError where
  | plan (cause : PlanError)
  | node (cause : NodeError)
  | reading (cause : ReadingError)
  deriving DecidableEq, Repr

def CommandError.message : CommandError → String
  | plan cause => cause.message
  | node cause => cause.message
  | reading cause => cause.message

structure Response where
  results : Option Value
  errors : List CommandError
  deriving DecidableEq, Repr

namespace Response

def failure (e : PlanError) : Response := ⟨none, [.plan e]⟩

def isSuccess (r : Response) : Bool :=
  r.errors.isEmpty

def toValue (r : Response) : Value :=
  let status := Value.text (if r.isSuccess then "success" else "error")
  let results := match r.results with
    | some v => [("results", v)]
    | none => []
  let errors :=
    if r.isSuccess then [] else [("errors", Value.list (r.errors.map fun e => .text e.message))]
  Value.ofFields (("status", status) :: (results ++ errors))

end Response

end HomeControl
