import HomeControl.Command.Word
import HomeControl.House
/-!
Commands and the plans they mean. A text is cut at `;` into commands, and the first word of a
command says what it does:

  status [target ...]
  do action ...
  get [sum|avg|min|max] [target ...] [attribute ...]
  set target ... [on|off|flip] [color] [brightness] [at|in|until|for|over time]
  fade target ... [brightness|color] [from] value [to] value [for|over] duration

Words are targets as long as each stands for at least one node. Nothing that is wrong with one
command keeps the others from being carried out.
-/

namespace HomeControl

open Text

/-- What a command is understood against. `timed` asks for groups with the nodes of strict
timers. -/
structure Situation where
  topology : Topology
  resolver : Resolver
  now : Instant
  known : String → String → Option Value

namespace Situation

def uniqueNodes : List Node → List Node
  | [] => []
  | n :: rest => n :: (uniqueNodes rest).filter (·.id != n.id)

def readTargets (s : Situation) (timed : Bool) : List String → List Node × List String
  | [] => ([], [])
  | word :: rest =>
    match s.topology.resolve timed word with
    | [] => ([], word :: rest)
    | nodes =>
      let (more, left) := s.readTargets timed rest
      (nodes ++ more, left)

def targets (s : Situation) (timed : Bool) (words : List String) : List Node × List String :=
  let (nodes, left) := s.readTargets timed words
  (uniqueNodes nodes, left)

def leftover : List String → List PlanError
  | [] => []
  | words => [.remaining (" ".intercalate words)]

def statusGetters (nodes : List Node) : List Getter :=
  (nodes.filter (·.hasGet Attr.status)).map fun n => ⟨n.id, Attr.status⟩

def statusOf (s : Situation) (plan : Plan) (word : String) : Plan :=
  match statusGetters (s.topology.resolve true word) with
  | [] => plan.note (.notAStatusTarget word)
  | getters => { plan with getters := plan.getters ++ getters }

def status (s : Situation) : List String → Plan
  | [] => { getters := statusGetters (s.topology.allNodes true) }
  | words => words.foldl s.statusOf .empty

def getAttr (nodes : List Node) (attr : String) : Plan :=
  { getters := (nodes.filter (·.hasGet attr)).map fun n => ⟨n.id, attr⟩
    errors := match nodes with
      | [n] => if n.hasGet attr then [] else [.noGetter n.id attr]
      | _ => [] }

def get (s : Situation) (words : List String) : Plan :=
  let (aggregate, words) := match words with
    | word :: rest =>
      match Aggregate.ofWord? word with
      | some a => (some a, rest)
      | none => (none, words)
    | [] => (none, [])
  let (found, attrs) := s.targets true words
  let nodes := if found.isEmpty then s.topology.allNodes true else found
  let plan : Plan :=
    if attrs.isEmpty then
      { getters := nodes.flatMap fun n => n.getters.map fun attr => ⟨n.id, attr⟩ }
    else attrs.foldl (fun plan attr => plan.merge (getAttr nodes attr)) .empty
  { plan with aggregate := aggregate }

structure Draft where
  setters : List Setter
  errors : List PlanError
  deriving DecidableEq, Repr

namespace Draft

def empty : Draft := ⟨[], []⟩

def ofSetters (setters : List Setter) : Draft := ⟨setters, []⟩

def append (a b : Draft) : Draft := ⟨a.setters ++ b.setters, a.errors ++ b.errors⟩

def refusal (single : Bool) (e : PlanError) : Draft := ⟨[], if single then [e] else []⟩

def ofNodes (nodes : List Node) (f : Bool → Node → Draft) : Draft :=
  (nodes.map (f (nodes.length == 1))).foldl append empty

end Draft

def noColor (n : Node) : PlanError :=
  .noColor n.device.id n.device.kind n.id

def noBrightness (n : Node) : PlanError :=
  .noBrightness n.device.id n.id

def switchCapability? (word : String) : Option String :=
  if Word.isOn word then some Attr.on
  else if Word.isOff word then some Attr.off
  else if Word.isFlip word then some Attr.flip
  else none

def switchSetter (node capability : String) : Setter :=
  if capability = Attr.on then .state node true
  else if capability = Attr.off then .state node false
  else .flip node

def switchNode (capability word : String) (single : Bool) (n : Node) : Draft :=
  if n.hasSet capability then .ofSetters [switchSetter n.id capability]
  else .refusal single (.noSetter n.device.id n.device.kind n.id word)

def readSwitch (nodes : List Node) (words : List String) : Draft × List String :=
  match words with
  | [] => (.empty, [])
  | word :: rest =>
    match switchCapability? word with
    | some capability => (.ofNodes nodes (switchNode capability word), rest)
    | none => (.empty, words)

/-- A color that nothing but a time follows also switches the node on. -/
def colorNode (color : Color) (last single : Bool) (n : Node) : Draft :=
  if n.hasSet Attr.color then
    .ofSetters (.color n.id color ::
      if last && n.hasSet Attr.on then [.state n.id true] else [])
  else .refusal single (noColor n)

def readColor (s : Situation) (nodes : List Node) (words : List String) : Draft × List String :=
  match words with
  | [] => (.empty, [])
  | word :: rest =>
    match ColorTable.find? s.topology.colors word with
    | some color =>
      let last := match rest with
        | next :: _ => Word.isTimeKeyword next
        | [] => true
      (.ofNodes nodes (colorNode color last), rest)
    | none => (.empty, words)

def powerCategory : String := "power"

def switchThreshold? (n : Node) : Option Nat :=
  if n.category = some powerCategory then none else n.threshold

/-- Full brightness also switches a node on, and none switches it off. A node without brightness
is switched by its threshold. -/
def brightnessNode (percent : Nat) (single : Bool) (n : Node) : Draft :=
  if n.hasSet Attr.brightness then
    .ofSetters (.brightness n.id percent ::
      ((if percent = 100 && n.hasSet Attr.on then [.state n.id true] else []) ++
        if percent = 0 && n.hasSet Attr.off then [.state n.id false] else []))
  else
    match switchThreshold? n with
    | none => .refusal single (noBrightness n)
    | some t =>
      if t ≤ percent && n.hasSet Attr.on then .ofSetters [.state n.id true]
      else if percent < t && n.hasSet Attr.off then .ofSetters [.state n.id false]
      else .refusal single (noBrightness n)

inductive BrightnessWord where
  | percent (p : Nat)
  | ignored
  | outOfRange
  | unknown
  deriving DecidableEq, Repr

def brightnessWord (word : String) : BrightnessWord :=
  if Word.isPercent word then
    match Word.percent? word with
    | some p => .percent p.toNat
    | none => .ignored
  else if Word.isNumber word then .outOfRange
  else if Word.isOn word then .percent 100
  else if Word.isOff word then .percent 0
  else .unknown

/-- A brightness, if there is a word that is no time keyword. An unknown word ends the command,
which is told by leaving out the other words. -/
def readBrightness (nodes : List Node) (words : List String) : Draft × Option (List String) :=
  match words with
  | [] => (.empty, some [])
  | word :: rest =>
    if Word.isTimeKeyword word then (.empty, some words)
    else
      match brightnessWord word with
      | .percent p => (.ofNodes nodes (brightnessNode p), some rest)
      | .ignored => (.empty, some rest)
      | .outOfRange => (⟨[], [.brightnessRange]⟩, some rest)
      | .unknown => (⟨[], [.unknownArgument word]⟩, none)

def duration (word : String) : Except PlanError Duration :=
  match Duration.parse? word with
  | some d => .ok d
  | none => .error (.invalidDuration word)

def timeAt (s : Situation) (word : String) : Except PlanError Int :=
  match (TimeSpec.parse word).bind (s.resolver.nextAfter · s.now) with
  | .ok instant => .ok instant.millis
  | .error e => .error (.invalidTime word e)

def timeIn (s : Situation) (word : String) : Except PlanError Int :=
  (duration word).map fun d => saturated (s.now.millis + saturated d.millis)

def later (setters : List Setter) (due : Int) : Plan :=
  { timed := setters.map (⟨·, due⟩) }

def previous (s : Situation) (setter : Setter) : Except PlanError Setter :=
  if setter.attr = Attr.flip then .ok (.flip setter.node)
  else
    let known := match s.known setter.node setter.attr with
      | some .null => none
      | v => v
    match known.or (Attr.restValue? setter.attr) with
    | some value => .ok ⟨setter.node, setter.attr, some value⟩
    | none => .error (.noRestoreValue setter.node setter.attr)

def restoreOne (s : Situation) (due : Int) (plan : Plan) (setter : Setter) : Plan :=
  match s.previous setter with
  | .ok back => { plan with timed := plan.timed ++ [⟨back, due⟩] }
  | .error e => plan.note e

def restore (s : Situation) (setters : List Setter) (due : Int) : Plan :=
  { setters.foldl (s.restoreOne due) .empty with setters := setters }

def percentOf? (v : Value) : Option UInt8 :=
  v.nat?.map fun n => (min n 100).toUInt8

def fadeValues? (setter : Setter) (known : Option Value) : Option FadeValues :=
  match setter.value, known with
  | some goal, some start =>
    if setter.attr = Attr.brightness then do
      some (.brightness (← percentOf? start) (← percentOf? goal))
    else if setter.attr = Attr.color then do
      some (.color (← Color.ofValue? start) (← Color.ofValue? goal))
    else none
  | _, _ => none

def transitionOne (s : Situation) (d : Duration) (setter : Setter) : Plan :=
  match fadeValues? setter (s.known setter.node setter.attr) with
  | some values =>
    if d.nanos = 0 then { setters := [setter] } else { faders := [⟨setter.node, values, d⟩] }
  | none => { setters := [setter] }

/-- Fades in place of the setters that have a known value to start from. -/
def transition (s : Situation) (setters : List Setter) (d : Duration) : Plan :=
  (setters.map (s.transitionOne d)).foldl .merge .empty

def modify (s : Situation) (keyword word : String) (setters : List Setter) : Plan :=
  let plan : Except PlanError Plan :=
    if keyword = "at" then (s.timeAt word).map (later setters)
    else if keyword = "in" then (s.timeIn word).map (later setters)
    else if keyword = "until" then (s.timeAt word).map (s.restore setters)
    else if keyword = "for" then (s.timeIn word).map (s.restore setters)
    else (duration word).map (s.transition setters)
  match plan with
  | .ok plan => plan
  | .error e => .failure e

def missing (keyword : String) : PlanError :=
  if keyword = "at" || keyword = "until" then .missingTime keyword else .missingDuration

def readModifier (s : Situation) (setters : List Setter) (words : List String) : Plan :=
  match words with
  | keyword :: rest =>
    if Word.isTimeKeyword keyword then
      match rest with
      | word :: rest =>
        let plan := s.modify keyword word setters
        { plan with errors := plan.errors ++ leftover rest }
      | [] => .failure (missing keyword)
    else { setters := setters, errors := leftover words }
  | [] => .ofSetters setters

def setNodes (s : Situation) (nodes : List Node) (words : List String) : Plan :=
  let (switched, words) := readSwitch nodes words
  let (colored, words) := s.readColor nodes words
  let (lit, words) := readBrightness nodes words
  let draft := (switched.append colored).append lit
  match words with
  | none => { setters := draft.setters, errors := draft.errors }
  | some words =>
    let plan := s.readModifier draft.setters words
    { plan with errors := draft.errors ++ plan.errors }

def set (s : Situation) (timed : Bool) (words : List String) : Plan :=
  match s.targets timed words with
  | ([], _) => .failure .noNodes
  | (nodes, words) => s.setNodes nodes words

inductive FadeEnd where
  | color (c : Color)
  | brightness (percent : UInt8)
  deriving DecidableEq, Repr

def skip (expected : List String) (words : List String) : Option String × List String :=
  match words with
  | word :: rest => if expected.contains word then (some word, rest) else (none, words)
  | [] => (none, [])

def fadeEnd? (s : Situation) (attr : Option String) (word : String) : Option FadeEnd :=
  let color := if attr = some Attr.brightness then none
    else (ColorTable.find? s.topology.colors word).map .color
  let brightness := if attr = some Attr.color then none
    else if Word.isPercent word then (Word.percent? word).map .brightness
    else none
  color.or brightness

def readFadeEnd (s : Situation) (attr : Option String) (words : List String) :
    Option FadeEnd × List String :=
  match words with
  | word :: rest =>
    match s.fadeEnd? attr word with
    | some fadeEnd => (some fadeEnd, rest)
    | none => (none, words)
  | [] => (none, [])

def pair? : Option FadeEnd → Option FadeEnd → Option FadeValues
  | some (.color start), some (.color goal) => some (.color start goal)
  | some (.brightness start), some (.brightness goal) => some (.brightness start goal)
  | _, _ => none

def readFadeDuration (words : List String) : Except PlanError Duration × List String :=
  match words with
  | [] => (.error .missingDuration, [])
  | word :: rest =>
    match duration word with
    | .ok d => (if d.nanos = 0 then .error .missingDuration else .ok d, rest)
    | .error e => (.error e, rest)

def unsupported (n : Node) (attr : String) : PlanError :=
  if attr = Attr.color then noColor n else noBrightness n

def fadersOf (nodes : List Node) (values : FadeValues) (d : Duration) : Plan :=
  { faders := (nodes.filter (·.hasSet values.attr)).map fun n => ⟨n.id, values, d⟩
    errors := match nodes with
      | [n] => if n.hasSet values.attr then [] else [unsupported n values.attr]
      | _ => [] }

def errorsOf {α : Type} : Except PlanError α → List PlanError
  | .ok _ => []
  | .error e => [e]

def fadePlan (nodes : List Node) (values : Option FadeValues) (d : Except PlanError Duration) :
    Plan :=
  match values, d with
  | none, d => { errors := .noFadeValues :: errorsOf d }
  | some _, .error e => .failure e
  | some values, .ok d => fadersOf nodes values d

def fade (s : Situation) (timed : Bool) (words : List String) : Plan :=
  match s.targets timed words with
  | ([], _) => .failure .noNodes
  | (nodes, words) =>
    let (attr, words) := skip [Attr.brightness, Attr.color] words
    let (_, words) := skip ["from"] words
    let (start, words) := s.readFadeEnd attr words
    let (_, words) := skip ["to"] words
    let (goal, words) := s.readFadeEnd attr words
    let (_, words) := skip ["for", "over"] words
    let (d, words) := readFadeDuration words
    let plan := fadePlan nodes (pair? start goal) d
    { plan with errors := plan.errors ++ leftover words }

def commandsOf (text : String) : List String :=
  ((pieces ';' text).map trim).filter (· != "")

def command (s : Situation) (timed : Bool) (expand : List String → Plan) (text : String) : Plan :=
  match words text with
  | [] => .failure .emptyCommand
  | "status" :: rest => s.status rest
  | "do" :: rest => expand rest
  | "get" :: rest => s.get rest
  | "set" :: rest => s.set timed rest
  | "fade" :: rest => s.fade timed rest
  | verb :: _ => .failure (.unknownVerb verb)

def batch (s : Situation) (timed : Bool) (expand : List String → Plan) (text : String) : Plan :=
  match commandsOf text with
  | [] => .failure .emptyCommand
  | commands => commands.foldl (fun plan c => plan.merge (s.command timed expand c)) .empty

/-- The plans of actions. The chain holds the actions that are being expanded; none of them is
expanded again inside itself. -/
def expand (s : Situation) (timed : Bool) (chain ids : List String) : Plan :=
  ids.foldl (fun plan id =>
    if _ : id ∈ chain then plan.note (.actionCycle id)
    else
      match _ : s.topology.actions.get? id with
      | none => plan.note (.unknownAction id)
      | some commands =>
        commands.foldl (fun plan text =>
          plan.merge (s.batch timed (fun ids => s.expand timed (id :: chain) ids) text)) plan)
    .empty
  termination_by (s.topology.actions.unvisited chain).length
  decreasing_by exact Keyed.unvisited_cons_lt (by assumption) (by assumption)

def compile (s : Situation) (timed : Bool) (text : String) : Plan :=
  let plan := s.batch timed (s.expand timed []) text
  if plan.hasNoActions && plan.errors.isEmpty then plan.note .nothingToDo else plan

end Situation

end HomeControl
