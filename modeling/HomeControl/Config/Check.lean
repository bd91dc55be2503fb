import HomeControl.Config.Load
import HomeControl.Config.Timers
import HomeControl.Config.Typed
/-!
Checked configurations: ids are unique in their section, entries refer to others that exist,
thresholds are percentages, a color is defined in one way, and every time can be read.
-/

namespace HomeControl.Config

def duplicates (kind : Section) : List String → List String → List ConfigError
  | _, [] => []
  | seen, id :: rest =>
    if seen.contains id then .duplicateId kind id :: duplicates kind seen rest
    else duplicates kind (id :: seen) rest

def dangling (kind : Section) (id : String) (targetKind : Section) (known targets : List String) :
    List ConfigError :=
  (targets.filter (!known.contains ·)).map (.unknownReference kind id targetKind ·)

def nodeErrors (c : Config) (n : NodeConfig) : List ConfigError :=
  dangling .node n.id .device (c.devices.map (·.id)) [n.device] ++
    match n.threshold with
    | some t =>
      if 100 < t then
        [.invalidValue ("nodes." ++ n.id ++ ".threshold") "must be between 0 and 100"]
      else []
    | none => []

def groupErrors (c : Config) (g : GroupConfig) : List ConfigError :=
  dangling .group g.id .node (c.nodes.map (·.id)) g.nodes ++
    dangling .group g.id .group (c.groups.map (·.id)) g.groups

def colorErrors (c : Config) (color : ColorConfig) : List ConfigError :=
  let ways := [color.rgb.isSome, color.hex.isSome, color.sameAs.isSome].count true
  (if ways = 1 then []
    else [.invalidValue ("colors." ++ color.id) "needs exactly one of rgb, hex or color"]) ++
  (match color.hex with
    | some hex =>
      if (Color.ofHex? hex).isSome then []
      else
        [.invalidValue ("colors." ++ color.id ++ ".hex") ("\"" ++ hex ++ "\" is not a hex color")]
    | none => []) ++
  dangling .color color.id .color (c.colors.map (·.id)) color.sameAs.toList

def timerErrors (c : Config) (t : TimerConfig) : List ConfigError :=
  dangling .timer t.id .node (c.nodes.map (·.id)) t.node.toList

def timerDefs (c : Config) : Except ConfigError (List TimerDef) :=
  TimerDef.ofEntries c.timers

def errors (c : Config) : List ConfigError :=
  duplicates .device [] (c.devices.map (·.id)) ++
  duplicates .node [] (c.nodes.map (·.id)) ++
  duplicates .group [] (c.groups.map (·.id)) ++
  duplicates .color [] (c.colors.map (·.id)) ++
  duplicates .action [] (c.actions.filterMap (·.id)) ++
  c.nodes.flatMap c.nodeErrors ++
  c.groups.flatMap c.groupErrors ++
  c.colors.flatMap c.colorErrors ++
  c.timers.flatMap c.timerErrors ++
  match c.timerDefs with
  | .ok _ => []
  | .error e => [e]

def check (c : Config) : Except ConfigError Config :=
  ConfigError.orElse c.errors c

def expanded (path : String) (d : Document) : Except ConfigError Config :=
  match ofDocument? d with
  | some c => c.check
  | none => .error (.malformed path)

def defaultName : String := "config.yaml"

def ofDocument (s : Surroundings) (d : Document) : Except ConfigError Config := do
  expanded defaultName (← (s.loadDocument "." defaultName d).result)

def load (s : Surroundings) (path : String) : Except ConfigError Config := do
  expanded path (← (s.load ((Path.parent? path).getD ".") path).result)

end HomeControl.Config
