import HomeControl.Config.Files
import HomeControl.Config.Flat
/-!
Carrying out the tags of documents: `!include path` stands for the document of another file,
seen from the directory of the file it is in, and `!env_var NAME default` for a variable of the
environment. A file that is being read is not read again inside itself.
-/

namespace HomeControl

open Text

structure Surroundings where
  files : Files
  environment : List (String × String)
  deriving Repr

namespace Surroundings

def splitName (spec : String) : String × Option String :=
  match cutAt? isBlank (trimChars spec.toList) with
  | some (name, _, rest) => (String.ofList name, some (String.ofList (trimChars rest)))
  | none => (trim spec, none)

/-- The document of a variable, or else of the text behind its name. A text that is a scalar other
than null is read as one. -/
def substitute (s : Surroundings) (spec : String) : Except ConfigError Document :=
  let (name, default) := splitName spec
  match (s.environment.lookup name).or default with
  | none => .error (.envVarNotFound name)
  | some raw =>
    match Scalar.read? raw with
    | some document => .ok (if document.untagged.isNull then .text raw else document)
    | none => .ok (.text raw)

section
variable {m : Type → Type} [Monad m] [MonadExcept ConfigError m]

def carryOut (s : Surroundings) (load : String → m Document) (tag : String) (content : Document) :
    m Document :=
  if tag = "!include" then
    match content with
    | .text path => load path
    | other => throw (.invalidIncludePath other.shown)
  else if tag = "!env_var" then
    match content with
    | .text spec => MonadExcept.ofExcept (s.substitute spec)
    | _ => throw (.invalidValue "!env_var" "environment variable name must be a string")
  else throw (.invalidValue tag "unknown YAML tag")

mutual

def expand (s : Surroundings) (load : String → m Document) : Document → m Document
  | .list items => .list <$> s.expandItems load items
  | .map fields => .map <$> s.expandFields load fields
  | .tagged tag content => s.carryOut load tag content
  | d => pure d

def expandItems (s : Surroundings) (load : String → m Document) :
    List Document → m (List Document)
  | [] => pure []
  | d :: rest => do
    let item ← s.expand load d
    let more ← s.expandItems load rest
    pure (item :: more)

def expandFields (s : Surroundings) (load : String → m Document) :
    List (String × Document) → m (List (String × Document))
  | [] => pure []
  | (key, d) :: rest => do
    let item ← s.expand load d
    let more ← s.expandFields load rest
    pure ((key, item) :: more)

end

end

def includePath (base source path : String) : String :=
  Path.join ((Path.parent? source).getD base) path

/-- A loader remembers the files that are being read, also after a fault. -/
abbrev Loading := ExceptT ConfigError (StateM (List Path.Steps))

namespace Loading

def within {α : Type} (file : Path.Steps) (x : Loading α) : Loading α := do
  modify (·.insert file)
  let result ← ExceptT.lift x.run
  modify (·.erase file)
  MonadExcept.ofExcept result

def result {α : Type} (x : Loading α) : Except ConfigError α :=
  (x.run.run []).1

end Loading

/-- Reads a file and the files that it includes. `base` is the directory that relative paths are
seen from. The files that are being read are all different and short enough to be opened, so that
`Files.openable` is fuel enough. -/
def loadFile (s : Surroundings) (base : String) : Nat → String → Loading Document
  | 0, path => throw (.circularInclude path)
  | fuel + 1, path => do
    let path := Path.join base path
    let steps := Path.steps path
    if (← get).contains steps then throw (.circularInclude path)
    else
      match s.files.read path with
      | .error fault => throw (.unreadable path fault)
      | .ok content =>
        Loading.within steps <|
          match content with
          | none => throw (.malformed path)
          | some d => s.expand (fun q => s.loadFile base fuel (includePath base path q)) d

def load (s : Surroundings) (base path : String) : Loading Document :=
  s.loadFile base (Files.openable + 1) path

def loadDocument (s : Surroundings) (base source : String) (d : Document) : Loading Document :=
  s.expand (fun q => s.load base (includePath base source q)) d

end Surroundings

end HomeControl
