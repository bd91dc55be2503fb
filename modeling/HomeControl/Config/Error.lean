/-!
What can be wrong with a configuration.
-/

namespace HomeControl

inductive Section where
  | device
  | node
  | group
  | color
  | action
  | timer
  deriving DecidableEq, Repr

def Section.name : Section → String
  | device => "device"
  | node => "node"
  | group => "group"
  | color => "color"
  | action => "action"
  | timer => "timer"

inductive ReadFault where
  | missing
  | notADirectory
  | isADirectory
  | nameTooLong
  | zeroInName
  deriving DecidableEq, Repr

def ReadFault.message : ReadFault → String
  | missing => "No such file or directory (os error 2)"
  | notADirectory => "Not a directory (os error 20)"
  | isADirectory => "Is a directory (os error 21)"
  | nameTooLong => "File name too long (os error 36)"
  | zeroInName => "file name contained an unexpected NUL byte"

inductive ConfigError where
  | unreadable (path : String) (fault : ReadFault)
  | malformed (path : String)
  | invalidIncludePath (shown : String)
  | circularInclude (path : String)
  | envVarNotFound (name : String)
  | invalidValue (key reason : String)
  | duplicateId (kind : Section) (id : String)
  | unknownReference (kind : Section) (id : String) (targetKind : Section) (target : String)
  | unknownDeviceType (id kind : String)
  | cyclicGroup (id : String)
  | cyclicColor (id : String)
  | incompatibleTimer (id : String)
  | multiple (errors : List ConfigError)
  deriving Repr

namespace ConfigError

mutual

def message : ConfigError → String
  | unreadable path fault => "failed to read file " ++ path ++ ": " ++ fault.message
  | malformed path => "failed to parse YAML in " ++ path
  | invalidIncludePath shown => "invalid include path '" ++ shown ++ "': path must be a string"
  | circularInclude path => "circular include detected: " ++ path
  | envVarNotFound name => "environment variable '" ++ name ++ "' not set"
  | invalidValue key reason => "invalid configuration value for '" ++ key ++ "': " ++ reason
  | duplicateId kind id => "duplicate " ++ kind.name ++ " id \"" ++ id ++ "\""
  | unknownReference kind id targetKind target =>
    kind.name ++ " \"" ++ id ++ "\" references unknown " ++ targetKind.name ++ " \"" ++ target ++
      "\""
  | unknownDeviceType id kind => "device \"" ++ id ++ "\" has unknown type \"" ++ kind ++ "\""
  | cyclicGroup id => "circular reference with group \"" ++ id ++ "\""
  | cyclicColor id => "circular color alias \"" ++ id ++ "\""
  | incompatibleTimer id => "incompatible timer configuration on timer \"" ++ id ++ "\""
  | multiple errors =>
    toString errors.length ++ " configuration errors: " ++ "; ".intercalate (messages errors)

def messages : List ConfigError → List String
  | [] => []
  | e :: rest => message e :: messages rest

end

def ofList? : List ConfigError → Option ConfigError
  | [] => none
  | [e] => some e
  | errors => some (multiple errors)

def orElse {α : Type} (errors : List ConfigError) (result : α) : Except ConfigError α :=
  match ofList? errors with
  | none => .ok result
  | some e => .error e

end ConfigError

end HomeControl
