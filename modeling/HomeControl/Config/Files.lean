import HomeControl.Config.Document
import HomeControl.Config.Error
import HomeControl.Text
/-!
Paths, and the files that a configuration is read from. Slashes that follow each other and single
points inside a path do not matter when paths are compared; a step up (`..`) is kept as it is
written. A directory exists if a file lies in it or if it is the one that relative paths start from.
-/

namespace HomeControl

namespace Path

open Text

def isAbsolute (path : String) : Bool :=
  path.toList.head? == some '/'

def join (dir path : String) : String :=
  if isAbsolute path || dir.isEmpty then path
  else if dir.toList.getLast? == some '/' then dir ++ path
  else dir ++ "/" ++ path

def isIdle (part : String) : Bool :=
  part == "" || part == "."

/-- Two paths with the same steps name the same file as long as no directory is a link. -/
structure Steps where
  absolute : Bool
  parts : List String
  deriving DecidableEq, Repr

def steps (path : String) : Steps :=
  let parts := pieces '/' path
  if isAbsolute path then ⟨true, parts.filter (!isIdle ·)⟩
  else
    match parts with
    | "." :: rest => ⟨false, "." :: rest.filter (!isIdle ·)⟩
    | _ => ⟨false, parts.filter (!isIdle ·)⟩

def dropIdle : List String → List String
  | [] => []
  | ["."] => ["."]
  | part :: rest => if isIdle part && !rest.isEmpty then dropIdle rest else part :: rest

def parent? (path : String) : Option String :=
  if (steps path).parts.isEmpty then none
  else
    match dropIdle (pieces '/' path).reverse with
    | [] => none
    | _ :: rest =>
      match (dropIdle rest).reverse with
      | [""] => some (if isAbsolute path then "/" else "")
      | parts => some ("/".intercalate parts)

end Path

structure Files where
  directory : String
  entries : List (String × Option Document)
  deriving Repr

namespace Files

def pathLimit : Nat := 4096

def nameLimit : Nat := 255

def parts (path : String) : List String :=
  (Path.steps path).parts

def find? (f : Files) (place : List String) : Option (Option Document) :=
  (f.entries.map fun e => (parts (Path.join f.directory e.1), e.2)).lookup place

def isDirectory (f : Files) (place : List String) : Bool :=
  place.isPrefixOf (parts f.directory) ||
    f.entries.any fun e =>
      let file := parts (Path.join f.directory e.1)
      place.isPrefixOf file && place.length < file.length

def walk (f : Files) : List String → List String → Except ReadFault (List String)
  | place, [] => .ok place
  | place, part :: rest =>
    if !f.isDirectory place then .error .notADirectory
    else if Path.isIdle part then f.walk place rest
    else if part = ".." then f.walk place.dropLast rest
    else if nameLimit < part.utf8ByteSize then .error .nameTooLong
    else
      let next := place ++ [part]
      if f.isDirectory next || (f.find? next).isSome then f.walk next rest else .error .missing

def read (f : Files) (path : String) : Except ReadFault (Option Document) := do
  if path.toList.contains '\x00' then throw .zeroInName
  if path.isEmpty then throw .missing
  if pathLimit ≤ path.utf8ByteSize then throw .nameTooLong
  let place ← f.walk [] (Text.pieces '/' (Path.join f.directory path))
  if f.isDirectory place then throw .isADirectory
  match f.find? place with
  | some content => .ok content
  | none => .error .missing

def pathsBelow (bytes : Nat) : Nat := Nat.pow 257 bytes

def openable : Nat := pathsBelow pathLimit

end Files

end HomeControl
