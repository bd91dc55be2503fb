import HomeControl.Controller
import HomeControl.Text
/-!
The commands of the house over HTTP:

  GET  /             a sign of life
  GET  /status       the command `status`
  GET  /state        known values and scheduled work
  GET  /cmd/COMMAND  a command
  POST /cmd          the command in the body
  GET  /do/ACTIONS   actions by their ids
  POST /do           the actions in the body

A scheme and a host in front of a path do not count, and neither does what is behind `?` or `#`.
HEAD is answered like GET, without a body, and OPTIONS is always fine. In a path, `%` and two
hexadecimal digits stand for a byte of UTF-8; a `%` without two such digits behind it stands for
itself.
-/

namespace HomeControl

namespace Text

def byteHexValue? (b : UInt8) : Option UInt8 :=
  (hexValue? (Char.ofNat b.toNat)).map Nat.toUInt8

def percentMark : UInt8 := 37

def percentByte? (mark a b : UInt8) : Option UInt8 :=
  if mark = percentMark then do
    let high ← byteHexValue? a
    let low ← byteHexValue? b
    return high * 16 + low
  else none

def percentBytes : List UInt8 → List UInt8
  | [] => []
  | [a] => [a]
  | [a, b] => [a, b]
  | mark :: a :: b :: rest =>
    match percentByte? mark a b with
    | some byte => byte :: percentBytes rest
    | none => mark :: percentBytes (a :: b :: rest)

def percentDecoded? (s : String) : Option String :=
  String.fromUTF8? ⟨(percentBytes s.toUTF8.toList).toArray⟩

end Text

namespace Http

open Text

/-- The target is a path, with or without a scheme and a host in front of it, or a name that stands
for no path. -/
structure Request where
  method : String
  target : String
  body : String
  deriving DecidableEq, Repr

inductive Body where
  | none
  | text (s : String)
  | json (v : Value)
  deriving DecidableEq, Repr

structure Reply where
  status : Nat
  body : Body
  deriving DecidableEq, Repr

def refusal (status : Nat) : Reply := ⟨status, .none⟩

def path? (target : List Char) : Option (List Char) :=
  let path (cs : List Char) : List Char := cs.takeWhile fun c => c != '?' && c != '#'
  match target, cutAt? (· == ':') target with
  | '/' :: _, _ => some (path target)
  | _, some (_, _, '/' :: '/' :: rest) =>
    let found := path (rest.dropWhile fun c => c != '/' && c != '?' && c != '#')
    some (if found.isEmpty then ['/'] else found)
  | _, _ => none

inductive Route where
  | life
  | status
  | state
  | commandBody
  | commandPath (part : String)
  | actionsBody
  | actionsPath (part : String)
  deriving DecidableEq, Repr

namespace Route

def ofPath? (path : List Char) : Option Route :=
  match (path.splitOn '/').map String.ofList with
  | ["", ""] => some life
  | ["", "status"] => some status
  | ["", "state"] => some state
  | ["", "cmd"] => some commandBody
  | ["", "do"] => some actionsBody
  | ["", "cmd", part] => if part = "" then none else some (commandPath part)
  | ["", "do", part] => if part = "" then none else some (actionsPath part)
  | _ => none

def accepts (r : Route) (method : String) : Bool :=
  match r with
  | commandBody | actionsBody => method == "POST"
  | _ => method == "GET" || method == "HEAD"

end Route

def actionIds (text : String) : List String :=
  ((text.toList.splitOnP fun c => isBlank c || c == ',').filter (!·.isEmpty)).map String.ofList

inductive Demand where
  | refused (r : Reply)
  | life
  | state
  | command (text : String)
  | actions (ids : List String)
  deriving DecidableEq, Repr

def decoded (name part : String) (use : String → Demand) : Demand :=
  match percentDecoded? part with
  | some text => use text
  | none => .refused ⟨400, .text ("Invalid URL: Invalid UTF-8 in `" ++ name ++ "`")⟩

def Route.demand (r : Route) (body : String) : Demand :=
  match r with
  | life => .life
  | status => .command "status"
  | state => .state
  | commandBody => .command body
  | commandPath part => decoded "cmd" part .command
  | actionsBody => .actions (actionIds body)
  | actionsPath part => decoded "action" part fun text => .actions (actionIds text)

def Request.demand (r : Request) : Demand :=
  if r.method = "OPTIONS" then .refused (refusal 200)
  else
    match (path? r.target.toList).bind Route.ofPath? with
    | none => .refused (refusal 404)
    | some route => if route.accepts r.method then route.demand r.body else .refused (refusal 405)

def Demand.order? : Demand → Option Order
  | command text => some (.command text false)
  | actions ids =>
    if ids.isEmpty then none else some (.command (Controller.actionsCommand ids) false)
  | _ => none

def reply (c : Controller) (d : Demand) (s : State) : Reply × State :=
  match d with
  | .refused r => (r, s)
  | .life => (⟨200, .text "nomctrl up"⟩, s)
  | .state => (⟨200, .json (c.status s)⟩, s)
  | .command text =>
    let (response, s) := c.execute false 0 text s
    (⟨200, .json response.toValue⟩, s)
  | .actions ids =>
    let (response, s) := c.runActions 0 ids s
    (⟨200, .json response.toValue⟩, s)

def answer (c : Controller) (r : Request) (s : State) : Reply × State :=
  let (found, s) := reply c r.demand s
  (if r.method = "HEAD" then ⟨found.status, .none⟩ else found, s)

end Http

end HomeControl
