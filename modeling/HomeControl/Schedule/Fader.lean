import HomeControl.Attr
import HomeControl.Plan
/-!
Running fades, and setters for a later time. Scheduled work is about an attribute of a node, and a
flip is about the state. Times are milliseconds since 1970. The generation tells a registration
from all others.
-/

namespace HomeControl

structure ScheduleKey where
  node : String
  attr : String
  deriving DecidableEq, Repr

namespace ScheduleKey

def of (node attr : String) : ScheduleKey :=
  ⟨node, if Attr.isTrigger attr then Attr.state else attr⟩

def text (k : ScheduleKey) : String :=
  k.node ++ "." ++ k.attr

def le (a b : ScheduleKey) : Bool :=
  a.node < b.node || (a.node == b.node && !decide (b.attr < a.attr))

end ScheduleKey

structure ActiveFader where
  spec : FaderSpec
  start : Int
  lastApplied : Option Value
  generation : Nat
  deriving DecidableEq, Repr

namespace ActiveFader

def ofSpec (spec : FaderSpec) (start : Int) (generation : Nat) : ActiveFader :=
  ⟨spec, start, none, generation⟩

def key (f : ActiveFader) : ScheduleKey :=
  .of f.spec.node f.spec.attr

def length (f : ActiveFader) : Int :=
  saturated f.spec.duration.millis

def finish (f : ActiveFader) : Int :=
  saturated (f.start + f.length)

def progress (f : ActiveFader) (now : Int) : Float :=
  if f.length ≤ 0 then 1
  else
    let p := Float.ofInt (saturated (now - f.start)) / Float.ofInt f.length
    if p < 0 then 0 else if p > 1 then 1 else p

def isFinished (f : ActiveFader) (now : Int) : Bool :=
  f.finish ≤ now

def valueAt (f : ActiveFader) (now : Int) : Value :=
  if f.isFinished now then f.spec.values.goal else f.spec.values.valueAt (f.progress now)

def step? (f : ActiveFader) (now : Int) : Option Value :=
  let value := f.valueAt now
  match f.lastApplied with
  | some last => if last.same value then none else some value
  | none => some value

end ActiveFader

structure SingleShot where
  setter : Setter
  due : Int
  generation : Nat
  deriving DecidableEq, Repr

namespace SingleShot

def key (s : SingleShot) : ScheduleKey :=
  .of s.setter.node s.setter.attr

def isDue (s : SingleShot) (now : Int) : Bool :=
  s.due ≤ now

def inOrder (shots : List SingleShot) : List SingleShot :=
  shots.mergeSort fun a b =>
    ScheduleKey.le ⟨a.setter.node, a.setter.attr⟩ ⟨b.setter.node, b.setter.attr⟩

end SingleShot

def ActiveFader.toValue (f : ActiveFader) : Value :=
  .ofFields [("spec", f.spec.toValue), ("start_ms", .int f.start),
    ("last_applied", f.lastApplied.getD .null)]

def SingleShot.toValue (s : SingleShot) : Value :=
  .ofFields [("setter", s.setter.toValue), ("at_ms", .int s.due)]

end HomeControl
