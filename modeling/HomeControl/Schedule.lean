import HomeControl.Schedule.Fader
import HomeControl.Keyed
import HomeControl.Time.Resolve
/-!
Scheduled work: running fades and setters for a later time, at most one of each for an attribute
of a node, and when the daily timers were looked at last.
-/

namespace HomeControl

structure Schedule where
  faders : Keyed ScheduleKey ActiveFader
  singles : Keyed ScheduleKey SingleShot
  generation : Nat
  lastTick : Option Instant
  deriving DecidableEq, Repr

namespace Schedule

def empty : Schedule := ⟨.empty, .empty, 1, none⟩

instance : Inhabited Schedule := ⟨empty⟩

def addFader (s : Schedule) (spec : FaderSpec) (now : Int) : Schedule :=
  let fader := ActiveFader.ofSpec spec now s.generation
  { s with faders := s.faders.insert fader.key fader, generation := s.generation + 1 }

def addSingle (s : Schedule) (timed : TimedSetter) : Schedule :=
  let shot : SingleShot := ⟨timed.setter, timed.due, s.generation⟩
  { s with singles := s.singles.insert shot.key shot, generation := s.generation + 1 }

def isBusy (s : Schedule) (key : ScheduleKey) : Bool :=
  s.faders.contains key || s.singles.contains key

def cancel (s : Schedule) (key : ScheduleKey) : Schedule :=
  { s with faders := s.faders.erase key, singles := s.singles.erase key }

/-- Notes the value that a fade applied, if it is still that registration. -/
def noteApplied (s : Schedule) (key : ScheduleKey) (generation : Nat) (value : Value) : Schedule :=
  match s.faders.get? key with
  | some f =>
    if f.generation = generation then
      { s with faders := s.faders.insert key { f with lastApplied := some value } }
    else s
  | none => s

def dropFader (s : Schedule) (key : ScheduleKey) (generation : Nat) : Schedule :=
  match s.faders.get? key with
  | some f =>
    if f.generation = generation then { s with faders := s.faders.erase key } else s
  | none => s

def byKey {ν : Type} (t : Keyed ScheduleKey ν) : List (ScheduleKey × ν) :=
  t.entries.mergeSort fun a b => a.1.le b.1

def takeDue? (s : Schedule) (key : ScheduleKey) (now : Int) : Option (SingleShot × Schedule) :=
  match s.singles.get? key with
  | some shot =>
    if shot.isDue now then some (shot, { s with singles := s.singles.erase key }) else none
  | none => none

def dueKeys (s : Schedule) (now : Int) : List ScheduleKey :=
  ((byKey s.singles).filter fun e => e.2.isDue now).map (·.1)

def takeAllDue (s : Schedule) (now : Int) : List ScheduleKey → List SingleShot × Schedule
  | [] => ([], s)
  | key :: rest =>
    match s.takeDue? key now with
    | some (shot, s) =>
      let (shots, s) := s.takeAllDue now rest
      (shot :: shots, s)
    | none => s.takeAllDue now rest

def fadersInOrder (s : Schedule) : List ActiveFader :=
  (byKey s.faders).map (·.2)

def singlesInOrder (s : Schedule) : List SingleShot :=
  SingleShot.inOrder s.singles.values

end Schedule

end HomeControl
