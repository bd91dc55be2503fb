import HomeControl.Feedback
/-!
A controller at work. It looks at the timers at the start and then in a fixed rhythm. It looks at
the fades, and at the setters for a later time, as soon as there are any, and then in their rhythm
until there are none. Time is counted in whole seconds.
-/

namespace HomeControl

inductive Wake where
  | atSecond (second : Nat)
  | onWork
  deriving DecidableEq, Repr

namespace Wake

def isDue (w : Wake) (second : Nat) (hasWork : Bool) : Bool :=
  match w with
  | atSecond s => s ≤ second
  | onWork => hasWork

end Wake

/-- The timers are no longer looked at after that failed once. -/
structure Loops where
  timers : Option Nat
  faders : Wake
  singles : Wake
  deriving DecidableEq, Repr

structure Session where
  controller : Controller
  state : State
  second : Nat
  loops : Option Loops

namespace Session

def start (c : Controller) (now : Instant) : Session :=
  ⟨c, .start c.topology now, 0, none⟩

def settle (s : Session) (count : Nat) : Session :=
  { s with state := (s.controller.settle (s.state.house.events.drop count) s.state).state }

def change (s : Session) (f : State → State) : Session :=
  settle { s with state := f s.state } s.state.house.events.length

def wakeTimers (s : Session) : Session :=
  match s.loops with
  | some ⟨some due, faders, singles⟩ =>
    if due ≤ s.second then
      let (orders, state) := s.controller.tickTimers s.state
      match orders with
      | some orders =>
        let p := s.controller.performAll 0 orders state
        let next := if p.broken then none else some (s.second + s.controller.intervals.timers)
        { s with loops := some ⟨next, faders, singles⟩ }.change fun _ => p.state
      | none => { s with state := state, loops := some ⟨none, faders, singles⟩ }
    else s
  | _ => s

def wakeFaders (s : Session) : Session :=
  match s.loops with
  | some loops =>
    let hasWork := !s.state.schedule.faders.isEmpty
    if loops.faders.isDue s.second hasWork then
      if hasWork then
        let next := Wake.atSecond (s.second + s.controller.intervals.faders)
        { s with loops := some { loops with faders := next } }.change s.controller.tickFaders
      else { s with loops := some { loops with faders := .onWork } }
    else s
  | none => s

def wakeSingles (s : Session) : Session :=
  match s.loops with
  | some loops =>
    let hasWork := !s.state.schedule.singles.isEmpty
    if loops.singles.isDue s.second hasWork then
      if hasWork then
        let next := Wake.atSecond (s.second + s.controller.intervals.singles)
        { s with loops := some { loops with singles := next } }.change fun state =>
          let (orders, state) := Controller.tickSingles state
          (s.controller.performAll 0 orders state).state
      else { s with loops := some { loops with singles := .onWork } }
    else s
  | none => s

/-- Does all that is to be done now. Setters may start fades, and events of both may start
either. -/
def rest (s : Session) : Session :=
  s.wakeTimers.wakeFaders.wakeSingles.wakeFaders

def launch (s : Session) : Option Session :=
  match s.loops with
  | some _ => none
  | none => some { s with loops := some ⟨some s.second, .onWork, .onWork⟩ }

def halt (s : Session) : Session :=
  { s with loops := none }

def setClock (s : Session) (now : Instant) : Session :=
  { s with state := { s.state with now := now } }

def passSecond (s : Session) : Session :=
  rest { s with second := s.second + 1, state := { s.state with now := s.state.now.plusMillis 1000 } }

end Session

end HomeControl
