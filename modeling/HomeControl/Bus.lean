import HomeControl.Keyed
import HomeControl.Value
/-!
Changes of attribute values, the chain of causes that led to them, and their delivery to
subscribers. Every key has a channel, and so has the key `*`, which stands for all events. A channel
keeps as many messages as its capacity, a power of two. A receiver that fell further behind is told
once how many messages it missed and goes on with the oldest one that is kept.
-/

namespace HomeControl

/-- Where a command comes from. What a change sets off is one step deeper than the change. -/
structure Context where
  id : String
  parent : Option String
  depth : Nat
  deriving DecidableEq, Repr

namespace Context

def root (id : String) : Context := ⟨id, none, 0⟩

def child (c : Context) (id : String) : Context :=
  ⟨id, some c.id, c.depth + 1⟩

def depthLimit : Nat := bitRange 32 - 1

end Context

structure Event where
  node : String
  attr : String
  value : Value
  depth : Nat
  deriving DecidableEq, Repr

namespace Event

def attrKey (node attr : String) : String :=
  node ++ "." ++ attr

def key (e : Event) : String :=
  attrKey e.node e.attr

def valueKey (e : Event) : String :=
  e.key ++ "." ++ e.value.render

end Event

/-- All messages sent on a channel, and how many of the last ones are kept. -/
structure Channel where
  capacity : Nat
  sent : List Event
  deriving DecidableEq, Repr

inductive Delivery where
  | event (e : Event)
  | empty
  | lagged (missed : Nat)
  deriving DecidableEq, Repr

namespace Channel

def send (c : Channel) (e : Event) : Channel :=
  { c with sent := c.sent ++ [e] }

def receive (c : Channel) (position : Nat) : Delivery × Nat :=
  let oldest := c.sent.length - c.capacity
  if position < oldest then (.lagged (oldest - position), oldest)
  else
    match c.sent[position]? with
    | some e => (.event e, position + 1)
    | none => (.empty, position)

end Channel

structure Receiver where
  key : String
  position : Nat
  deriving DecidableEq, Repr

structure Bus where
  capacity : Nat
  channels : Keyed String Channel
  everything : Channel
  receivers : List Receiver
  deriving DecidableEq, Repr

namespace Bus

def defaultCapacity : Nat := 1024

def matchAll : String := "*"

def powerAbove (n : Nat) : Nat :=
  if n ≤ 1 then 1 else bitRange ((n - 1).log2 + 1)

def ofCapacity? (n : Nat) : Option Bus :=
  if n = 0 then none
  else
    let capacity := powerAbove n
    some ⟨capacity, .empty, ⟨capacity, []⟩, []⟩

def channel? (b : Bus) (key : String) : Option Channel :=
  if key = matchAll then some b.everything else b.channels.get? key

def subscribe (b : Bus) (key : String) : Bus :=
  match b.channel? key with
  | some c => { b with receivers := b.receivers ++ [⟨key, c.sent.length⟩] }
  | none =>
    { b with
      channels := b.channels.insert key ⟨b.capacity, []⟩
      receivers := b.receivers ++ [⟨key, 0⟩] }

def fire (b : Bus) (e : Event) : Bus :=
  let channels := [e.key, e.valueKey].foldl (fun t key => t.modify key (·.send e)) b.channels
  { b with channels := channels, everything := b.everything.send e }

def receive (b : Bus) (index : Nat) : Delivery × Bus :=
  match b.receivers[index]? with
  | none => (.empty, b)
  | some r =>
    match b.channel? r.key with
    | none => (.empty, b)
    | some c =>
      let (delivery, position) := c.receive r.position
      (delivery, { b with receivers := b.receivers.set index { r with position := position } })

def listenerCount (b : Bus) : Nat :=
  b.channels.keys.length

end Bus

end HomeControl
