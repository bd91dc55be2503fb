import HomeControl.Controller
/-!
Events set off actions, which may cause further events. Events are handled in batches: all that
were caused while one batch was handled are the next one. An event of the last batch is as deep
as chains may get, so there is an end.
-/

namespace HomeControl

/-- What has been carried out so far. It is broken if something could not be carried out at all,
because a time in it is not in the calendar or a chain of causes got too long to be counted. -/
structure Progress where
  state : State
  ran : List Dispatch := []
  broken : Bool := false

namespace Progress

def andThen (p q : Progress) : Progress :=
  ⟨q.state, p.ran ++ q.ran, p.broken || q.broken⟩

end Progress

def Plan.isDefined (p : Plan) : Bool :=
  p.errors.all fun e =>
    match e with
    | .invalidTime _ .outsideCalendar => false
    | _ => true

namespace Controller

def canPerform (c : Controller) (o : Order) (s : State) : Bool :=
  match o with
  | .command text timed => (c.compile timed text s).isDefined
  | .setter _ => true

def performAll (c : Controller) (depth : Nat) : List Order → State → Progress
  | [], s => { state := s }
  | o :: rest, s =>
    if c.canPerform o s then
      let (response, s) := c.perform depth o s
      let p := c.performAll depth rest s
      { p with ran := ⟨o, depth, response⟩ :: p.ran }
    else { state := s, broken := true }

def react (c : Controller) (e : Event) (s : State) : Progress :=
  if e.depth < Context.depthLimit then
    c.performAll (e.depth + 1) ((c.router.reactions e).map (.command · false)) s
  else { state := s, broken := true }

def reactAll (c : Controller) : List Event → State → Progress
  | [], s => { state := s }
  | e :: rest, s =>
    let p := c.react e s
    p.andThen (c.reactAll rest p.state)

/-- Handles a batch of events, and then as many further batches as the number says. -/
def settleWithin (c : Controller) : Nat → List Event → State → Progress
  | _, [], s => { state := s }
  | 0, _, s => { state := s }
  | rounds + 1, batch, s =>
    let p := c.reactAll batch s
    p.andThen
      (c.settleWithin rounds (p.state.house.events.drop s.house.events.length) p.state)

def settle (c : Controller) (batch : List Event) (s : State) : Progress :=
  c.settleWithin (c.router.maxDepth + 1) batch s

end Controller

end HomeControl
