import HomeControl.Feedback
import HomeControl.Proofs.Command.Members
/-!
Commands that switch what one word stands for. They come to the same whenever they are understood: to
settings of states and flips, to be carried out at once.
-/

namespace HomeControl

open Text

def Word.Narrow (w : String) : Prop :=
  ';' ∉ w.toList ∧ (words w).length ≤ 1

instance (w : String) : Decidable (Word.Narrow w) :=
  inferInstanceAs (Decidable (_ ∧ _))

structure Plan.Switching (p : Plan) : Prop where
  getters : p.getters = []
  faders : p.faders = []
  timed : p.timed = []
  setters : ∀ w ∈ p.setters, w.attr = Attr.flip ∨ w.attr = Attr.state ∧ ∃ on, w.value = some (.bool on)
  possible : p.isDefined = true

namespace Plan

theorem Switching.checked {p : Plan} (h : p.Switching) : p.checked.Switching := by
  unfold Plan.checked
  split
  · refine ⟨h.getters, h.faders, h.timed, h.setters, ?_⟩
    have known := h.possible
    unfold isDefined at *
    simp [note, known]
  · exact h

end Plan

namespace Situation

end Situation

end HomeControl
