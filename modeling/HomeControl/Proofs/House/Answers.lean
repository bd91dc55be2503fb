import HomeControl.Execution
import HomeControl.Proofs.House.Effects
/-!
What calls answer. Whether a reading or a setting fails, and with which error, is the same in every
house: it is a matter of the node, its device and the value. What is noted of a setting that succeeds
depends on what was known of its target.
-/

namespace HomeControl

def errorIn? {ε α : Type} : Except ε α → Option ε
  | .ok _ => none
  | .error e => some e

theorem eq_error_of_errorIn? {ε α : Type} {answer : Except ε α} {e : ε}
    (h : errorIn? answer = some e) : answer = .error e := by
  cases answer with
  | ok x => cases h
  | error e' =>
    cases h
    rfl

namespace Device

theorem error_set (d : Device) (capability : String) (value : Option Value)
    (s other : DeviceState) :
    errorIn? (d.set capability value s).1 = errorIn? (d.set capability value other).1 := by
  unfold set
  split
  · split
    · rfl
    · rw [writeStore_eq, writeStore_eq]
      by_cases lit : capability = Attr.brightness ∧ percentage? value = none
      · rw [if_pos lit, if_pos lit]
      · rw [if_neg lit, if_neg lit]
        by_cases tint : capability = Attr.color ∧ value.bind Color.ofValue? = none
        · rw [if_pos tint, if_pos tint]
        · rw [if_neg tint, if_neg tint]
  · rfl

theorem error_get (d : Device) (attr : String) (s other : DeviceState) :
    errorIn? (d.get attr s).1 = errorIn? (d.get attr other).1 := by
  unfold get
  split
  · split <;> rfl
  · split <;> rfl

end Device

namespace Topology

def settingError? (t : Topology) (w : Setter) : Option NodeError :=
  match t.nodes.get? w.node with
  | none => some (.unknown w.node)
  | some n =>
    (errorIn? (n.device.set (n.deviceAttr w.capability) w.value n.device.start).1).map
      (.driver w.node)

def readingError? (t : Topology) (g : Getter) : Option NodeError :=
  match t.nodes.get? g.node with
  | none => some (.unknown g.node)
  | some n => (errorIn? (n.device.get (n.deviceAttr g.attr) n.device.start).1).map (.driver g.node)

end Topology

namespace House

variable {t : Topology}

theorem error_set (h : House) (w : Setter) (depth : Nat) :
    errorIn? (h.set t w depth).1 = t.settingError? w := by
  unfold set Topology.settingError?
  cases t.nodes.get? w.node with
  | none => rfl
  | some n =>
    have same := n.device.error_set (n.deviceAttr w.capability) w.value (h.device n.device)
      n.device.start
    simp only [← same]
    cases n.device.set (n.deviceAttr w.capability) w.value (h.device n.device) with
    | mk answer state => cases answer <;> rfl

theorem error_get (h : House) (g : Getter) (depth : Nat) :
    errorIn? (h.get t g.node g.attr depth).1 = t.readingError? g := by
  unfold get Topology.readingError?
  cases t.nodes.get? g.node with
  | none => rfl
  | some n =>
    have same := n.device.error_get (n.deviceAttr g.attr) (h.device n.device) n.device.start
    simp only [← same]
    cases n.device.get (n.deviceAttr g.attr) (h.device n.device) with
    | mk answer state => cases answer <;> rfl

end House

theorem Topology.settingError?_eq_none (t : Topology) (w : Setter) :
    t.settingError? w = none ↔ t.accepts w = true := by
  rw [← House.error_set (House.start t) w 0, ← House.set_ok_iff t (House.start t) w 0]
  cases ((House.start t).set t w 0).1 with
  | ok u => exact ⟨fun _ => rfl, fun _ => rfl⟩
  | error e => exact ⟨nofun, nofun⟩

namespace Setter

/-- What a setter that is carried out makes known of its target. A flip makes something known only
where a boolean is. -/
def news (w : Setter) (known : Option Value) : Option Value :=
  if w.attr = Attr.flip then
    match known with
    | some (.bool on) => some (.bool !on)
    | _ => none
  else w.value

end Setter

namespace House

theorem noteSet_eq (h : House) (w : Setter) (depth : Nat) :
    h.noteSet w depth =
      match w.news (h.known? w.node w.target) with
      | some v => h.remember w.node w.target v depth
      | none => h := by
  unfold noteSet Setter.news Setter.target
  by_cases flip : w.attr = Attr.flip
  · simp only [flip, if_true]
    cases h.known? w.node Attr.state with
    | none => rfl
    | some v => cases v <;> rfl
  · cases w.value <;> simp only [flip, if_false]

end House

namespace State

variable (t : Topology)

theorem writeAll_answers (depth : Nat) (ws : List Setter) (s : State) :
    (s |> writeAll t depth ws).1 = ws.filterMap t.settingError? := by
  induction ws generalizing s with
  | nil => rfl
  | cons w rest ih =>
    have own := House.error_set (t := t) s.house w depth
    simp only [writeAll, write]
    cases call : s.house.set t w depth with
    | mk answer house =>
      rw [call] at own
      cases answer with
      | ok _ =>
        rw [List.filterMap_cons_none own.symm]
        exact ih _
      | error e =>
        rw [List.filterMap_cons_some own.symm]
        exact congrArg (e :: ·) (ih _)

end State

end HomeControl
