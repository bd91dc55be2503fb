import HomeControl.Proofs.House.Answers
import HomeControl.Proofs.Schedule.Overridden
/-!
Houses that agree but for lost devices. A call that fails changes nothing but whether its device is
online. That is seen by readings of `online` that the device does not answer itself, and by what is
known from such readings; all other calls see, answer and leave the same in both houses.
-/

namespace HomeControl

namespace Device

/-- Whether reading an attribute is no call, but shows whether the last call succeeded. -/
def isFlag (d : Device) (attr : String) : Bool :=
  attr == Attr.online && !d.readable.contains attr

theorem get_flag {d : Device} {attr : String} (flag : d.isFlag attr = true) (s : DeviceState) :
    d.get attr s = (.ok (.bool s.online), s) := by
  simp only [isFlag, Bool.and_eq_true, beq_iff_eq, Bool.not_eq_true'] at flag
  obtain ⟨rfl, undeclared⟩ := flag
  simp only [get, undeclared, Bool.false_eq_true, if_false, if_true]

theorem get_call {d : Device} {attr : String} (call : d.isFlag attr = false) (s : DeviceState)
    (answered : errorIn? (d.get attr s).1 = none) :
    d.get attr s = (.ok (readStore s.store attr), ⟨s.store, true⟩) := by
  unfold get at answered ⊢
  split
  · rename_i can
    rw [if_pos can] at answered
    split
    · rename_i lost
      rw [if_pos lost] at answered
      cases answered
    · rfl
  · rename_i cannot
    rw [if_neg cannot] at answered
    have other : attr ≠ Attr.online := by
      rintro rfl
      exact cannot (by simpa [isFlag] using call)
    rw [if_neg other] at answered
    cases answered

end Device

namespace House

/-- Two houses that agree but for whether the devices of some ids are online and for what is known of
some attributes of nodes. -/
structure SameBut (t : Topology) (lost : String → Prop) (blurred : String → String → Bool)
    (a b : House) : Prop where
  stores : ∀ d, t.devices.get? d.id = some d → (a.device d).store = (b.device d).store
  online : ∀ d, t.devices.get? d.id = some d → ¬ lost d.id →
    (a.device d).online = (b.device d).online
  known : ∀ node attr, blurred node attr = false → a.known? node attr = b.known? node attr
  events : (a.events.filter fun e => !blurred e.node e.attr) =
    b.events.filter fun e => !blurred e.node e.attr

namespace SameBut

variable {t : Topology} {lost : String → Prop} {blurred : String → String → Bool}

theorem refl (h : House) : SameBut t lost blurred h h :=
  ⟨fun _ _ => rfl, fun _ _ _ => rfl, fun _ _ _ => rfl, rfl⟩

theorem symm {a b : House} (same : SameBut t lost blurred a b) : SameBut t lost blurred b a where
  stores d made := (same.stores d made).symm
  online d made reached := (same.online d made reached).symm
  known node attr clear := (same.known node attr clear).symm
  events := same.events.symm

theorem trans {a b c : House} (first : SameBut t lost blurred a b)
    (second : SameBut t lost blurred b c) : SameBut t lost blurred a c where
  stores d made := (first.stores d made).trans (second.stores d made)
  online d made reached := (first.online d made reached).trans (second.online d made reached)
  known node attr clear := (first.known node attr clear).trans (second.known node attr clear)
  events := first.events.trans second.events

theorem own {d other : Device} (linked : t.devices.get? d.id = some d)
    (made : t.devices.get? other.id = some other) (same : d.id = other.id) : d = other := by
  rw [same, made] at linked
  exact (Option.some.inj linked).symm

theorem putDevice_lost {h : House} {d : Device} {s : DeviceState}
    (linked : t.devices.get? d.id = some d) (gone : lost d.id)
    (kept : s.store = (h.device d).store) : SameBut t lost blurred (h.putDevice d s) h where
  stores other made := by
    rw [device_putDevice]
    split
    · rename_i same
      rw [kept, own linked made same]
    · rfl
  online other made reached := by
    rw [device_putDevice, if_neg]
    exact fun same => reached (same ▸ gone)
  known _ _ _ := rfl
  events := rfl

theorem remember_blurred {h : House} {node attr : String} (blur : blurred node attr = true)
    (v : Value) (depth : Nat) : SameBut t lost blurred (h.remember node attr v depth) h where
  stores _ _ := rfl
  online _ _ _ := rfl
  known n a clear := by
    rw [known?_remember, if_neg]
    rintro ⟨rfl, rfl⟩
    rw [blur] at clear
    cases clear
  events := by
    simp only [remember]
    split
    · simp [blur]
    · rfl

theorem get_refused (linked : t.Linked) (h : House) {g : Getter}
    (refused : (t.readingError? g).isSome = true)
    (gone : ∀ n, t.nodes.get? g.node = some n → lost n.device.id) (depth : Nat) :
    SameBut t lost blurred (h.get t g.node g.attr depth).2 h := by
  rw [← error_get (t := t) h g depth] at refused
  unfold get at refused ⊢
  cases found : t.nodes.get? g.node with
  | none => exact refl h
  | some n =>
    have kept := n.device.get_store (n.deviceAttr g.attr) (h.device n.device)
    simp only [found] at refused ⊢
    cases call : n.device.get (n.deviceAttr g.attr) (h.device n.device) with
    | mk answer s =>
      rw [call] at refused kept
      cases answer with
      | error e => exact putDevice_lost (linked g.node n found) (gone n found) kept
      | ok v => cases refused

theorem set_refused (linked : t.Linked) (h : House) {w : Setter} (refused : t.accepts w = false)
    (gone : ∀ n, t.nodes.get? w.node = some n → lost n.device.id) (depth : Nat) :
    SameBut t lost blurred (h.set t w depth).2 h := by
  obtain ⟨e, after, done, same | ⟨n, s, found, same, kept⟩⟩ := set_of_refused h depth refused
  · rw [done, same]
    exact refl h
  · rw [done, same]
    exact putDevice_lost (linked w.node n found) (gone n found) kept

variable {a b : House}

theorem putDevice (same : SameBut t lost blurred a b) (d : Device) {s r : DeviceState}
    (stores : s.store = r.store) (online : ¬ lost d.id → s.online = r.online) :
    SameBut t lost blurred (a.putDevice d s) (b.putDevice d r) where
  stores other made := by
    rw [device_putDevice, device_putDevice]
    split
    · exact stores
    · exact same.stores other made
  online other made reached := by
    rw [device_putDevice, device_putDevice]
    split
    · rename_i here
      exact online (here ▸ reached)
    · exact same.online other made reached
  known := same.known
  events := same.events

theorem remember (same : SameBut t lost blurred a b) (node attr : String) (v : Value)
    (depth : Nat) :
    SameBut t lost blurred (a.remember node attr v depth) (b.remember node attr v depth) := by
  cases clear : blurred node attr with
  | true =>
    exact (remember_blurred clear v depth).trans (same.trans (remember_blurred clear v depth).symm)
  | false =>
    refine ⟨same.stores, same.online, ?_, ?_⟩
    · intro n x out
      rw [known?_remember, known?_remember, same.known n x out]
    · simp only [House.remember, ← known?_eq, same.known node attr clear]
      split
      · rw [List.filter_append, List.filter_append, same.events]
      · exact same.events

theorem noted_blurred {node attr : String} (blur : blurred node attr = true) (h : House)
    (news : Option Value) (depth : Nat) :
    SameBut t lost blurred
      (match news with
        | some v => h.remember node attr v depth
        | none => h) h := by
  cases news with
  | none => exact refl h
  | some v => exact remember_blurred blur v depth

theorem noteSet (same : SameBut t lost blurred a b) (w : Setter) (depth : Nat) :
    SameBut t lost blurred (a.noteSet w depth) (b.noteSet w depth) := by
  rw [noteSet_eq, noteSet_eq]
  cases clear : blurred w.node w.target with
  | true =>
    exact (noted_blurred clear a _ depth).trans
      (same.trans (noted_blurred clear b _ depth).symm)
  | false =>
    rw [same.known _ _ clear]
    split
    · exact same.remember _ _ _ depth
    · exact same

theorem set_accepted (linked : t.Linked) (same : SameBut t lost blurred a b) {w : Setter}
    (accepted : t.accepts w = true) (depth : Nat) :
    SameBut t lost blurred (a.set t w depth).2 (b.set t w depth).2 := by
  obtain ⟨n, field, found, rfl, first⟩ := set_of_accepted a depth accepted
  obtain ⟨m, field, here, rfl, second⟩ := set_of_accepted b depth accepted
  rw [found] at here
  cases here
  rw [first, second, same.stores n.device (linked w.node n found)]
  exact (same.putDevice n.device rfl fun _ => rfl).noteSet w depth

/-- Readings agree if they are of the same value, or else both show whether a lost device is online. -/
def Agree (blurred : Bool) (v w : Value) : Prop :=
  v = w ∨ blurred = true ∧ ∃ x y, v = .bool x ∧ w = .bool y

def ReadAlike (t : Topology) (lost : String → Prop) (blurred : String → String → Bool) (a b : House)
    (g : Getter) (depth : Nat) : Prop :=
  ∃ v w, (a.get t g.node g.attr depth).1 = .ok v ∧ (b.get t g.node g.attr depth).1 = .ok w ∧
    Agree (blurred g.node g.attr) v w ∧
    SameBut t lost blurred (a.get t g.node g.attr depth).2 (b.get t g.node g.attr depth).2

theorem get_of_flag (linked : t.Linked) (same : SameBut t lost blurred a b) {g : Getter} {n : Node}
    (found : t.nodes.get? g.node = some n) (flag : n.device.isFlag (n.deviceAttr g.attr) = true)
    (blurs : lost n.device.id → blurred g.node g.attr = true) (depth : Nat) :
    ReadAlike t lost blurred a b g depth := by
  have online := same.online n.device (linked g.node n found)
  have put : SameBut t lost blurred (a.putDevice n.device (a.device n.device))
      (b.putDevice n.device (b.device n.device)) :=
    same.putDevice n.device (same.stores n.device (linked g.node n found)) online
  unfold ReadAlike House.get
  simp only [found, Device.get_flag flag, Value.isNull, Bool.false_eq_true, if_false]
  refine ⟨_, _, rfl, rfl, ?_⟩
  by_cases gone : lost n.device.id
  · have blur := blurs gone
    exact ⟨Or.inr ⟨blur, _, _, rfl, rfl⟩, (remember_blurred blur _ depth).trans
      (put.trans (remember_blurred blur _ depth).symm)⟩
  · rw [← online gone]
    exact ⟨Or.inl rfl, put.remember _ _ _ depth⟩

theorem get_of_call (linked : t.Linked) (same : SameBut t lost blurred a b) {g : Getter} {n : Node}
    (found : t.nodes.get? g.node = some n) (flag : n.device.isFlag (n.deviceAttr g.attr) = false)
    (answered : t.readingError? g = none) (depth : Nat) : ReadAlike t lost blurred a b g depth := by
  have stores := same.stores n.device (linked g.node n found)
  have both : ∀ h : House, n.device.get (n.deviceAttr g.attr) (h.device n.device) =
      (.ok (Device.readStore (h.device n.device).store (n.deviceAttr g.attr)),
        ⟨(h.device n.device).store, true⟩) := by
    intro h
    refine Device.get_call flag _ ?_
    have fails := n.device.error_get (n.deviceAttr g.attr) (h.device n.device) n.device.start
    simp only [Topology.readingError?, found, Option.map_eq_none_iff] at answered
    exact fails.trans answered
  have put := same.putDevice n.device (s := ⟨(b.device n.device).store, true⟩) rfl fun _ => rfl
  unfold ReadAlike House.get
  simp only [found, both, stores]
  refine ⟨_, _, rfl, rfl, Or.inl rfl, ?_⟩
  split
  · exact put
  · exact put.remember _ _ _ depth

theorem get_answered (linked : t.Linked) (same : SameBut t lost blurred a b) {g : Getter}
    (answered : t.readingError? g = none)
    (blurs : ∀ n, t.nodes.get? g.node = some n → n.device.isFlag (n.deviceAttr g.attr) = true →
      lost n.device.id → blurred g.node g.attr = true) (depth : Nat) :
    ReadAlike t lost blurred a b g depth := by
  cases found : t.nodes.get? g.node with
  | none =>
    simp only [Topology.readingError?, found] at answered
    cases answered
  | some n =>
    cases flag : n.device.isFlag (n.deviceAttr g.attr) with
    | true => exact same.get_of_flag linked found flag (blurs n found flag) depth
    | false => exact same.get_of_call linked found flag answered depth

end SameBut

end House

end HomeControl
