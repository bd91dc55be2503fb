import HomeControl.House
import HomeControl.Proofs.Table
import HomeControl.Proofs.Value.Fields
import HomeControl.Schedule.Fader
/-!
What one reading and one setting do to a house: which calls a device accepts, what is stored and
what is known afterwards. Whether a setting succeeds depends on the device and the value alone.
-/

namespace HomeControl

namespace Device

def accepts (d : Device) (capability : String) (value : Option Value) : Bool :=
  d.hasSet capability && !d.unreachable &&
    if capability = Attr.brightness then (percentage? value).isSome
    else if capability = Attr.color then (value.bind Color.ofValue?).isSome
    else true

def written (capability : String) (value : Option Value) (store : List (String × Value)) :
    String × Value :=
  if capability = Attr.on then (Attr.state, .bool true)
  else if capability = Attr.off then (Attr.state, .bool false)
  else if capability = Attr.flip then
    (Attr.state, .bool !((store.lookup Attr.state).bind Value.bool?).getD false)
  else if capability = Attr.color then
    (capability, ((value.bind Color.ofValue?).map Color.toValue).getD .null)
  else (capability, value.getD .null)

theorem percentage?_eq_some {value : Option Value} {n : Nat} (h : percentage? value = some n) :
    value = some (.int n) := by
  unfold percentage? at h
  split at h
  · rename_i v
    cases v <;> simp [Value.nat?] at h
    rename_i i
    cases i <;> simp_all
  · exact absurd h (by simp)

theorem writeStore_eq (store : List (String × Value)) (capability : String)
    (value : Option Value) :
    writeStore store capability value =
      if capability = Attr.brightness ∧ percentage? value = none then
        .error (.invalidValue capability "expected a percentage between 0 and 100")
      else if capability = Attr.color ∧ value.bind Color.ofValue? = none then
        .error (.invalidValue capability "expected [r, g, b]")
      else
        .ok (Value.putField (written capability value store).1
          (written capability value store).2 store) := by
  unfold writeStore written
  by_cases on : capability = Attr.on
  · subst on; rfl
  by_cases off : capability = Attr.off
  · subst off; rfl
  by_cases flip : capability = Attr.flip
  · subst flip; rfl
  by_cases lit : capability = Attr.brightness
  · subst lit
    cases h : percentage? value with
    | none => rfl
    | some n =>
      rw [percentage?_eq_some h]
      rfl
  by_cases tint : capability = Attr.color
  · subst tint
    cases h : value.bind Color.ofValue? with
    | none => rfl
    | some c => rfl
  · simp [on, off, flip, lit, tint]

theorem set_accepted {d : Device} {capability : String} {value : Option Value}
    (h : d.accepts capability value = true) (s : DeviceState) :
    d.set capability value s =
      (.ok (), ⟨Value.putField (written capability value s.store).1
        (written capability value s.store).2 s.store, true⟩) := by
  simp only [accepts, hasSet, Bool.and_eq_true, Bool.not_eq_true'] at h
  obtain ⟨⟨has, reached⟩, takes⟩ := h
  have lit : ¬ (capability = Attr.brightness ∧ percentage? value = none) := by
    rintro ⟨rfl, none⟩
    simp [none] at takes
  have tint : ¬ (capability = Attr.color ∧ value.bind Color.ofValue? = none) := by
    rintro ⟨rfl, none⟩
    simp [none, Attr.color, Attr.brightness] at takes
  simp only [set, has, reached, writeStore_eq, lit, tint, if_true, if_false, Bool.false_eq_true]

theorem set_refused {d : Device} {capability : String} {value : Option Value}
    (h : d.accepts capability value = false) (s : DeviceState) :
    ∃ e, (d.set capability value s).1 = .error e ∧
      (d.set capability value s).2.store = s.store := by
  unfold set
  split
  · rename_i has
    split
    · exact ⟨_, rfl, rfl⟩
    · rename_i reached
      have lit : (capability = Attr.brightness ∧ percentage? value = none) ∨
          (capability = Attr.color ∧ value.bind Color.ofValue? = none) := by
        simp only [accepts, hasSet, has, reached, Bool.true_and, Bool.not_false] at h
        split at h
        · rename_i same
          exact Or.inl ⟨same, Option.not_isSome_iff_eq_none.mp (by simp [h])⟩
        · split at h
          · rename_i same
            exact Or.inr ⟨same, Option.not_isSome_iff_eq_none.mp (by simp [h])⟩
          · exact absurd h (by simp)
      have refused : ∃ e, writeStore s.store capability value = .error e := by
        rw [writeStore_eq]
        split
        · exact ⟨_, rfl⟩
        · rename_i other
          exact ⟨_, if_pos (lit.resolve_left other)⟩
      obtain ⟨e, he⟩ := refused
      rw [he]
      exact ⟨e, rfl, rfl⟩
  · exact ⟨_, rfl, rfl⟩

theorem store_set (d : Device) (capability : String) (value : Option Value)
    (s : DeviceState) :
    (d.set capability value s).2.store =
      let field := written capability value s.store
      if d.accepts capability value then Value.putField field.1 field.2 s.store else s.store := by
  cases accepted : d.accepts capability value with
  | true => rw [set_accepted accepted]; rfl
  | false =>
    obtain ⟨-, -, kept⟩ := set_refused accepted s
    exact kept

theorem get_store (d : Device) (attr : String) (s : DeviceState) :
    (d.get attr s).2.store = s.store := by
  unfold get
  split
  · split <;> rfl
  · split <;> rfl

end Device

namespace Setter

def target (w : Setter) : String :=
  if w.attr = Attr.flip then Attr.state else w.attr

/-- What is known of the target once the setter was carried out. -/
def outcome (w : Setter) (known : Option Value) : Option Value :=
  if w.attr = Attr.flip then
    match known with
    | some (.bool on) => some (.bool !on)
    | other => other
  else w.value.or known

def key (w : Setter) : ScheduleKey :=
  .of w.node w.attr

theorem key_eq (w : Setter) : w.key = ⟨w.node, w.target⟩ := by
  unfold key ScheduleKey.of target Attr.isTrigger
  by_cases state : w.attr = Attr.state
  · simp [state]
  · simp [state]

theorem target_eq {w : Setter} (h : w.attr ≠ Attr.flip) : w.target = w.attr := if_neg h

theorem outcome_eq {w : Setter} (h : w.attr ≠ Attr.flip) (known : Option Value) :
    w.outcome known = w.value.or known := by
  simp only [outcome, h, if_false]

theorem outcome_flip_flip (node : String) (known : Option Value) :
    (Setter.flip node).outcome ((Setter.flip node).outcome known) = known := by
  cases known with
  | none => rfl
  | some v =>
    cases v with
    | bool on => cases on <;> rfl
    | _ => rfl

end Setter

theorem Node.deviceAttr_of_unmapped {n : Node} (h : n.map = []) (attr : String) :
    n.deviceAttr attr = attr := by
  unfold deviceAttr
  rw [h]
  rfl

/-- Whether the device behind the node of a setter carries it out. -/
def Topology.accepts (t : Topology) (w : Setter) : Bool :=
  match t.nodes.get? w.node with
  | some n => n.device.accepts (n.deviceAttr w.capability) w.value
  | none => false

namespace House

@[simp] theorem known?_putDevice (h : House) (d : Device) (s : DeviceState) (node attr : String) :
    (h.putDevice d s).known? node attr = h.known? node attr := rfl

@[simp] theorem device_remember (h : House) (node attr : String) (v : Value) (depth : Nat)
    (d : Device) : (h.remember node attr v depth).device d = h.device d := rfl

theorem device_putDevice (h : House) (d other : Device) (s : DeviceState) :
    (h.putDevice d s).device other = if d.id = other.id then s else h.device other := by
  simp only [device, putDevice, Keyed.get?_insert]
  split <;> rfl

theorem known?_eq (h : House) (node attr : String) :
    h.known? node attr = ((h.snapshot? node).getD []).lookup attr := by
  unfold known?
  cases h.snapshot? node <;> rfl

theorem known?_start (t : Topology) (node attr : String) :
    (House.start t).known? node attr = none := by
  have fresh : ∀ (ids : List String) (values : List (String × Value)),
      (ids.map (·, ([] : List (String × Value)))).lookup node = some values → values = [] := by
    intro ids values found
    have inside := Keyed.mem_entries_of_get? (t := ⟨ids.map (·, [])⟩) found
    obtain ⟨id, -, same⟩ := List.mem_map.mp inside
    cases same
    rfl
  unfold known?
  cases found : (House.start t).snapshot? node with
  | none => rfl
  | some values =>
    rw [fresh _ values found]
    rfl

theorem known?_remember (h : House) (node attr : String) (v : Value) (depth : Nat)
    (n a : String) :
    (h.remember node attr v depth).known? n a =
      if node = n ∧ attr = a then some v else h.known? n a := by
  simp only [known?_eq, remember, snapshot?, Keyed.get?_insert]
  by_cases hn : node = n
  · subst hn
    simp only [if_true, Option.getD_some, Value.lookup_putField, true_and]
  · simp only [hn, if_false, false_and]

theorem device_noteSet (h : House) (w : Setter) (depth : Nat) (d : Device) :
    (h.noteSet w depth).device d = h.device d := by
  unfold noteSet
  split
  · split <;> rfl
  · split <;> rfl

theorem known?_noteSet (h : House) (w : Setter) (depth : Nat) (node attr : String) :
    (h.noteSet w depth).known? node attr =
      if w.node = node ∧ w.target = attr then w.outcome (h.known? node attr)
      else h.known? node attr := by
  unfold noteSet Setter.target Setter.outcome
  by_cases flip : w.attr = Attr.flip
  · simp only [flip, if_true]
    by_cases hit : w.node = node ∧ Attr.state = attr
    · obtain ⟨rfl, rfl⟩ := hit
      cases known : h.known? w.node Attr.state with
      | none => simp [known]
      | some v =>
        cases v with
        | bool on => simp [known?_remember]
        | _ => simp [known]
    · split <;> simp only [known?_remember, hit, if_false]
  · simp only [flip, if_false]
    cases w.value with
    | none => simp
    | some v =>
      simp only [known?_remember, Option.some_or]

theorem set_of_accepted {t : Topology} {w : Setter} (h : House) (depth : Nat)
    (accepted : t.accepts w = true) :
    ∃ n field, t.nodes.get? w.node = some n ∧
      field = Device.written (n.deviceAttr w.capability) w.value (h.device n.device).store ∧
      h.set t w depth = (.ok (), (h.putDevice n.device
        ⟨Value.putField field.1 field.2 (h.device n.device).store, true⟩).noteSet w depth) := by
  unfold Topology.accepts at accepted
  cases found : t.nodes.get? w.node with
  | none => simp [found] at accepted
  | some n =>
    simp only [found] at accepted
    refine ⟨n, _, rfl, rfl, ?_⟩
    simp only [set, found, Device.set_accepted accepted]

theorem set_of_refused {t : Topology} {w : Setter} (h : House) (depth : Nat)
    (refused : t.accepts w = false) :
    ∃ e after, h.set t w depth = (.error e, after) ∧
      (after = h ∨ ∃ n state, t.nodes.get? w.node = some n ∧ after = h.putDevice n.device state ∧
        state.store = (h.device n.device).store) := by
  unfold Topology.accepts at refused
  cases found : t.nodes.get? w.node with
  | none => exact ⟨.unknown w.node, h, by simp only [set, found], Or.inl rfl⟩
  | some n =>
    simp only [found] at refused
    obtain ⟨e, failed, kept⟩ := Device.set_refused refused (h.device n.device)
    cases call : n.device.set (n.deviceAttr w.capability) w.value (h.device n.device) with
    | mk answer state =>
      rw [call] at failed kept
      simp only at failed kept
      subst failed
      exact ⟨.driver w.node e, _, by simp only [set, found, call],
        Or.inr ⟨n, state, rfl, rfl, kept⟩⟩

theorem set_ok_iff (t : Topology) (h : House) (w : Setter) (depth : Nat) :
    (h.set t w depth).1 = .ok () ↔ t.accepts w = true := by
  cases accepted : t.accepts w with
  | true =>
    obtain ⟨n, field, -, -, done⟩ := set_of_accepted h depth accepted
    simp [done]
  | false =>
    obtain ⟨e, after, done, -⟩ := set_of_refused h depth accepted
    simp [done]

theorem accepts_of_ok {t : Topology} {h after : House} {w : Setter} {depth : Nat} {u : Unit}
    (call : h.set t w depth = (.ok u, after)) : t.accepts w = true := by
  apply (set_ok_iff t h w depth).mp
  rw [call]

theorem refuses_of_error {t : Topology} {h after : House} {w : Setter} {depth : Nat}
    {e : NodeError} (call : h.set t w depth = (.error e, after)) : t.accepts w = false := by
  apply Bool.eq_false_iff.mpr
  intro accepted
  have done := (set_ok_iff t h w depth).mpr accepted
  rw [call] at done
  cases done

theorem known?_set (t : Topology) (h : House) (w : Setter) (depth : Nat) (node attr : String) :
    (h.set t w depth).2.known? node attr =
      if t.accepts w = true ∧ w.node = node ∧ w.target = attr then w.outcome (h.known? node attr)
      else h.known? node attr := by
  cases accepted : t.accepts w with
  | true =>
    obtain ⟨n, field, -, -, done⟩ := set_of_accepted h depth accepted
    simp only [done, known?_noteSet, known?_putDevice, true_and]
  | false =>
    obtain ⟨e, after, done, same | ⟨n, state, -, same, -⟩⟩ := set_of_refused h depth accepted
    · simp [done, same]
    · simp [done, same]

def setAll (t : Topology) (depth : Nat) (ws : List Setter) (h : House) : House :=
  ws.foldl (fun h w => (h.set t w depth).2) h

theorem known?_setAll_other (t : Topology) (depth : Nat) {ws : List Setter} {node attr : String}
    (other : ∀ w ∈ ws, w.key ≠ ⟨node, attr⟩) (h : House) :
    (h.setAll t depth ws).known? node attr = h.known? node attr := by
  induction ws generalizing h with
  | nil => rfl
  | cons w rest ih =>
    have apart : ¬ (t.accepts w = true ∧ w.node = node ∧ w.target = attr) := by
      rintro ⟨-, rfl, rfl⟩
      exact other w List.mem_cons_self w.key_eq
    have first := known?_set t h w depth node attr
    rw [if_neg apart] at first
    exact (ih (fun x inside => other x (List.mem_cons_of_mem _ inside)) _).trans first

/-- Of setters with different keys, each changes what is known of its own target. -/
theorem known?_setAll (t : Topology) (depth : Nat) {ws : List Setter}
    (once : (ws.map (·.key)).Nodup) {w : Setter} (inside : w ∈ ws) (h : House) :
    (h.setAll t depth ws).known? w.node w.target =
      if t.accepts w = true then w.outcome (h.known? w.node w.target)
      else h.known? w.node w.target := by
  induction ws generalizing h with
  | nil => exact absurd inside List.not_mem_nil
  | cons x rest ih =>
    obtain ⟨fresh, once⟩ := List.nodup_cons.mp once
    have first := known?_set t h x depth w.node w.target
    rcases List.mem_cons.mp inside with rfl | later
    · have others : ∀ y ∈ rest, y.key ≠ ⟨w.node, w.target⟩ := by
        intro y hy same
        exact fresh (List.mem_map.mpr ⟨y, hy, same.trans w.key_eq.symm⟩)
      refine (known?_setAll_other t depth others _).trans (first.trans ?_)
      simp only [and_true]
    · have apart : ¬ (t.accepts x = true ∧ x.node = w.node ∧ x.target = w.target) := by
        rintro ⟨-, node, target⟩
        have same : w.key = x.key := by rw [w.key_eq, x.key_eq, node, target]
        exact fresh (List.mem_map.mpr ⟨w, later, same⟩)
      rw [if_neg apart] at first
      rw [← first]
      exact ih once later _

theorem known?_get (t : Topology) (h : House) (node attr : String) (depth : Nat) (n a : String) :
    (h.get t node attr depth).2.known? n a = h.known? n a ∨
      ∃ v, (h.get t node attr depth).1 = .ok v ∧ v ≠ .null ∧ node = n ∧ attr = a ∧
        (h.get t node attr depth).2.known? n a = some v := by
  unfold get
  cases t.nodes.get? node with
  | none => exact Or.inl rfl
  | some m =>
    cases call : m.device.get (m.deviceAttr attr) (h.device m.device) with
    | mk answer state =>
      cases answer with
      | error e => exact Or.inl (by simp only [call, known?_putDevice])
      | ok v =>
        by_cases null : v.isNull = true
        · exact Or.inl (by simp only [call, null, if_true, known?_putDevice])
        · simp only [call, null, Bool.false_eq_true, if_false, known?_remember, known?_putDevice]
          by_cases hit : node = n ∧ attr = a
          · refine Or.inr ⟨v, rfl, ?_, hit.1, hit.2, if_pos hit⟩
            intro same
            exact null (same ▸ rfl)
          · exact Or.inl (if_neg hit)

end House

end HomeControl
