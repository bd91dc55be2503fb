import HomeControl.Proofs.House.Configured
import HomeControl.Proofs.Schedule.Batch
import HomeControl.Proofs.Schedule.Outcome
/-!
Setters that later ones override. What stands at a place once settings were carried out one after the
other is what the last of them wrote there, and the last setter on a place is never overridden. So
the overridden ones can be left out.
-/

namespace HomeControl

/-- If each step writes a value in place of what is seen or leaves that as it is, the last value
written is seen in the end. -/
theorem foldl_last_write {α σ ν : Type} {step : σ → α → σ} (view : σ → Option ν)
    {write : α → Option ν} {xs : List α}
    (writes : ∀ x ∈ xs, ∀ s, view (step s x) = (write x).or (view s)) (s : σ) :
    view (xs.foldl step s) = (xs.filterMap write).getLast?.or (view s) := by
  induction xs generalizing s with
  | nil => rfl
  | cons x rest ih =>
    obtain ⟨first, later⟩ := List.forall_mem_cons.mp writes
    rw [List.foldl_cons, ih later, first]
    cases written : write x with
    | none => rw [List.filterMap_cons_none written, Option.none_or]
    | some v =>
      rw [List.filterMap_cons_some written, List.getLast?_cons, Option.some_or]
      cases (rest.filterMap write).getLast? <;> rfl

namespace Device

theorem written_steady {capability : String} (steady : capability ≠ Attr.flip)
    (value : Option Value) (store other : List (String × Value)) :
    written capability value store = written capability value other := by
  simp only [written, steady, if_false]

end Device

namespace Setter

def field (w : Setter) : String :=
  if w.attr = Attr.on ∨ w.attr = Attr.off ∨ w.attr = Attr.flip then Attr.state else w.attr

theorem written_field (w : Setter) (store : List (String × Value)) :
    (Device.written w.capability w.value store).1 = w.field := by
  obtain ⟨node, attr, value⟩ := w
  by_cases state : attr = Attr.state
  · subst state
    simp only [capability, if_true]
    split <;> rfl
  · simp only [capability, state, if_false, Device.written, field]
    by_cases on : attr = Attr.on
    · subst on
      rfl
    by_cases off : attr = Attr.off
    · subst off
      rfl
    by_cases flip : attr = Attr.flip
    · subst flip
      rfl
    · simp only [on, off, flip, if_false, or_self]
      split <;> rfl

theorem capability_ne_flip {w : Setter} (h : w.attr ≠ Attr.flip) : w.capability ≠ Attr.flip := by
  unfold capability
  split
  · split
    · decide
    · decide
    · exact h
  · exact h

theorem getLast?_survivors {α : Type} {ws : List Setter} {seen : Setter → Option α}
    (together : ∀ w ∈ ws, ∀ x ∈ ws, w.key = x.key → (seen w).isSome = (seen x).isSome) :
    ((survivors ws).filterMap seen).getLast? = (ws.filterMap seen).getLast? := by
  induction ws with
  | nil => rfl
  | cons w rest ih =>
    have later := ih fun x hx y hy =>
      together x (List.mem_cons_of_mem _ hx) y (List.mem_cons_of_mem _ hy)
    unfold survivors
    split
    · rename_i overridden
      obtain ⟨x, inside, above⟩ := List.any_eq_true.mp overridden
      -- If the overridden setter is seen, so is the one above it, and `w` is not the last seen.
      have alike := together x (List.mem_cons_of_mem _ inside) w List.mem_cons_self
        ((overrides_iff x w).mp above)
      rw [later]
      cases own : seen w with
      | none => rw [List.filterMap_cons_none own]
      | some v =>
        rw [own, Option.isSome_some, Option.isSome_iff_exists] at alike
        obtain ⟨v', seen'⟩ := alike
        have among : v' ∈ rest.filterMap seen := List.mem_filterMap.mpr ⟨x, inside, seen'⟩
        rw [List.filterMap_cons_some own, List.getLast?_cons,
          List.getLast?_eq_some_getLast (List.ne_nil_of_mem among), Option.getD_some]
    · cases own : seen w with
      | none => rw [List.filterMap_cons_none own, List.filterMap_cons_none own, later]
      | some v =>
        rw [List.filterMap_cons_some own, List.filterMap_cons_some own, List.getLast?_cons,
          List.getLast?_cons, later]

theorem key_survivors (ws : List Setter) (key : ScheduleKey) :
    (∃ w ∈ survivors ws, w.key = key) ↔ ∃ w ∈ ws, w.key = key := by
  constructor
  · rintro ⟨w, inside, under⟩
    exact ⟨w, Controller.survivors_subset ws inside, under⟩
  · rintro ⟨w, inside, under⟩
    let own (w : Setter) : Option Setter := if w.key = key then some w else none
    have last : ((survivors ws).filterMap own).getLast? = (ws.filterMap own).getLast? := by
      refine getLast?_survivors fun w _ x _ same => ?_
      simp only [own, same]
      split <;> rfl
    have among : w ∈ ws.filterMap own := List.mem_filterMap.mpr ⟨w, inside, if_pos under⟩
    rw [List.getLast?_eq_some_getLast (List.ne_nil_of_mem among)] at last
    obtain ⟨x, survived, shown⟩ := List.mem_filterMap.mp (List.mem_of_getLast? last)
    simp only [own] at shown
    split at shown
    · rename_i here
      exact ⟨x, survived, here⟩
    · cases shown

end Setter

namespace Topology

/-- What a setter, if it is carried out, writes at a field of a device on its way through a node. -/
def writes? (t : Topology) (d : Device) (field : String) (w : Setter) : Option Value :=
  match t.nodes.get? w.node with
  | some n =>
    let written := Device.written (n.deviceAttr w.capability) w.value []
    if t.accepts w = true ∧ n.device.id = d.id ∧ written.1 = field then some written.2 else none
  | none => none

def tells? (t : Topology) (node attr : String) (w : Setter) : Option Value :=
  if t.accepts w = true ∧ w.key = ⟨node, attr⟩ then w.value else none

def Steady (t : Topology) (w : Setter) : Prop :=
  ∀ n, t.nodes.get? w.node = some n → n.deviceAttr w.capability ≠ Attr.flip

instance (t : Topology) (w : Setter) : Decidable (t.Steady w) :=
  inferInstanceAs (Decidable (∀ n ∈ t.nodes.get? w.node, n.deviceAttr w.capability ≠ Attr.flip))

/-- Nodes show the devices that the topology has under their ids. -/
def Linked (t : Topology) : Prop :=
  ∀ id n, t.nodes.get? id = some n → t.devices.get? n.device.id = some n.device

theorem writes?_together {t : Topology} (plain : ∀ (w : Setter) n, t.nodes.get? w.node = some n →
      n.deviceAttr w.capability = w.capability) {w x : Setter} (hw : w.attr ≠ Attr.flip)
    (hx : x.attr ≠ Attr.flip) (both : t.accepts w = t.accepts x) (d : Device) (field : String)
    (same : w.key = x.key) : (t.writes? d field w).isSome = (t.writes? d field x).isSome := by
  rw [Setter.key_eq, Setter.key_eq, Setter.target_eq hw, Setter.target_eq hx,
    ScheduleKey.mk.injEq] at same
  unfold writes?
  rw [same.1, both]
  cases found : t.nodes.get? x.node with
  | none => rfl
  | some n =>
    have fields : w.field = x.field := by simp only [Setter.field, same.2]
    simp only [plain w n (same.1 ▸ found), plain x n found, Setter.written_field, fields]
    split <;> rfl

theorem linked_of_config {config : Config} {t : Topology}
    (made : Topology.ofConfig config = .ok t) : t.Linked := by
  intro id n found
  obtain ⟨-, -, -, -, -, linked, -⟩ := node_of_config made found
  exact linked

theorem device_id_of_config {config : Config} {t : Topology}
    (made : Topology.ofConfig config = .ok t) {id : String} {d : Device}
    (found : t.devices.get? id = some d) : d.id = id := by
  rw [(ofConfig_ok made).1] at found
  obtain ⟨x, -, named, built⟩ := makeDevices_get? found
  exact (Device.ofConfig_ok built).1.trans named

end Topology

namespace House

variable {t : Topology}

theorem lookup_set (linked : t.Linked) {w : Setter} (steady : t.accepts w = true → t.Steady w)
    {d : Device} (made : t.devices.get? d.id = some d) (field : String) (depth : Nat) (h : House) :
    ((h.set t w depth).2.device d).store.lookup field =
      (t.writes? d field w).or ((h.device d).store.lookup field) := by
  have own : ∀ n, t.nodes.get? w.node = some n → n.device.id = d.id → n.device = d := by
    intro n found here
    have same := linked w.node n found
    rw [here, made] at same
    exact (Option.some.inj same).symm
  cases accepted : t.accepts w with
  | true =>
    obtain ⟨n, written, found, rfl, done⟩ := set_of_accepted h depth accepted
    rw [done, device_noteSet, device_putDevice]
    simp only [Topology.writes?, found, accepted, true_and]
    rw [Device.written_steady (steady accepted n found) w.value _ []]
    by_cases here : n.device.id = d.id
    · rw [own n found here]
      simp only [if_true, true_and, Value.lookup_putField]
      split <;> rfl
    · simp only [here, if_false, false_and, Option.none_or]
  | false =>
    have nothing : t.writes? d field w = none := by
      unfold Topology.writes?
      split <;> simp [accepted]
    rw [nothing, Option.none_or]
    obtain ⟨e, after, done, same | ⟨n, state, found, same, kept⟩⟩ := set_of_refused h depth accepted
    · rw [done, same]
    · rw [done, same, device_putDevice]
      split
      · rename_i here
        rw [kept, own n found here]
      · rfl

/-- What a device stores in the end is what the last of the settings on it wrote. -/
theorem lookup_setAll (linked : t.Linked) {ws : List Setter}
    (steady : ∀ w ∈ ws, t.accepts w = true → t.Steady w) {d : Device}
    (made : t.devices.get? d.id = some d) (field : String) (depth : Nat) (h : House) :
    ((h.setAll t depth ws).device d).store.lookup field =
      (ws.filterMap (t.writes? d field)).getLast?.or ((h.device d).store.lookup field) :=
  foldl_last_write (fun h => (h.device d).store.lookup field)
    (fun w inside h => lookup_set linked (steady w inside) made field depth h) h

theorem known?_setAll_last {ws : List Setter}
    (definite : ∀ w ∈ ws, t.accepts w = true → w.attr ≠ Attr.flip) (node attr : String) (depth : Nat)
    (h : House) :
    (h.setAll t depth ws).known? node attr =
      (ws.filterMap (t.tells? node attr)).getLast?.or (h.known? node attr) := by
  refine foldl_last_write (fun h => h.known? node attr) (fun w inside h => ?_) h
  rw [known?_set]
  simp only [Topology.tells?, Setter.key_eq, ScheduleKey.mk.injEq]
  split
  · rename_i hit
    exact Setter.outcome_eq (definite w inside hit.1) _
  · rw [Option.none_or]

end House

namespace Schedule

theorem replay_set (ws : List Setter) (t : Schedule) :
    t.replay (ws.map .set) =
      { t with
        faders := ⟨t.faders.entries.filter fun e => !decide (∃ w ∈ ws, w.key = e.1)⟩
        singles := ⟨t.singles.entries.filter fun e => !decide (∃ w ∈ ws, w.key = e.1)⟩ } := by
  induction ws generalizing t with
  | nil => simp [replay]
  | cons w rest ih =>
    rw [List.map_cons, replay_cons, ih]
    simp only [ScheduleOp.apply, cancel, Keyed.erase, List.filter_filter, mk.injEq,
      Keyed.mk.injEq, and_true]
    refine ⟨List.filter_congr fun e _ => ?_, List.filter_congr fun e _ => ?_⟩
    · simp [eq_comm, Bool.and_comm]
    · simp [eq_comm, Bool.and_comm]

end Schedule

namespace State

/-- Where nodes show their devices as these are, carrying out all of some settings that give values
ends as carrying out those that no later one overrides: devices store the same, the same is known, and
the same is scheduled. -/
theorem overridden_are_needless {config : Config} {t : Topology}
    (made : Topology.ofConfig config = .ok t) (unmapped : ∀ n ∈ config.nodes, n.map = [])
    {ws : List Setter}
    (definite : ∀ w ∈ ws, w.attr ≠ Attr.flip ∧ w.value.isSome = true ∧ t.accepts w = true)
    (depth : Nat) (s : State) :
    let resolved := (s |> writeAll t depth (Setter.survivors ws)).2
    let whole := (s |> writeAll t depth ws).2
    (∀ id d, t.devices.get? id = some d → ∀ field,
      (resolved.house.device d).store.lookup field = (whole.house.device d).store.lookup field) ∧
    (∀ node attr, resolved.house.known? node attr = whole.house.known? node attr) ∧
    resolved.schedule = whole.schedule := by
  intro resolved whole
  have linked := Topology.linked_of_config made
  have plain : ∀ (w : Setter) n, t.nodes.get? w.node = some n → n.deviceAttr w.capability = w.capability := by
    intro w n found
    obtain ⟨x, inside, -, same, -⟩ := Topology.node_of_config made found
    exact Node.deviceAttr_of_unmapped (same.trans (unmapped x inside)) w.capability
  have accepted : ∀ w ∈ ws, t.accepts w = true := fun w inside => (definite w inside).2.2
  have steady : ∀ w ∈ ws, t.accepts w = true → t.Steady w := by
    intro w inside _ n found
    rw [plain w n found]
    exact Setter.capability_ne_flip (definite w inside).1
  have subset := Controller.survivors_subset ws
  refine ⟨?_, ?_, ?_⟩
  · intro id d there field
    have own : t.devices.get? d.id = some d := by rwa [Topology.device_id_of_config made there]
    have together : ∀ w ∈ ws, ∀ x ∈ ws, w.key = x.key →
        (t.writes? d field w).isSome = (t.writes? d field x).isSome := fun w hw x hx =>
      Topology.writes?_together plain (definite w hw).1 (definite x hx).1
        ((accepted w hw).trans (accepted x hx).symm) d field
    rw [show resolved.house = _ from writeAll_house t depth _ s,
      show whole.house = _ from writeAll_house t depth ws s, House.lookup_setAll linked steady own,
      House.lookup_setAll linked (fun w h => steady w (subset h)) own,
      Setter.getLast?_survivors together]
  · intro node attr
    have together : ∀ w ∈ ws, ∀ x ∈ ws, w.key = x.key →
        (t.tells? node attr w).isSome = (t.tells? node attr x).isSome := by
      intro w hw x hx same
      unfold Topology.tells?
      rw [same, accepted w hw, accepted x hx]
      split
      · rw [(definite w hw).2.1, (definite x hx).2.1]
      · rfl
    rw [show resolved.house = _ from writeAll_house t depth _ s,
      show whole.house = _ from writeAll_house t depth ws s,
      House.known?_setAll_last fun w h _ => (definite w h).1,
      House.known?_setAll_last fun w h _ => (definite w (subset h)).1,
      Setter.getLast?_survivors together]
  · have all : settingOps t ws = ws.map .set := by
      rw [settingOps, List.filter_eq_self.mpr accepted]
    have last : settingOps t (Setter.survivors ws) = (Setter.survivors ws).map .set := by
      rw [settingOps, List.filter_eq_self.mpr fun w h => accepted w (subset h)]
    rw [show resolved.schedule = _ from (writeAll_schedule t depth _ s).1,
      show whole.schedule = _ from (writeAll_schedule t depth ws s).1, all, last,
      Schedule.replay_set, Schedule.replay_set]
    simp only [Setter.key_survivors]

theorem overridden_are_needless_shared :
    let config : Config :=
      { devices := [⟨"bulb", Device.virtualKind, [("setters",
          .list [.text Attr.on, .text Attr.off, .text Attr.brightness])]⟩]
        nodes := [⟨"lamp", "bulb", none, none, []⟩, ⟨"desk", "bulb", none, none, []⟩] }
    let bulb : Device := ⟨"bulb", Device.virtualKind, [], [Attr.on, Attr.off, Attr.brightness],
      false, []⟩
    let t : Topology := ⟨⟨[("bulb", bulb)]⟩,
      ⟨[("lamp", ⟨"lamp", bulb, none, none, []⟩), ("desk", ⟨"desk", bulb, none, none, []⟩)]⟩,
      .empty, [], .empty, .empty, []⟩
    let ws : List Setter := [.state "lamp" true, .brightness "desk" 20, .state "desk" false,
      .brightness "lamp" 60, .state "lamp" true, .brightness "desk" 30]
    let s := State.start t ⟨0, 0⟩
    Topology.ofConfig config = .ok t ∧ Setter.survivors ws ≠ ws ∧
      (∀ w ∈ ws, w.attr ≠ Attr.flip ∧ w.value.isSome = true ∧ t.accepts w = true) ∧
      (∀ field, ((s |> writeAll t 0 (Setter.survivors ws)).2.house.device bulb).store.lookup field =
        ((s |> writeAll t 0 ws).2.house.device bulb).store.lookup field) ∧
      ((s |> writeAll t 0 ws).2.house.device bulb).store =
        [(Attr.brightness, .int 30), (Attr.state, .bool true)] := by
  intro config bulb t ws s
  have definite : ∀ w ∈ ws, w.attr ≠ Attr.flip ∧ w.value.isSome = true ∧ t.accepts w = true := by
    decide +kernel
  have made : Topology.ofConfig config = .ok t := rfl
  obtain ⟨stores, -, -⟩ := overridden_are_needless made (by decide) definite 0 s
  exact ⟨made, by decide +kernel, definite, stores "bulb" bulb rfl, by decide +kernel⟩

end State

end HomeControl
