import HomeControl.Proofs.Command.Emitted
import HomeControl.Proofs.Feedback
import HomeControl.Proofs.House.Answers
import HomeControl.Proofs.Schedule.Overridden
import Mathlib.Data.String.Basic
/-!
Settings in any order. What a device stores and what is known of a node are each folded over the
setters by themselves, and setters with different keys write at different places. So the order of the
setters that no later one overrides is no matter: only their events and their errors come in another
order.
-/

namespace HomeControl

theorem Value.putField_comm {key other : String} (apart : key ≠ other) (v w : Value)
    (l : List (String × Value)) :
    putField key v (putField other w l) = putField other w (putField key v l) := by
  induction l with
  | nil =>
    rcases lt_or_gt_of_ne apart with below | above
    · simp only [putField, below, not_lt_of_gt below, Ne.symm apart, if_true, if_false]
    · simp only [putField, above, not_lt_of_gt above, apart, if_true, if_false]
  | cons e rest ih =>
    obtain ⟨k, u⟩ := e
    have order : key < other ∨ other < key := lt_or_gt_of_ne apart
    grind [putField]

namespace Setter

def noted (w : Setter) (values : Option (List (String × Value))) : Option (List (String × Value)) :=
  match w.news ((values.getD []).lookup w.target) with
  | some v => some (Value.putField w.target v (values.getD []))
  | none => values

theorem lookup_noted_other {w : Setter} {attr : String} (apart : w.target ≠ attr)
    (values : Option (List (String × Value))) :
    ((w.noted values).getD []).lookup attr = (values.getD []).lookup attr := by
  unfold noted
  split
  · rw [Option.getD_some, Value.lookup_putField, if_neg apart]
  · rfl

theorem noted_comm {w x : Setter} (apart : w.target ≠ x.target)
    (values : Option (List (String × Value))) :
    x.noted (w.noted values) = w.noted (x.noted values) := by
  have first : x.noted (w.noted values) =
      match x.news ((values.getD []).lookup x.target) with
      | some v => some (Value.putField x.target v ((w.noted values).getD []))
      | none => w.noted values := by
    rw [noted, lookup_noted_other apart]
  have second : w.noted (x.noted values) =
      match w.news ((values.getD []).lookup w.target) with
      | some v => some (Value.putField w.target v ((x.noted values).getD []))
      | none => x.noted values := by
    rw [noted, lookup_noted_other (Ne.symm apart)]
  rw [first, second]
  cases hx : x.news ((values.getD []).lookup x.target) with
  | none => simp only [noted, hx]
  | some v =>
    cases hw : w.news ((values.getD []).lookup w.target) with
    | none => simp only [noted, hx, hw]
    | some u => simp only [noted, hx, hw, Option.getD_some, Value.putField_comm apart]

/-- A setter of an attribute, and not of one of the capabilities by which a state is changed. Flips
are setters of their own kind. -/
def OfAttr (w : Setter) : Prop :=
  w.attr ≠ Attr.on ∧ w.attr ≠ Attr.off

instance (w : Setter) : Decidable w.OfAttr :=
  inferInstanceAs (Decidable (w.attr ≠ Attr.on ∧ w.attr ≠ Attr.off))

theorem OfAttr.field_eq {w : Setter} (h : w.OfAttr) : w.field = w.target := by
  simp only [field, target, h.1, h.2, false_or]

def stored (w : Setter) (accepted : Bool) (store : List (String × Value)) : List (String × Value) :=
  let field := Device.written w.capability w.value store
  if accepted then Value.putField field.1 field.2 store else store

theorem written_putField {w : Setter} {field : String} (apart : field ≠ w.target) (v : Value)
    (store : List (String × Value)) :
    Device.written w.capability w.value (Value.putField field v store) =
      Device.written w.capability w.value store := by
  by_cases flip : w.attr = Attr.flip
  · have state : w.target = Attr.state := if_pos flip
    rw [state] at apart
    unfold Device.written
    rw [Value.lookup_putField, if_neg apart]
  · exact Device.written_steady (capability_ne_flip flip) _ _ _

theorem written_stored {w x : Setter} (kind : x.OfAttr) (apart : x.target ≠ w.target)
    (accepted : Bool) (store : List (String × Value)) :
    Device.written w.capability w.value (x.stored accepted store) =
      Device.written w.capability w.value store := by
  unfold stored
  split
  · apply written_putField
    rw [written_field, kind.field_eq]
    exact apart
  · rfl

theorem stored_comm {w x : Setter} (hw : w.OfAttr) (hx : x.OfAttr) (apart : w.target ≠ x.target)
    (first second : Bool) (store : List (String × Value)) :
    x.stored second (w.stored first store) = w.stored first (x.stored second store) := by
  have after := written_stored hw apart first store
  have before := written_stored hx (Ne.symm apart) second store
  have fields : (Device.written x.capability x.value store).1 ≠
      (Device.written w.capability w.value store).1 := by
    rw [written_field, written_field, hx.field_eq, hw.field_eq]
    exact Ne.symm apart
  rw [stored, after, stored.eq_1 w first (x.stored second store), before]
  unfold stored
  cases first <;> cases second <;> simp only [if_true, if_false, Bool.false_eq_true]
  exact Value.putField_comm fields _ _ _

theorem Emitted.ofAttr {Form : String → Value → Prop} {w : Setter} (h : w.Emitted Form) :
    w.OfAttr := by
  rcases h with flip | ⟨settable, -⟩
  · rw [flip]
    change Attr.flip ≠ Attr.on ∧ Attr.flip ≠ Attr.off
    decide
  · exact ⟨settable.ne (by decide), settable.ne (by decide)⟩

end Setter

namespace Topology

variable (t : Topology)

def noted (node : String) (values : Option (List (String × Value))) (w : Setter) :
    Option (List (String × Value)) :=
  if t.accepts w = true ∧ w.node = node then w.noted values else values

def stored (id : String) (store : Option (List (String × Value))) (w : Setter) :
    Option (List (String × Value)) :=
  match t.nodes.get? w.node with
  | some n =>
    if n.device.id = id then some (w.stored (t.accepts w) (store.getD n.device.initial)) else store
  | none => store

def caused (depth : Nat) (known : Option Value) (w : Setter) : List Event :=
  match w.news known with
  | some v =>
    if t.accepts w = true ∧ House.isNews known v = true then [⟨w.node, w.target, v, depth⟩] else []
  | none => []

end Topology

namespace House

variable {t : Topology}

def storeAt (h : House) (id : String) : Option (List (String × Value)) :=
  (h.devices.get? id).map (·.store)

theorem storeAt_putDevice (h : House) (d : Device) (s : DeviceState) (id : String) :
    (h.putDevice d s).storeAt id = if d.id = id then some s.store else h.storeAt id := by
  simp only [storeAt, putDevice, Keyed.get?_insert]
  split <;> rfl

theorem store_device (h : House) (d : Device) :
    (h.device d).store = (h.storeAt d.id).getD d.initial := by
  unfold device storeAt
  cases h.devices.get? d.id <;> rfl

theorem storeAt_noteSet (h : House) (w : Setter) (depth : Nat) (id : String) :
    (h.noteSet w depth).storeAt id = h.storeAt id := by
  rw [noteSet_eq]
  split <;> rfl

theorem snapshot?_remember (h : House) (node attr : String) (v : Value) (depth : Nat)
    (other : String) :
    (h.remember node attr v depth).snapshot? other =
      if node = other then some (Value.putField attr v ((h.snapshot? node).getD []))
      else h.snapshot? other :=
  Keyed.get?_insert ..

theorem snapshot?_noteSet (h : House) (w : Setter) (depth : Nat) (node : String) :
    (h.noteSet w depth).snapshot? node =
      if w.node = node then w.noted (h.snapshot? node) else h.snapshot? node := by
  rw [noteSet_eq, known?_eq]
  by_cases own : w.node = node
  · subst own
    simp only [if_true, Setter.noted]
    cases w.news (((h.snapshot? w.node).getD []).lookup w.target) with
    | none => rfl
    | some v =>
      rw [snapshot?_remember, if_pos rfl]
  · simp only [own, if_false]
    split
    · rw [snapshot?_remember, if_neg own]
    · rfl

theorem events_noteSet (h : House) (w : Setter) (depth : Nat) :
    (h.noteSet w depth).events = h.events ++
      match w.news (h.known? w.node w.target) with
      | some v =>
        if isNews (h.known? w.node w.target) v = true then [⟨w.node, w.target, v, depth⟩] else []
      | none => [] := by
  rw [noteSet_eq]
  cases w.news (h.known? w.node w.target) with
  | none => exact (List.append_nil _).symm
  | some v =>
    simp only [remember, ← known?_eq]
    split
    · rfl
    · exact (List.append_nil _).symm

theorem snapshot?_set (h : House) (w : Setter) (depth : Nat) (node : String) :
    (h.set t w depth).2.snapshot? node = t.noted node (h.snapshot? node) w := by
  unfold Topology.noted
  cases accepted : t.accepts w with
  | true =>
    obtain ⟨n, field, -, -, done⟩ := set_of_accepted h depth accepted
    rw [done, snapshot?_noteSet]
    simp only [true_and]
    rfl
  | false =>
    obtain ⟨e, after, done, same | ⟨n, state, -, same, -⟩⟩ := set_of_refused h depth accepted
    · rw [done, same]
      rfl
    · rw [done, same]
      rfl

theorem events_set (h : House) (w : Setter) (depth : Nat) :
    (h.set t w depth).2.events = h.events ++ t.caused depth (h.known? w.node w.target) w := by
  unfold Topology.caused
  cases accepted : t.accepts w with
  | true =>
    obtain ⟨n, field, -, -, done⟩ := set_of_accepted h depth accepted
    rw [done, events_noteSet]
    simp only [known?_putDevice, true_and]
    rfl
  | false =>
    obtain ⟨e, after, done, same | ⟨n, state, -, same, -⟩⟩ := set_of_refused h depth accepted
    · rw [done, same]
      split <;> simp
    · rw [done, same]
      split <;> simp [putDevice]

theorem storeAt_set {w : Setter} (unmapped : ∀ n, t.nodes.get? w.node = some n → n.map = [])
    (h : House) (depth : Nat) (id : String) :
    (h.set t w depth).2.storeAt id = t.stored id (h.storeAt id) w := by
  unfold set Topology.stored Topology.accepts
  cases found : t.nodes.get? w.node with
  | none => rfl
  | some n =>
    have after := n.device.store_set (n.deviceAttr w.capability) w.value (h.device n.device)
    rw [Node.deviceAttr_of_unmapped (unmapped n found), store_device] at after
    simp only [Node.deviceAttr_of_unmapped (unmapped n found), Setter.stored]
    cases call : n.device.set w.capability w.value (h.device n.device) with
    | mk answer state =>
      have stored : ∀ put : House, put.storeAt id = (h.putDevice n.device state).storeAt id →
          put.storeAt id =
            if n.device.id = id then
              some (w.stored (n.device.accepts w.capability w.value)
                ((h.storeAt id).getD n.device.initial))
            else h.storeAt id := by
        intro put same
        rw [call] at after
        rw [same, storeAt_putDevice, after]
        split
        · rename_i own
          rw [own]
          rfl
        · rfl
      cases answer with
      | error e => exact stored _ rfl
      | ok u => exact stored _ (storeAt_noteSet _ w depth id)

end House

namespace Setter

theorem key_inj {w x : Setter} : w.key = x.key ↔ w.node = x.node ∧ w.target = x.target := by
  rw [key_eq, key_eq, ScheduleKey.mk.injEq]

end Setter

/-- Setters of attributes, on nodes that show devices of their own under the names that these have. -/
structure Topology.Apart (t : Topology) (ws : List Setter) : Prop where
  kinds : ∀ w ∈ ws, w.OfAttr
  unmapped : ∀ w ∈ ws, ∀ n, t.nodes.get? w.node = some n → n.map = []
  own : ∀ w ∈ ws, ∀ x ∈ ws, ∀ n m, t.nodes.get? w.node = some n → t.nodes.get? x.node = some m →
    n.device.id = m.device.id → w.node = x.node

theorem Topology.Apart.subset {t : Topology} {ws xs : List Setter} (apart : t.Apart ws)
    (among : xs ⊆ ws) : t.Apart xs where
  kinds w hw := apart.kinds w (among hw)
  unmapped w hw := apart.unmapped w (among hw)
  own w hw x hx := apart.own w (among hw) x (among hx)

namespace Topology

variable {t : Topology}

theorem noted_comm {w x : Setter} (differ : w.key ≠ x.key) (node : String)
    (values : Option (List (String × Value))) :
    t.noted node (t.noted node values w) x = t.noted node (t.noted node values x) w := by
  unfold noted
  by_cases hw : t.accepts w = true ∧ w.node = node
  · by_cases hx : t.accepts x = true ∧ x.node = node
    · rw [if_pos hw, if_pos hx, if_pos hx, if_pos hw]
      apply Setter.noted_comm
      intro targets
      exact differ (Setter.key_inj.mpr ⟨hw.2.trans hx.2.symm, targets⟩)
    · simp only [hx, if_false]
  · simp only [hw, if_false]

theorem stored_comm {ws : List Setter} (apart : t.Apart ws) {w x : Setter} (hw : w ∈ ws)
    (hx : x ∈ ws) (differ : w.key ≠ x.key) (id : String) (store : Option (List (String × Value))) :
    t.stored id (t.stored id store w) x = t.stored id (t.stored id store x) w := by
  unfold stored
  cases hn : t.nodes.get? w.node with
  | none => rfl
  | some n =>
    cases hm : t.nodes.get? x.node with
    | none => rfl
    | some m =>
      simp only
      by_cases first : n.device.id = id
      · by_cases second : m.device.id = id
        · have nodes := apart.own w hw x hx n m hn hm (first.trans second.symm)
          have targets : w.target ≠ x.target := fun same =>
            differ (Setter.key_inj.mpr ⟨nodes, same⟩)
          rw [nodes, hm] at hn
          cases hn
          simp only [first, if_true, Option.getD_some,
            Setter.stored_comm (apart.kinds w hw) (apart.kinds x hx) targets]
        · simp only [second, if_false]
      · simp only [first, if_false]

end Topology

theorem Setter.foldl_perm {σ : Type} {ws order : List Setter} {step : σ → Setter → σ}
    (perm : order.Perm ws) (once : (ws.map (·.key)).Nodup)
    (comm : ∀ w ∈ ws, ∀ x ∈ ws, w.key ≠ x.key → ∀ s, step (step s w) x = step (step s x) w)
    (s : σ) : order.foldl step s = ws.foldl step s := by
  refine perm.foldl_eq' (fun w hw x hx s => ?_) s
  have hw := perm.mem_iff.mp hw
  have hx := perm.mem_iff.mp hx
  by_cases same : w.key = x.key
  · rw [List.inj_on_of_nodup_map once hw hx same]
  · exact comm w hw x hx same s

namespace House

variable {t : Topology} (depth : Nat)

theorem snapshot?_setAll (ws : List Setter) (h : House) (node : String) :
    (h.setAll t depth ws).snapshot? node = ws.foldl (t.noted node) (h.snapshot? node) := by
  induction ws generalizing h with
  | nil => rfl
  | cons w rest ih =>
    rw [List.foldl_cons, ← snapshot?_set h w depth node]
    exact ih _

theorem storeAt_setAll {ws : List Setter}
    (unmapped : ∀ w ∈ ws, ∀ n, t.nodes.get? w.node = some n → n.map = []) (h : House)
    (id : String) : (h.setAll t depth ws).storeAt id = ws.foldl (t.stored id) (h.storeAt id) := by
  induction ws generalizing h with
  | nil => rfl
  | cons w rest ih =>
    obtain ⟨own, others⟩ := List.forall_mem_cons.mp unmapped
    rw [List.foldl_cons, ← storeAt_set own h depth id]
    exact ih others _

/-- Of setters with different keys, each causes the events that it would cause at once. -/
theorem events_setAll {ws : List Setter} (once : (ws.map (·.key)).Nodup) (h : House) :
    (h.setAll t depth ws).events =
      h.events ++ ws.flatMap fun w => t.caused depth (h.known? w.node w.target) w := by
  induction ws generalizing h with
  | nil => exact (List.append_nil _).symm
  | cons w rest ih =>
    obtain ⟨fresh, once⟩ := List.nodup_cons.mp once
    have before : ∀ x ∈ rest,
        (h.set t w depth).2.known? x.node x.target = h.known? x.node x.target := by
      intro x inside
      rw [known?_set, if_neg]
      rintro ⟨-, same⟩
      exact fresh (List.mem_map.mpr ⟨x, inside, (Setter.key_inj.mpr same).symm⟩)
    have later : (h.setAll t depth (w :: rest)).events = _ := ih once (h.set t w depth).2
    rw [later, events_set, List.append_assoc, List.flatMap_cons]
    congr 2
    apply List.flatMap_congr
    intro x inside
    rw [before x inside]

end House

namespace State

/-- The setters that no later one overrides can be carried out in any order, if they set attributes,
as those of commands do, and each node shows a device of its own under the names that this has. Devices
store the same, the same is known, and the same is scheduled; the same events happen and the same errors
are answered, if in another order. -/
theorem survivors_in_any_order {t : Topology} {ws order : List Setter} (apart : t.Apart ws)
    (perm : order.Perm (Setter.survivors ws)) (depth : Nat) (s : State) :
    let given := s |> writeAll t depth (Setter.survivors ws)
    let other := s |> writeAll t depth (Setter.survivors order)
    (∀ id, other.2.house.storeAt id = given.2.house.storeAt id) ∧
    (∀ node, other.2.house.snapshot? node = given.2.house.snapshot? node) ∧
    other.2.schedule = given.2.schedule ∧
    (Controller.fired s other.2).Perm (Controller.fired s given.2) ∧
    other.1.Perm given.1 := by
  have once := Setter.survivors_once ws
  have every : Setter.survivors order = order :=
    Setter.survivors_eq_self ((perm.map _).nodup_iff.mpr once)
  have given := apart.subset (Controller.survivors_subset ws)
  have other := given.subset perm.subset
  rw [every]
  dsimp only
  simp only [Controller.fired, writeAll_house, (writeAll_schedule t depth _ s).1, writeAll_answers]
  refine ⟨fun id => ?_, fun node => ?_, ?_, ?_, perm.filterMap _⟩
  · rw [House.storeAt_setAll depth other.unmapped, House.storeAt_setAll depth given.unmapped]
    exact Setter.foldl_perm perm once
      (fun w hw x hx differ => Topology.stored_comm given hw hx differ id) _
  · rw [House.snapshot?_setAll, House.snapshot?_setAll]
    exact Setter.foldl_perm perm once (fun w _ x _ differ => Topology.noted_comm differ node) _
  · have cancelled : ∀ w, w ∈ order.filter t.accepts ↔
        w ∈ (Setter.survivors ws).filter t.accepts := fun _ => (perm.filter t.accepts).mem_iff
    rw [settingOps, settingOps, Schedule.replay_set, Schedule.replay_set]
    simp only [cancelled]
  · have early := (perm.map _).nodup_iff.mpr once
    rw [House.events_setAll depth early, House.events_setAll depth once, List.drop_left,
      List.drop_left]
    exact perm.flatMap_right _

/-- A lamp that is switched, flipped, lit and colored, and a pump that cannot be reached: the last
setter first. -/
theorem survivors_in_any_order_reversed :
    let bulb : Device := ⟨"bulb", Device.virtualKind, [], [Attr.on, Attr.flip, Attr.brightness,
      Attr.color], false, []⟩
    let motor : Device := ⟨"motor", Device.virtualKind, [], [Attr.on], true, []⟩
    let t : Topology := ⟨⟨[("bulb", bulb), ("motor", motor)]⟩,
      ⟨[("lamp", ⟨"lamp", bulb, none, none, []⟩), ("pump", ⟨"pump", motor, none, none, []⟩)]⟩,
      .empty, [], .empty, .empty, []⟩
    let ws : List Setter := [.state "lamp" true, .brightness "lamp" 250, .flip "lamp",
      .color "lamp" .black, .state "pump" true]
    let s : State := { State.start t ⟨0, 0⟩ with
      house := (House.start t).remember "lamp" Attr.state (.bool false) 0 }
    let given := s |> writeAll t 0 (Setter.survivors ws)
    let other := s |> writeAll t 0 (Setter.survivors (Setter.survivors ws).reverse)
    t.Apart ws ∧ other.2.house.storeAt "bulb" = given.2.house.storeAt "bulb" ∧
      given.2.house.storeAt "bulb" =
        some [(Attr.color, Color.black.toValue), (Attr.state, .bool true)] ∧
      (Controller.fired s other.2).Perm (Controller.fired s given.2) ∧
      Controller.fired s other.2 ≠ Controller.fired s given.2 ∧ other.1.Perm given.1 ∧
      given.1.length = 2 := by
  intro bulb motor t ws s given other
  have apart : t.Apart ws := by
    have unmapped : ∀ w ∈ ws, ∀ n ∈ t.nodes.get? w.node, n.map = [] := by decide +kernel
    have own : ∀ w ∈ ws, ∀ x ∈ ws, ∀ n ∈ t.nodes.get? w.node, ∀ m ∈ t.nodes.get? x.node,
        n.device.id = m.device.id → w.node = x.node := by decide +kernel
    exact ⟨by decide, unmapped, fun w hw x hx n m hn hm => own w hw x hx n hn m hm⟩
  obtain ⟨stores, -, -, events, errors⟩ :=
    survivors_in_any_order apart (Setter.survivors ws).reverse_perm 0 s
  exact ⟨apart, stores "bulb", by decide +kernel, events, by decide +kernel, errors,
    by decide +kernel⟩

end State

end HomeControl
