import HomeControl.Proofs.Command.Emitted
import HomeControl.Proofs.House.Configured
import HomeControl.Proofs.House.Effects
import Mathlib.Data.List.Nodup
/-!
What is known of a node and what its device stores. Where each device has one node, which shows it
under its own names, a known state, brightness or color is the stored one in every run of commands.
-/

namespace HomeControl

structure Value.InForm (attr : String) (v : Value) : Prop where
  state : attr = Attr.state → ∃ on, v = .bool on
  brightness : attr = Attr.brightness → ∃ n : Nat, v = .int n
  color : attr = Attr.color → ∃ c : Color, v = c.toValue

theorem Value.covers_inForm : Value.Covers Value.InForm where
  state on := ⟨fun _ => ⟨on, rfl⟩, fun h => absurd h (by decide), fun h => absurd h (by decide)⟩
  brightness n := ⟨fun h => absurd h (by decide), fun _ => ⟨n, rfl⟩, fun h => absurd h (by decide)⟩
  color c := ⟨fun h => absurd h (by decide), fun h => absurd h (by decide), fun _ => ⟨c, rfl⟩⟩

theorem Value.InForm.same_self {attr : String} {v : Value} (h : v.InForm attr)
    (settable : Attr.Settable attr) : v.same v = true := by
  rcases settable with state | brightness | color
  · obtain ⟨on, rfl⟩ := h.state state
    simp [same]
  · obtain ⟨n, rfl⟩ := h.brightness brightness
    simp [same]
  · obtain ⟨c, rfl⟩ := h.color color
    simp [Color.toValue, same, sameItems]

namespace Color

theorem byte?_toNat (b : UInt8) : byte? (.int b.toNat) = some b := by
  have small : b.toNat < 256 := b.toNat_lt
  have read : Value.nat? (.int b.toNat) = some b.toNat := rfl
  simp only [byte?, read, small, if_true, Nat.toUInt8_eq, UInt8.ofNat_toNat]

theorem ofValue?_toValue (c : Color) : ofValue? c.toValue = some c := by
  simp only [toValue, ofValue?, byte?_toNat]
  rfl

end Color

/-- Nodes show their devices under the names that the devices have, and no device has two nodes. -/
structure Topology.Plain (t : Topology) : Prop where
  unmapped : ∀ id n, t.nodes.get? id = some n → n.map = []
  apart : ∀ id n other m, t.nodes.get? id = some n → t.nodes.get? other = some m →
    n.device.id = m.device.id → id = other

/-- What devices store is in form, and what is known of a node is what its device stores. -/
structure House.Coherent (t : Topology) (h : House) : Prop where
  stored : ∀ id n, t.nodes.get? id = some n → ∀ attr v, Attr.Settable attr →
    (h.device n.device).store.lookup attr = some v → v.InForm attr
  known : ∀ id attr v, Attr.Settable attr → h.known? id attr = some v →
    ∃ n, t.nodes.get? id = some n ∧ n.device.unreachable = false ∧
      (h.device n.device).store.lookup attr = some v

namespace Device

theorem get_ok {d : Device} {attr : String} {s after : DeviceState} {v : Value}
    (call : d.get attr s = (.ok v, after)) (other : attr ≠ Attr.online) :
    d.unreachable = false ∧ v = readStore s.store attr := by
  unfold get at call
  split at call
  · split at call
    · cases call
    · rename_i reached
      cases call
      exact ⟨by simpa using reached, rfl⟩
  · cases call

theorem readStore_eq_some {store : List (String × Value)} {attr : String} {v : Value}
    (h : v = readStore store attr) (solid : v ≠ .null) (other : attr ≠ Attr.status) :
    store.lookup attr = some v := by
  unfold readStore at h
  split at h
  · rename_i w found
    rw [found, h]
  · rw [if_neg other] at h
    exact absurd h solid

end Device

namespace Setter

/-- What a setter of a command writes goes to its target, is in form, and is what is known from
then on, if what was known before was what was stored. -/
theorem Emitted.writes {w : Setter} (h : w.Emitted Value.InForm) (store : List (String × Value)) :
    ∃ v, Device.written w.capability w.value store = (w.target, v) ∧ v.InForm w.target ∧
      ∀ known : Option Value,
        (∀ k, known = some k → store.lookup w.target = some k ∧ k.InForm w.target) →
        ∀ after, w.outcome known = some after → after = v := by
  obtain ⟨node, attr, value⟩ := w
  rcases h with flip | ⟨settable, v, rfl, form⟩
  · cases flip
    refine ⟨_, rfl, Value.covers_inForm.state _, ?_⟩
    intro known consistent after outcome
    cases known with
    | none => cases outcome
    | some k =>
      obtain ⟨stored, form⟩ := consistent k rfl
      obtain ⟨on, rfl⟩ := form.state rfl
      have there : store.lookup Attr.state = some (.bool on) := stored
      cases outcome
      rw [there]
      rfl
  · have own : (⟨node, attr, some v⟩ : Setter).target = attr := if_neg settable.ne_flip
    have outcome : ∀ known, (⟨node, attr, some v⟩ : Setter).outcome known = some v := by
      intro known
      simp only [Setter.outcome, settable.ne_flip, if_false, Option.some_or]
    have written : Device.written (⟨node, attr, some v⟩ : Setter).capability (some v) store =
        (attr, v) := by
      rcases settable with rfl | rfl | rfl
      · obtain ⟨on, rfl⟩ := form.state rfl
        cases on <;> rfl
      · rfl
      · obtain ⟨c, rfl⟩ := form.color rfl
        have read : (some c.toValue).bind Color.ofValue? = some c := Color.ofValue?_toValue c
        have capability : (⟨node, Attr.color, some c.toValue⟩ : Setter).capability = Attr.color :=
          rfl
        rw [capability]
        unfold Device.written
        rw [read]
        rfl
    rw [own]
    refine ⟨v, written, form, ?_⟩
    intro known _ after done
    rw [outcome] at done
    exact (Option.some.inj done).symm

end Setter

namespace House

variable {t : Topology}

theorem device_eq {n m : Node} {id other : String} (plain : t.Plain)
    (hn : t.nodes.get? id = some n) (hm : t.nodes.get? other = some m)
    (same : n.device.id = m.device.id) : n.device = m.device := by
  have equal := plain.apart id n other m hn hm same
  rw [equal, hm] at hn
  cases hn
  rfl

theorem store_putDevice {h : House} {n m : Node} {s : DeviceState}
    (kept : s.store = (h.device n.device).store)
    (same : n.device.id = m.device.id → n.device = m.device) :
    ((h.putDevice n.device s).device m.device).store = (h.device m.device).store := by
  rw [device_putDevice]
  split
  · rename_i equal
    rw [kept, same equal]
  · rfl

theorem putDevice_coherent (plain : t.Plain) {h : House} (coherent : h.Coherent t) {id : String}
    {n : Node} (found : t.nodes.get? id = some n) {s : DeviceState}
    (kept : s.store = (h.device n.device).store) : (h.putDevice n.device s).Coherent t where
  stored other m hm attr v settable there := by
    rw [store_putDevice kept (device_eq plain found hm)] at there
    exact coherent.stored other m hm attr v settable there
  known other attr v settable there := by
    obtain ⟨m, hm, reached, stored⟩ := coherent.known other attr v settable there
    refine ⟨m, hm, reached, ?_⟩
    rw [store_putDevice kept (device_eq plain found hm)]
    exact stored

theorem get_coherent (plain : t.Plain) {h : House} (coherent : h.Coherent t) (node attr : String)
    (depth : Nat) : (h.get t node attr depth).2.Coherent t := by
  unfold get
  cases found : t.nodes.get? node with
  | none => exact coherent
  | some n =>
    have unmapped := Node.deviceAttr_of_unmapped (plain.unmapped node n found)
    have kept := n.device.get_store (n.deviceAttr attr) (h.device n.device)
    cases call : n.device.get (n.deviceAttr attr) (h.device n.device) with
    | mk answer s =>
      rw [call] at kept
      have left := putDevice_coherent plain coherent found kept
      cases answer with
      | error e => simpa only [call] using left
      | ok v =>
        simp only [call]
        split
        · exact left
        · rename_i solid
          refine ⟨left.stored, ?_⟩
          intro other a w settable known
          rw [known?_remember] at known
          split at known
          · rename_i hit
            obtain ⟨rfl, rfl⟩ := hit
            cases known
            rw [unmapped] at call
            obtain ⟨reached, read⟩ := Device.get_ok call (settable.ne (by decide))
            refine ⟨n, found, reached, ?_⟩
            rw [device_remember, store_putDevice kept (fun _ => rfl)]
            refine Device.readStore_eq_some read ?_ (settable.ne (by decide))
            rintro rfl
            exact solid rfl
          · exact left.known other a w settable known

theorem set_coherent (plain : t.Plain) {h : House} (coherent : h.Coherent t) (w : Setter)
    (depth : Nat) (emitted : w.Emitted Value.InForm) : (h.set t w depth).2.Coherent t := by
  cases accepted : t.accepts w with
  | false =>
    obtain ⟨e, after, done, same | ⟨n, s, found, same, kept⟩⟩ := set_of_refused h depth accepted
    · rw [done, same]
      exact coherent
    · rw [done, same]
      exact putDevice_coherent plain coherent found kept
  | true =>
    obtain ⟨n, field, found, written, done⟩ := set_of_accepted h depth accepted
    have unmapped := Node.deviceAttr_of_unmapped (plain.unmapped w.node n found)
    obtain ⟨v, writes, form, follows⟩ := emitted.writes (h.device n.device).store
    rw [unmapped, writes] at written
    have reached : n.device.unreachable = false := by
      simp only [Topology.accepts, found, Device.accepts, Bool.and_eq_true] at accepted
      simpa using accepted.1.2
    generalize after_eq : (h.set t w depth).2 = after
    rw [done, written] at after_eq
    have stores : ∀ other m, t.nodes.get? other = some m → ∀ attr,
        (after.device m.device).store.lookup attr =
          if w.node = other ∧ w.target = attr then some v
          else (h.device m.device).store.lookup attr := by
      intro other m hm attr
      rw [← after_eq, device_noteSet, device_putDevice]
      by_cases here : w.node = other
      · subst here
        rw [found] at hm
        cases hm
        simp only [if_true, Value.lookup_putField, true_and]
      · have elsewhere : n.device.id ≠ m.device.id :=
          fun same => here (plain.apart w.node n other m found hm same)
        simp only [elsewhere, here, if_false, false_and]
    refine ⟨?_, ?_⟩
    · intro other m hm attr value settable there
      rw [stores other m hm attr] at there
      split at there
      · rename_i hit
        cases there
        exact hit.2 ▸ form
      · exact coherent.stored other m hm attr value settable there
    · intro other attr value settable known
      rw [← after_eq, known?_noteSet, known?_putDevice] at known
      split at known
      · rename_i hit
        obtain ⟨rfl, rfl⟩ := hit
        have consistent : ∀ k, h.known? w.node w.target = some k →
            (h.device n.device).store.lookup w.target = some k ∧ k.InForm w.target := by
          intro k before
          obtain ⟨m, hm, -, there⟩ := coherent.known w.node w.target k settable before
          rw [found] at hm
          cases hm
          exact ⟨there, coherent.stored w.node n found w.target k settable there⟩
        have equal := follows _ consistent value known
        refine ⟨n, found, reached, ?_⟩
        rw [stores w.node n found, if_pos ⟨rfl, rfl⟩, equal]
      · rename_i miss
        obtain ⟨m, hm, open', there⟩ := coherent.known other attr value settable known
        refine ⟨m, hm, open', ?_⟩
        rw [stores other m hm, if_neg miss]
        exact there

theorem device_start {d : Device} (made : t.devices.get? d.id = some d) :
    (House.start t).device d = d.start := by
  have there : (House.start t).devices.get? d.id = some d.start := by
    refine (Keyed.lookup_map (fun _ d => Device.start d) t.devices.entries d.id).trans ?_
    rw [show t.devices.entries.lookup d.id = some d from made]
    rfl
  unfold device
  rw [there]
  rfl

/-- Reading a value that is known gives it again, where the device can be asked for it at all, and
is no event. -/
theorem get_known {h : House} (plain : t.Plain) (coherent : h.Coherent t) {node attr : String}
    {v : Value} (settable : Attr.Settable attr) (known : h.known? node attr = some v)
    (depth : Nat) :
    ∃ n, t.nodes.get? node = some n ∧ (h.device n.device).store.lookup attr = some v ∧
      (h.get t node attr depth).1 =
        (if n.hasGet attr = true then .ok v
        else .error (.driver node (.notSupported n.device.id .getter attr))) ∧
      (h.get t node attr depth).2.events = h.events := by
  obtain ⟨n, found, reached, stored⟩ := coherent.known node attr v settable known
  have form := coherent.stored node n found attr v settable stored
  have unmapped := Node.deviceAttr_of_unmapped (plain.unmapped node n found) attr
  have offline : attr ≠ Attr.online := settable.ne (by decide)
  have asked : n.hasGet attr = n.device.readable.contains attr := by
    have other : (attr == Attr.online) = false := beq_eq_false_iff_ne.mpr offline
    unfold Node.hasGet Device.hasGet
    rw [unmapped, other, Bool.false_or]
  have read : Device.readStore (h.device n.device).store attr = v := by
    unfold Device.readStore
    rw [stored]
  refine ⟨n, found, stored, ?_⟩
  rw [asked]
  by_cases can : n.device.readable.contains attr = true
  · have call : n.device.get (n.deviceAttr attr) (h.device n.device) =
        (.ok v, ⟨(h.device n.device).store, true⟩) := by
      rw [unmapped]
      simp only [Device.get, can, reached, read, if_true, Bool.false_eq_true, if_false]
    have old : isNews (((h.snapshot? node).getD []).lookup attr) v = false := by
      rw [← known?_eq, known]
      simp [isNews, form.same_self settable]
    have done : h.get t node attr depth = (.ok v,
        if v.isNull then h.putDevice n.device ⟨(h.device n.device).store, true⟩
        else (h.putDevice n.device ⟨(h.device n.device).store, true⟩).remember node attr v
          depth) := by
      unfold get
      simp only [found, call]
    rw [done, if_pos can]
    refine ⟨rfl, ?_⟩
    split
    · rfl
    · exact if_neg (Bool.eq_false_iff.mp old)
  · have call : n.device.get (n.deviceAttr attr) (h.device n.device) =
        (.error (.notSupported n.device.id .getter attr), h.device n.device) := by
      rw [unmapped]
      simp only [Device.get, can, offline, if_false, Bool.false_eq_true]
    have done : h.get t node attr depth =
        (.error (.driver node (.notSupported n.device.id .getter attr)),
          h.putDevice n.device (h.device n.device)) := by
      unfold get
      simp only [found, call]
    rw [done, if_neg can]
    exact ⟨rfl, rfl⟩

end House

namespace Controller

variable {zone : Zone} {config : Config} {c : Controller}

theorem plain_of_config (accepted : Controller.ofConfig zone config = .ok c)
    (apart : (config.nodes.map (·.device)).Nodup) (unmapped : ∀ n ∈ config.nodes, n.map = []) :
    c.topology.Plain where
  unmapped id n found := by
    obtain ⟨x, inside, -, same, -⟩ := node_of_config accepted found
    rw [same]
    exact unmapped x inside
  apart id n other m hn hm same := by
    obtain ⟨x, hx, rfl, -, dx, -⟩ := node_of_config accepted hn
    obtain ⟨y, hy, rfl, -, dy, -⟩ := node_of_config accepted hm
    have equal : x.device = y.device := dx.symm.trans (same.trans dy)
    rw [List.inj_on_of_nodup_map apart hx hy equal]

theorem coherent_of_config (accepted : Controller.ofConfig zone config = .ok c)
    (initial : ∀ d ∈ config.devices, ∀ attr v, Attr.Settable attr →
      d.initialValues.lookup attr = some v → v.InForm attr) :
    (House.start c.topology).Coherent c.topology where
  stored id n found attr v settable there := by
    obtain ⟨x, -, -, -, -, made, d, among, -, values⟩ := node_of_config accepted found
    rw [House.device_start made, Device.start, values] at there
    exact initial d among attr v settable there
  known id attr v _ known := by
    rw [House.known?_start] at known
    cases known

/-- In every run of commands and ticks, what is known of a state, a brightness or a color is what
the device of the node stores. Reading it gives it again if the device has a getter for it, is
refused otherwise, and is no event. -/
theorem known_is_stored (zone : Zone) (config : Config) (c : Controller)
    (accepted : Controller.ofConfig zone config = .ok c)
    (apart : (config.nodes.map (·.device)).Nodup) (unmapped : ∀ n ∈ config.nodes, n.map = [])
    (initial : ∀ d ∈ config.devices, ∀ attr v, Attr.Settable attr →
      d.initialValues.lookup attr = some v → v.InForm attr)
    (started : Instant) (acts : List Act)
    (asked : ∀ a ∈ acts, a.Carries (Setter.Emitted Value.InForm)) (node attr : String) (v : Value)
    (settable : Attr.Settable attr)
    (known : (c.run acts (.start c.topology started)).house.known? node attr = some v)
    (depth : Nat) :
    let h := (c.run acts (.start c.topology started)).house
    ∃ n, c.topology.nodes.get? node = some n ∧ (h.device n.device).store.lookup attr = some v ∧
      (h.get c.topology node attr depth).1 =
        (if n.hasGet attr = true then .ok v
        else .error (.driver node (.notSupported n.device.id .getter attr))) ∧
      (h.get c.topology node attr depth).2.events = h.events := by
  intro h
  have plain := plain_of_config accepted apart unmapped
  have coherent : h.Coherent c.topology := by
    refine c.run_emitted Value.covers_inForm ?_ ?_ ?_ started (coherent_of_config accepted initial)
      acts asked
    · intro h coherent node attr v settable known _
      obtain ⟨n, found, -, stored⟩ := coherent.known node attr v settable known
      exact coherent.stored node n found attr v settable stored
    · intro h coherent node attr depth
      exact House.get_coherent plain coherent node attr depth
    · intro h coherent w depth emitted
      exact House.set_coherent plain coherent w depth emitted
  exact House.get_known plain coherent settable known depth

/-- A lamp that was on before it was switched off for a while. -/
theorem known_is_stored_switching :
    let c := ofBulb ⟨"bulb", Device.virtualKind, [Attr.state], [Attr.on, Attr.off], false,
      [(Attr.state, .bool true)]⟩
    let h := (c.run [.command false 0 "get lamp", .command false 0 "set lamp off for 10",
      .clock ⟨20, 0⟩, .tickSingles] (.start c.topology ⟨0, 0⟩)).house
    ∃ n, c.topology.nodes.get? "lamp" = some n ∧
      (h.device n.device).store.lookup Attr.state = some (.bool true) ∧
      (h.get c.topology "lamp" Attr.state 0).1 =
        (if n.hasGet Attr.state = true then .ok (.bool true)
        else .error (.driver "lamp" (.notSupported n.device.id .getter Attr.state))) ∧
      (h.get c.topology "lamp" Attr.state 0).2.events = h.events := by
  intro c h
  refine known_is_stored .utc (.ofBulb [("getters", .list [.text Attr.state]),
    ("setters", .list [.text Attr.on, .text Attr.off]),
    ("values", .record [(Attr.state, .bool true)])]) c rfl (by decide) (by decide) ?_ ⟨0, 0⟩ _
    ?_ "lamp" Attr.state (.bool true) (Or.inl rfl) (by decide +kernel) 0
  · intro d inside attr v _ there
    rw [List.mem_singleton.mp inside] at there
    have one : ([(Attr.state, .bool true)] : List (String × Value)).lookup attr = some v := there
    rw [Keyed.lookup_cons] at one
    split at one
    · rename_i state
      cases one
      exact state ▸ Value.covers_inForm.state true
    · cases one
  · intro a inside
    simp only [List.mem_cons, List.not_mem_nil, or_false] at inside
    rcases inside with rfl | rfl | rfl | rfl <;> trivial

/-- A lamp without a getter is known to be on, but cannot be asked. -/
theorem known_is_not_readable :
    let config := Config.ofBulb [("setters", .list [.text Attr.on])]
    let c := ofBulb ⟨"bulb", Device.virtualKind, [], [Attr.on], false, []⟩
    let h := (c.run [.command false 0 "set lamp on"] (.start c.topology ⟨0, 0⟩)).house
    Controller.ofConfig .utc config = .ok c ∧ (config.nodes.map (·.device)).Nodup ∧
      (∀ n ∈ config.nodes, n.map = []) ∧ (∀ d ∈ config.devices, d.initialValues = []) ∧
      h.known? "lamp" Attr.state = some (.bool true) ∧
      (h.get c.topology "lamp" Attr.state 0).1 ≠ .ok (.bool true) := by
  intro config c h
  exact ⟨rfl, by decide, by decide, by decide +kernel, by decide +kernel, by decide +kernel⟩

end Controller

end HomeControl
