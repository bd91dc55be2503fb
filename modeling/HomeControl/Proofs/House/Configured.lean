import HomeControl.Controller
/-!
The houses of accepted configurations: their nodes and devices are those of the configuration, and
hold at first what it gives.
-/

namespace HomeControl

def DeviceConfig.initialValues (c : DeviceConfig) : List (String × Value) :=
  match c.options.lookup "values" with
  | some (.record fields) => fields
  | _ => []

theorem Device.ofConfig_ok {c : DeviceConfig} {d : Device} (h : Device.ofConfig c = .ok d) :
    d.id = c.id ∧ d.initial = c.initialValues := by
  unfold Device.ofConfig at h
  split at h
  · split at h
    · rename_i built
      cases h
      unfold build at built
      unfold DeviceConfig.initialValues
      split at built
      · rename_i values
        cases built
        rw [values]
        exact ⟨rfl, rfl⟩
      · rename_i values
        cases built
        rw [values]
        exact ⟨rfl, rfl⟩
      · cases built
    · cases h
  · cases h

namespace Topology

theorem get?_of_foldl {α ν : Type} (key : α → String) (made : α → ν → Prop)
    {step : Keyed String ν × List ConfigError → α → Keyed String ν × List ConfigError}
    (steps : ∀ acc x, (step acc x).1 = acc.1 ∨
      ∃ v, made x v ∧ (step acc x).1 = acc.1.insert (key x) v)
    {items : List α} {acc : Keyed String ν × List ConfigError} {id : String} {v : ν}
    (h : (items.foldl step acc).1.get? id = some v) :
    acc.1.get? id = some v ∨ ∃ x ∈ items, key x = id ∧ made x v := by
  induction items generalizing acc with
  | nil => exact Or.inl h
  | cons x rest ih =>
    rcases ih h with first | ⟨y, inside, under⟩
    · rcases steps acc x with same | ⟨w, new, inserted⟩
      · rw [same] at first
        exact Or.inl first
      · rw [inserted, Keyed.get?_insert] at first
        split at first
        · rename_i here
          cases first
          exact Or.inr ⟨x, List.mem_cons_self, here, new⟩
        · exact Or.inl first
    · exact Or.inr ⟨y, List.mem_cons_of_mem _ inside, under⟩

theorem makeDevices_get? {configs : List DeviceConfig} {id : String} {d : Device}
    (h : (makeDevices configs).1.get? id = some d) :
    ∃ c ∈ configs, c.id = id ∧ Device.ofConfig c = .ok d := by
  have found := get?_of_foldl DeviceConfig.id (fun c d => Device.ofConfig c = .ok d) ?_ h
  · rcases found with none | some
    · cases none
    · exact some
  · intro acc c
    cases built : Device.ofConfig c with
    | ok d => exact Or.inr ⟨d, rfl, rfl⟩
    | error e => exact Or.inl rfl

theorem makeNodes_get? {devices : Keyed String Device} {configs : List NodeConfig} {id : String}
    {n : Node} (h : (makeNodes devices configs).1.get? id = some n) :
    ∃ c ∈ configs, c.id = id ∧ ∃ d, devices.get? c.device = some d ∧ n = Node.ofConfig c d := by
  have found := get?_of_foldl NodeConfig.id
    (fun c n => ∃ d, devices.get? c.device = some d ∧ n = Node.ofConfig c d) ?_ h
  · rcases found with none | some
    · cases none
    · exact some
  · intro acc c
    cases shown : devices.get? c.device with
    | some d => exact Or.inr ⟨_, ⟨d, rfl, rfl⟩, rfl⟩
    | none => exact Or.inl rfl

theorem ofConfig_ok {c : Config} {t : Topology} (h : Topology.ofConfig c = .ok t) :
    t.devices = (makeDevices c.devices).1 ∧ t.nodes = (makeNodes t.devices c.nodes).1 := by
  simp only [ofConfig, ConfigError.orElse] at h
  split at h
  · cases h
    exact ⟨rfl, rfl⟩
  · cases h

end Topology

theorem Topology.id_of_config {config : Config} {t : Topology}
    (made : Topology.ofConfig config = .ok t) {id : String} {n : Node}
    (found : t.nodes.get? id = some n) : n.id = id := by
  rw [(ofConfig_ok made).2] at found
  obtain ⟨x, -, under, d, -, rfl⟩ := makeNodes_get? found
  exact under

theorem Topology.get?_of_resolve {config : Config} {t : Topology}
    (made : Topology.ofConfig config = .ok t) {timed : Bool} {word : String} {n : Node}
    (h : n ∈ t.resolve timed word) : t.nodes.get? n.id = some n := by
  have known : ∃ id, t.nodes.get? id = some n := by
    unfold resolve at h
    split at h
    · rename_i m found
      rw [List.mem_singleton.mp h]
      exact ⟨_, found⟩
    · split at h
      · obtain ⟨id, -, found⟩ := List.mem_filterMap.mp h
        exact ⟨id, found⟩
      · exact absurd h List.not_mem_nil
  obtain ⟨id, found⟩ := known
  rw [id_of_config made found]
  exact found

theorem Topology.node_of_config {config : Config} {t : Topology}
    (made : Topology.ofConfig config = .ok t) {id : String} {n : Node}
    (found : t.nodes.get? id = some n) :
    ∃ x ∈ config.nodes, x.id = id ∧ n.map = x.map ∧ n.device.id = x.device ∧
      t.devices.get? n.device.id = some n.device ∧
      ∃ d ∈ config.devices, d.id = x.device ∧ n.device.initial = d.initialValues := by
  obtain ⟨devices, nodes⟩ := ofConfig_ok made
  rw [show t.nodes = _ from nodes] at found
  obtain ⟨x, inside, under, d, shown, rfl⟩ := makeNodes_get? found
  obtain ⟨y, among, named, built⟩ := makeDevices_get? (devices ▸ shown)
  obtain ⟨own, initial⟩ := Device.ofConfig_ok built
  have device : d.id = x.device := own.trans named
  refine ⟨x, inside, under, rfl, device, ?_, y, among, named, initial⟩
  rw [← device] at shown
  exact shown

theorem Controller.ofConfig_ok {zone : Zone} {config : Config} {c : Controller}
    (accepted : Controller.ofConfig zone config = .ok c) :
    Topology.ofConfig config = .ok c.topology ∧ ∃ timers, config.timerDefs = .ok timers ∧
      c.timers = timers ++ actionTimers config.actions := by
  unfold Controller.ofConfig at accepted
  cases made : Topology.ofConfig config with
  | error e =>
    rw [made] at accepted
    cases accepted
  | ok t =>
    rw [made] at accepted
    cases timers : config.timerDefs with
    | error e =>
      rw [timers] at accepted
      cases accepted
    | ok timers' =>
      rw [timers] at accepted
      cases accepted
      exact ⟨rfl, timers', rfl, rfl⟩

theorem Controller.node_of_config {zone : Zone} {config : Config} {c : Controller}
    (accepted : Controller.ofConfig zone config = .ok c) {id : String} {n : Node}
    (found : c.topology.nodes.get? id = some n) :
    ∃ x ∈ config.nodes, x.id = id ∧ n.map = x.map ∧ n.device.id = x.device ∧
      c.topology.devices.get? n.device.id = some n.device ∧
      ∃ d ∈ config.devices, d.id = x.device ∧ n.device.initial = d.initialValues :=
  Topology.node_of_config (Controller.ofConfig_ok accepted).1 found

def Config.ofBulb (options : List (String × Value)) : Config where
  devices := [⟨"bulb", Device.virtualKind, options⟩]
  nodes := [⟨"lamp", "bulb", none, none, []⟩]

end HomeControl
