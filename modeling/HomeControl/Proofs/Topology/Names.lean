import HomeControl.Proofs.House.Configured
import HomeControl.Proofs.Table
/-!
The names that a node has for the attributes of its device. An attribute is found again by its name,
unless the map of the node gives the attribute's own name to another one and gives it no other name.
-/

namespace HomeControl

namespace Device

theorem mem_getters_iff (d : Device) (attr : String) : attr ∈ d.getters ↔ d.hasGet attr = true := by
  rw [hasGet, Bool.or_eq_true, beq_iff_eq, List.contains_iff_mem, getters]
  split
  · rename_i declared
    rw [List.contains_iff_mem] at declared
    refine ⟨Or.inr, ?_⟩
    rintro (rfl | inside)
    · exact declared
    · exact inside
  · rw [List.mem_append, List.mem_singleton, or_comm]

theorem nodup_getters {d : Device} (once : d.readable.Nodup) : d.getters.Nodup := by
  unfold getters
  split
  · exact once
  · rename_i undeclared
    rw [List.contains_iff_mem] at undeclared
    exact List.nodup_append.mpr ⟨once, List.nodup_singleton _, fun a inside b last same =>
      undeclared (List.mem_singleton.mp last ▸ same ▸ inside)⟩

theorem nodup_declared (c : DeviceConfig) (key : String) : (declared c key).Nodup := by
  unfold declared
  split
  · exact nodup_eraseDups _
  · exact List.nodup_nil

theorem readable_of_config {c : DeviceConfig} {d : Device} (h : Device.ofConfig c = .ok d) :
    d.readable = declared c "getters" := by
  unfold Device.ofConfig build at h
  split at h
  · split at h
    · rename_i built
      split at built <;> cases built <;> cases h <;> rfl
    · cases h
  · cases h

end Device

namespace Node

structure Distinct (n : Node) : Prop where
  names : (n.map.map (·.1)).Nodup
  readable : n.device.readable.Nodup

/-- The name of an attribute of the device is given to something else, and nothing is a name for the
attribute. -/
structure Hides (n : Node) (attr : String) : Prop where
  taken : attr ∈ n.map.map (·.1)
  nameless : attr ∉ n.map.map (·.2)

/-- What a node lists is what it can read: no name twice, and for each attribute of the device, in
their order, a name that leads back to it. -/
structure ListsReadable (n : Node) : Prop where
  once : n.getters.Nodup
  readable : ∀ name ∈ n.getters, n.hasGet name = true
  back : n.getters.map n.deviceAttr = n.device.getters

instance (n : Node) (attr : String) : Decidable (n.Hides attr) :=
  decidable_of_iff (attr ∈ n.map.map (·.1) ∧ attr ∉ n.map.map (·.2))
    ⟨fun ⟨taken, nameless⟩ => ⟨taken, nameless⟩, fun h => ⟨h.taken, h.nameless⟩⟩

variable {n : Node}

theorem deviceAttr_of_mem (distinct : n.Distinct) {name attr : String}
    (given : (name, attr) ∈ n.map) : n.deviceAttr name = attr := by
  rw [deviceAttr, Keyed.lookup_of_mem distinct.names given, Option.getD_some]

theorem deviceAttr_of_free {name : String} (free : name ∉ n.map.map (·.1)) :
    n.deviceAttr name = name := by
  rw [deviceAttr, Keyed.lookup_of_fresh free, Option.getD_none]

theorem nodeAttr_of_nameless {attr : String} (nameless : attr ∉ n.map.map (·.2)) :
    n.nodeAttr attr = attr := by
  have unfound : n.map.find? (·.2 == attr) = none := by
    refine List.find?_eq_none.mpr fun e inside own => nameless ?_
    exact List.mem_map.mpr ⟨e, inside, beq_iff_eq.mp own⟩
  rw [nodeAttr, unfound]

theorem mem_map_of_named {attr : String} (named : attr ∈ n.map.map (·.2)) :
    (n.nodeAttr attr, attr) ∈ n.map := by
  unfold nodeAttr
  cases found : n.map.find? (·.2 == attr) with
  | none =>
    obtain ⟨e, inside, own⟩ := List.mem_map.mp named
    exact absurd (beq_iff_eq.mpr own) (List.find?_eq_none.mp found e inside)
  | some e =>
    have own : e.2 = attr := by simpa using List.find?_some found
    exact own ▸ List.mem_of_find?_eq_some found

theorem Hides.deviceAttr_ne (distinct : n.Distinct) {attr : String} (hidden : n.Hides attr)
    (name : String) : n.deviceAttr name ≠ attr := by
  intro leads
  by_cases taken : name ∈ n.map.map (·.1)
  · obtain ⟨⟨own, other⟩, inside, rfl⟩ := List.mem_map.mp taken
    rw [deviceAttr_of_mem distinct inside] at leads
    exact hidden.nameless (List.mem_map.mpr ⟨_, inside, leads⟩)
  · rw [deviceAttr_of_free taken] at leads
    exact taken (leads ▸ hidden.taken)

theorem leads_back_iff (distinct : n.Distinct) (attr : String) :
    n.deviceAttr (n.nodeAttr attr) = attr ↔ ¬n.Hides attr := by
  refine ⟨fun back hidden => hidden.deviceAttr_ne distinct _ back, fun shown => ?_⟩
  by_cases named : attr ∈ n.map.map (·.2)
  · exact deviceAttr_of_mem distinct (mem_map_of_named named)
  · have free : attr ∉ n.map.map (·.1) := fun taken => shown ⟨taken, named⟩
    rw [nodeAttr_of_nameless named, deviceAttr_of_free free]

theorem Hides.of_same_name (distinct : n.Distinct) {attr other : String} (hidden : n.Hides attr)
    (shown : ¬n.Hides other) (same : n.nodeAttr attr = n.nodeAttr other) :
    n.deviceAttr attr = other ∧ n.nodeAttr other = attr := by
  rw [nodeAttr_of_nameless hidden.nameless] at same
  have back := (leads_back_iff distinct other).mpr shown
  rw [← same] at back
  exact ⟨back, same.symm⟩

theorem getters_nodup_iff (distinct : n.Distinct) :
    n.getters.Nodup ↔ ∀ attr ∈ n.device.getters, n.Hides attr →
      n.deviceAttr attr ∈ n.device.getters → n.nodeAttr (n.deviceAttr attr) ≠ attr := by
  constructor
  · intro once attr inside hidden among same
    have listed : n.nodeAttr (n.deviceAttr attr) = n.nodeAttr attr :=
      same.trans (nodeAttr_of_nameless hidden.nameless).symm
    exact hidden.deviceAttr_ne distinct attr (List.inj_on_of_nodup_map once among inside listed)
  · intro apart
    -- Two hidden attributes go by their own names, and two that are shown are found again by theirs.
    refine (Device.nodup_getters distinct.readable).map_on fun x insideX y insideY same => ?_
    by_cases hiddenX : n.Hides x <;> by_cases hiddenY : n.Hides y
    · rwa [nodeAttr_of_nameless hiddenX.nameless, nodeAttr_of_nameless hiddenY.nameless] at same
    · obtain ⟨leads, named⟩ := hiddenX.of_same_name distinct hiddenY same
      exact absurd (leads ▸ named) (apart x insideX hiddenX (leads ▸ insideY))
    · obtain ⟨leads, named⟩ := hiddenY.of_same_name distinct hiddenX same.symm
      exact absurd (leads ▸ named) (apart y insideY hiddenY (leads ▸ insideX))
    · rw [← (leads_back_iff distinct x).mpr hiddenX, same, (leads_back_iff distinct y).mpr hiddenY]

theorem getters_readable_iff (distinct : n.Distinct) :
    (∀ name ∈ n.getters, n.hasGet name = true) ↔
      ∀ attr ∈ n.device.getters, n.Hides attr → n.device.hasGet (n.deviceAttr attr) = true := by
  constructor
  · intro all attr inside hidden
    refine all attr (List.mem_map.mpr ⟨attr, inside, ?_⟩)
    exact nodeAttr_of_nameless hidden.nameless
  · intro reached name listed
    obtain ⟨attr, inside, rfl⟩ := List.mem_map.mp listed
    by_cases hidden : n.Hides attr
    · rw [nodeAttr_of_nameless hidden.nameless]
      exact reached attr inside hidden
    · rw [hasGet, (leads_back_iff distinct attr).mpr hidden]
      exact (Device.mem_getters_iff _ _).mp inside

theorem getters_lead_back_iff (distinct : n.Distinct) :
    n.getters.map n.deviceAttr = n.device.getters ↔ ∀ attr ∈ n.device.getters, ¬n.Hides attr := by
  have pointwise : n.device.getters.map (n.deviceAttr ∘ n.nodeAttr) = n.device.getters.map (·) ↔
      ∀ attr ∈ n.device.getters, n.deviceAttr (n.nodeAttr attr) = attr := List.map_eq_map_iff
  rw [List.map_id', ← List.map_map] at pointwise
  exact pointwise.trans (forall₂_congr fun attr _ => leads_back_iff distinct attr)

theorem listsReadable_iff (distinct : n.Distinct) :
    n.ListsReadable ↔ ∀ attr ∈ n.device.getters, ¬n.Hides attr := by
  constructor
  · intro lists
    exact (getters_lead_back_iff distinct).mp lists.back
  · intro shown
    exact {
      once := (getters_nodup_iff distinct).mpr fun attr inside hidden =>
        absurd hidden (shown attr inside)
      readable := (getters_readable_iff distinct).mpr fun attr inside hidden =>
        absurd hidden (shown attr inside)
      back := (getters_lead_back_iff distinct).mpr shown }

end Node

theorem Topology.distinct_of_config {config : Config} {t : Topology}
    (made : Topology.ofConfig config = .ok t) {id : String} {n : Node}
    (found : t.nodes.get? id = some n) (names : ∀ x ∈ config.nodes, (x.map.map (·.1)).Nodup) :
    n.Distinct := by
  obtain ⟨devices, nodes⟩ := ofConfig_ok made
  rw [nodes] at found
  obtain ⟨x, inside, -, d, shown, rfl⟩ := makeNodes_get? found
  rw [devices] at shown
  obtain ⟨y, -, -, built⟩ := makeDevices_get? shown
  refine ⟨names x inside, ?_⟩
  rw [Node.ofConfig, Device.readable_of_config built]
  exact Device.nodup_declared y "getters"

end HomeControl
