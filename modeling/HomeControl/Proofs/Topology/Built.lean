import HomeControl.Proofs.House.Configured
import HomeControl.Proofs.Topology.Aliases
import HomeControl.Proofs.Topology.Reach
import Mathlib.Data.List.Induction
/-!
Topologies of checked configurations. Where the devices can be made, the only things that are left to
go wrong are groups inside themselves and names of colors that run into a circle.
-/

namespace HomeControl.Topology

open Relation

theorem makeNodes_errors (devices : Keyed String Device) (configs : List NodeConfig) :
    (makeNodes devices configs).2 =
      (configs.filter fun n => (devices.get? n.device).isNone).map fun n =>
        .unknownReference .node n.id .device n.device := by
  induction configs using List.reverseRecOn with
  | nil => rfl
  | append_singleton front n ih =>
    rw [makeNodes, List.foldl_concat, ← makeNodes, List.filter_append, List.map_append, ← ih]
    cases found : devices.get? n.device with
    | some d => simp [found]
    | none => simp [found]

theorem makeNodes_clean_iff (devices : Keyed String Device) (configs : List NodeConfig) :
    (makeNodes devices configs).2 = [] ↔ ∀ n ∈ configs, ∃ d, devices.get? n.device = some d := by
  rw [makeNodes_errors, List.map_eq_nil_iff, List.filter_eq_nil_iff]
  refine forall_congr' fun n => forall_congr' fun _ => ?_
  rw [Bool.not_eq_true, Option.isNone_eq_false_iff, Option.isSome_iff_exists]

theorem makeNodes_get?_isSome {devices : Keyed String Device} {configs : List NodeConfig}
    (clean : (makeNodes devices configs).2 = []) :
    ∀ id ∈ configs.map (·.id), ((makeNodes devices configs).1.get? id).isSome = true := by
  intro id inside
  refine Keyed.isSome_foldl Prod.fst (fun n among acc => ?_) _ (Or.inl inside)
  obtain ⟨d, found⟩ := (makeNodes_clean_iff devices configs).mp clean n among
  exact ⟨Node.ofConfig n d, by simp only [found]⟩

section Made

variable {c : Config} (makes : ∀ d ∈ c.devices, ∃ made, Device.ofConfig d = .ok made)

include makes

theorem makeDevices_ok : (makeDevices c.devices).2 = [] ∧
    ∀ id ∈ c.devices.map (·.id), ((makeDevices c.devices).1.get? id).isSome = true := by
  refine ⟨?_, fun id inside => ?_⟩
  · refine List.foldlRecOn (motive := fun acc : Keyed String Device × List ConfigError => acc.2 = [])
      _ _ rfl fun acc clean d inside => ?_
    obtain ⟨made, ok⟩ := makes d inside
    simp only [ok]
    exact clean
  · refine Keyed.isSome_foldl Prod.fst (fun d inside acc => ?_) _ (Or.inl inside)
    obtain ⟨made, ok⟩ := makes d inside
    exact ⟨made, by simp only [ok]⟩

theorem makeNodes_ok (checked : c.Checked) : (makeNodes (makeDevices c.devices).1 c.nodes).2 = [] :=
  (makeNodes_clean_iff ..).mpr fun n inside =>
    Option.isSome_iff_exists.mp ((makeDevices_ok makes).2 _ (checked.shown n inside))

omit makes in
theorem node_of_member (checked : c.Checked) {id : String} {members : List String}
    (found : (Group.flatten c.groups).1.get? id = some members) :
    ∀ x ∈ members, x ∈ c.nodes.map (·.id) := by
  have known := Keyed.mem_keys_of_get? found
  rw [Group.keys_flatten checked.groups] at known
  obtain ⟨g, inside, rfl⟩ := List.mem_map.mp known
  rw [Group.get?_flatten checked.groups inside] at found
  cases found
  intro x member
  obtain ⟨inner, among, has, -⟩ := (Group.mem_members checked.groups inside).mp member
  exact checked.members inner among x has

omit makes in
theorem strangers_ok (checked : c.Checked) :
    strangers (c.nodes.map (·.id)) (Group.flatten c.groups).1 = [] := by
  refine List.flatMap_eq_nil_iff.mpr fun e among => List.map_eq_nil_iff.mpr ?_
  have nodup : (Group.flatten c.groups).1.keys.Nodup := by
    rw [Group.keys_flatten checked.groups]
    exact checked.groups
  have nodes := node_of_member checked ((Keyed.mem_entries_iff nodup).mp among)
  exact List.filter_eq_nil_iff.mpr fun x member => by simpa using nodes x member

theorem ofConfig_eq (checked : c.Checked) :
    ∃ t, Topology.ofConfig c =
      ConfigError.orElse ((Group.flatten c.groups).2 ++ errorOf? (ColorTable.ofConfig c.colors)) t ∧
      t.devices = (makeDevices c.devices).1 ∧
      t.nodes = (makeNodes (makeDevices c.devices).1 c.nodes).1 ∧
      t.groups = (Group.flatten c.groups).1 ∧
      t.colors = valueOr .empty (ColorTable.ofConfig c.colors) := by
  obtain ⟨timers, made⟩ := checked.timers
  refine ⟨{
    devices := (makeDevices c.devices).1
    nodes := (makeNodes (makeDevices c.devices).1 c.nodes).1
    groups := (Group.flatten c.groups).1
    strictNodes := strictNodesOf timers
    colors := valueOr .empty (ColorTable.ofConfig c.colors)
    actions := actionTable c.actions
    triggered := c.actions.filter (·.event.isSome) }, ?_, rfl, rfl, rfl, rfl⟩
  simp only [ofConfig, (makeDevices_ok makes).1, makeNodes_ok makes checked,
    strangers_ok checked, made, errorOf?, List.nil_append, List.append_nil]
  rfl

/-- A checked configuration makes a topology if no group is inside itself and no name of a color is a
name of itself, and only then. -/
theorem ofConfig_ok_iff (checked : c.Checked) :
    (∃ t, Topology.ofConfig c = .ok t) ↔
      (∀ a, ¬ TransGen (Group.Contains c.groups) a a) ∧
        ∀ a, ¬ TransGen (ColorTable.Alias c.colors) a a := by
  obtain ⟨t, whole, -⟩ := ofConfig_eq makes checked
  have groups : (Group.flatten c.groups).2 = [] ↔ ∀ a, ¬ TransGen (Group.Contains c.groups) a a := by
    simp only [List.eq_nil_iff_forall_not_mem, Group.mem_errors checked.groups, not_exists, not_and]
    exact ⟨fun none a => none _ a rfl, fun none e a _ => none a⟩
  have colors : errorOf? (ColorTable.ofConfig c.colors) = [] ↔
      ∀ a, ¬ TransGen (ColorTable.Alias c.colors) a a := by
    rw [← ColorTable.ofConfig_ok_iff checked.colors checked.defined]
    cases ColorTable.ofConfig c.colors with
    | ok table => exact ⟨fun _ => ⟨table, rfl⟩, fun _ => rfl⟩
    | error e => exact ⟨nofun, nofun⟩
  simp only [whole, ConfigError.orElse_eq_ok, List.append_eq_nil_iff, groups, colors, exists_and_left,
    exists_eq', and_true]

theorem leaf_of_ofConfig (checked : c.Checked) {e x : ConfigError}
    (failed : Topology.ofConfig c = .error e) (leaf : x ∈ e.leaves) :
    (∃ id, x = .cyclicGroup id) ∨ ∃ id, x = .cyclicColor id := by
  obtain ⟨t, whole, -⟩ := ofConfig_eq makes checked
  rw [whole] at failed
  rw [ConfigError.leaves_of_orElse failed] at leaf
  obtain ⟨e, reported, leaf⟩ := ConfigError.mem_allLeaves.mp leaf
  rcases List.mem_append.mp reported with group | color
  · obtain ⟨id, rfl, -⟩ := (Group.mem_errors checked.groups).mp group
    exact Or.inl ⟨id, List.mem_singleton.mp leaf⟩
  · cases made : ColorTable.ofConfig c.colors with
    | ok colors =>
      rw [made] at color
      cases color
    | error cause =>
      rw [made] at color
      rw [List.mem_singleton.mp color] at leaf
      exact Or.inr (ColorTable.leaf_of_ofConfig checked.colors checked.defined made leaf)

end Made

section Parts

variable {c : Config} {t : Topology} (made : Topology.ofConfig c = .ok t)

include made

theorem parts_of_config (checked : c.Checked)
    (makes : ∀ d ∈ c.devices, ∃ made, Device.ofConfig d = .ok made) :
    (∀ id ∈ c.nodes.map (·.id), ∃ n, t.nodes.get? id = some n ∧ n.id = id) ∧
      t.groups = (Group.flatten c.groups).1 ∧ ColorTable.ofConfig c.colors = .ok t.colors := by
  obtain ⟨t', whole, -, nodes, groups, colors⟩ := ofConfig_eq makes checked
  rw [made] at whole
  obtain ⟨clean, rfl⟩ := ConfigError.orElse_eq_ok.mp whole.symm
  refine ⟨fun id inside => ?_, groups, ?_⟩
  · have found := makeNodes_get?_isSome (makeNodes_ok makes checked) id inside
    rw [← nodes] at found
    obtain ⟨n, found⟩ := Option.isSome_iff_exists.mp found
    exact ⟨n, found, id_of_config made found⟩
  · rw [colors]
    cases table : ColorTable.ofConfig c.colors with
    | ok table => rfl
    | error e =>
      rw [table] at clean
      simp [errorOf?] at clean

end Parts

theorem resolve_members {t : Topology} {timed : Bool} {id : String} {members : List String}
    (fresh : t.nodes.get? id = none) (found : t.groups.get? id = some members)
    (nodes : ∀ x ∈ members, ∃ n, t.nodes.get? x = some n ∧ n.id = x) :
    (t.resolve timed id).map (·.id) = members.filter fun x => timed || !t.isTimed x := by
  have each : (members.filter fun x => timed || !t.isTimed x).filterMap
      (fun x => (t.nodes.get? x).map (·.id)) =
        (members.filter fun x => timed || !t.isTimed x).filterMap some := by
    refine List.filterMap_congr fun x asked => ?_
    obtain ⟨n, there, same⟩ := nodes x (List.mem_filter.mp asked).1
    rw [there, Option.map_some, same]
  simp only [resolve, fresh, found, List.map_filterMap, each, List.filterMap_some]

/-- A checked configuration whose devices can be made makes a topology unless a group is inside itself
or a color is another name of itself, and these are all the errors there can be. The nodes of the
topology show devices that it has, its groups have nodes that it has as members, none of which is lost
where the group is resolved by a name that is not a node's, and each of its colors is one. -/
theorem checked_config_builds {c : Config} (accepted : c.check = .ok c)
    (makes : ∀ d ∈ c.devices, ∃ made, Device.ofConfig d = .ok made) :
    ((∃ t, Topology.ofConfig c = .ok t) ↔
      (∀ a, ¬ TransGen (Group.Contains c.groups) a a) ∧
        ∀ a, ¬ TransGen (ColorTable.Alias c.colors) a a) ∧
    (∀ e, Topology.ofConfig c = .error e → ∀ x ∈ e.leaves,
      (∃ id, x = .cyclicGroup id) ∨ ∃ id, x = .cyclicColor id) ∧
    ∀ t, Topology.ofConfig c = .ok t →
      (∀ n ∈ c.nodes, ∃ node, t.nodes.get? n.id = some node ∧
        t.devices.get? n.device = some node.device) ∧
      (∀ g ∈ c.groups, ∃ members, t.groups.get? g.id = some members ∧
        (∀ x ∈ members, x ∈ c.nodes.map (·.id) ∧ (t.nodes.get? x).isSome = true) ∧
        (g.id ∉ c.nodes.map (·.id) → (t.resolve true g.id).map (·.id) = members)) ∧
      ∀ x ∈ c.colors, (t.colors.get? x.id).isSome = true := by
  have checked := Config.checked_of_check accepted
  refine ⟨ofConfig_ok_iff makes checked, fun e failed x => leaf_of_ofConfig makes checked failed, ?_⟩
  intro t made
  obtain ⟨nodes, groups, colors⟩ := parts_of_config made checked makes
  refine ⟨fun n inside => ?_, fun g inside => ?_, fun x inside => ?_⟩
  · obtain ⟨node, found, -⟩ := nodes n.id (List.mem_map_of_mem inside)
    obtain ⟨x, among, same, -, device, linked, -⟩ := node_of_config made found
    rw [List.inj_on_of_nodup_map checked.nodes among inside same] at device
    exact ⟨node, found, device ▸ linked⟩
  · have found := Group.get?_flatten checked.groups inside
    have members := node_of_member checked found
    rw [← groups] at found
    refine ⟨_, found, fun x member => ⟨members x member, ?_⟩, fun fresh => ?_⟩
    · obtain ⟨node, there, -⟩ := nodes x (members x member)
      rw [there]
      rfl
    · have hidden : t.nodes.get? g.id = none := by
        refine Option.eq_none_iff_forall_ne_some.mpr fun node hidden => fresh ?_
        obtain ⟨x, among, same, -⟩ := node_of_config made hidden
        exact same ▸ List.mem_map_of_mem among
      rw [resolve_members hidden found fun x member => nodes x (members x member)]
      exact List.filter_eq_self.mpr fun _ _ => rfl
  · exact ColorTable.get?_ofConfig checked.colors checked.defined colors inside

theorem checked_config_builds_lamps :
    let c : Config :=
      { devices := [⟨"bulb", Device.virtualKind, []⟩]
        nodes := [⟨"desk", "bulb", none, none, []⟩, ⟨"bed", "bulb", none, none, []⟩]
        groups := [⟨"all", [], ["lamps"]⟩, ⟨"lamps", ["desk", "bed"], []⟩]
        colors := [⟨"red", some ⟨255, 0, 0⟩, none, none⟩, ⟨"alarm", none, none, some "red"⟩] }
    c.check = .ok c ∧ (∀ d ∈ c.devices, ∃ made, Device.ofConfig d = .ok made) ∧
      ∃ t, Topology.ofConfig c = .ok t ∧ (∀ a, ¬ TransGen (Group.Contains c.groups) a a) ∧
        t.groups.get? "all" = some ["desk", "bed"] ∧
        (t.resolve true "all").map (·.id) = ["desk", "bed"] ∧
        (t.colors.get? "alarm").isSome = true := by
  intro c
  let bulb : Device := ⟨"bulb", Device.virtualKind, [], [], false, []⟩
  let t : Topology := ⟨⟨[("bulb", bulb)]⟩,
    ⟨[("desk", ⟨"desk", bulb, none, none, []⟩), ("bed", ⟨"bed", bulb, none, none, []⟩)]⟩,
    ⟨[("all", ["desk", "bed"]), ("lamps", ["desk", "bed"])]⟩, [],
    ⟨[("red", ⟨255, 0, 0⟩), ("alarm", ⟨255, 0, 0⟩)]⟩, .empty, []⟩
  have accepted : c.check = .ok c := rfl
  have makes : ∀ d ∈ c.devices, ∃ made, Device.ofConfig d = .ok made :=
    List.forall_mem_singleton.mpr ⟨bulb, rfl⟩
  have made : Topology.ofConfig c = .ok t := by with_unfolding_all rfl
  obtain ⟨builds, -, parts⟩ := checked_config_builds accepted makes
  obtain ⟨-, groups, colors⟩ := parts t made
  obtain ⟨members, found, -, resolved⟩ := groups ⟨"all", [], ["lamps"]⟩ (by decide)
  cases found
  exact ⟨accepted, makes, t, made, (builds.mp ⟨t, made⟩).1, rfl, resolved (by decide),
    colors ⟨"alarm", none, none, some "red"⟩ (by decide)⟩

/-- A group that has the name of a node is not resolved to its members. -/
theorem group_hidden_by_node :
    let c : Config :=
      { devices := [⟨"bulb", Device.virtualKind, []⟩]
        nodes := [⟨"desk", "bulb", none, none, []⟩, ⟨"bed", "bulb", none, none, []⟩,
          ⟨"lamps", "bulb", none, none, []⟩]
        groups := [⟨"lamps", ["desk", "bed"], []⟩] }
    c.check = .ok c ∧ (∀ d ∈ c.devices, ∃ made, Device.ofConfig d = .ok made) ∧
      ∃ t, Topology.ofConfig c = .ok t ∧ t.groups.get? "lamps" = some ["desk", "bed"] ∧
        (t.resolve true "lamps").map (·.id) = ["lamps"] := by
  intro c
  let bulb : Device := ⟨"bulb", Device.virtualKind, [], [], false, []⟩
  let t : Topology := ⟨⟨[("bulb", bulb)]⟩,
    ⟨[("desk", ⟨"desk", bulb, none, none, []⟩), ("bed", ⟨"bed", bulb, none, none, []⟩),
      ("lamps", ⟨"lamps", bulb, none, none, []⟩)]⟩,
    ⟨[("lamps", ["desk", "bed"])]⟩, [], .empty, .empty, []⟩
  have made : Topology.ofConfig c = .ok t := by with_unfolding_all rfl
  exact ⟨rfl, List.forall_mem_singleton.mpr ⟨bulb, rfl⟩, t, made, rfl, rfl⟩

end HomeControl.Topology
