import HomeControl.Proofs.Command.Members
import HomeControl.Proofs.House.Capable
import HomeControl.Proofs.House.Getters
import HomeControl.Proofs.Topology.Names
/-!
Commands that ask a node for all that it lists. Such a command reads every attribute of the device by
one call exactly if the node hides none of them; otherwise it may read one of them twice, or ask for
something that the device does not have.
-/

namespace HomeControl

/-- A text with one command, which asks for a node and names no attributes. -/
structure Node.AskedWhole (n : Node) (t : Topology) (text : String) : Prop where
  found : t.nodes.get? n.id = some n
  plain : Aggregate.ofWord? n.id = none
  said : (Situation.commandsOf text).map Text.words = [["get", n.id]]

def Node.wholeReading (n : Node) : Plan :=
  { getters := n.getters.map (Getter.mk n.id) }

theorem Device.get_supported_iff (d : Device) (attr : String) (s : DeviceState) :
    (∀ e, errorIn? (d.get attr s).1 = some e → e.isUnsupported = false) ↔ d.hasGet attr = true := by
  rw [hasGet, Bool.or_eq_true, beq_iff_eq, get]
  by_cases declared : d.readable.contains attr = true
  · refine iff_of_true (fun e failed => ?_) (Or.inr declared)
    rw [if_pos declared] at failed
    split at failed <;> cases failed
    rfl
  · rw [if_neg declared]
    by_cases flag : attr = Attr.online
    · rw [if_pos flag]
      refine iff_of_true (fun e failed => ?_) (Or.inl flag)
      cases failed
    · rw [if_neg flag]
      refine iff_of_false (fun supported => ?_) (not_or_intro flag declared)
      cases supported _ rfl

theorem Topology.reading_supported_iff {t : Topology} {g : Getter} {n : Node}
    (found : t.nodes.get? g.node = some n) :
    (∀ e, t.readingError? g = some e → e.isRefusal = false) ↔ n.hasGet g.attr = true := by
  rw [Node.hasGet, ← n.device.get_supported_iff _ n.device.start, readingError?, found]
  simp only [Option.map_eq_some_iff]
  constructor
  · exact fun supported cause failed => supported _ ⟨cause, failed, rfl⟩
  · rintro supported e ⟨cause, failed, rfl⟩
    exact supported cause failed

namespace Node.AskedWhole

variable {n : Node} {t : Topology} {text : String}

theorem get_eq {s : Situation} (h : n.AskedWhole s.topology text) :
    s.get [n.id] = n.wholeReading := by
  have alone : s.targets true [n.id] = ([n], []) := by
    simp [Situation.targets, Situation.readTargets, Topology.resolve, h.found,
      Situation.uniqueNodes]
  simp [Situation.get, h.plain, alone, wholeReading]

theorem compile_eq {s : Situation} (h : n.AskedWhole s.topology text) (timed : Bool) :
    s.compile timed text = n.wholeReading := by
  obtain ⟨command, one, spoken⟩ := List.map_eq_singleton_iff.mp h.said
  have some : n.wholeReading.checked = n.wholeReading := by
    have online : Attr.online ∈ n.device.getters :=
      (n.device.mem_getters_iff _).mpr (by rw [Device.hasGet, beq_self_eq_true, Bool.true_or])
    have filled : n.wholeReading.getters ≠ [] := by
      simpa [wholeReading, getters] using List.ne_nil_of_mem online
    simp [Plan.checked, Plan.hasNoActions, filled]
  rw [Situation.compile_eq, Situation.batch, one]
  simp only [List.foldl_cons, List.foldl_nil, Plan.empty_merge, Situation.command, spoken]
  rw [h.get_eq, some]

end Node.AskedWhole

namespace State

variable (t : Topology) (depth : Nat) (n : Node) (s : State)

theorem execute_wholeReading :
    let all := s |> readAll t depth n.wholeReading.getters.eraseDups
    (s.execute t depth n.wholeReading).2 = all.2 ∧
      (s.execute t depth n.wholeReading).1.errors =
        (all.1.filterMap fun a => errorIn? a.2).map .node := by
  intro all
  obtain ⟨state, errors⟩ := execute_after_calls t depth n.wholeReading s
  have left : all.2.execute t depth n.wholeReading.withoutGetters = (⟨none, []⟩, all.2) := rfl
  have sums : s.sumErrors t depth n.wholeReading = [] := rfl
  rw [left] at state errors
  rw [sums, List.map_nil, List.append_nil, List.append_nil] at errors
  exact ⟨state, errors⟩

theorem mem_errors_wholeReading {e : NodeError} :
    CommandError.node e ∈ (s.execute t depth n.wholeReading).1.errors ↔
      ∃ name ∈ n.getters, t.readingError? ⟨n.id, name⟩ = some e := by
  rw [(execute_wholeReading t depth n s).2, ← failedReadings_eq_filterMap, failedReadings_eq,
    failedGetters_readAll]
  simp [Node.wholeReading]

theorem wholeReading_supported_iff (found : t.nodes.get? n.id = some n) :
    (∀ e, .node e ∈ (s.execute t depth n.wholeReading).1.errors → e.isRefusal = false) ↔
      ∀ name ∈ n.getters, n.hasGet name = true := by
  simp only [mem_errors_wholeReading]
  constructor
  · intro supported name listed
    refine (Topology.reading_supported_iff (g := ⟨n.id, name⟩) found).mp fun e failed => ?_
    exact supported e ⟨name, listed, failed⟩
  · rintro readable e ⟨name, listed, failed⟩
    exact (Topology.reading_supported_iff (g := ⟨n.id, name⟩) found).mpr (readable name listed) e
      failed

theorem wholeReading_once_iff (distinct : n.Distinct) :
    (∀ attr ∈ n.device.getters,
        (n.wholeReading.getters.eraseDups.map fun g => n.deviceAttr g.attr).count attr = 1) ↔
      ∀ attr ∈ n.device.getters, ¬n.Hides attr := by
  constructor
  · intro once attr inside hidden
    have asked : attr ∈ n.wholeReading.getters.eraseDups.map fun g => n.deviceAttr g.attr :=
      List.count_pos_iff.mp (by rw [once attr inside]; exact Nat.one_pos)
    obtain ⟨g, -, leads⟩ := List.mem_map.mp asked
    exact hidden.deviceAttr_ne distinct g.attr leads
  · intro shown attr inside
    have lists := (Node.listsReadable_iff distinct).mpr shown
    have apart : n.wholeReading.getters.Nodup :=
      lists.once.map_on fun a _ b _ same => congrArg Getter.attr same
    have back : n.wholeReading.getters.map (fun g => n.deviceAttr g.attr) = n.device.getters :=
      (List.map_map ..).trans lists.back
    rw [eraseDups_of_nodup apart, back]
    exact List.count_eq_one_of_mem (Device.nodup_getters distinct.readable) inside

end State

namespace Node

/-- A node lists what it can read exactly if it hides no attribute of its device; so it does if no name
in its map is that of an attribute of the device, or if the map gives each of these another name. A
command for all that it lists then reads every attribute of the device by one call. A name is listed
twice, or cannot be read, only where a hidden attribute goes by a name that leads elsewhere. -/
theorem lists_what_it_reads_iff {n : Node} (distinct : n.Distinct) :
    (n.ListsReadable ↔ ∀ attr ∈ n.device.getters, ¬n.Hides attr) ∧
    (∀ attr, n.deviceAttr (n.nodeAttr attr) = attr ↔ ¬n.Hides attr) ∧
    (n.getters.Nodup ↔ ∀ attr ∈ n.device.getters, n.Hides attr →
      n.deviceAttr attr ∈ n.device.getters → n.nodeAttr (n.deviceAttr attr) ≠ attr) ∧
    ((∀ name ∈ n.getters, n.hasGet name = true) ↔ ∀ attr ∈ n.device.getters, n.Hides attr →
      n.device.hasGet (n.deviceAttr attr) = true) ∧
    ∀ (c : Controller) (text : String), n.AskedWhole c.topology text →
      ∀ (timed : Bool) (depth : Nat) (s : State),
        let answer := c.execute timed depth text s
        ∃ calls, State.Calls c.topology depth s calls answer.2 ∧
          calls.map (·.1) = (n.getters.map (Getter.mk n.id)).eraseDups ∧
          answer.1.errors = (calls.filterMap fun a => errorIn? a.2).map .node ∧
          ((∀ attr ∈ n.device.getters, (calls.map fun a => n.deviceAttr a.1.attr).count attr = 1) ↔
            ∀ attr ∈ n.device.getters, ¬n.Hides attr) ∧
          ((∀ e, .node e ∈ answer.1.errors → e.isRefusal = false) ↔
            ∀ attr ∈ n.device.getters, n.Hides attr →
              n.device.hasGet (n.deviceAttr attr) = true) := by
  refine ⟨listsReadable_iff distinct, leads_back_iff distinct, getters_nodup_iff distinct,
    getters_readable_iff distinct, fun c text asked timed depth s => ?_⟩
  have plan : c.compile timed text s = n.wholeReading := asked.compile_eq timed
  have done : c.execute timed depth text s = s.execute c.topology depth n.wholeReading := by
    rw [Controller.execute, plan, Controller.executePlan]
  obtain ⟨after, errors⟩ := State.execute_wholeReading c.topology depth n s
  obtain ⟨calls, called⟩ := State.readAll_calls c.topology depth n.wholeReading.getters.eraseDups s
  have reached := congrArg (List.map fun g => n.deviceAttr g.attr) called
  rw [List.map_map] at reached
  simp only [done]
  refine ⟨_, after ▸ calls, called, errors, ?_, ?_⟩
  · rw [← State.wholeReading_once_iff n distinct, ← reached]
    rfl
  · exact (State.wholeReading_supported_iff c.topology depth n s asked.found).trans
      (getters_readable_iff distinct)

/-- A heater whose map exchanges two attributes of its plug, and has a second name for one of them. -/
theorem lists_what_it_reads_iff_heater :
    let plug : DeviceConfig := ⟨"plug", Device.virtualKind,
      [("getters", .list [.text "watts", .text "power"]), ("values", .record [("watts", .int 42)])]⟩
    let config : Config :=
      { devices := [plug]
        nodes := [⟨"heater", "plug", none, none,
          [("load", "watts"), ("power", "watts"), ("watts", "power")]⟩] }
    ∃ (c : Controller) (n : Node), Controller.ofConfig .utc config = .ok c ∧ n.Distinct ∧
      n.AskedWhole c.topology "get heater" ∧ n.ListsReadable ∧
      n.getters = ["load", "watts", Attr.online] ∧
      let answer := c.execute false 0 "get heater" (.start c.topology ⟨0, 0⟩)
      (∀ e, .node e ∈ answer.1.errors → e.isRefusal = false) ∧
      ∃ calls, State.Calls c.topology 0 (.start c.topology ⟨0, 0⟩) calls answer.2 ∧
        ∀ attr ∈ ["watts", "power", Attr.online],
          (calls.map fun a => n.deviceAttr a.1.attr).count attr = 1 := by
  intro plug config
  let d : Device := ⟨"plug", Device.virtualKind, ["watts", "power"], [], false,
    [("watts", .int 42)]⟩
  let n : Node := ⟨"heater", d, none, none,
    [("load", "watts"), ("power", "watts"), ("watts", "power")]⟩
  let c : Controller := ⟨⟨⟨[("plug", d)]⟩, ⟨[("heater", n)]⟩, .empty, [], .empty, .empty, []⟩,
    ⟨.utc, none⟩, [], ⟨[], config.app.maxTriggerDepth⟩, .ofApp config.app⟩
  have made : Controller.ofConfig .utc config = .ok c := by with_unfolding_all rfl
  have distinct : n.Distinct := Topology.distinct_of_config (Controller.ofConfig_ok made).1
    (show c.topology.nodes.get? "heater" = some n by decide) (by decide)
  have asked : n.AskedWhole c.topology "get heater" := ⟨by decide, by decide, by decide +kernel⟩
  have shown : ∀ attr ∈ n.device.getters, ¬n.Hides attr := by decide
  obtain ⟨lists, -, -, -, reads⟩ := lists_what_it_reads_iff distinct
  obtain ⟨calls, made', -, -, once, supported⟩ :=
    reads c "get heater" asked false 0 (.start c.topology ⟨0, 0⟩)
  exact ⟨c, n, made, distinct, asked, lists.mpr shown, by decide,
    supported.mpr fun attr inside hidden => absurd hidden (shown attr inside), calls, made',
    once.mpr shown⟩

/-- A heater whose map gives the names of two attributes of its plug to others: to another one of them,
which is listed twice, and to one that the plug does not have, which is asked for all the same. -/
theorem hidden_attributes_are_listed :
    let plug : DeviceConfig := ⟨"plug", Device.virtualKind,
      [("getters", .list [.text "watts", .text "energy", .text "power"]),
        ("values", .record [("energy", .int 7), ("power", .int 3), ("watts", .int 42)])]⟩
    let config : Config :=
      { devices := [plug]
        nodes := [⟨"heater", "plug", none, none, [("power", "volts"), ("watts", "energy")]⟩] }
    config.check = .ok config ∧
      ∃ (c : Controller) (n : Node), Controller.ofConfig .utc config = .ok c ∧
      c.topology.nodes.get? "heater" = some n ∧
      n.device.getters = ["watts", "energy", "power", Attr.online] ∧
      n.getters = ["watts", "watts", "power", Attr.online] ∧ ¬n.getters.Nodup ∧
      n.hasGet "power" = false ∧ n.deviceAttr (n.nodeAttr "watts") ≠ "watts" ∧
      (c.execute false 0 "get heater" (.start c.topology ⟨0, 0⟩)).1 =
        ⟨some (.record [("heater", .record [(Attr.online, .bool true), ("watts", .int 7)])]),
          [.node (.driver "heater" (.notSupported "plug" .getter "volts"))]⟩ := by
  intro plug config
  let d : Device := ⟨"plug", Device.virtualKind, ["watts", "energy", "power"], [], false,
    [("energy", .int 7), ("power", .int 3), ("watts", .int 42)]⟩
  let n : Node := ⟨"heater", d, none, none, [("power", "volts"), ("watts", "energy")]⟩
  let c : Controller := ⟨⟨⟨[("plug", d)]⟩, ⟨[("heater", n)]⟩, .empty, [], .empty, .empty, []⟩,
    ⟨.utc, none⟩, [], ⟨[], config.app.maxTriggerDepth⟩, .ofApp config.app⟩
  have made : Controller.ofConfig .utc config = .ok c := by with_unfolding_all rfl
  exact ⟨rfl, c, n, made, by decide, by decide, by decide, by decide, by decide, by decide,
    by decide +kernel⟩

end Node

end HomeControl
