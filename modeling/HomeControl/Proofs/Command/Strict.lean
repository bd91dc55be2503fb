import HomeControl.Proofs.Command.Executable
import HomeControl.Proofs.Topology.Built
/-!
Nodes of strict timers. A command speaks of them only by their own names: wherever it speaks of a
group they are left out, and only they are.
-/

namespace HomeControl

namespace Topology

variable {c : Config} {t : Topology} (made : Topology.ofConfig c = .ok t)

include made

theorem checks_of_config :
    ∃ timers, c.timerDefs = .ok timers ∧ t.strictNodes = strictNodesOf timers ∧
      t.nodes = (makeNodes (makeDevices c.devices).1 c.nodes).1 ∧
      (makeNodes (makeDevices c.devices).1 c.nodes).2 = [] ∧
      strangers (c.nodes.map (·.id)) t.groups = [] := by
  obtain ⟨clean, rfl⟩ := ConfigError.orElse_eq_ok.mp made
  simp only [List.append_eq_nil_iff] at clean
  obtain ⟨⟨⟨⟨⟨-, nodes⟩, -⟩, members⟩, timers⟩, -⟩ := clean
  cases read : c.timerDefs with
  | ok defs => exact ⟨defs, rfl, rfl, rfl, nodes, members⟩
  | error e =>
    rw [read] at timers
    cases timers

theorem isTimed_iff {timers : List TimerDef} (read : c.timerDefs = .ok timers) (id : String) :
    t.isTimed id = true ↔ ∃ timer ∈ timers, timer.strict = true ∧ timer.node = some id := by
  obtain ⟨timers', read', strict, -⟩ := checks_of_config made
  cases read.symm.trans read'
  rw [isTimed, strict, List.contains_iff_mem, strictNodesOf, List.mem_filterMap]
  simp only [List.mem_filter, and_assoc]

theorem node_of_known_member {id : String} {members : List String}
    (found : t.groups.get? id = some members) :
    ∀ x ∈ members, ∃ n, t.nodes.get? x = some n ∧ n.id = x := by
  obtain ⟨-, -, -, nodes, clean, none⟩ := checks_of_config made
  intro x member
  have own := List.flatMap_eq_nil_iff.mp none _ (Keyed.mem_entries_of_get? found)
  have known : x ∈ c.nodes.map (·.id) := by
    simpa using List.filter_eq_nil_iff.mp (List.map_eq_nil_iff.mp own) x member
  have there := makeNodes_get?_isSome clean x known
  rw [← nodes] at there
  obtain ⟨n, there⟩ := Option.isSome_iff_exists.mp there
  exact ⟨n, there, id_of_config made there⟩

theorem word_of_resolve {word : String} {n : Node} (meant : n ∈ t.resolve false word)
    (strict : t.isTimed n.id = true) : n.id = word := by
  unfold resolve at meant
  split at meant
  · rename_i m found
    rw [List.mem_singleton.mp meant]
    exact id_of_config made found
  · split at meant
    · obtain ⟨id, asked, found⟩ := List.mem_filterMap.mp meant
      have free := (List.mem_filter.mp asked).2
      rw [← id_of_config made found, strict] at free
      cases free
    · exact absurd meant List.not_mem_nil

end Topology

/-- A plan that sets nothing on a node, now or later, and fades nothing. -/
structure Plan.Spares (p : Plan) (id : String) : Prop where
  setters : ∀ w ∈ p.setters, w.node ≠ id
  faders : ∀ f ∈ p.faders, f.node ≠ id
  timed : ∀ x ∈ p.timed, x.setter.node ≠ id

namespace Plan

variable {p : Plan} {id : String}

theorem Reads.spares (h : p.Reads) : p.Spares id where
  setters := by rw [h.setters]; exact List.forall_mem_nil _
  faders := by rw [h.faders]; exact List.forall_mem_nil _
  timed := by rw [h.timed]; exact List.forall_mem_nil _

theorem PartFor.spares (h : empty.PartFor p (· == id)) : p.Spares id where
  setters w inside := by simpa using List.filter_eq_nil_iff.mp h.setters.symm w inside
  faders f inside := by simpa using List.filter_eq_nil_iff.mp h.faders.symm f inside
  timed x inside := by simpa using List.filter_eq_nil_iff.mp h.timed.symm x inside

end Plan

namespace Situation

theorem tell_spares (s : Situation) (verb : NodeVerb) {nodes : List Node} {id : String}
    (others : ∀ n ∈ nodes, n.id ≠ id) (words : List String) :
    (s.tell verb nodes words).Spares id := by
  have none : nodes.filter (·.id == id) = [] :=
    List.filter_eq_nil_iff.mpr fun n inside => by simpa using others n inside
  have part := s.tell_part (· == id) nodes words verb
  rw [none] at part
  exact (part.empty_of_nobody (s.tell_part (fun _ => false) [] words verb)).spares

section Commands

variable {c : Config} {s : Situation} (made : Topology.ofConfig c = .ok s.topology) {id : String}
  (strict : s.topology.isTimed id = true)

include made strict

theorem targets_other {words args : List String} {nodes : List Node} (silent : id ∉ words)
    (found : s.targets false words = (nodes, args)) : ∀ n ∈ nodes, n.id ≠ id := by
  have read : ∀ words, id ∉ words → ∀ n ∈ (s.readTargets false words).1, n.id ≠ id := by
    intro words
    induction words with
    | nil => exact fun _ => List.forall_mem_nil _
    | cons word rest ih =>
      intro silent
      obtain ⟨other, later⟩ := not_or.mp (mt List.mem_cons.mpr silent)
      rw [readTargets]
      split
      · exact List.forall_mem_nil _
      · refine List.forall_mem_append.mpr ⟨fun n meant same => other ?_, ih later⟩
        rw [← same]
        exact Topology.word_of_resolve made meant (same ▸ strict)
  intro n inside
  rw [targets] at found
  cases found
  exact read words silent n (mem_of_uniqueNodes inside)

theorem set_spares {words : List String} (silent : id ∉ words) : (s.set false words).Spares id := by
  unfold set
  split
  · exact (Plan.reads_failure _).spares
  · rename_i nodes args _ found
    exact s.tell_spares .set (targets_other made strict silent found) args

theorem fade_spares {words : List String} (silent : id ∉ words) :
    (s.fade false words).Spares id := by
  obtain ⟨nodes, args, found⟩ : ∃ nodes args, s.targets false words = (nodes, args) := ⟨_, _, rfl⟩
  cases nodes with
  | nil =>
    unfold fade
    rw [found]
    exact (Plan.reads_failure _).spares
  | cons n more =>
    rw [fade_eq found (List.cons_ne_nil n more)]
    exact s.tell_spares .fade (targets_other made strict silent found) args

theorem plain_spares {one : String} (silent : id ∉ Text.words one) :
    (s.plain false one).Spares id := by
  have later : ∀ {verb : String} {words : List String}, Text.words one = verb :: words → id ∉ words :=
    fun spoken inside => silent (spoken ▸ List.mem_cons_of_mem _ inside)
  unfold plain command
  split
  · exact (Plan.reads_failure _).spares
  · exact (s.status_reads _).spares
  · exact Plan.reads_empty.spares
  · exact (s.get_reads _).spares
  · rename_i spoken
    exact set_spares made strict (later spoken)
  · rename_i spoken
    exact fade_spares made strict (later spoken)
  · exact (Plan.reads_failure _).spares

theorem compile_spares {text : String}
    (silent : ∀ one, Met s.topology.actions [] text one → id ∉ Text.words one) :
    (s.compile false text).Spares id := by
  have spares := fun one met => plain_spares made strict (silent one met)
  refine ⟨fun w inside => ?_, fun f inside => ?_, fun x inside => ?_⟩
  · obtain ⟨one, met, plain⟩ := (mem_view_compile Plan.view_setters s false).mp inside
    exact (spares one met).setters w plain
  · obtain ⟨one, met, plain⟩ := (mem_view_compile Plan.view_faders s false).mp inside
    exact (spares one met).faders f plain
  · obtain ⟨one, met, plain⟩ := (mem_view_compile Plan.view_timed s false).mp inside
    exact (spares one met).timed x plain

end Commands

/-- A text that does not name a node of a strict timer, nor do the actions that it asks for, sets
nothing on that node and fades nothing. All other members of a group are meant by the group, unless a
node has its name. -/
theorem strict_nodes_are_left_alone {c : Config} {s : Situation}
    (made : Topology.ofConfig c = .ok s.topology) :
    ∃ timers, c.timerDefs = .ok timers ∧
      (∀ timer ∈ timers, timer.strict = true → ∀ id, timer.node = some id → ∀ text,
        (∀ one, Met s.topology.actions [] text one → id ∉ Text.words one) →
          (s.compile false text).Spares id) ∧
      ∀ group members, s.topology.groups.get? group = some members →
        s.topology.nodes.get? group = none →
        ∀ x ∈ members, (∀ timer ∈ timers, timer.strict = true → timer.node ≠ some x) →
          x ∈ (s.topology.resolve false group).map (·.id) := by
  obtain ⟨timers, read, -⟩ := Topology.checks_of_config made
  refine ⟨timers, read, ?_, ?_⟩
  · intro timer among strict id own text silent
    have timed := (Topology.isTimed_iff made read id).mpr ⟨timer, among, strict, own⟩
    exact compile_spares made timed silent
  · intro group members found fresh x member free
    have nodes := Topology.node_of_known_member made found
    have untimed : s.topology.isTimed x = false := by
      rw [← Bool.not_eq_true, Topology.isTimed_iff made read]
      rintro ⟨timer, among, strict, own⟩
      exact free timer among strict own
    rw [Topology.resolve_members fresh found nodes]
    exact List.mem_filter.mpr ⟨member, by rw [untimed]; rfl⟩

def deskConfig (more : List NodeConfig) : Config where
  devices := [⟨"bulb", Device.virtualKind,
    [("setters", .list [.text Attr.on, .text Attr.brightness])]⟩]
  nodes := ⟨"desk", "bulb", none, none, []⟩ :: ⟨"bed", "bulb", none, none, []⟩ :: more
  groups := [⟨"all", [], ["lamps"]⟩, ⟨"lamps", ["desk", "bed"], []⟩]
  timers := [⟨"work", some "desk", true, some "09:00", some "17:00", none, none, none, none, none⟩]
  actions := [⟨some "evening", none, none, .one "set all on"⟩]

theorem strict_nodes_are_left_alone_evening :
    let c := deskConfig []
    let bulb : Device := ⟨"bulb", Device.virtualKind, [], [Attr.on, Attr.brightness], false, []⟩
    let t : Topology := ⟨⟨[("bulb", bulb)]⟩,
      ⟨[("desk", ⟨"desk", bulb, none, none, []⟩), ("bed", ⟨"bed", bulb, none, none, []⟩)]⟩,
      ⟨[("all", ["desk", "bed"]), ("lamps", ["desk", "bed"])]⟩, ["desk"], .empty,
      ⟨[("evening", ["set all on"])]⟩, []⟩
    let s : Situation := ⟨t, (Place.mk .utc none).resolver, ⟨0, 0⟩, fun _ _ => none⟩
    let text := "do evening; set lamps 40% in 5m"
    Topology.ofConfig c = .ok t ∧ (s.compile false text).setters = [.state "bed" true] ∧
      (s.compile false text).timed = [⟨.brightness "bed" 40, 300000⟩] ∧
      (s.compile false text).Spares "desk" ∧ "bed" ∈ (t.resolve false "all").map (·.id) := by
  intro c bulb t s text
  have made : Topology.ofConfig c = .ok t := by with_unfolding_all rfl
  have spoken : commandsOf text = ["do evening", "set lamps 40% in 5m"] ∧
      callees text = ["evening"] := by decide +kernel
  have inner : commandsOf "set all on" = ["set all on"] ∧ callees "set all on" = [] := by
    decide +kernel
  have unnamed : "desk" ∉ Text.words "do evening" ∧ "desk" ∉ Text.words "set lamps 40% in 5m" ∧
      "desk" ∉ Text.words "set all on" := by decide +kernel
  have silent : ∀ one, Met t.actions [] text one → "desk" ∉ Text.words one := by
    intro one met
    cases met with
    | here inside other =>
      rw [spoken.1] at inside
      rcases List.mem_pair.mp inside with rfl | rfl
      · exact unnamed.1
      · exact unnamed.2.1
    | inAction asked fresh found among met =>
      rw [spoken.2] at asked
      cases List.mem_singleton.mp asked
      cases found
      cases List.mem_singleton.mp among
      cases met with
      | here inside other =>
        rw [inner.1] at inside
        exact List.mem_singleton.mp inside ▸ unnamed.2.2
      | inAction asked fresh found among met =>
        rw [inner.2] at asked
        cases asked
  obtain ⟨timers, read, alone, others⟩ := strict_nodes_are_left_alone (s := s) made
  have strict := Topology.isTimed_iff made read
  obtain ⟨timer, among, own, node⟩ := (strict "desk").mp rfl
  refine ⟨made, by decide +kernel, by decide +kernel,
    alone timer among own "desk" node text silent,
    others "all" ["desk", "bed"] rfl rfl "bed" (by decide) fun timer among own node => ?_⟩
  cases (strict "bed").mpr ⟨timer, among, own, node⟩

/-- Where a node has the name of the group, a lamp that no strict timer owns is not among the nodes
that the name stands for. -/
theorem group_hidden_by_node_loses_members :
    let c := deskConfig [⟨"lamps", "bulb", none, none, []⟩]
    c.check = .ok c ∧ ∃ t, Topology.ofConfig c = .ok t ∧
      t.groups.get? "lamps" = some ["desk", "bed"] ∧ "bed" ∈ c.nodes.map (·.id) ∧
      (∀ e ∈ c.timers, e.node ≠ some "bed") ∧ t.isTimed "bed" = false ∧
      "bed" ∉ (t.resolve false "lamps").map (·.id) := by
  intro c
  let bulb : Device := ⟨"bulb", Device.virtualKind, [], [Attr.on, Attr.brightness], false, []⟩
  let t : Topology := ⟨⟨[("bulb", bulb)]⟩,
    ⟨[("desk", ⟨"desk", bulb, none, none, []⟩), ("bed", ⟨"bed", bulb, none, none, []⟩),
      ("lamps", ⟨"lamps", bulb, none, none, []⟩)]⟩,
    ⟨[("all", ["desk", "bed"]), ("lamps", ["desk", "bed"])]⟩, ["desk"], .empty,
    ⟨[("evening", ["set all on"])]⟩, []⟩
  have made : Topology.ofConfig c = .ok t := by with_unfolding_all rfl
  exact ⟨rfl, t, made, rfl, by decide, by decide, rfl, by decide +kernel⟩

end Situation

end HomeControl
