import HomeControl.Proofs.Command.Parts
/-!
Commands to several nodes. What a command asks of a node does not depend on the other nodes that it
speaks of: it is what the same words ask of that node alone. Only errors may differ, since what a node
cannot do is told where it is the only one.
-/

namespace HomeControl

open Text

namespace Situation

section Targets

theorem mem_of_uniqueNodes {n : Node} {nodes : List Node} (h : n ∈ uniqueNodes nodes) :
    n ∈ nodes := by
  induction nodes with
  | nil => exact h
  | cons m rest ih =>
    rcases List.mem_cons.mp h with rfl | other
    · exact List.mem_cons_self
    · exact List.mem_cons_of_mem _ (ih (List.mem_filter.mp other).1)

theorem filter_uniqueNodes {n : Node} {nodes : List Node} (h : n ∈ uniqueNodes nodes) :
    (uniqueNodes nodes).filter (·.id == n.id) = [n] := by
  induction nodes with
  | nil => exact absurd h List.not_mem_nil
  | cons m rest ih =>
    rw [uniqueNodes]
    rcases List.mem_cons.mp h with rfl | other
    · rw [List.filter_cons_of_pos (by simp), List.filter_filter]
      congr 1
      refine List.filter_eq_nil_iff.mpr fun m _ => ?_
      simp
    · obtain ⟨inside, apart⟩ := List.mem_filter.mp other
      have apart : n.id ≠ m.id := by simpa using apart
      rw [List.filter_cons_of_neg (by simpa using Ne.symm apart), List.filter_filter, ← ih inside]
      refine List.filter_congr fun k _ => ?_
      by_cases same : k.id = n.id
      · simp [same, apart]
      · simp [same]

theorem resolve_id {c : Config} {t : Topology} (made : Topology.ofConfig c = .ok t) {reach : Bool}
    {word : String} {n : Node} (h : n ∈ t.resolve reach word) : t.resolve reach n.id = [n] := by
  unfold Topology.resolve
  rw [Topology.get?_of_resolve made h]

variable (s : Situation) {reach : Bool} {targets args : List String}

theorem readTargets_append (resolved : ∀ w ∈ targets, s.topology.resolve reach w ≠ [])
    (rest : ∀ w ∈ args.head?, s.topology.resolve reach w = []) :
    s.readTargets reach (targets ++ args) =
      (targets.flatMap (s.topology.resolve reach), args) := by
  induction targets with
  | nil =>
    cases args with
    | nil => rfl
    | cons word args =>
      have none := rest word rfl
      simp only [List.nil_append, readTargets, none]
      rfl
  | cons word targets ih =>
    obtain ⟨first, others⟩ := List.forall_mem_cons.mp resolved
    rw [List.cons_append, readTargets, ih others]
    split
    · rename_i none
      exact absurd none first
    · rfl

theorem targets_append (resolved : ∀ w ∈ targets, s.topology.resolve reach w ≠ [])
    (rest : ∀ w ∈ args.head?, s.topology.resolve reach w = []) :
    s.targets reach (targets ++ args) =
      (uniqueNodes (targets.flatMap (s.topology.resolve reach)), args) := by
  rw [Situation.targets, s.readTargets_append resolved rest]

theorem uniqueNodes_ne_nil (some : targets ≠ [])
    (resolved : ∀ w ∈ targets, s.topology.resolve reach w ≠ []) :
    uniqueNodes (targets.flatMap (s.topology.resolve reach)) ≠ [] := by
  obtain ⟨word, others, rfl⟩ := List.exists_cons_of_ne_nil some
  obtain ⟨n, more, first⟩ := List.exists_cons_of_ne_nil (resolved word List.mem_cons_self)
  simp [first, uniqueNodes]

end Targets

/-- A command that speaks to nodes: its targets, each of which stands for a node, and the words behind
them. A reading asks for attributes, and is no aggregate. -/
structure Addressed (s : Situation) (timed : Bool) (verb : NodeVerb) (targets args : List String) :
    Prop where
  spoken : ∀ w ∈ targets ++ args, Word.Spoken w
  some : targets ≠ []
  resolved : ∀ w ∈ targets, s.topology.resolve (verb.reach timed) w ≠ []
  rest : ∀ w ∈ args.head?, s.topology.resolve (verb.reach timed) w = []
  plain : verb = .get → args ≠ [] ∧ ∀ w ∈ targets.head?, Aggregate.ofWord? w = none

def addressees (s : Situation) (timed : Bool) (verb : NodeVerb) (targets : List String) :
    List Node :=
  uniqueNodes (targets.flatMap (s.topology.resolve (verb.reach timed)))

def NodeVerb.phrase (verb : NodeVerb) (words : List String) : String :=
  " ".intercalate (verb.word :: words)

theorem fade_eq {s : Situation} {timed : Bool} {words args : List String} {nodes : List Node}
    (found : s.targets timed words = (nodes, args)) (some : nodes ≠ []) :
    s.fade timed words = s.fadeNodes nodes args := by
  obtain ⟨n, more, rfl⟩ := List.exists_cons_of_ne_nil some
  unfold fade
  rw [found]
  rfl

theorem set_eq {s : Situation} {timed : Bool} {words args : List String} {nodes : List Node}
    (found : s.targets timed words = (nodes, args)) (some : nodes ≠ []) :
    s.set timed words = s.setNodes nodes args := by
  obtain ⟨n, more, rfl⟩ := List.exists_cons_of_ne_nil some
  unfold set
  rw [found]

theorem getNodes_aggregate (nodes : List Node) (attrs : List String) :
    (getNodes nodes attrs).aggregate = none := by
  refine List.foldlRecOn (motive := fun p : Plan => p.aggregate = none) _ _ rfl ?_
  intro p none attr _
  simp [Plan.merge, none, getAttr]

theorem get_eq {s : Situation} {words args : List String} {nodes : List Node}
    (plain : ∀ w ∈ words.head?, Aggregate.ofWord? w = none)
    (found : s.targets true words = (nodes, args)) (some : nodes ≠ []) (asked : args ≠ []) :
    s.get words = getNodes nodes args := by
  obtain ⟨n, more, rfl⟩ := List.exists_cons_of_ne_nil some
  obtain ⟨attr, others, rfl⟩ := List.exists_cons_of_ne_nil asked
  cases words with
  | nil => cases found
  | cons word rest =>
    have first := plain word rfl
    unfold get
    simp only [first, found, List.isEmpty_cons, Bool.false_eq_true, if_false]
    exact congrArg (fun a => { getNodes (n :: more) (attr :: others) with aggregate := a })
      (getNodes_aggregate (n :: more) (attr :: others)).symm

section Addressed

variable {s : Situation} {timed : Bool} {verb : NodeVerb} {targets args : List String}

theorem Addressed.targets_eq (h : s.Addressed timed verb targets args) :
    s.targets (verb.reach timed) (targets ++ args) = (s.addressees timed verb targets, args) :=
  s.targets_append h.resolved h.rest

theorem Addressed.addressees_ne_nil (h : s.Addressed timed verb targets args) :
    s.addressees timed verb targets ≠ [] :=
  s.uniqueNodes_ne_nil h.some h.resolved

theorem Addressed.phrase_spoken (h : s.Addressed timed verb targets args) :
    ∀ w ∈ verb.word :: (targets ++ args), Word.Spoken w := by
  refine List.forall_mem_cons.mpr ⟨?_, h.spoken⟩
  cases verb <;> decide

theorem Addressed.words_phrase (h : s.Addressed timed verb targets args) :
    words (verb.phrase (targets ++ args)) = verb.word :: (targets ++ args) :=
  Word.words_phrase h.phrase_spoken

theorem Addressed.command_eq (h : s.Addressed timed verb targets args)
    (expand : List String → Plan) :
    s.command timed expand (verb.phrase (targets ++ args)) =
      s.tell verb (s.addressees timed verb targets) args := by
  have found := h.targets_eq
  have some := h.addressees_ne_nil
  unfold command
  rw [h.words_phrase]
  cases verb with
  | set => exact set_eq found some
  | fade => exact fade_eq found some
  | get =>
    obtain ⟨asked, plain⟩ := h.plain rfl
    refine get_eq ?_ found some asked
    rwa [List.head?_append_of_ne_nil _ h.some]

theorem Addressed.compile_eq (h : s.Addressed timed verb targets args) :
    s.compile timed (verb.phrase (targets ++ args)) =
      (s.tell verb (s.addressees timed verb targets) args).checked := by
  have whole : ';' ∉ (verb.phrase (targets ++ args)).toList := Word.not_mem_phrase h.phrase_spoken
  have some : words (verb.phrase (targets ++ args)) ≠ [] := by
    rw [h.words_phrase]
    exact List.cons_ne_nil _ _
  rw [Situation.compile_eq, s.batch_one timed _ whole some, h.command_eq]

theorem Addressed.member {c : Config} (made : Topology.ofConfig c = .ok s.topology)
    (h : s.Addressed timed verb targets args) {n : Node}
    (among : n ∈ s.addressees timed verb targets) (spoken : Word.Spoken n.id)
    (plain : verb = .get → Aggregate.ofWord? n.id = none) :
    s.Addressed timed verb [n.id] args ∧ s.addressees timed verb [n.id] = [n] := by
  obtain ⟨word, -, inside⟩ := List.mem_flatMap.mp (mem_of_uniqueNodes among)
  have own := resolve_id made inside
  refine ⟨⟨?_, List.cons_ne_nil _ _, ?_, h.rest, ?_⟩, ?_⟩
  · refine List.forall_mem_cons.mpr ⟨spoken, fun w behind => ?_⟩
    exact h.spoken w (List.mem_append_right _ behind)
  · refine List.forall_mem_singleton.mpr ?_
    rw [own]
    exact List.cons_ne_nil _ _
  · intro get
    refine ⟨(h.plain get).1, ?_⟩
    rintro w ⟨⟩
    exact plain get
  · simp [addressees, own, uniqueNodes]

/-- A command to several nodes asks of each what it asks of that one alone, and nothing of others. -/
theorem command_is_its_members {c : Config} (made : Topology.ofConfig c = .ok s.topology)
    (h : s.Addressed timed verb targets args) :
    (∀ n ∈ s.addressees timed verb targets, Word.Spoken n.id →
        (verb = .get → Aggregate.ofWord? n.id = none) →
        (s.compile timed (verb.phrase (n.id :: args))).PartFor
          (s.compile timed (verb.phrase (targets ++ args))) (· == n.id)) ∧
      ∀ node, (∀ n ∈ s.addressees timed verb targets, n.id ≠ node) →
        Plan.empty.PartFor (s.compile timed (verb.phrase (targets ++ args))) (· == node) := by
  rw [h.compile_eq]
  constructor
  · intro n among spoken plain
    -- No node is meant twice, so the node alone is the part of the nodes that has its id.
    obtain ⟨alone, one⟩ := h.member made among spoken plain
    have part := s.tell_part (· == n.id) (s.addressees timed verb targets) args verb
    rw [show s.compile timed (verb.phrase (n.id :: args)) = _ from alone.compile_eq, one,
      ← filter_uniqueNodes among]
    exact part.checked
  · intro node other
    -- What is told to no node asks nothing, whichever part of it is taken.
    have nobody : (s.addressees timed verb targets).filter (·.id == node) = [] := by
      refine List.filter_eq_nil_iff.mpr fun n inside => ?_
      simpa using other n inside
    have part := s.tell_part (· == node) (s.addressees timed verb targets) args verb
    rw [nobody] at part
    exact (part.empty_of_nobody (s.tell_part (fun _ => false) [] args verb)).in_checked

end Addressed

theorem command_is_its_members_room :
    let bulb : Device := ⟨"bulb", Device.virtualKind, [], [Attr.on, Attr.brightness], false, []⟩
    let lamp : Node := ⟨"lamp", bulb, none, none, []⟩
    let t : Topology := { (Controller.ofBulb bulb).topology with
      nodes := ⟨[("lamp", lamp), ("spot", { lamp with id := "spot" })]⟩
      groups := ⟨[("room", ["lamp", "spot"])]⟩ }
    let s : Situation := ⟨t, (Place.mk .utc none).resolver, ⟨0, 0⟩, fun _ _ => none⟩
    let words := ["100%", "for", "5m"]
    s.Addressed false .set ["room"] words ∧
      (s.compile false (NodeVerb.phrase .set ("lamp" :: words))).PartFor
          (s.compile false (NodeVerb.phrase .set (["room"] ++ words))) (· == "lamp") ∧
      Plan.empty.PartFor (s.compile false (NodeVerb.phrase .set (["room"] ++ words)))
        (· == "stove") := by
  intro bulb lamp t s words
  have flat : Group.flatten [⟨"room", ["lamp", "spot"], []⟩] =
      (⟨[("room", ["lamp", "spot"])]⟩, []) :=
    Prod.ext (by decide +kernel) (List.isEmpty_iff.mp (by decide +kernel))
  have made : Topology.ofConfig
      { Config.ofBulb [("setters", .list [.text Attr.on, .text Attr.brightness])] with
        nodes := [⟨"lamp", "bulb", none, none, []⟩, ⟨"spot", "bulb", none, none, []⟩]
        groups := [⟨"room", ["lamp", "spot"], []⟩] } = .ok t := by
    unfold Topology.ofConfig
    rw [flat]
    rfl
  have room : s.Addressed false .set ["room"] words :=
    ⟨by decide, by decide, by decide, by decide, nofun⟩
  obtain ⟨each, others⟩ := command_is_its_members made room
  exact ⟨room, each lamp (by decide) (by decide) nofun, others "stove" (by decide)⟩

end Situation

end HomeControl
