import HomeControl.Controller
import HomeControl.Proofs.Delivery
import HomeControl.Proofs.Text
/-!
Which changes a key stands for. Ids, attributes and values are joined by dots and may have dots of
their own, so one key can stand for changes of two attributes. There is such a key exactly if that of
one of them goes on, behind a dot, as that of the other.
-/

namespace HomeControl

namespace Event

open Text

/-- The keys for changes of an attribute: its own, and one for each of its values. -/
def KeyOf (node attr key : String) : Prop :=
  key = attrKey node attr ∨ ∃ value : Value, key = attrKey node attr ++ "." ++ value.render

/-- A key is the front of another one, up to a dot or all of it. -/
def Begins (front key : String) : Prop :=
  key = front ∨ ∃ rest, key = front ++ "." ++ rest

def Apart (node attr node' attr' : String) : Prop :=
  ¬Begins (attrKey node attr) (attrKey node' attr') ∧
    ¬Begins (attrKey node' attr') (attrKey node attr)

theorem begins_iff {front key : String} :
    Begins front key ↔ pieces '.' front <+: pieces '.' key := by
  have dot : ".".toList = ['.'] := rfl
  have back := intercalate_pieces dot
  constructor
  · rintro (rfl | ⟨rest, rfl⟩)
    · exact List.prefix_rfl
    · rw [pieces_append dot]
      exact List.prefix_append ..
  · rintro ⟨more, same⟩
    cases more with
    | nil =>
      rw [List.append_nil] at same
      exact Or.inl (by rw [← back key, ← same, back])
    | cons piece others =>
      have apart : ∀ text ∈ piece :: others, '.' ∉ text.toList := fun text inside =>
        not_mem_of_mem_pieces (same ▸ List.mem_append_right _ inside)
      have cut := pieces_intercalate dot (List.cons_ne_nil piece others) apart
      refine Or.inr ⟨".".intercalate (piece :: others), ?_⟩
      rw [← back (front ++ _ ++ _), pieces_append dot, cut, same, back]

/-- A text stands for itself in a key, so behind the dot there can be anything. -/
theorem keyOf_iff {node attr key : String} :
    KeyOf node attr key ↔ Begins (attrKey node attr) key := by
  refine or_congr_right ⟨?_, ?_⟩
  · rintro ⟨value, made⟩
    exact ⟨value.render, made⟩
  · rintro ⟨rest, made⟩
    exact ⟨.text rest, made⟩

theorem keyOf_key (e : Event) : KeyOf e.node e.attr e.key := Or.inl rfl

theorem keyOf_valueKey (e : Event) : KeyOf e.node e.attr e.valueKey := Or.inr ⟨e.value, rfl⟩

theorem Apart.not_keyOf {node attr node' attr' key : String} (apart : Apart node attr node' attr')
    (own : KeyOf node attr key) : ¬KeyOf node' attr' key := by
  intro other
  have fronts := List.prefix_or_prefix_of_prefix (begins_iff.mp (keyOf_iff.mp own))
    (begins_iff.mp (keyOf_iff.mp other))
  rw [← begins_iff, ← begins_iff] at fronts
  exact fronts.elim apart.1 apart.2

theorem begins_plain {node attr node' attr' : String} (plain : '.' ∉ node.toList)
    (plainAttr : '.' ∉ attr.toList) (plain' : '.' ∉ node'.toList) (plainAttr' : '.' ∉ attr'.toList)
    (begins : Begins (attrKey node attr) (attrKey node' attr')) : (node, attr) = (node', attr') := by
  have two := begins_iff.mp begins
  rw [attrKey, attrKey, pieces_append rfl, pieces_append rfl, pieces_of_not_mem plain,
    pieces_of_not_mem plainAttr, pieces_of_not_mem plain', pieces_of_not_mem plainAttr'] at two
  cases two.eq_of_length rfl
  rfl

/-- A binding is to one of the keys under which an event is published. -/
theorem keyOf_of_matches {b : Binding} {e : Event} (matched : b.matches e = true) :
    KeyOf e.node e.attr b.event := by
  unfold Binding.matches at matched
  split at matched
  · rename_i own
    rw [own]
    exact e.keyOf_key
  · rw [Bool.and_eq_true, beq_iff_eq] at matched
    rw [matched.2]
    exact e.keyOf_valueKey

theorem KeyOf.ne_matchAll {node attr key : String} (own : KeyOf node attr key) :
    key ≠ Bus.matchAll := by
  have dot : '.' ∈ key.toList := by
    rcases own with rfl | ⟨value, rfl⟩ <;> simp [attrKey]
  rintro rfl
  exact absurd dot (by decide)

theorem KeyOf.untold {node attr key : String} (own : KeyOf node attr key) {e : Event}
    (other : ¬KeyOf e.node e.attr key) :
    (∀ b : Binding, b.event = key → b.matches e = false) ∧
      ∀ bus : Bus, (bus.fire e).channel? key = bus.channel? key := by
  have unwanted : Bus.wants key e = false := by
    have notKey : key ≠ e.key := fun same => other (same ▸ e.keyOf_key)
    have notValue : key ≠ e.valueKey := fun same => other (same ▸ e.keyOf_valueKey)
    simp [Bus.wants, own.ne_matchAll, notKey, notValue]
  refine ⟨fun b waits => Bool.eq_false_iff.mpr fun matched => ?_, fun bus => ?_⟩
  · exact other (waits ▸ keyOf_of_matches matched)
  · simp [Bus.channel?_fire, unwanted]

theorem told {key : String} {e : Event} (either : key = e.key ∨ key = e.valueKey) :
    (∀ commands, (Binding.mk key none commands).matches e = true) ∧
      ∀ bus : Bus, (bus.fire e).channel? key = (bus.channel? key).map (·.send e) := by
  have wanted : Bus.wants key e = true := by
    rcases either with rfl | rfl <;> simp [Bus.wants]
  refine ⟨fun commands => ?_, fun bus => ?_⟩
  · rcases either with rfl | rfl
    · simp [Binding.matches]
    · simp [Binding.matches, Ne.symm e.key_ne_valueKey]
  · simp [Bus.channel?_fire, wanted]

/-- A key stands for a change of another attribute exactly if the key of one of the two begins that
of the other. Otherwise nothing that waits for it is set off by the change or told of it. Ids and
attributes without dots keep all attributes apart. -/
theorem keys_tell_attributes_apart (node attr node' attr' : String) :
    (Apart node attr node' attr' → ∀ key, KeyOf node attr key → ∀ value depth,
      (∀ b : Binding, b.event = key → b.matches ⟨node', attr', value, depth⟩ = false) ∧
        ∀ bus : Bus, (bus.fire ⟨node', attr', value, depth⟩).channel? key = bus.channel? key) ∧
    (¬Apart node attr node' attr' → ∃ key value, KeyOf node attr key ∧ ∀ depth,
      (∀ commands, (Binding.mk key none commands).matches ⟨node', attr', value, depth⟩ = true) ∧
        ∀ bus : Bus, (bus.fire ⟨node', attr', value, depth⟩).channel? key =
          (bus.channel? key).map (·.send ⟨node', attr', value, depth⟩)) ∧
    ((∀ part ∈ [node, attr, node', attr'], '.' ∉ part.toList) → (node, attr) ≠ (node', attr') →
      Apart node attr node' attr') := by
  refine ⟨fun apart key own value depth => own.untold (apart.not_keyOf own),
    fun together => ?_, fun plain distinct => ?_⟩
  · rcases or_iff_not_and_not.mpr together with own | other
    · -- The whole key of the other attribute is one for a value of this one, or its own.
      exact ⟨attrKey node' attr', .null, keyOf_iff.mpr own, fun depth => told (Or.inl rfl)⟩
    · rcases keyOf_iff.mpr other with same | ⟨value, longer⟩
      · exact ⟨attrKey node attr, .null, Or.inl rfl, fun depth => told (Or.inl same)⟩
      · exact ⟨attrKey node attr, value, Or.inl rfl, fun depth => told (Or.inr longer)⟩
  · simp only [List.forall_mem_cons] at plain
    obtain ⟨node, attr, node', attr', -⟩ := plain
    exact ⟨fun begins => distinct (begins_plain node attr node' attr' begins),
      fun begins => distinct (begins_plain node' attr' node attr begins).symm⟩

theorem keys_tell_attributes_apart_rooms :
    (Apart "lamp" "state" "bed" "state" ∧
      ∀ bus : Bus, (bus.fire ⟨"bed", "state", .bool true, 0⟩).channel? "lamp.state.true" =
        bus.channel? "lamp.state.true") ∧
    ¬Apart "room.lamp" "state" "room" "lamp" ∧
      ∃ key value, KeyOf "room.lamp" "state" key ∧
        (Binding.mk key none []).matches ⟨"room", "lamp", value, 0⟩ = true := by
  obtain ⟨untold, -, plain⟩ := keys_tell_attributes_apart "lamp" "state" "bed" "state"
  obtain ⟨-, told, -⟩ := keys_tell_attributes_apart "room.lamp" "state" "room" "lamp"
  have apart := plain (by decide) (by decide)
  have lamp : KeyOf "lamp" "state" "lamp.state.true" := Or.inr ⟨.bool true, rfl⟩
  have together : ¬Apart "room.lamp" "state" "room" "lamp" :=
    fun apart => apart.2 (Or.inr ⟨"state", rfl⟩)
  obtain ⟨key, value, own, both⟩ := told together
  exact ⟨⟨apart, (untold apart _ lamp (.bool true) 0).2⟩, together, key, value, own, (both 0).1 []⟩

/-- An action that waits for the lamp of a room is set off when an attribute of the room is read. -/
theorem room_sets_off_lamp :
    let hub : DeviceConfig := ⟨"hub", Device.virtualKind,
      [("getters", .list [.text "lamp.state"]), ("values", .record [("lamp.state", .bool true)])]⟩
    let bulb : DeviceConfig := ⟨"bulb", Device.virtualKind,
      [("getters", .list [.text Attr.state]), ("setters", .list [.text Attr.on])]⟩
    let config : Config :=
      { devices := [hub, bulb]
        nodes := [⟨"room", "hub", none, none, []⟩, ⟨"room.lamp", "bulb", none, none, []⟩]
        actions := [⟨none, some "room.lamp.state", none, .one "set room.lamp on"⟩] }
    let change : Event := ⟨"room", "lamp.state", .bool true, 0⟩
    config.check = .ok config ∧ ∃ c, Controller.ofConfig .utc config = .ok c ∧
      House.hasGet c.topology "room" "lamp.state" = true ∧
      House.hasGet c.topology "room.lamp" Attr.state = true ∧
      ("room", "lamp.state") ≠ ("room.lamp", Attr.state) ∧
      KeyOf "room.lamp" Attr.state "room.lamp.state" ∧
      ((House.start c.topology).get c.topology "room" "lamp.state" 0).2.events = [change] ∧
      c.router.reactions change = ["set room.lamp on"] ∧
      ∀ b : Bus, (b.fire change).channel? "room.lamp.state" =
        (b.channel? "room.lamp.state").map (·.send change) := by
  intro hub bulb config change
  let hub : Device := ⟨"hub", Device.virtualKind, ["lamp.state"], [], false,
    [("lamp.state", .bool true)]⟩
  let bulb : Device := ⟨"bulb", Device.virtualKind, [Attr.state], [Attr.on], false, []⟩
  let t : Topology := ⟨⟨[("hub", hub), ("bulb", bulb)]⟩,
    ⟨[("room", ⟨"room", hub, none, none, []⟩), ("room.lamp", ⟨"room.lamp", bulb, none, none, []⟩)]⟩,
    .empty, [], .empty, .empty, config.actions⟩
  let c : Controller := ⟨t, ⟨.utc, config.location⟩, [],
    ⟨[⟨"room.lamp.state", none, ["set room.lamp on"]⟩], config.app.maxTriggerDepth⟩, .ofApp config.app⟩
  have made : Controller.ofConfig .utc config = .ok c := by with_unfolding_all rfl
  exact ⟨rfl, c, made, by decide, by decide, by decide, Or.inl rfl, by decide, by decide,
    (told (Or.inl rfl)).2⟩

end Event

end HomeControl
