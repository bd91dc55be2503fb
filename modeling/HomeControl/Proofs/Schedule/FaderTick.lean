import HomeControl.Proofs.Schedule.FaderStep
import HomeControl.Proofs.Schedule.Sound
/-!
One look at all fades. Its settings follow from the fades and the time alone, and each fade is
changed by its own step only.
-/

namespace HomeControl

/-- The settings that a look at the fades makes, in order. -/
def State.fadeSetters (s : State) : List Setter :=
  s.schedule.fadersInOrder.filterMap fun f => (f.step? s.now.millis).map f.setter

def State.fadeValues (s : State) (key : ScheduleKey) : List Value :=
  (s.fadeSetters.filter (·.key = key)).filterMap (·.value)

theorem Controller.tickFaders_house (c : Controller) (s : State) :
    (c.tickFaders s).house = s.house.setAll c.topology 0 s.fadeSetters := by
  unfold tickFaders State.fadeSetters House.setAll
  generalize s.schedule.fadersInOrder = fades, s.now.millis = now
  induction fades generalizing s with
  | nil => rfl
  | cons f rest ih =>
    rw [List.foldl_cons, ih, stepFader_house]
    cases stepped : f.step? now with
    | none => simp [stepped]
    | some v => simp [stepped]

namespace Schedule

theorem fadersInOrder_once {t : Schedule} (h : t.Sound) :
    (t.fadersInOrder.map (·.key)).Nodup := by
  have perm : (byKey t.faders).Perm t.faders.entries := List.mergeSort_perm _ _
  have keys : t.fadersInOrder.map (·.key) = (byKey t.faders).map (·.1) := by
    unfold fadersInOrder
    rw [List.map_map]
    apply List.map_congr_left
    intro e inside
    exact (h.fader e.1 e.2 ((Keyed.mem_entries_iff h.fadersOnce).mp (perm.mem_iff.mp inside))).1
  rw [keys]
  exact (perm.map _).nodup_iff.mpr h.fadersOnce

theorem mem_fadersInOrder {t : Schedule} (h : t.Sound) (f : ActiveFader) :
    f ∈ t.fadersInOrder ↔ t.faders.get? f.key = some f := by
  simp only [fadersInOrder, byKey, List.mem_map, List.mem_mergeSort, Prod.exists]
  constructor
  · rintro ⟨key, g, inside, rfl⟩
    have found := (Keyed.mem_entries_iff h.fadersOnce).mp inside
    rw [(h.fader key g found).1]
    exact found
  · intro found
    exact ⟨f.key, f, (Keyed.mem_entries_iff h.fadersOnce).mpr found, rfl⟩

theorem find?_fadersInOrder {t : Schedule} (h : t.Sound) (key : ScheduleKey) :
    t.fadersInOrder.find? (·.key = key) = t.faders.get? key := by
  cases found : t.faders.get? key with
  | none =>
    apply List.find?_eq_none.mpr
    intro f inside under
    have same : f.key = key := of_decide_eq_true under
    rw [← same, (mem_fadersInOrder h f).mp inside] at found
    cases found
  | some f =>
    have under := (h.fader key f found).1
    have inside : f ∈ t.fadersInOrder := (mem_fadersInOrder h f).mpr (under ▸ found)
    cases first : t.fadersInOrder.find? (·.key = key) with
    | none => exact absurd (decide_eq_true under) (List.find?_eq_none.mp first f inside)
    | some g =>
      have same : g.key = key := by simpa using List.find?_some first
      rw [← found, ← same, (mem_fadersInOrder h g).mp (List.mem_of_find?_eq_some first)]

end Schedule

theorem ScheduleKey.filter_eq_find? {α : Type} (own : α → ScheduleKey) (key : ScheduleKey)
    {l : List α} (once : (l.map own).Nodup) :
    l.filter (own · = key) = (l.find? (own · = key)).toList := by
  induction l with
  | nil => rfl
  | cons x rest ih =>
    obtain ⟨fresh, once⟩ := List.nodup_cons.mp once
    by_cases under : own x = key
    · have others : rest.filter (own · = key) = [] := by
        apply List.filter_eq_nil_iff.mpr
        intro y inside same
        exact fresh (List.mem_map.mpr ⟨y, inside, (of_decide_eq_true same).trans under.symm⟩)
      rw [List.filter_cons_of_pos (by simpa using under), others,
        List.find?_cons_of_pos (by simpa using under)]
      rfl
    · rw [List.filter_cons_of_neg (by simpa using under),
        List.find?_cons_of_neg (by simpa using under), ih once]

namespace State

theorem fadeSetters_once {s : State} (h : s.schedule.Sound) :
    (s.fadeSetters.map (·.key)).Nodup := by
  have once := List.pairwise_map.mp (Schedule.fadersInOrder_once h)
  refine List.pairwise_map.mpr (List.pairwise_filterMap.mpr (once.imp ?_))
  intro f g apart w made x also same
  obtain ⟨v, -, rfl⟩ := Option.map_eq_some_iff.mp made
  obtain ⟨u, -, rfl⟩ := Option.map_eq_some_iff.mp also
  exact apart same

theorem fadeSetters_on {s : State} (h : s.schedule.Sound) (key : ScheduleKey) :
    s.fadeSetters.filter (·.key = key) =
      ((s.schedule.faders.get? key).bind fun f =>
        (f.step? s.now.millis).map f.setter).toList := by
  have own : ∀ f : ActiveFader,
      ((f.step? s.now.millis).map f.setter).filter (·.key = key) =
        if f.key = key then (f.step? s.now.millis).map f.setter else none := by
    intro f
    cases f.step? s.now.millis with
    | none => simp
    | some v => by_cases under : f.key = key <;> simp [Option.filter, f.key_setter, under]
  have picked : s.fadeSetters.filter (·.key = key) =
      (s.schedule.fadersInOrder.filter (·.key = key)).filterMap fun f =>
        (f.step? s.now.millis).map f.setter := by
    simp only [fadeSetters, List.filter_filterMap, own, List.filterMap_filter, decide_eq_true_eq]
  rw [picked, ScheduleKey.filter_eq_find? ActiveFader.key key (Schedule.fadersInOrder_once h),
    Schedule.find?_fadersInOrder h]
  cases s.schedule.faders.get? key with
  | none => rfl
  | some f => cases stepped : f.step? s.now.millis <;> simp [stepped]

theorem fadeValues_eq {s : State} (h : s.schedule.Sound) (key : ScheduleKey) :
    s.fadeValues key =
      ((s.schedule.faders.get? key).bind (·.step? s.now.millis)).toList := by
  rw [fadeValues, fadeSetters_on h]
  cases s.schedule.faders.get? key with
  | none => rfl
  | some f =>
    cases stepped : f.step? s.now.millis with
    | none => simp [stepped]
    | some v => simp [stepped, ActiveFader.setter]

end State

namespace Controller

theorem known?_tickFaders (c : Controller) {s : State} (h : s.schedule.Sound) {f : ActiveFader}
    {v : Value} (made : f.setter v ∈ s.fadeSetters)
    (accepted : c.topology.accepts (f.setter v) = true) :
    (c.tickFaders s).house.known? f.key.node f.key.attr = some v := by
  have known := House.known?_setAll c.topology 0 (State.fadeSetters_once h) made s.house
  have steady : f.spec.attr ≠ Attr.flip := by
    unfold FaderSpec.attr FadeValues.attr
    split <;> decide
  have key : f.key = ⟨(f.setter v).node, (f.setter v).target⟩ :=
    (f.key_setter v).symm.trans (f.setter v).key_eq
  rw [if_pos accepted, Setter.outcome_eq steady] at known
  rw [c.tickFaders_house, key]
  exact known

theorem tickFaders_get? (c : Controller) {s : State} (h : s.schedule.Sound)
    (key : ScheduleKey) :
    (c.tickFaders s).schedule.faders.get? key =
      (s.schedule.faders.get? key).bind (·.afterLook c.topology s.now.millis) := by
  -- The state changes as the fades are stepped; those that are still to come are untouched.
  have each : ∀ (fades : List ActiveFader) (s' : State), (fades.map (·.key)).Nodup →
      (∀ f ∈ fades, s'.schedule.faders.get? f.key = some f) →
      (fades.foldl (c.stepFader s.now.millis) s').schedule.faders.get? key =
        if key ∈ fades.map (·.key) then
          (s'.schedule.faders.get? key).bind (·.afterLook c.topology s.now.millis)
        else s'.schedule.faders.get? key := by
    intro fades
    induction fades with
    | nil => intro s' _ _; rfl
    | cons f rest ih =>
      intro s' once there
      obtain ⟨fresh, once⟩ := List.nodup_cons.mp once
      have found := there f List.mem_cons_self
      have after := c.stepFader_afterLook s.now.millis s' found
      rw [List.foldl_cons, ih _ once, after]
      · by_cases under : f.key = key
        · subst under
          simp only [fresh, if_false, if_true, List.map_cons, List.mem_cons, true_or, found,
            Option.bind_some]
        · have other : key ≠ f.key := fun same => under same.symm
          simp only [under, if_false, List.map_cons, List.mem_cons, other, false_or]
      · intro g inside
        have differs : f.key ≠ g.key := by
          intro same
          exact fresh (List.mem_map.mpr ⟨g, inside, same.symm⟩)
        rw [after, if_neg differs]
        exact there g (List.mem_cons_of_mem _ inside)
  unfold tickFaders
  rw [each _ s (Schedule.fadersInOrder_once h)
    (fun f inside => (Schedule.mem_fadersInOrder h f).mp inside)]
  split
  · rfl
  · rename_i absent
    cases found : s.schedule.faders.get? key with
    | none => rfl
    | some f =>
      have under := (h.fader key f found).1
      have inside : f ∈ s.schedule.fadersInOrder :=
        (Schedule.mem_fadersInOrder h f).mpr (under ▸ found)
      exact absurd (List.mem_map.mpr ⟨f, inside, under⟩) absent

end Controller

end HomeControl
