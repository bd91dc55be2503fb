import HomeControl.Proofs.Schedule.Sound
/-!
One look at the setters for a later time. All that are due are taken out before the first of them is
carried out, each of them is carried out, and none is taken twice.
-/

namespace HomeControl

namespace Schedule

theorem mem_takeAllDue {t : Schedule} (sound : t.Sound) (now : Int) (keys : List ScheduleKey)
    (x : SingleShot) :
    x ∈ (t.takeAllDue now keys).1 ↔
      x.key ∈ keys ∧ t.singles.get? x.key = some x ∧ x.due ≤ now := by
  induction keys generalizing t with
  | nil => simp [takeAllDue]
  | cons key rest ih =>
    simp only [takeAllDue]
    cases taken : t.takeDue? key now with
    | none =>
      rw [ih sound, List.mem_cons]
      constructor
      · rintro ⟨inside, there⟩
        exact ⟨Or.inr inside, there⟩
      · rintro ⟨rfl | inside, there, due⟩
        · simp [takeDue?, there, SingleShot.isDue, due] at taken
        · exact ⟨inside, there, due⟩
    | some found =>
      obtain ⟨shot, after⟩ := found
      obtain ⟨there, due, rfl⟩ := takeDue?_eq_some taken
      have under := (sound.single key shot there).1
      rw [List.mem_cons, ih (eraseSingle_sound sound key), List.mem_cons]
      simp only [Keyed.get?_erase]
      constructor
      · rintro (rfl | ⟨inside, later, due'⟩)
        · rw [under]
          exact ⟨Or.inl rfl, there, due⟩
        · split at later
          · cases later
          · exact ⟨Or.inr inside, later, due'⟩
      · rintro ⟨where', present, due'⟩
        by_cases same : key = x.key
        · subst same
          exact Or.inl (Option.some.inj (present.symm.trans there))
        · rw [if_neg same]
          exact Or.inr ⟨where'.resolve_left (fun h => same h.symm), present, due'⟩

theorem mem_dueKeys {t : Schedule} (sound : t.Sound) (now : Int) (key : ScheduleKey) :
    key ∈ t.dueKeys now ↔ ∃ x, t.singles.get? key = some x ∧ x.due ≤ now := by
  simp only [dueKeys, byKey, List.mem_map, List.mem_filter, List.mem_mergeSort, Prod.exists]
  constructor
  · rintro ⟨key', x, ⟨inside, due⟩, rfl⟩
    exact ⟨x, (Keyed.mem_entries_iff sound.singlesOnce).mp inside,
      by simpa [SingleShot.isDue] using due⟩
  · rintro ⟨x, there, due⟩
    exact ⟨key, x, ⟨(Keyed.mem_entries_iff sound.singlesOnce).mpr there,
      by simpa [SingleShot.isDue] using due⟩, rfl⟩

def due (t : Schedule) (now : Int) : List SingleShot :=
  (t.takeAllDue now (t.dueKeys now)).1

theorem mem_due {t : Schedule} (sound : t.Sound) (now : Int) (x : SingleShot) :
    x ∈ t.due now ↔ t.singles.get? x.key = some x ∧ x.due ≤ now := by
  unfold due
  rw [mem_takeAllDue sound, mem_dueKeys sound]
  constructor
  · rintro ⟨-, there⟩
    exact there
  · rintro ⟨there, due⟩
    exact ⟨⟨x, there, due⟩, there, due⟩

end Schedule

namespace Controller

variable (c : Controller)

theorem performAll_setters (depth : Nat) (ws : List Setter) (s : State) :
    (c.performAll depth (ws.map .setter) s).ran.map (·.order) = ws.map .setter := by
  induction ws generalizing s with
  | nil => rfl
  | cons w rest ih =>
    have possible : c.canPerform (.setter w) s = true := rfl
    simp only [List.map_cons, performAll, possible, if_true, ih]

theorem fireSingles_orders (s : State) :
    (c.fireSingles s).ran.map (·.order) =
      (SingleShot.inOrder (s.schedule.due s.now.millis)).map (.setter ·.setter) := by
  have orders : (tickSingles s).1 =
      ((SingleShot.inOrder (s.schedule.due s.now.millis)).map (·.setter)).map .setter := by
    rw [List.map_map]
    rfl
  have ran := c.performAll_setters 0
    ((SingleShot.inOrder (s.schedule.due s.now.millis)).map (·.setter)) (tickSingles s).2
  rw [← orders] at ran
  exact ran

end Controller

end HomeControl
