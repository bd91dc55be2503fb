import HomeControl.Proofs.Schedule.SingleTick
import HomeControl.Proofs.House.Effects
/-!
Settings that are carried out together. The setters of a plan that no later one overrides have
different keys, as have the later setters that are due together, so what is known of the target of
each depends on it alone.
-/

namespace HomeControl

namespace Setter

theorem overrides_iff (later earlier : Setter) :
    later.overrides earlier = true ↔ later.key = earlier.key := by
  simp only [overrides, key_eq, target, Attr.isTrigger, ScheduleKey.mk.injEq, Bool.and_eq_true,
    beq_iff_eq, Bool.or_eq_true]
  refine and_congr_right fun _ => ?_
  by_cases a : later.attr = Attr.flip
  · by_cases b : earlier.attr = Attr.flip
    · simp only [a, b, if_true, true_or]
    · simp only [a, b, if_true, if_false, or_true, true_and, or_false]
      constructor
      · rintro (same | state)
        · exact absurd same.symm b
        · exact state.symm
      · exact fun state => Or.inr state.symm
  · by_cases b : earlier.attr = Attr.flip
    · simp only [a, b, if_true, if_false, or_true, and_true, or_false, false_or]
    · simp only [a, b, or_false, if_false]
      constructor
      · rintro (same | ⟨x, y⟩)
        · exact same
        · exact x.trans y.symm
      · exact Or.inl

theorem survivors_once (ws : List Setter) : ((survivors ws).map (·.key)).Nodup := by
  induction ws with
  | nil => exact List.nodup_nil
  | cons w rest ih =>
    unfold survivors
    split
    · exact ih
    · rename_i alone
      refine List.nodup_cons.mpr ⟨?_, ih⟩
      intro again
      obtain ⟨x, inside, same⟩ := List.mem_map.mp again
      have overridden : rest.any (·.overrides w) = true :=
        List.any_eq_true.mpr ⟨x, Controller.survivors_subset rest inside,
          (overrides_iff x w).mpr same⟩
      exact alone overridden

theorem survivors_eq_self {ws : List Setter} (once : (ws.map (·.key)).Nodup) :
    survivors ws = ws := by
  induction ws with
  | nil => rfl
  | cons w rest ih =>
    obtain ⟨fresh, once⟩ := List.nodup_cons.mp once
    have alone : ¬ rest.any (·.overrides w) = true := by
      intro overridden
      obtain ⟨x, inside, above⟩ := List.any_eq_true.mp overridden
      exact fresh (List.mem_map.mpr ⟨x, inside, (overrides_iff x w).mp above⟩)
    rw [survivors, if_neg alone, ih once]

theorem survivor_cases {w x : Setter} {rest : List Setter} (h : w ∈ survivors (x :: rest)) :
    w ∈ survivors rest ∨ w = x ∧ ∀ y ∈ rest, y.key ≠ x.key := by
  unfold survivors at h
  split at h
  · exact Or.inl h
  · rename_i alone
    rcases List.mem_cons.mp h with same | later
    · refine Or.inr ⟨same, ?_⟩
      intro y inside equal
      exact alone (List.any_eq_true.mpr ⟨y, inside, (overrides_iff y x).mpr equal⟩)
    · exact Or.inl later

theorem survivor_last {w : Setter} {ws : List Setter} (h : w ∈ survivors ws) :
    (ws.filter (·.key = w.key)).getLast? = some w := by
  induction ws with
  | nil => exact absurd h List.not_mem_nil
  | cons x rest ih =>
    rcases survivor_cases h with later | ⟨rfl, others⟩
    · rw [List.filter_cons]
      split
      · rw [List.getLast?_cons, ih later]
        rfl
      · exact ih later
    · have nothing : rest.filter (·.key = w.key) = [] :=
        List.filter_eq_nil_iff.mpr (by simpa using others)
      simp [nothing]

end Setter

namespace Schedule

theorem generation_foldl {α : Type} (step : Schedule → α → Schedule)
    (counts : ∀ t x, t.generation ≤ (step t x).generation) (xs : List α) (t : Schedule) :
    t.generation ≤ (xs.foldl step t).generation := by
  induction xs generalizing t with
  | nil => exact Nat.le_refl _
  | cons x rest ih => exact (counts t x).trans (ih (step t x))

theorem last_registered {α ν : Type} (step : Schedule → α → Schedule)
    (view : Schedule → ScheduleKey → Option ν) {own : α → ScheduleKey} {made : α → Nat → ν}
    (counts : ∀ t x, t.generation ≤ (step t x).generation)
    (registers : ∀ t x key, view (step t x) key =
      if own x = key then some (made x t.generation) else view t key)
    (xs : List α) (t : Schedule) (key : ScheduleKey) :
    match (xs.filter (own · = key)).getLast? with
    | some x => ∃ generation, t.generation ≤ generation ∧
        view (xs.foldl step t) key = some (made x generation)
    | none => view (xs.foldl step t) key = view t key := by
  induction xs using List.reverseRecOn with
  | nil => rfl
  | append_singleton front x ih =>
    have last := registers (front.foldl step t) x key
    rw [List.filter_append, List.foldl_append, List.foldl_cons, List.foldl_nil]
    by_cases same : own x = key
    · rw [if_pos same] at last
      simp only [same, decide_true, List.filter_cons_of_pos, List.filter_nil, List.getLast?_append,
        List.getLast?_singleton, Option.some_or]
      exact ⟨_, generation_foldl step counts front t, last⟩
    · rw [if_neg same] at last
      simpa [same, last] using ih

theorem get?_addSingle (t : Schedule) (timed : TimedSetter) (key : ScheduleKey) :
    (t.addSingle timed).singles.get? key =
      if timed.setter.key = key then some ⟨timed.setter, timed.due, t.generation⟩
      else t.singles.get? key :=
  Keyed.get?_insert ..

theorem get?_registered {f : Setter → TimedSetter} {ws : List Setter}
    (keyed : ∀ w ∈ ws, (f w).setter.key = w.key) {w : Setter} (h : w ∈ Setter.survivors ws)
    (t : Schedule) :
    ∃ generation, ((ws.map f).foldl .addSingle t).singles.get? w.key =
      some ⟨(f w).setter, (f w).due, generation⟩ := by
  have same : (ws.map f).filter (·.setter.key = w.key) = (ws.filter (·.key = w.key)).map f := by
    rw [List.filter_map]
    congr 1
    refine List.filter_congr fun x inside => ?_
    simp [keyed x inside]
  have last := last_registered addSingle (·.singles.get? ·) (fun _ _ => Nat.le_succ _)
    get?_addSingle (ws.map f) t w.key
  rw [same, List.getLast?_map, Setter.survivor_last h] at last
  obtain ⟨generation, -, found⟩ := last
  exact ⟨generation, found⟩

theorem due_once {t : Schedule} (sound : t.Sound) (now : Int) :
    ((t.due now).map (·.key)).Nodup := by
  have taken : ∀ (keys : List ScheduleKey) (t' : Schedule), t'.Sound →
      ((t'.takeAllDue now keys).1.map (·.key)).Sublist keys := by
    intro keys
    induction keys with
    | nil => exact fun _ _ => List.Sublist.slnil
    | cons key rest ih =>
      intro t' sound'
      simp only [takeAllDue]
      cases found : t'.takeDue? key now with
      | none => exact (ih t' sound').cons key
      | some pair =>
        obtain ⟨shot, after⟩ := pair
        obtain ⟨there, -, rfl⟩ := takeDue?_eq_some found
        have under := (sound'.single key shot there).1
        rw [List.map_cons, under]
        exact (ih _ (eraseSingle_sound sound' key)).cons_cons key
  refine (taken _ t sound).nodup ?_
  have perm : (byKey t.singles).Perm t.singles.entries := List.mergeSort_perm _ _
  exact ((perm.map _).nodup_iff.mpr sound.singlesOnce).sublist (List.filter_sublist.map _)

end Schedule

namespace State

variable (t : Topology)

theorem writeAll_house (depth : Nat) (ws : List Setter) (s : State) :
    (s |> writeAll t depth ws).2.house = s.house.setAll t depth ws := by
  induction ws generalizing s with
  | nil => rfl
  | cons w rest ih =>
    simp only [writeAll, write, House.setAll, List.foldl_cons]
    cases call : s.house.set t w depth with
    | mk answer house =>
      cases answer with
      | ok _ => exact ih ⟨house, s.schedule.cancel (.of w.node w.attr), s.now⟩
      | error e => exact ih { s with house := house }

theorem writeAll_errors (depth : Nat) (ws : List Setter) (s : State) :
    (s |> writeAll t depth ws).1 = [] ↔ ∀ w ∈ ws, t.accepts w = true := by
  induction ws generalizing s with
  | nil => exact ⟨fun _ _ inside => absurd inside List.not_mem_nil, fun _ => rfl⟩
  | cons w rest ih =>
    simp only [writeAll, write, List.forall_mem_cons]
    cases call : s.house.set t w depth with
    | mk answer house =>
      cases answer with
      | ok _ =>
        rw [ih, House.accepts_of_ok call]
        simp only [true_and]
      | error e =>
        rw [House.refuses_of_error call]
        simp only [reduceCtorEq, Bool.false_eq_true, false_and]

theorem execute_errors {depth : Nat} {p : Plan} {s : State}
    (success : (s.execute t depth p).1.isSuccess = true) :
    p.errors = [] ∧ ∀ w ∈ Setter.survivors p.setters, t.accepts w = true := by
  have none := List.isEmpty_iff.mp success
  simp only [execute, List.append_eq_nil_iff, List.map_eq_nil_iff] at none
  exact ⟨none.1.1.1, (writeAll_errors t depth _ _).mp none.2⟩

theorem execute_house (depth : Nat) {p : Plan} (silent : p.getters = []) (s : State) :
    (s.execute t depth p).2.house = s.house.setAll t depth (Setter.survivors p.setters) := by
  simp only [execute, silent, enlist]
  exact writeAll_house t depth _ s

end State

namespace Controller

variable (c : Controller)

theorem perform_setter (depth : Nat) (w : Setter) (s : State) :
    (c.perform depth (.setter w) s).2.house = (s.house.set c.topology w depth).2 ∧
      ((c.perform depth (.setter w) s).1.isSuccess = true ↔ c.topology.accepts w = true) := by
  refine ⟨State.execute_house c.topology depth rfl s, ?_⟩
  have errors := State.writeAll_errors c.topology depth [w] s
  rw [List.forall_mem_singleton] at errors
  rw [← errors]
  exact List.isEmpty_iff.trans List.map_eq_nil_iff

theorem performAll_setters_house (depth : Nat) (ws : List Setter) (s : State) :
    (c.performAll depth (ws.map .setter) s).state.house = s.house.setAll c.topology depth ws := by
  induction ws generalizing s with
  | nil => rfl
  | cons w rest ih =>
    have possible : c.canPerform (.setter w) s = true := rfl
    simp only [List.map_cons, performAll, possible, if_true]
    rw [ih, (c.perform_setter depth w s).1]
    rfl

theorem performAll_setters_answers (depth : Nat) (ws : List Setter) (s : State) :
    ∀ d ∈ (c.performAll depth (ws.map .setter) s).ran, ∀ w, d.order = .setter w →
      (d.response.isSuccess = true ↔ c.topology.accepts w = true) := by
  induction ws generalizing s with
  | nil => exact fun d inside => absurd inside List.not_mem_nil
  | cons x rest ih =>
    have possible : c.canPerform (.setter x) s = true := rfl
    intro d inside w order
    simp only [List.map_cons, performAll, possible, if_true] at inside
    rcases List.mem_cons.mp inside with rfl | later
    · cases order
      exact (c.perform_setter depth x s).2
    · exact ih _ d later w order

theorem fireSingles_house (s : State) :
    (c.fireSingles s).state.house = s.house.setAll c.topology 0
      ((SingleShot.inOrder (s.schedule.due s.now.millis)).map (·.setter)) := by
  have done := c.performAll_setters_house 0
    ((SingleShot.inOrder (s.schedule.due s.now.millis)).map (·.setter)) (tickSingles s).2
  rw [List.map_map] at done
  exact done

theorem fireSingles_answers (s : State) :
    ∀ d ∈ (c.fireSingles s).ran, ∀ w, d.order = .setter w →
      (d.response.isSuccess = true ↔ c.topology.accepts w = true) := by
  have answers := c.performAll_setters_answers 0
    ((SingleShot.inOrder (s.schedule.due s.now.millis)).map (·.setter)) (tickSingles s).2
  rw [List.map_map] at answers
  exact answers

/-- A look at the later setters carries out each that is due, and changes what is known of its
target as this one setter does. -/
theorem fireSingles_due {s : State} (sound : s.schedule.Sound) {x : SingleShot}
    (there : s.schedule.singles.get? x.key = some x) (due : x.due ≤ s.now.millis) :
    (∃ d ∈ (c.fireSingles s).ran, d.order = .setter x.setter) ∧
      (c.fireSingles s).state.house.known? x.setter.node x.setter.target =
        if c.topology.accepts x.setter = true then
          x.setter.outcome (s.house.known? x.setter.node x.setter.target)
        else s.house.known? x.setter.node x.setter.target := by
  have perm : (SingleShot.inOrder (s.schedule.due s.now.millis)).Perm
      (s.schedule.due s.now.millis) := List.mergeSort_perm _ _
  have taken := perm.mem_iff.mpr ((Schedule.mem_due sound s.now.millis x).mpr ⟨there, due⟩)
  refine ⟨?_, ?_⟩
  · have order : Order.setter x.setter ∈ (c.fireSingles s).ran.map (·.order) := by
      rw [c.fireSingles_orders]
      exact List.mem_map.mpr ⟨x, taken, rfl⟩
    obtain ⟨d, inside, same⟩ := List.mem_map.mp order
    exact ⟨d, inside, same⟩
  · have once : (((SingleShot.inOrder (s.schedule.due s.now.millis)).map (·.setter)).map
        (·.key)).Nodup := by
      rw [List.map_map]
      exact (perm.map _).nodup_iff.mpr (Schedule.due_once sound s.now.millis)
    rw [c.fireSingles_house]
    exact House.known?_setAll c.topology 0 once (List.mem_map.mpr ⟨x, taken, rfl⟩) s.house

end Controller

end HomeControl
