import HomeControl.Command.Compile
/-!
Setters under a time. Those of a command stay as they are, be they for now or for later, or become
fades; nothing but `until` and `for` asks for setters that the command does not speak of.
-/

namespace HomeControl

namespace Situation

structure Modified (s : Situation) (ws : List Setter) (words : List String) (p : Plan) : Prop where
  setters : ∀ w ∈ p.setters, w ∈ ws
  faders : ∀ f ∈ p.faders, ∃ w ∈ ws, w.node = f.node ∧
    fadeValues? w (s.known w.node w.attr) = some f.values
  timed : ∀ x ∈ p.timed, ∃ keyword more, words = keyword :: more ∧
    (keyword ∈ ["at", "in"] ∧ x.setter ∈ ws ∨ keyword ∈ ["until", "for"])

section Times

variable {s : Situation} {ws : List Setter} {words : List String}

theorem modified_failure (e : PlanError) : s.Modified ws words (.failure e) :=
  ⟨List.forall_mem_nil _, List.forall_mem_nil _, List.forall_mem_nil _⟩

theorem modified_now (errors : List PlanError) :
    s.Modified ws words { setters := ws, errors := errors } :=
  ⟨fun _ => id, List.forall_mem_nil _, List.forall_mem_nil _⟩

theorem modified_merge {p q : Plan} (hp : s.Modified ws words p) (hq : s.Modified ws words q) :
    s.Modified ws words (p.merge q) where
  setters := List.forall_mem_append.mpr ⟨hp.setters, hq.setters⟩
  faders := List.forall_mem_append.mpr ⟨hp.faders, hq.faders⟩
  timed := List.forall_mem_append.mpr ⟨hp.timed, hq.timed⟩

theorem transitionOne_modified (d : Duration) {w : Setter} (among : w ∈ ws) :
    s.Modified ws words (s.transitionOne d w) := by
  have now : s.Modified ws words { setters := [w] } :=
    ⟨List.forall_mem_singleton.mpr among, List.forall_mem_nil _, List.forall_mem_nil _⟩
  unfold transitionOne
  split
  · rename_i values ends
    split
    · exact now
    · refine ⟨List.forall_mem_nil _, List.forall_mem_singleton.mpr ?_, List.forall_mem_nil _⟩
      exact ⟨w, among, rfl, ends⟩
  · exact now

theorem transition_modified (d : Duration) : s.Modified ws words (s.transition ws d) := by
  refine List.foldlRecOn (motive := s.Modified ws words) _ _
    ⟨List.forall_mem_nil _, List.forall_mem_nil _, List.forall_mem_nil _⟩ ?_
  intro p done x inside
  obtain ⟨w, among, rfl⟩ := List.mem_map.mp inside
  exact modified_merge done (transitionOne_modified d among)

theorem later_modified {keyword : String} (delays : keyword ∈ ["at", "in"]) (more : List String)
    (due : Int) : s.Modified ws (keyword :: more) (later ws due) where
  setters := List.forall_mem_nil _
  faders := List.forall_mem_nil _
  timed := by
    intro x inside
    obtain ⟨w, among, rfl⟩ := List.mem_map.mp inside
    exact ⟨keyword, more, rfl, Or.inl ⟨delays, among⟩⟩

theorem restore_modified {keyword : String} (restores : keyword ∈ ["until", "for"])
    (more : List String) (due : Int) : s.Modified ws (keyword :: more) (s.restore ws due) where
  setters _ := id
  faders := by
    have none : (ws.foldl (s.restoreOne due) .empty).faders = [] := by
      refine List.foldlRecOn (motive := fun p : Plan => p.faders = []) _ _ rfl ?_
      intro p none w _
      unfold restoreOne
      split <;> exact none
    intro f inside
    rw [show (s.restore ws due).faders = [] from none] at inside
    exact absurd inside List.not_mem_nil
  timed _ _ := ⟨keyword, more, rfl, Or.inr restores⟩

theorem modified_of_time {α : Type} {plan : α → Plan} (each : ∀ x, s.Modified ws words (plan x))
    (time : Except PlanError α) :
    s.Modified ws words (match time.map plan with
      | .ok p => p
      | .error e => .failure e) := by
  cases time with
  | ok x => exact each x
  | error e => exact modified_failure e

theorem modify_modified (s : Situation) (ws : List Setter) (keyword word : String)
    (more : List String) : s.Modified ws (keyword :: more) (s.modify keyword word ws) := by
  unfold modify
  by_cases at' : keyword = "at"
  · subst at'
    exact modified_of_time (later_modified (by decide) more) (s.timeAt word)
  by_cases in' : keyword = "in"
  · subst in'
    exact modified_of_time (later_modified (by decide) more) (s.timeIn word)
  by_cases until' : keyword = "until"
  · subst until'
    exact modified_of_time (restore_modified (by decide) more) (s.timeAt word)
  by_cases for' : keyword = "for"
  · subst for'
    exact modified_of_time (restore_modified (by decide) more) (s.timeIn word)
  simp only [at', in', until', for', if_false]
  exact modified_of_time transition_modified (duration word)

theorem readModifier_modified (s : Situation) (ws : List Setter) (words : List String) :
    s.Modified ws words (s.readModifier ws words) := by
  unfold readModifier
  split
  · split
    · split
      · rename_i keyword _ _ word rest
        have own := s.modify_modified ws keyword word (word :: rest)
        exact ⟨own.setters, own.faders, own.timed⟩
      · exact modified_failure _
    · exact modified_now _
  · exact modified_now _

end Times

end Situation

end HomeControl
