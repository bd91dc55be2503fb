import HomeControl.Proofs.Feedback
import HomeControl.Proofs.House.Configured
import HomeControl.Proofs.Schedule.Generation
/-!
A setting takes two steps: the device is set, which may be an event, and then the work on the key of
the setter is cancelled. Other things may happen between the two, also what the event sets off. The
second step cancels whatever stands on the key by then.
-/

namespace HomeControl.Controller

variable (c : Controller)

theorem fired_by_set (w : Setter) (depth : Nat) (s : State) :
    ∀ e ∈ fired s (c.step (.set w depth) s), ⟨e.node, e.attr⟩ = w.key ∧ e.depth = depth := by
  obtain ⟨new, events, about⟩ := House.set_causes c.topology s.house w depth
  intro e inside
  change e ∈ (s.house.set c.topology w depth).2.events.drop s.house.events.length at inside
  rw [events, List.drop_left] at inside
  obtain ⟨node, attr, deep⟩ := about e inside
  rw [w.key_eq, node, attr]
  exact ⟨rfl, deep⟩

theorem write_in_two_steps {w : Setter} (accepted : c.topology.accepts w = true) (depth : Nat)
    (s : State) :
    s.write c.topology depth w = (.ok (), c.run [.set w depth, .cancel w.key] s) := by
  have done := (House.set_ok_iff c.topology s.house w depth).mpr accepted
  cases call : s.house.set c.topology w depth with
  | mk answer house =>
    rw [call] at done
    subst done
    simp only [State.write, call, run, step, List.foldl_cons, List.foldl_nil]
    rfl

theorem gone_once_cancelled {s : State} (distinct : s.schedule.Distinct) {slot : Slot}
    {generation : Nat} (there : s.schedule.generationAt? slot = some generation)
    {acts : List Act} (cancelled : .cancel slot.key ∈ acts) :
    (c.run acts s).schedule.generationAt? slot ≠ some generation := by
  obtain ⟨between, later, rfl⟩ := List.append_of_mem cancelled
  have given := distinct.given slot generation there
  have cleared : (c.run (between ++ [.cancel slot.key]) s).schedule.generationAt? slot = none := by
    rw [run_append]
    exact (Schedule.generationAt?_cancel _ _ _).trans (if_pos rfl)
  have known : generation < (c.run (between ++ [.cancel slot.key]) s).schedule.generation := by
    rw [run_schedule]
    exact Nat.lt_of_lt_of_le given (Schedule.generation_le_replay _ _)
  rw [List.append_cons, run_append, run_schedule]
  refine Schedule.stays_away _ known ?_
  rw [cleared]
  exact nofun

theorem kept_while_untouched (s : State) {slot : Slot} {acts : List Act}
    (untouched : ∀ o ∈ c.fullJournal acts s, o.key? ≠ some slot.key) :
    (c.run acts s).schedule.generationAt? slot = s.schedule.generationAt? slot := by
  rw [run_schedule]
  exact Schedule.generationAt?_replay_other untouched s.schedule

/-- A setting that is carried out is done in its two steps, and what the first one causes are events
about the key of the setter. Whatever happens between and after the steps, also what these events
set off: work that stands on the key at some time after the first step, with nothing else done on
the key from then on, outlives the setting if and only if the second step was before it. -/
theorem work_outlives_setting_iff (c : Controller) (started : Instant) (earlier : List Act)
    (w : Setter) (depth : Nat) (accepted : c.topology.accepts w = true) :
    let s := c.run earlier (.start c.topology started)
    let s₁ := c.step (.set w depth) s
    s.write c.topology depth w = (.ok (), c.step (.cancel w.key) s₁) ∧
    (∀ e ∈ fired s s₁, ⟨e.node, e.attr⟩ = w.key ∧ e.depth = depth) ∧
    ∀ (before after : List Act) (slot : Slot) (generation : Nat), slot.key = w.key →
      (before ++ after).count (.cancel w.key) = 1 →
      (c.run before s₁).schedule.generationAt? slot = some generation →
      (∀ o ∈ c.fullJournal after (c.run before s₁),
        o.key? = some w.key → o = .cancel w.key) →
      ((c.run (before ++ after) s₁).schedule.generationAt? slot = some generation ↔
        .cancel w.key ∈ before) := by
  intro s s₁
  refine ⟨c.write_in_two_steps accepted depth s, c.fired_by_set w depth s, ?_⟩
  intro before after slot generation key once there alone
  rw [← key] at once alone ⊢
  have distinct := c.run_distinct started (earlier ++ .set w depth :: before)
  rw [run_append] at distinct ⊢
  constructor
  · intro outlives
    by_contra missing
    have later : .cancel slot.key ∈ after := by
      have among : .cancel slot.key ∈ before ++ after := List.count_pos_iff.mp (by omega)
      exact (List.mem_append.mp among).resolve_left missing
    exact c.gone_once_cancelled distinct there later outlives
  · intro first
    have missing : .cancel slot.key ∉ after := by
      have some := List.count_pos_iff.mpr first
      rw [List.count_append] at once
      exact List.count_eq_zero.mp (by omega)
    rw [kept_while_untouched, there]
    intro o inside own
    obtain rfl := alone o inside own
    obtain ⟨a, among, s', asked⟩ := c.warrants_fullJournal inside
    exact missing (asked ▸ among)

def ofStairs : Controller :=
  (ofBulb ⟨"bulb", Device.virtualKind, [Attr.state], [Attr.on, Attr.off], false, []⟩).withActions
    [⟨none, some "lamp.state.true", none, .one "set lamp off in 10"⟩]

/-- If the lamp is switched on, and the later setter comes after both steps of that, it stays. -/
theorem work_outlives_setting_iff_stairs :
    let s₁ := ofStairs.step (.set (.state "lamp" true) 0) (.start ofStairs.topology ⟨0, 0⟩)
    let steps : List Act := [.cancel ⟨"lamp", Attr.state⟩, .command false 1 "set lamp off in 10"]
    ofStairs.topology.accepts (.state "lamp" true) = true ∧
      ((ofStairs.run (steps ++ []) s₁).schedule.generationAt? (.shot ⟨"lamp", Attr.state⟩) = some 1 ↔
        .cancel ⟨"lamp", Attr.state⟩ ∈ steps) := by
  intro s₁ steps
  have accepted : ofStairs.topology.accepts (.state "lamp" true) = true := by decide +kernel
  obtain ⟨-, -, outlives⟩ :=
    work_outlives_setting_iff ofStairs ⟨0, 0⟩ [] (.state "lamp" true) 0 accepted
  refine ⟨accepted, outlives steps [] (.shot ⟨"lamp", Attr.state⟩) 1 rfl ?_ ?_ ?_⟩
  · decide
  · decide +kernel
  · exact List.forall_mem_nil _

/-- If it comes between the two steps, the second one cancels it: what switching on the lamp set off
does not happen. -/
theorem reaction_is_cancelled :
    let w := Setter.state "lamp" true
    let s := State.start ofStairs.topology ⟨0, 0⟩
    let s₁ := ofStairs.step (.set w 0) s
    let s₂ := ofStairs.step (.command false 1 "set lamp off in 10") s₁
    let s₃ := ofStairs.step (.cancel w.key) s₂
    Controller.ofConfig .utc
        { Config.ofBulb [("getters", .list [.text Attr.state]),
            ("setters", .list [.text Attr.on, .text Attr.off])] with
          actions := [⟨none, some "lamp.state.true", none, .one "set lamp off in 10"⟩] } =
      .ok ofStairs ∧
    ofStairs.topology.accepts w = true ∧
    fired s s₁ = [⟨"lamp", Attr.state, .bool true, 0⟩] ∧
    ofStairs.router.reactions ⟨"lamp", Attr.state, .bool true, 0⟩ = ["set lamp off in 10"] ∧
    s₂.schedule.singles.get? w.key = some ⟨.state "lamp" false, 10000, 1⟩ ∧
    s₃.schedule.singles.get? w.key = none := by
  intro w s s₁ s₂ s₃
  refine ⟨?_, by decide +kernel⟩
  with_unfolding_all rfl

end HomeControl.Controller
