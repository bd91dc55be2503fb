import HomeControl.Proofs.House.Configured
import HomeControl.Proofs.Schedule.Overlap
/-!
Steps of fades that fail. While a fade is on its way, a failed step leaves it as it is, so the next
look tries again. A step at or after its end is the last one, whether it fails or not: then the fade
is dropped, and the goal is never applied.
-/

namespace HomeControl

namespace ActiveFader

def Fails (t : Topology) (now : Int) (f : ActiveFader) : Prop :=
  ∃ v, f.step? now = some v ∧ ∀ h : House, ∃ e, (h.set t (f.setter v) 0).1 = .error e

def Arrives (t : Topology) (f : ActiveFader) : Prop :=
  f.lastApplied.any (·.same f.spec.values.goal) = true ∨
    ∀ h : House, (h.set t (f.setter f.spec.values.goal) 0).1 = .ok ()

def tried (t : Topology) (now : Int) (f : ActiveFader) : ActiveFader :=
  if (f.step? now).all fun v => t.accepts (f.setter v) then f.applied now else f

theorem fails_iff {t : Topology} {now : Int} {f : ActiveFader} :
    f.Fails t now ↔ ∃ v, f.step? now = some v ∧ t.accepts (f.setter v) = false := by
  have refused : ∀ v, (∀ h : House, ∃ e, (h.set t (f.setter v) 0).1 = .error e) ↔
      t.accepts (f.setter v) = false := by
    intro v
    constructor
    · intro fails
      obtain ⟨e, failed⟩ := fails default
      by_contra accepted
      rw [(House.set_ok_iff t default (f.setter v) 0).mpr (by simpa using accepted)] at failed
      cases failed
    · intro refused h
      cases answer : (h.set t (f.setter v) 0).1 with
      | ok _ =>
        rw [(House.set_ok_iff t h (f.setter v) 0).mp answer] at refused
        cases refused
      | error e => exact ⟨e, rfl⟩
  simp only [Fails, refused]

theorem arrives_iff {t : Topology} {f : ActiveFader} :
    f.Arrives t ↔ f.lastApplied.any (·.same f.spec.values.goal) = true ∨
      t.accepts (f.setter f.spec.values.goal) = true := by
  unfold Arrives
  simp only [House.set_ok_iff]
  exact or_congr_right ⟨fun accepted => accepted default, fun accepted _ => accepted⟩

/-- At or after the end of a fade its step fails exactly if the goal does not arrive. -/
theorem fails_at_end {t : Topology} {now : Int} {f : ActiveFader}
    (ended : f.isFinished now = true) : f.Fails t now ↔ ¬ f.Arrives t := by
  have goal : f.valueAt now = f.spec.values.goal := if_pos ended
  rw [fails_iff, arrives_iff, step?_eq, goal]
  cases f.lastApplied.any (·.same f.spec.values.goal) with
  | true => simp
  | false => simp

theorem tried_of_fails {t : Topology} {now : Int} {f : ActiveFader} (fails : f.Fails t now) :
    f.tried t now = f := by
  obtain ⟨v, stepped, refused⟩ := fails_iff.mp fails
  unfold tried
  rw [stepped, Option.all_some, refused]
  rfl

end ActiveFader

/-- Where a fade has got to by the stage of a visit that nobody disturbs. -/
def Visit.Fits (t : Topology) (v : Visit) (there : Option ActiveFader) : Prop :=
  match v.stage with
  | .apply => there = some v.fade
  | .note value =>
    there = some v.fade ∧ v.fade.step? v.now = some value ∧
      t.accepts (v.fade.setter value) = true
  | .close => there = some (v.fade.tried t v.now)
  | .done =>
    there = if v.fade.isFinished v.now then none else some (v.fade.tried t v.now)

namespace Controller

/-- Whether, while moves are made, nothing but one visit touches the fade on a key: it is not
replaced and not cancelled, and no other look changes it. -/
def LeavesToVisit (c : Controller) (index : Nat) (key : ScheduleKey) : List Move → Overlap → Prop
  | [], _ => True
  | m :: rest, o =>
    (m ≠ .visit index → (c.move m o).fade? key = o.fade? key) ∧
      c.LeavesToVisit index key rest (c.move m o)

variable (c : Controller)

theorem visit_fits {v : Visit} {s : State}
    (fits : v.Fits c.topology (s.schedule.faders.get? v.fade.key)) :
    { v with stage := (c.visit v s).1 }.Fits c.topology
      ((c.visit v s).2.schedule.faders.get? v.fade.key) := by
  obtain ⟨now, f, stage⟩ := v
  unfold visit
  cases stage with
  | apply =>
    cases stepped : f.step? now with
    | none =>
      have idle : f.tried c.topology now = f := by
        unfold ActiveFader.tried
        rw [stepped]
        simp [ActiveFader.applied, stepped]
      exact fits.trans (congrArg some idle.symm)
    | some value =>
      dsimp only
      cases call : s.house.set c.topology (f.setter value) 0 with
      | mk answer house =>
        cases answer with
        | ok _ => exact ⟨fits, stepped, House.accepts_of_ok call⟩
        | error e =>
          have fails : f.Fails c.topology now :=
            ActiveFader.fails_iff.mpr ⟨value, stepped, House.refuses_of_error call⟩
          exact fits.trans (congrArg some (ActiveFader.tried_of_fails fails).symm)
  | note value =>
    obtain ⟨there, stepped, accepted⟩ := fits
    have noted : f.tried c.topology now = f.withLast (some value) := by
      unfold ActiveFader.tried
      rw [stepped, Option.all_some, if_pos accepted]
      simp only [ActiveFader.applied, stepped, Option.some_or]
      rfl
    simp only [Visit.Fits, noted, Schedule.get?_noteApplied]
    rw [there]
    simp
  | close =>
    have same : (f.tried c.topology now).generation = f.generation := by
      unfold ActiveFader.tried
      split <;> rfl
    simp only [Visit.Fits, State.schedule_endFade]
    split
    · rw [Schedule.get?_dropFader, show s.schedule.faders.get? f.key = _ from fits,
        Option.bind_some, if_pos ⟨rfl, same⟩]
    · exact fits
  | done => exact fits

theorem move_keeps_stage {m : Move} {o : Overlap} {i : Nat} {v : Visit} (other : m ≠ .visit i)
    (there : o.visits[i]? = some v) : (c.move m o).visits[i]? = some v := by
  obtain ⟨inside, -⟩ := List.getElem?_eq_some_iff.mp there
  cases m with
  | act a => exact there
  | look => exact (List.getElem?_append_left inside).trans there
  | visit j =>
    simp only [move]
    cases o.visits[j]? with
    | none => exact there
    | some w =>
      have apart : j ≠ i := fun same => other (congrArg Move.visit same)
      exact (List.getElem?_set_ne apart).trans there

theorem move_fits {m : Move} {o : Overlap} {i : Nat} {v : Visit} (there : o.visits[i]? = some v)
    (fits : v.Fits c.topology (o.fade? v.fade.key))
    (left : m ≠ .visit i → (c.move m o).fade? v.fade.key = o.fade? v.fade.key) :
    ∃ stage, (c.move m o).visits[i]? = some { v with stage := stage } ∧
      { v with stage := stage }.Fits c.topology ((c.move m o).fade? v.fade.key) := by
  by_cases own : m = .visit i
  · subst own
    obtain ⟨inside, -⟩ := List.getElem?_eq_some_iff.mp there
    refine ⟨(c.visit v o.state).1, ?_, ?_⟩
    · simp only [move, there]
      exact List.getElem?_set_self inside
    · simp only [move, there]
      exact c.visit_fits fits
  · refine ⟨v.stage, c.move_keeps_stage own there, ?_⟩
    rw [left own]
    exact fits

/-- While nobody else touches its fade, a visit takes it from stage to stage. -/
theorem goOn_fits {moves : List Move} {o : Overlap} {i : Nat} {v : Visit}
    (there : o.visits[i]? = some v) (fits : v.Fits c.topology (o.fade? v.fade.key))
    (left : c.LeavesToVisit i v.fade.key moves o) :
    ∃ stage, (c.goOn moves o).visits[i]? = some { v with stage := stage } ∧
      { v with stage := stage }.Fits c.topology ((c.goOn moves o).fade? v.fade.key) := by
  induction moves generalizing o v with
  | nil => exact ⟨v.stage, there, fits⟩
  | cons m rest ih =>
    obtain ⟨others, left⟩ := left
    obtain ⟨stage, there, fits⟩ := c.move_fits there fits others
    obtain ⟨last, there, fits⟩ := ih there fits left
    exact ⟨last, there, fits⟩

theorem mem_begin {s : State} (sound : s.schedule.Sound) {f : ActiveFader}
    (there : s.schedule.faders.get? f.key = some f) : ⟨s.now.millis, f, .apply⟩ ∈ begin s :=
  List.mem_map.mpr ⟨f, (Schedule.mem_fadersInOrder sound f).mpr there, rfl⟩

/-- A look begun at any time, with anything in between, also other looks, as long as they leave the
fade to its visit. If the step of the fade fails before its end, the fade stands there as it was, so
each look from then on visits it with what it applied last unchanged, and tries the value of its own
time if that is another one. At or after its end the fade is gone whether its step failed or not,
and the step fails exactly if the goal does not arrive. -/
theorem failed_step_is_kept_until_end (started : Instant) (moves between : List Move) :
    let o₀ := c.goOn moves ⟨.start c.topology started, []⟩
    let o₁ := c.move .look o₀
    let o₂ := c.goOn between o₁
    (c.goOn (alone o₀) o₀).state = c.tickFaders o₀.state ∧
    ∀ i v, o₀.visits.length ≤ i → o₁.visits[i]? = some v →
      c.LeavesToVisit i v.fade.key between o₁ →
      (o₂.visits[i]?).map (·.stage) = some .done →
      (v.fade.Fails c.topology v.now →
        o₂.fade? v.fade.key = (if v.fade.isFinished v.now then none else some v.fade) ∧
        (v.fade.isFinished v.now = false → ∀ now,
          ⟨now.millis, v.fade, .apply⟩ ∈ begin { o₂.state with now := now } ∧
          (v.fade.lastApplied.any (·.same (v.fade.valueAt now.millis)) = false →
            v.fade.step? now.millis = some (v.fade.valueAt now.millis)))) ∧
      (o₂.fade? v.fade.key = none ↔ v.fade.isFinished v.now = true) ∧
      (v.fade.isFinished v.now = true →
        (v.fade.Fails c.topology v.now ↔ ¬ v.fade.Arrives c.topology)) := by
  intro o₀ o₁ o₂
  refine ⟨c.look_alone o₀, ?_⟩
  intro i v since begun left finished
  have stood : o₀.fade? v.fade.key = some v.fade :=
    c.begun_stood (c.goOn_sound started moves) since begun
  have fits : v.Fits c.topology (o₁.fade? v.fade.key) := by
    obtain ⟨f, -, rfl⟩ := List.mem_map.mp (c.mem_begin_of_begun since begun)
    exact stood
  obtain ⟨stage, there, fits⟩ := c.goOn_fits begun fits left
  -- The visit is over, so the fade has been tried and, at its end, dropped.
  rw [there, Option.map_some, Option.some_inj] at finished
  subst finished
  have final : o₂.fade? v.fade.key =
      if v.fade.isFinished v.now then none else some (v.fade.tried c.topology v.now) := fits
  refine ⟨?_, ?_, ActiveFader.fails_at_end⟩
  · intro fails
    rw [ActiveFader.tried_of_fails fails] at final
    refine ⟨final, ?_⟩
    intro going now
    rw [going] at final
    have sound : o₂.state.schedule.Sound := by
      have whole := c.goOn_sound started (moves ++ .look :: between)
      rw [goOn_append] at whole
      exact whole
    refine ⟨mem_begin (s := { o₂.state with now := now }) sound final, ?_⟩
    intro news
    rw [ActiveFader.step?_eq, news]
    rfl
  · rw [final]
    by_cases ended : v.fade.isFinished v.now = true
    · simp [ended]
    · simp [ended]

def ofLostBulb : Controller :=
  ofBulb ⟨"bulb", Device.virtualKind, [], [Attr.brightness], true, []⟩

theorem failed_step_is_kept_until_end_halfway :
    let moves : List Move := [.act (.command false 0 "fade lamp brightness 0 to 100 for 10"),
      .act (.clock ⟨5, 0⟩)]
    let between : List Move := [.visit 0, .visit 0]
    let f : ActiveFader := ⟨⟨"lamp", .brightness 0 100, .ofSeconds 10⟩, 0, none, 1⟩
    let o₁ := ofLostBulb.move .look
      (ofLostBulb.goOn moves ⟨.start ofLostBulb.topology ⟨0, 0⟩, []⟩)
    o₁.visits[0]? = some ⟨5000, f, .apply⟩ ∧ f.Fails ofLostBulb.topology 5000 ∧
      (ofLostBulb.goOn between o₁).fade? ⟨"lamp", Attr.brightness⟩ = some f := by
  intro moves between f o₁
  have begun : o₁.visits[0]? = some ⟨5000, f, .apply⟩ := by decide +kernel
  have fails : f.Fails ofLostBulb.topology 5000 :=
    ActiveFader.fails_iff.mpr ⟨.int 50, by decide +kernel⟩
  have left : ofLostBulb.LeavesToVisit 0 f.key between o₁ :=
    ⟨fun other => absurd rfl other, fun other => absurd rfl other, trivial⟩
  obtain ⟨-, kept⟩ := failed_step_is_kept_until_end ofLostBulb ⟨0, 0⟩ moves between
  obtain ⟨kept, -⟩ := kept 0 ⟨5000, f, .apply⟩ (Nat.zero_le 0) begun left (by decide +kernel)
  exact ⟨begun, fails, (kept fails).1.trans (by decide +kernel)⟩

/-- The step at the end fails, and the fade is forgotten before its goal was applied. -/
theorem failed_goal_is_forgotten :
    let s := ofLostBulb.run [.command false 0 "fade lamp brightness 0 to 100 for 10",
      .clock ⟨10, 0⟩] (.start ofLostBulb.topology ⟨0, 0⟩)
    let f : ActiveFader := ⟨⟨"lamp", .brightness 0 100, .ofSeconds 10⟩, 0, none, 1⟩
    Controller.ofConfig .utc (.ofBulb [("setters", .list [.text Attr.brightness]),
      ("offline", .bool true)]) = .ok ofLostBulb ∧
    s.schedule.faders.get? f.key = some f ∧
    f.step? s.now.millis = some (.int 100) ∧
    (s.house.set ofLostBulb.topology (f.setter (.int 100)) 0).1 =
      .error (.driver "lamp" (.unreachable "bulb")) ∧
    (ofLostBulb.tickFaders s).schedule.faders.get? f.key = none := by
  intro s f
  refine ⟨?_, by decide +kernel⟩
  with_unfolding_all rfl

end Controller

end HomeControl
