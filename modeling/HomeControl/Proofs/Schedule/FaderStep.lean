import HomeControl.Controller
import HomeControl.Proofs.House.Effects
import HomeControl.Proofs.Schedule.Fade
/-!
One step of a fade. It makes at most one setting, notes the value if the device carries it out, and
drops the fade if it is over. The fades on other keys stay as they are.
-/

namespace HomeControl

theorem ActiveFader.key_setter (f : ActiveFader) (v : Value) : (f.setter v).key = f.key := rfl

def ActiveFader.withLast (f : ActiveFader) (last : Option Value) : ActiveFader :=
  { f with lastApplied := last }

/-- A fade after a look at it, if it is still there. What failed counts as not applied. -/
def ActiveFader.afterLook (t : Topology) (now : Int) (f : ActiveFader) : Option ActiveFader :=
  if f.isFinished now then none
  else if (f.step? now).all fun v => t.accepts (f.setter v) then some (f.applied now)
  else some f

theorem ActiveFader.spec_afterLook {t : Topology} {now : Int} {f g : ActiveFader}
    (after : f.afterLook t now = some g) : g.spec = f.spec := by
  unfold afterLook at after
  split at after
  · cases after
  · split at after
    · rw [← Option.some.inj after]
      rfl
    · rw [← Option.some.inj after]

namespace State

def applyFade (t : Topology) (f : ActiveFader) (s : State) (v : Value) : State where
  house := (s.house.set t (f.setter v) 0).2
  schedule :=
    if t.accepts (f.setter v) then s.schedule.noteApplied f.key f.generation v else s.schedule
  now := s.now

def endFade (now : Int) (f : ActiveFader) (s : State) : State :=
  if f.isFinished now then { s with schedule := s.schedule.dropFader f.key f.generation } else s

@[simp] theorem house_endFade (now : Int) (f : ActiveFader) (s : State) :
    (s.endFade now f).house = s.house := by
  unfold endFade
  split <;> rfl

theorem schedule_endFade (now : Int) (f : ActiveFader) (s : State) :
    (s.endFade now f).schedule =
      if f.isFinished now then s.schedule.dropFader f.key f.generation else s.schedule := by
  unfold endFade
  split <;> rfl

end State

namespace Schedule

theorem noteApplied_frame (t : Schedule) (key : ScheduleKey) (generation : Nat) (v : Value) :
    ∃ faders, t.noteApplied key generation v = { t with faders := faders } := by
  unfold noteApplied
  split
  · split
    · exact ⟨_, rfl⟩
    · exact ⟨t.faders, rfl⟩
  · exact ⟨t.faders, rfl⟩

theorem dropFader_frame (t : Schedule) (key : ScheduleKey) (generation : Nat) :
    ∃ faders, t.dropFader key generation = { t with faders := faders } := by
  unfold dropFader
  split
  · split
    · exact ⟨_, rfl⟩
    · exact ⟨t.faders, rfl⟩
  · exact ⟨t.faders, rfl⟩

theorem get?_noteApplied (t : Schedule) (key : ScheduleKey) (generation : Nat) (v : Value)
    (other : ScheduleKey) :
    (t.noteApplied key generation v).faders.get? other = (t.faders.get? other).map fun f =>
      if key = other ∧ f.generation = generation then f.withLast (some v) else f := by
  unfold noteApplied
  by_cases same : key = other
  · subst same
    cases found : t.faders.get? key with
    | none => exact found
    | some f =>
      by_cases named : f.generation = generation
      · simp only [named, if_true, Keyed.get?_insert, Option.map_some, and_self]
        rw [← named]
        rfl
      · simp [named, found]
  · split
    · split
      · simp [Keyed.get?_insert, same]
      · simp [same]
    · simp [same]

theorem get?_dropFader (t : Schedule) (key : ScheduleKey) (generation : Nat)
    (other : ScheduleKey) :
    (t.dropFader key generation).faders.get? other = (t.faders.get? other).bind fun f =>
      if key = other ∧ f.generation = generation then none else some f := by
  unfold dropFader
  by_cases same : key = other
  · subst same
    cases found : t.faders.get? key with
    | none => exact found
    | some f =>
      by_cases named : f.generation = generation
      · simp [named, Keyed.get?_erase]
      · simp [named, found]
  · split
    · split
      · simp [Keyed.get?_erase, same]
      · simp [same]
    · simp [same]

end Schedule

namespace Controller

variable (c : Controller) (now : Int) (s : State)

theorem stepFader_eq (f : ActiveFader) :
    c.stepFader now s f =
      ((f.step? now).elim s (s.applyFade c.topology f)).endFade now f := by
  unfold stepFader State.endFade
  cases f.step? now with
  | none => rfl
  | some v =>
    simp only [Option.elim_some, State.applyFade]
    cases call : s.house.set c.topology (f.setter v) 0 with
    | mk answer house =>
      have same : s.house.set c.topology ⟨f.spec.node, f.spec.attr, some v⟩ 0 =
          (answer, house) := call
      simp only [same]
      cases answer with
      | ok _ => simp only [House.accepts_of_ok call, if_true]
      | error e => simp only [House.refuses_of_error call, Bool.false_eq_true, if_false]

theorem stepFader_house (f : ActiveFader) :
    (c.stepFader now s f).house =
      ((f.step? now).map f.setter).elim s.house fun w => (s.house.set c.topology w 0).2 := by
  rw [stepFader_eq, State.house_endFade]
  cases f.step? now <;> rfl

theorem stepFader_other {f : ActiveFader} {key : ScheduleKey} (h : f.key ≠ key) :
    (c.stepFader now s f).schedule.faders.get? key = s.schedule.faders.get? key := by
  have applied : ((f.step? now).elim s (s.applyFade c.topology f)).schedule.faders.get? key =
      s.schedule.faders.get? key := by
    cases f.step? now with
    | none => rfl
    | some v =>
      simp only [Option.elim_some, State.applyFade]
      split
      · simp [Schedule.get?_noteApplied, h]
      · rfl
  rw [stepFader_eq, State.schedule_endFade]
  split
  · simpa [Schedule.get?_dropFader, h] using applied
  · exact applied

theorem stepFader_self {f : ActiveFader} (h : s.schedule.faders.get? f.key = some f) :
    (c.stepFader now s f).schedule.faders.get? f.key = f.afterLook c.topology now := by
  have applied : ((f.step? now).elim s (s.applyFade c.topology f)).schedule.faders.get? f.key =
      some (if (f.step? now).all fun v => c.topology.accepts (f.setter v) then f.applied now
        else f) := by
    unfold ActiveFader.applied
    cases f.step? now with
    | none => exact h
    | some v =>
      simp only [Option.elim_some, State.applyFade, Option.all_some, Option.some_or]
      split
      · rw [Schedule.get?_noteApplied, h, Option.map_some, if_pos ⟨rfl, rfl⟩]
        rfl
      · exact h
  rw [stepFader_eq, State.schedule_endFade]
  unfold ActiveFader.afterLook
  split
  · rw [Schedule.get?_dropFader, applied, Option.bind_some]
    exact if_pos ⟨rfl, by split <;> rfl⟩
  · rw [applied]
    split <;> rfl

theorem stepFader_afterLook {f : ActiveFader} (h : s.schedule.faders.get? f.key = some f)
    (key : ScheduleKey) :
    (c.stepFader now s f).schedule.faders.get? key =
      if f.key = key then f.afterLook c.topology now else s.schedule.faders.get? key := by
  split
  · rename_i same
    subst same
    exact c.stepFader_self now s h
  · rename_i other
    exact c.stepFader_other now s other

end Controller

end HomeControl
