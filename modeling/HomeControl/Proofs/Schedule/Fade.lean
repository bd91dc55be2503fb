import HomeControl.Schedule.Fader
import Mathlib.Data.List.Chain
/-!
A fade by itself. Its course is what it applies at the times at which it is looked at, as long as it
is there and all that it applies is carried out. Whatever the times are, the course repeats no
value, and once a time reaches the end of the fade it has ended with the goal.
-/

namespace HomeControl

namespace FadeValues

def Shows (f : FadeValues) (v : Value) : Prop :=
  match f with
  | color _ _ => ∃ c : Color, v = c.toValue
  | brightness _ _ => ∃ n : UInt8, v = .int n.toNat

theorem shows_valueAt (f : FadeValues) (p : Float) : f.Shows (f.valueAt p) := by
  cases f with
  | color start goal => exact ⟨_, rfl⟩
  | brightness start goal => exact ⟨_, rfl⟩

theorem shows_goal (f : FadeValues) : f.Shows f.goal := by
  cases f with
  | color start goal => exact ⟨_, rfl⟩
  | brightness start goal => exact ⟨_, rfl⟩

theorem same_iff {f : FadeValues} {v w : Value} (hv : f.Shows v) (hw : f.Shows w) :
    v.same w = true ↔ v = w := by
  cases f with
  | color start goal =>
    obtain ⟨a, rfl⟩ := hv
    obtain ⟨b, rfl⟩ := hw
    simp [Color.toValue, Value.same, Value.sameItems]
  | brightness start goal =>
    obtain ⟨a, rfl⟩ := hv
    obtain ⟨b, rfl⟩ := hw
    simp [Value.same]

end FadeValues

namespace ActiveFader

theorem shows_valueAt (f : ActiveFader) (now : Int) : f.spec.values.Shows (f.valueAt now) := by
  unfold valueAt
  split
  · exact f.spec.values.shows_goal
  · exact f.spec.values.shows_valueAt _

theorem step?_eq (f : ActiveFader) (now : Int) :
    f.step? now =
      if f.lastApplied.any (·.same (f.valueAt now)) then none else some (f.valueAt now) := by
  unfold step?
  cases f.lastApplied with
  | none => rfl
  | some last => rfl

theorem eq_valueAt_of_step? {f : ActiveFader} {now : Int} {v : Value}
    (h : f.step? now = some v) : v = f.valueAt now := by
  rw [step?_eq] at h
  split at h
  · cases h
  · exact (Option.some.inj h).symm

def setter (f : ActiveFader) (v : Value) : Setter :=
  ⟨f.spec.node, f.spec.attr, some v⟩

def applied (f : ActiveFader) (now : Int) : ActiveFader :=
  { f with lastApplied := (f.step? now).or f.lastApplied }

/-- What a fade applies at the times of a list, until it is over. -/
def course (f : ActiveFader) : List Int → List Value
  | [] => []
  | now :: rest =>
    (f.step? now).toList ++ if f.isFinished now then [] else (f.applied now).course rest

def Faithful (f : ActiveFader) : Prop :=
  ∀ last, f.lastApplied = some last → f.spec.values.Shows last

theorem step?_of_faithful {f : ActiveFader} (h : f.Faithful) (now : Int) :
    f.step? now = if f.lastApplied = some (f.valueAt now) then none else some (f.valueAt now) := by
  rw [step?_eq]
  cases known : f.lastApplied with
  | none => rfl
  | some last =>
    have same := FadeValues.same_iff (h last known) (f.shows_valueAt now)
    simp only [Option.any_some, same, Option.some.injEq]

theorem applied_faithful {f : ActiveFader} (h : f.Faithful) (now : Int) :
    (f.applied now).Faithful := by
  intro last hlast
  simp only [applied] at hlast
  cases stepped : f.step? now with
  | none =>
    rw [stepped] at hlast
    exact h last hlast
  | some v =>
    rw [stepped] at hlast
    cases hlast
    exact eq_valueAt_of_step? stepped ▸ f.shows_valueAt now

theorem lastApplied_applied {f : ActiveFader} (h : f.Faithful) (now : Int) :
    (f.applied now).lastApplied = some (f.valueAt now) := by
  simp only [applied, step?_of_faithful h]
  split
  · rename_i last
    exact last
  · rfl

theorem course_eq_map (f : ActiveFader) (times : List Int) :
    ∃ looks : List Int, looks.Sublist times ∧ f.course times = looks.map f.valueAt := by
  induction times generalizing f with
  | nil => exact ⟨[], List.Sublist.slnil, rfl⟩
  | cons now rest ih =>
    obtain ⟨later, sub, hlater⟩ : ∃ later : List Int, later.Sublist rest ∧
        (if f.isFinished now then [] else (f.applied now).course rest) =
          later.map f.valueAt := by
      split
      · exact ⟨[], List.nil_sublist rest, rfl⟩
      · exact ih (f.applied now)
    simp only [course, hlater]
    cases stepped : f.step? now with
    | none => exact ⟨later, sub.cons now, rfl⟩
    | some v =>
      refine ⟨now :: later, sub.cons_cons now, ?_⟩
      rw [eq_valueAt_of_step? stepped]
      rfl

theorem course_chain {f : ActiveFader} (h : f.Faithful) (times : List Int) :
    (f.lastApplied.toList ++ f.course times).IsChain (· ≠ ·) := by
  induction times generalizing f with
  | nil =>
    cases f.lastApplied with
    | none => exact List.IsChain.nil
    | some last => exact List.IsChain.singleton last
  | cons now rest ih =>
    have tail : ((f.applied now).lastApplied.toList ++
        if f.isFinished now then [] else (f.applied now).course rest).IsChain (· ≠ ·) := by
      split
      · rw [List.append_nil, lastApplied_applied h]
        exact List.IsChain.singleton _
      · exact ih (applied_faithful h now)
    rw [lastApplied_applied h] at tail
    simp only [course, step?_of_faithful h]
    by_cases last : f.lastApplied = some (f.valueAt now)
    · rw [if_pos last, last]
      exact tail
    · rw [if_neg last]
      cases known : f.lastApplied with
      | none => exact tail
      | some before =>
        exact List.IsChain.cons_cons (fun equal => last (known ▸ congrArg some equal)) tail

theorem course_reaches_goal {f : ActiveFader} (h : f.Faithful) {times : List Int}
    (reached : ∃ t ∈ times, f.finish ≤ t) :
    (f.lastApplied.toList ++ f.course times).getLast? = some f.spec.values.goal := by
  induction times generalizing f with
  | nil =>
    obtain ⟨t, none, -⟩ := reached
    exact absurd none List.not_mem_nil
  | cons now rest ih =>
    have shift : ∀ vs : List Value,
        (f.lastApplied.toList ++ ((f.step? now).toList ++ vs)).getLast? =
          ((f.applied now).lastApplied.toList ++ vs).getLast? := by
      intro vs
      cases stepped : f.step? now with
      | none => simp [applied, stepped]
      | some v => simp [applied, stepped, List.getLast?_append, List.getLast?_cons]
    simp only [course]
    rw [shift]
    by_cases ended : f.isFinished now = true
    · rw [if_pos ended, List.append_nil, lastApplied_applied h]
      simp [valueAt, ended]
    · rw [if_neg ended]
      have later : ∃ t ∈ rest, (f.applied now).finish ≤ t := by
        obtain ⟨t, ht, hend⟩ := reached
        rcases List.mem_cons.mp ht with same | ht
        · subst same
          exact absurd (decide_eq_true hend) ended
        · exact ⟨t, ht, hend⟩
      exact ih (applied_faithful h now) later

end ActiveFader

end HomeControl
