import HomeControl.Proofs.Schedule.Journal
/-!
Generations as the identity of registrations. Fades and setters for a later time share the counter
that they are taken from, so a generation stands in one place at most, and one that is no longer
there never comes back.
-/

namespace HomeControl

inductive Slot where
  | fade (key : ScheduleKey)
  | shot (key : ScheduleKey)
  deriving DecidableEq, Repr

def Slot.key : Slot → ScheduleKey
  | fade key => key
  | shot key => key

def ScheduleOp.key? : ScheduleOp → Option ScheduleKey
  | fade spec _ => some (.of spec.node spec.attr)
  | shoot timed => some timed.setter.key
  | set w => some w.key
  | cancel key => some key
  | take _ key => some key
  | note _ _ _ => none
  | drop key _ => some key
  | look _ => none

def ScheduleOp.slot? : ScheduleOp → Option Slot
  | fade spec _ => some (.fade (.of spec.node spec.attr))
  | shoot timed => some (.shot timed.setter.key)
  | _ => none

namespace Schedule

/-- The generation of the work that is registered at a place. -/
def generationAt? (t : Schedule) : Slot → Option Nat
  | .fade key => (t.faders.get? key).map (·.generation)
  | .shot key => (t.singles.get? key).map (·.generation)

theorem generationAt?_addFader (t : Schedule) (spec : FaderSpec) (now : Int) (slot : Slot) :
    (t.addFader spec now).generationAt? slot =
      if slot = .fade (.of spec.node spec.attr) then some t.generation
      else t.generationAt? slot := by
  cases slot with
  | fade key =>
    have own : (ActiveFader.ofSpec spec now t.generation).key = .of spec.node spec.attr := rfl
    simp only [generationAt?, addFader, Keyed.get?_insert, own, Slot.fade.injEq]
    by_cases same : ScheduleKey.of spec.node spec.attr = key
    · rw [if_pos same, if_pos same.symm]
      rfl
    · rw [if_neg same, if_neg (Ne.symm same)]
  | shot key => exact (if_neg (by simp)).symm

theorem generationAt?_addSingle (t : Schedule) (timed : TimedSetter) (slot : Slot) :
    (t.addSingle timed).generationAt? slot =
      if slot = .shot timed.setter.key then some t.generation else t.generationAt? slot := by
  cases slot with
  | fade key => exact (if_neg (by simp)).symm
  | shot key =>
    have own : (⟨timed.setter, timed.due, t.generation⟩ : SingleShot).key = timed.setter.key := rfl
    simp only [generationAt?, addSingle, Keyed.get?_insert, own, Slot.shot.injEq]
    by_cases same : timed.setter.key = key
    · rw [if_pos same, if_pos same.symm]
      rfl
    · rw [if_neg same, if_neg (Ne.symm same)]

theorem generationAt?_cancel (t : Schedule) (key : ScheduleKey) (slot : Slot) :
    (t.cancel key).generationAt? slot = if slot.key = key then none else t.generationAt? slot := by
  cases slot with
  | fade own =>
    simp only [generationAt?, cancel, Keyed.get?_erase, Slot.key, eq_comm (a := own)]
    split <;> rfl
  | shot own =>
    simp only [generationAt?, cancel, Keyed.get?_erase, Slot.key, eq_comm (a := own)]
    split <;> rfl

theorem generationAt?_eraseSingle (t : Schedule) (key : ScheduleKey) (slot : Slot) :
    generationAt? { t with singles := t.singles.erase key } slot =
      if slot = .shot key then none else t.generationAt? slot := by
  cases slot with
  | fade own => exact (if_neg (by simp)).symm
  | shot own =>
    simp only [generationAt?, Keyed.get?_erase, Slot.shot.injEq, eq_comm (a := own)]
    split <;> rfl

theorem generationAt?_noteApplied (t : Schedule) (key : ScheduleKey) (generation : Nat)
    (v : Value) (slot : Slot) :
    (t.noteApplied key generation v).generationAt? slot = t.generationAt? slot := by
  cases slot with
  | fade own =>
    rw [generationAt?, get?_noteApplied, generationAt?, Option.map_map]
    refine congrFun (congrArg Option.map (funext fun f => ?_)) _
    dsimp only [Function.comp]
    split <;> rfl
  | shot own =>
    obtain ⟨faders, same⟩ := t.noteApplied_frame key generation v
    rw [same]
    rfl

theorem generationAt?_dropFader (t : Schedule) (key : ScheduleKey) (generation : Nat)
    (slot : Slot) :
    (t.dropFader key generation).generationAt? slot =
      if slot = .fade key ∧ t.generationAt? slot = some generation then none
      else t.generationAt? slot := by
  cases slot with
  | fade own =>
    simp only [generationAt?, get?_dropFader, Slot.fade.injEq, eq_comm (a := own)]
    cases t.faders.get? own with
    | none => simp
    | some f =>
      by_cases named : key = own ∧ f.generation = generation
      · simp [named]
      · simp [named]
  | shot own =>
    obtain ⟨faders, same⟩ := t.dropFader_frame key generation
    rw [same]
    exact (if_neg (by simp)).symm

end Schedule

namespace ScheduleOp

open Schedule

theorem generation_le_apply (o : ScheduleOp) (t : Schedule) :
    t.generation ≤ (o.apply t).generation := by
  cases o with
  | fade spec now => exact Nat.le_succ _
  | shoot timed => exact Nat.le_succ _
  | take now key =>
    cases taken : t.takeDue? key now with
    | none => simp [apply, taken]
    | some found =>
      obtain ⟨shot, after⟩ := found
      obtain ⟨-, -, rfl⟩ := takeDue?_eq_some taken
      simp [apply, taken]
  | note key generation v =>
    obtain ⟨faders, same⟩ := t.noteApplied_frame key generation v
    simp [apply, same]
  | drop key generation =>
    obtain ⟨faders, same⟩ := t.dropFader_frame key generation
    simp [apply, same]
  | _ => exact Nat.le_refl _

/-- What an operation does to a place: it registers something new there, leaves it as it was, or
clears it. -/
theorem generationAt?_apply (o : ScheduleOp) (t : Schedule) (slot : Slot) :
    o.slot? = some slot ∧ (o.apply t).generationAt? slot = some t.generation ∧
        t.generation < (o.apply t).generation ∨
      (o.apply t).generationAt? slot = t.generationAt? slot ∨
      o.key? = some slot.key ∧ (o.apply t).generationAt? slot = none := by
  cases o with
  | fade spec now =>
    rw [apply, generationAt?_addFader]
    split
    · rename_i same
      exact Or.inl ⟨by rw [same]; rfl, rfl, Nat.lt_succ_self _⟩
    · exact Or.inr (Or.inl rfl)
  | shoot timed =>
    rw [apply, generationAt?_addSingle]
    split
    · rename_i same
      exact Or.inl ⟨by rw [same]; rfl, rfl, Nat.lt_succ_self _⟩
    · exact Or.inr (Or.inl rfl)
  | set w =>
    rw [apply, generationAt?_cancel]
    split
    · rename_i same
      exact Or.inr (Or.inr ⟨congrArg some same.symm, rfl⟩)
    · exact Or.inr (Or.inl rfl)
  | cancel key =>
    rw [apply, generationAt?_cancel]
    split
    · rename_i same
      exact Or.inr (Or.inr ⟨congrArg some same.symm, rfl⟩)
    · exact Or.inr (Or.inl rfl)
  | take now key =>
    cases taken : t.takeDue? key now with
    | none => exact Or.inr (Or.inl (by simp only [apply, taken]; rfl))
    | some found =>
      obtain ⟨shot, after⟩ := found
      obtain ⟨-, -, rfl⟩ := takeDue?_eq_some taken
      simp only [apply, taken, Option.map_some, Option.getD_some, generationAt?_eraseSingle]
      split
      · rename_i same
        exact Or.inr (Or.inr ⟨by rw [same]; rfl, rfl⟩)
      · exact Or.inr (Or.inl rfl)
  | note key generation v =>
    exact Or.inr (Or.inl (t.generationAt?_noteApplied key generation v slot))
  | drop key generation =>
    rw [apply, generationAt?_dropFader]
    split
    · rename_i hit
      exact Or.inr (Or.inr ⟨by rw [hit.1]; rfl, rfl⟩)
    · exact Or.inr (Or.inl rfl)
  | look now => exact Or.inr (Or.inl (by cases slot <;> rfl))

theorem key?_of_slot? {o : ScheduleOp} {slot : Slot} (h : o.slot? = some slot) :
    o.key? = some slot.key := by
  cases o <;> cases h <;> rfl

theorem generationAt?_apply_other {o : ScheduleOp} {slot : Slot} (other : o.key? ≠ some slot.key)
    (t : Schedule) : (o.apply t).generationAt? slot = t.generationAt? slot := by
  rcases o.generationAt?_apply t slot with ⟨registers, -⟩ | kept | ⟨ends, -⟩
  · exact absurd (key?_of_slot? registers) other
  · exact kept
  · exact absurd ends other

theorem fader_of_apply {o : ScheduleOp} {t : Schedule} {key : ScheduleKey} {f : ActiveFader}
    (there : (o.apply t).faders.get? key = some f) :
    t.generation ≤ f.generation ∨
      ∃ last, t.faders.get? key = some (f.withLast last) := by
  have kept : ∀ {g}, t.faders.get? key = some g → g = f →
      ∃ last, t.faders.get? key = some (f.withLast last) := by
    rintro g found rfl
    exact ⟨g.lastApplied, found⟩
  have left : ∀ other : ScheduleKey, (t.faders.erase other).get? key = some f →
      ∃ last, t.faders.get? key = some (f.withLast last) := by
    intro other found
    rw [Keyed.get?_erase] at found
    split at found
    · cases found
    · exact kept found rfl
  cases o with
  | fade spec now =>
    rw [apply, addFader, Keyed.get?_insert] at there
    split at there
    · cases there
      exact Or.inl (Nat.le_refl _)
    · exact Or.inr (kept there rfl)
  | set w => exact Or.inr (left w.key there)
  | cancel other => exact Or.inr (left other there)
  | take now other =>
    refine Or.inr (kept (g := f) ?_ rfl)
    cases taken : t.takeDue? other now with
    | none => simpa [apply, taken] using there
    | some found =>
      obtain ⟨shot, after⟩ := found
      obtain ⟨-, -, rfl⟩ := takeDue?_eq_some taken
      simpa [apply, taken] using there
  | note other generation v =>
    rw [apply, get?_noteApplied] at there
    obtain ⟨g, found, noted⟩ := Option.map_eq_some_iff.mp there
    split at noted
    · exact Or.inr ⟨g.lastApplied, noted ▸ found⟩
    · exact Or.inr (kept found noted)
  | drop other generation =>
    rw [apply, get?_dropFader] at there
    obtain ⟨g, found, left⟩ := Option.bind_eq_some_iff.mp there
    split at left
    · cases left
    · exact Or.inr (kept found (Option.some.inj left))
  | shoot timed => exact Or.inr (kept there rfl)
  | look now => exact Or.inr (kept there rfl)

/-- A generation that was given out and is not at a place does not get there any more. -/
theorem stays_away {o : ScheduleOp} {t : Schedule} {slot : Slot} {generation : Nat}
    (given : generation < t.generation) (away : t.generationAt? slot ≠ some generation) :
    (o.apply t).generationAt? slot ≠ some generation := by
  rcases o.generationAt?_apply t slot with ⟨-, new, -⟩ | kept | ⟨-, cleared⟩
  · rw [new]
    intro same
    exact absurd (Option.some.inj same) (by omega)
  · rw [kept]
    exact away
  · rw [cleared]
    simp

end ScheduleOp

namespace Schedule

theorem generation_le_replay (t : Schedule) (ops : List ScheduleOp) :
    t.generation ≤ (t.replay ops).generation := by
  induction ops generalizing t with
  | nil => exact Nat.le_refl _
  | cons o rest ih => exact Nat.le_trans (o.generation_le_apply t) (ih (o.apply t))

theorem stays_away {t : Schedule} {slot : Slot} {generation : Nat} (ops : List ScheduleOp)
    (given : generation < t.generation) (away : t.generationAt? slot ≠ some generation) :
    (t.replay ops).generationAt? slot ≠ some generation := by
  induction ops generalizing t with
  | nil => exact away
  | cons o rest ih =>
    exact ih (Nat.lt_of_lt_of_le given (o.generation_le_apply t)) (o.stays_away given away)

theorem fader_of_replay {t : Schedule} {ops : List ScheduleOp} {key : ScheduleKey} {f : ActiveFader}
    (there : (t.replay ops).faders.get? key = some f) (old : f.generation < t.generation) :
    ∃ last, t.faders.get? key = some (f.withLast last) := by
  induction ops generalizing t with
  | nil => exact ⟨f.lastApplied, there⟩
  | cons o rest ih =>
    obtain ⟨last, found⟩ := ih there (Nat.lt_of_lt_of_le old (o.generation_le_apply t))
    rcases ScheduleOp.fader_of_apply found with new | was
    · exact absurd new (Nat.not_le.mpr old)
    · exact was

theorem generationAt?_replay_other {slot : Slot} {ops : List ScheduleOp}
    (other : ∀ o ∈ ops, o.key? ≠ some slot.key) (t : Schedule) :
    (t.replay ops).generationAt? slot = t.generationAt? slot := by
  induction ops generalizing t with
  | nil => rfl
  | cons o rest ih =>
    rw [replay_cons, ih fun x inside => other x (List.mem_cons_of_mem _ inside)]
    exact ScheduleOp.generationAt?_apply_other (other o List.mem_cons_self) t

/-- Generations have been given out, and each stands in one place at most, be it that of a fade or
that of a setter for a later time. -/
structure Distinct (t : Schedule) : Prop where
  given : ∀ slot generation, t.generationAt? slot = some generation → generation < t.generation
  once : ∀ slot slot' generation, t.generationAt? slot = some generation →
    t.generationAt? slot' = some generation → slot = slot'

theorem empty_distinct : Distinct empty where
  given slot _ h := by cases slot <;> cases h
  once slot _ _ h _ := by cases slot <;> cases h

theorem apply_distinct {t : Schedule} (h : t.Distinct) (o : ScheduleOp) :
    (o.apply t).Distinct where
  given slot generation found := by
    have grows := o.generation_le_apply t
    rcases o.generationAt?_apply t slot with ⟨-, new, more⟩ | kept | ⟨-, cleared⟩
    · rw [new] at found
      cases found
      exact more
    · rw [kept] at found
      exact Nat.lt_of_lt_of_le (h.given slot generation found) grows
    · rw [cleared] at found
      cases found
  once slot slot' generation found found' := by
    rcases o.generationAt?_apply t slot with ⟨here, new, -⟩ | kept | ⟨-, cleared⟩
    · rcases o.generationAt?_apply t slot' with ⟨here', -⟩ | kept' | ⟨-, cleared'⟩
      · exact Option.some.inj (here.symm.trans here')
      · rw [new] at found
        rw [kept'] at found'
        cases found
        exact absurd (h.given slot' _ found') (Nat.lt_irrefl _)
      · rw [cleared'] at found'
        cases found'
    · rcases o.generationAt?_apply t slot' with ⟨-, new', -⟩ | kept' | ⟨-, cleared'⟩
      · rw [kept] at found
        rw [new'] at found'
        cases found'
        exact absurd (h.given slot _ found) (Nat.lt_irrefl _)
      · rw [kept] at found
        rw [kept'] at found'
        exact h.once slot slot' generation found found'
      · rw [cleared'] at found'
        cases found'
    · rw [cleared] at found
      cases found

theorem replay_distinct {t : Schedule} (h : t.Distinct) (ops : List ScheduleOp) :
    (t.replay ops).Distinct := by
  induction ops generalizing t with
  | nil => exact h
  | cons o rest ih => exact ih (apply_distinct h o)

end Schedule

theorem Controller.run_distinct (c : Controller) (started : Instant) (acts : List Act) :
    (c.run acts (.start c.topology started)).schedule.Distinct := by
  rw [c.run_schedule]
  exact Schedule.replay_distinct Schedule.empty_distinct _

end HomeControl
