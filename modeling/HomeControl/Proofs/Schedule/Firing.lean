import HomeControl.Proofs.Schedule.Generation
import HomeControl.Proofs.Schedule.SingleTick
/-!
What becomes of setters for a later time. A journal is read as what happens to them: each is
registered, and then replaced, overwritten, cancelled or fired. The balance of one operation, that
what was registered is pending or has ended, adds up over journals.
-/

namespace HomeControl

inductive ShotEvent where
  | registered (x : SingleShot)
  | replaced (x new : SingleShot)
  | overwritten (x : SingleShot) (w : Setter)
  | cancelled (x : SingleShot)
  | fired (x : SingleShot) (now : Int)
  deriving DecidableEq, Repr

namespace ShotEvent

def ends (x : SingleShot) : ShotEvent → Bool
  | registered _ => false
  | replaced y _ => y = x
  | overwritten y _ => y = x
  | cancelled y => y = x
  | fired y _ => y = x

def fired? : ShotEvent → Option SingleShot
  | fired x _ => some x
  | _ => none

end ShotEvent

def ScheduleOp.events (o : ScheduleOp) (t : Schedule) : List ShotEvent :=
  match o with
  | .shoot timed =>
    let new : SingleShot := ⟨timed.setter, timed.due, t.generation⟩
    (t.singles.get? new.key).toList.map (.replaced · new) ++ [.registered new]
  | .set w => (t.singles.get? w.key).toList.map (.overwritten · w)
  | .cancel key => (t.singles.get? key).toList.map .cancelled
  | .take now key => (t.takeDue? key now).toList.map fun taken => .fired taken.1 now
  | _ => []

namespace Schedule

def history (t : Schedule) : List ScheduleOp → List ShotEvent
  | [] => []
  | o :: rest => o.events t ++ (o.apply t).history rest

theorem history_append (t : Schedule) (before after : List ScheduleOp) :
    t.history (before ++ after) = t.history before ++ (t.replay before).history after := by
  induction before generalizing t with
  | nil => rfl
  | cons o rest ih =>
    simp only [List.cons_append, history, ih, List.append_assoc]
    rfl

def pending (t : Schedule) (x : SingleShot) : Nat :=
  if t.singles.get? x.key = some x then 1 else 0

theorem pending_erase (t : Schedule) (key : ScheduleKey) (x : SingleShot) :
    pending { t with singles := t.singles.erase key } x = if key = x.key then 0 else t.pending x := by
  unfold pending
  rw [Keyed.get?_erase]
  by_cases own : key = x.key
  · simp [own]
  · simp [own]

theorem pending_cancel (t : Schedule) (key : ScheduleKey) (x : SingleShot) :
    (t.cancel key).pending x = if key = x.key then 0 else t.pending x :=
  pending_erase t key x

theorem pending_addSingle (t : Schedule) (timed : TimedSetter) (x : SingleShot) :
    (t.addSingle timed).pending x =
      if timed.setter.key = x.key then
        if (⟨timed.setter, timed.due, t.generation⟩ : SingleShot) = x then 1 else 0
      else t.pending x := by
  have own : (⟨timed.setter, timed.due, t.generation⟩ : SingleShot).key = timed.setter.key := rfl
  unfold pending addSingle
  rw [Keyed.get?_insert, own]
  by_cases same : timed.setter.key = x.key
  · simp [same]
  · simp [same]

theorem ended_on_key {t : Schedule} (sound : t.Sound) (event : SingleShot → ShotEvent)
    (ends : ∀ y z, (event y).ends z = decide (y = z)) (key : ScheduleKey) (x : SingleShot) :
    ((t.singles.get? key).toList.map event).countP (·.ends x) =
      if key = x.key then t.pending x else 0 := by
  unfold pending
  cases found : t.singles.get? key with
  | none =>
    by_cases own : key = x.key
    · simp [← own, found]
    · simp [own]
  | some y =>
    have under := (sound.single key y found).1
    by_cases own : key = x.key
    · subst own
      simp [found, ends, List.countP_cons]
    · have other : y ≠ x := by
        intro same
        exact own (under.symm.trans (congrArg SingleShot.key same))
      simp [own, ends, other]

end Schedule

namespace ScheduleOp

theorem unregistered (event : SingleShot → ShotEvent)
    (ends : ∀ y z, (event y).ends z = decide (y = z)) (xs : List SingleShot) (x : SingleShot) :
    (xs.map event).count (.registered x) = 0 := by
  apply List.count_eq_zero.mpr
  intro inside
  obtain ⟨y, -, same⟩ := List.mem_map.mp inside
  have ended := ends y y
  rw [same] at ended
  simp [ShotEvent.ends] at ended

/-- What was pending or is registered by an operation is ended by it or pending afterwards. -/
theorem balance {t : Schedule} (sound : t.Sound) (o : ScheduleOp) (x : SingleShot) :
    (o.events t).count (.registered x) + t.pending x =
      (o.events t).countP (·.ends x) + (o.apply t).pending x := by
  have ended := fun event ends key => Schedule.ended_on_key sound event ends key x
  have silent := fun event ends xs => unregistered event ends xs x
  cases o with
  | shoot timed =>
    have other : ShotEvent.ends x (.registered ⟨timed.setter, timed.due, t.generation⟩) = false :=
      rfl
    have own : (⟨timed.setter, timed.due, t.generation⟩ : SingleShot).key = timed.setter.key := rfl
    simp only [events, apply, Schedule.pending_addSingle, List.count_append, List.countP_append,
      List.count_singleton, List.countP_singleton, own, other, Bool.false_eq_true, if_false,
      beq_iff_eq, ShotEvent.registered.injEq]
    rw [ended (.replaced · ⟨timed.setter, timed.due, t.generation⟩) (fun y z => rfl),
      silent (.replaced · ⟨timed.setter, timed.due, t.generation⟩) (fun y z => rfl)]
    by_cases key : timed.setter.key = x.key
    · rw [if_pos key, if_pos key]
      omega
    · have differs : (⟨timed.setter, timed.due, t.generation⟩ : SingleShot) ≠ x := by
        intro same
        exact key (own.symm.trans (congrArg SingleShot.key same))
      rw [if_neg key, if_neg key, if_neg differs]
  | set w =>
    simp only [events, apply, Schedule.pending_cancel]
    rw [ended (.overwritten · w) (fun y z => rfl), silent (.overwritten · w) (fun y z => rfl)]
    split <;> omega
  | cancel key =>
    simp only [events, apply, Schedule.pending_cancel]
    rw [ended .cancelled (fun y z => rfl), silent .cancelled (fun y z => rfl)]
    split <;> omega
  | take now key =>
    cases taken : t.takeDue? key now with
    | none =>
      simp only [events, apply, taken]
      rfl
    | some found =>
      obtain ⟨shot, after⟩ := found
      obtain ⟨there, -, rfl⟩ := Schedule.takeDue?_eq_some taken
      have fired := ended (.fired · now) (fun y z => rfl) key
      have none := silent (.fired · now) (fun y z => rfl) [shot]
      rw [there] at fired
      simp only [events, apply, taken, Option.toList_some, Option.map_some, Option.getD_some,
        Schedule.pending_erase, List.map_cons, List.map_nil] at fired none ⊢
      rw [fired, none]
      split <;> omega
  | note key generation v =>
    have kept : (t.noteApplied key generation v).pending x = t.pending x := by
      obtain ⟨faders, same⟩ := t.noteApplied_frame key generation v
      rw [same]
      rfl
    simp only [events, apply, kept, List.count_nil, List.countP_nil]
  | drop key generation =>
    have kept : (t.dropFader key generation).pending x = t.pending x := by
      obtain ⟨faders, same⟩ := t.dropFader_frame key generation
      rw [same]
      rfl
    simp only [events, apply, kept, List.count_nil, List.countP_nil]
  | fade spec now => rfl
  | look now => rfl

theorem registers {t : Schedule} (o : ScheduleOp) (x : SingleShot) :
    (o.events t).count (.registered x) = 0 ∨
      (o.events t).count (.registered x) = 1 ∧ x.generation = t.generation ∧
        t.generation < (o.apply t).generation := by
  cases o with
  | shoot timed =>
    simp only [events, List.count_append]
    rw [unregistered (.replaced · ⟨timed.setter, timed.due, t.generation⟩)
      (fun y z => rfl), Nat.zero_add]
    by_cases same : (⟨timed.setter, timed.due, t.generation⟩ : SingleShot) = x
    · subst same
      exact Or.inr ⟨by simp, rfl, Nat.lt_succ_self _⟩
    · exact Or.inl (by simp [same])
  | set w => exact Or.inl (unregistered (.overwritten · w) (fun y z => rfl) _ x)
  | cancel key => exact Or.inl (unregistered .cancelled (fun y z => rfl) _ x)
  | take now key =>
    have taken := unregistered (.fired · now) (fun y z => rfl)
      ((t.takeDue? key now).toList.map (·.1)) x
    rw [List.map_map] at taken
    exact Or.inl taken
  | _ => exact Or.inl rfl

end ScheduleOp

namespace Schedule

theorem history_balance {t : Schedule} (sound : t.Sound) (ops : List ScheduleOp) (x : SingleShot) :
    (t.history ops).count (.registered x) + t.pending x =
      (t.history ops).countP (·.ends x) + (t.replay ops).pending x := by
  induction ops generalizing t with
  | nil => simp [history, replay]
  | cons o rest ih =>
    have first := o.balance sound x
    have others := ih (o.apply_sound sound)
    simp only [history, List.count_append, List.countP_append, replay_cons]
    omega

theorem registered_once (t : Schedule) (ops : List ScheduleOp) (x : SingleShot) :
    (t.history ops).count (.registered x) ≤ 1 ∧
      (x.generation < t.generation → (t.history ops).count (.registered x) = 0) := by
  induction ops generalizing t with
  | nil => exact ⟨Nat.zero_le _, fun _ => rfl⟩
  | cons o rest ih =>
    have grows := o.generation_le_apply t
    obtain ⟨once, never⟩ := ih (o.apply t)
    simp only [history, List.count_append]
    rcases o.registers (t := t) x with none | ⟨one, given, next⟩
    · refine ⟨by omega, ?_⟩
      intro old
      rw [none, never (by omega)]
    · have last := never (by omega)
      exact ⟨by omega, by omega⟩

theorem mem_history {t : Schedule} {ops : List ScheduleOp} {e : ShotEvent} :
    e ∈ t.history ops ↔
      ∃ before o after, ops = before ++ o :: after ∧ e ∈ o.events (t.replay before) := by
  constructor
  · intro inside
    induction ops generalizing t with
    | nil => exact absurd inside List.not_mem_nil
    | cons o rest ih =>
      rcases List.mem_append.mp inside with now | later
      · exact ⟨[], o, rest, rfl, now⟩
      · obtain ⟨before, o', after, rfl, event⟩ := ih later
        exact ⟨o :: before, o', after, rfl, event⟩
  · rintro ⟨before, o, after, rfl, event⟩
    rw [history_append]
    exact List.mem_append_right _ (List.mem_append_left _ event)

theorem history_take (t : Schedule) (now : Int) (keys : List ScheduleKey) :
    t.history (keys.map (.take now)) = (t.takeAllDue now keys).1.map (.fired · now) := by
  induction keys generalizing t with
  | nil => rfl
  | cons key rest ih =>
    simp only [List.map_cons, history, ScheduleOp.events, ScheduleOp.apply, takeAllDue]
    cases taken : t.takeDue? key now with
    | none => exact ih t
    | some found => exact congrArg _ (ih found.2)

end Schedule

namespace Controller

variable (c : Controller)

def shotEvents (a : Act) (s : State) : List ShotEvent :=
  s.schedule.history (c.journal a s)

def shotHistory (c : Controller) : List Act → State → List ShotEvent
  | [], _ => []
  | a :: rest, s => c.shotEvents a s ++ c.shotHistory rest (c.step a s)

theorem shotHistory_eq (acts : List Act) (s : State) :
    c.shotHistory acts s = s.schedule.history (c.fullJournal acts s) := by
  induction acts generalizing s with
  | nil => rfl
  | cons a rest ih =>
    rw [shotHistory, ih, step_schedule, fullJournal, Schedule.history_append]
    rfl

theorem fired_in_journal {a : Act} {s : State} {t : Schedule} {ops : List ScheduleOp}
    {x : SingleShot} {now : Int} (warranted : ∀ o ∈ ops, c.Warrants a s o)
    (h : .fired x now ∈ t.history ops) :
    a = .tickSingles ∧ now = s.now.millis ∧ x.due ≤ now := by
  obtain ⟨before, o, after, rfl, inside⟩ := Schedule.mem_history.mp h
  have reason := warranted o (List.mem_append_right _ List.mem_cons_self)
  cases o with
  | take time key =>
    obtain ⟨found, taken, same⟩ := List.mem_map.mp inside
    obtain ⟨-, due, -⟩ := Schedule.takeDue?_eq_some (Option.mem_toList.mp taken)
    cases same
    exact ⟨reason.1, reason.2.1, due⟩
  | shoot timed => simp [ScheduleOp.events] at inside
  | set w => simp [ScheduleOp.events] at inside
  | cancel key => simp [ScheduleOp.events] at inside
  | _ => exact absurd inside List.not_mem_nil

/-- A look first fires all setters whose time has come. Carrying them out fires none. -/
theorem shotEvents_tick (s : State) :
    ∃ rest, c.shotEvents .tickSingles s =
        (s.schedule.due s.now.millis).map (.fired · s.now.millis) ++ rest ∧
      ∀ e ∈ rest, e.fired? = none := by
  refine ⟨_, (Schedule.history_append _ _ _).trans (congrArg (· ++ _)
    (Schedule.history_take _ _ _)), ?_⟩
  intro e inside
  cases e with
  | fired x now =>
    have reason := c.fired_in_journal (a := .tickFaders) (s := s)
      (fun o ho => c.warrants_orders _ s ho) inside
    exact absurd reason.1 (by simp)
  | _ => rfl

theorem fired_by_tick (s : State) :
    (c.shotEvents .tickSingles s).filterMap (·.fired?) = s.schedule.due s.now.millis := by
  obtain ⟨rest, events, silent⟩ := c.shotEvents_tick s
  rw [events, List.filterMap_append, List.filterMap_eq_nil_iff.mpr silent, List.append_nil,
    List.filterMap_map]
  exact List.filterMap_some

/-- What must have happened for a setter for a later time to be replaced, overwritten or
cancelled. -/
def Explains (acts : List Act) (s : State) : ShotEvent → Prop
  | .replaced x y =>
    y.key = x.key ∧ x.generation < y.generation ∧ .registered y ∈ c.shotHistory acts s
  | .overwritten x w => w.key = x.key ∧ c.topology.accepts w = true
  | .cancelled x => .cancel x.key ∈ acts
  | _ => True

theorem explains_history {acts : List Act} {s : State} (sound : s.schedule.Sound) {e : ShotEvent}
    (h : e ∈ c.shotHistory acts s) : c.Explains acts s e := by
  rw [shotHistory_eq] at h
  obtain ⟨before, o, after, split, inside⟩ := Schedule.mem_history.mp h
  have here : o ∈ c.fullJournal acts s := by
    rw [split]
    exact List.mem_append_right _ List.mem_cons_self
  have own := (Schedule.replay_sound sound before).single
  obtain ⟨a, among, s', reason⟩ := c.warrants_fullJournal here
  cases o with
  | shoot timed =>
    rcases List.mem_append.mp inside with old | new
    · obtain ⟨x, found, rfl⟩ := List.mem_map.mp old
      obtain ⟨under, given⟩ := own _ x (Option.mem_toList.mp found)
      refine ⟨under.symm, given, ?_⟩
      rw [shotHistory_eq]
      refine Schedule.mem_history.mpr ⟨before, _, after, split, ?_⟩
      exact List.mem_append_right _ (List.mem_singleton.mpr rfl)
    · cases List.mem_singleton.mp new
      trivial
  | set w =>
    obtain ⟨x, found, rfl⟩ := List.mem_map.mp inside
    exact ⟨(own _ x (Option.mem_toList.mp found)).1.symm, reason⟩
  | cancel key =>
    obtain ⟨x, found, rfl⟩ := List.mem_map.mp inside
    have under := (own _ x (Option.mem_toList.mp found)).1
    subst under
    have asked : a = .cancel x.key := reason
    rw [asked] at among
    exact among
  | take now key =>
    obtain ⟨found, -, rfl⟩ := List.mem_map.mp inside
    trivial
  | _ => exact absurd inside List.not_mem_nil

/-- A setter for a later time that was registered is pending or has come to one end: it was
replaced by a later one on its key, overwritten by a setting that succeeded, cancelled, or fired by
a look at or after its time. Each look fires all that are due, and carries out what it fires. -/
theorem every_shot_has_one_fate (started : Instant) (acts : List Act) (x : SingleShot) :
    let s₀ := State.start c.topology started
    let h := c.shotHistory acts s₀
    h.count (.registered x) ≤ 1 ∧
    h.count (.registered x) = h.countP (·.ends x) + (c.run acts s₀).schedule.pending x ∧
    (∀ earlier e later, h = earlier ++ e :: later → e.ends x = true →
      ∀ e' ∈ later, e'.ends x = false) ∧
    (∀ y, .replaced x y ∈ h →
      y.key = x.key ∧ x.generation < y.generation ∧ .registered y ∈ h) ∧
    (∀ w, .overwritten x w ∈ h → w.key = x.key ∧ c.topology.accepts w = true) ∧
    (.cancelled x ∈ h → .cancel x.key ∈ acts) ∧
    ∀ before a after, acts = before ++ a :: after →
      let s := c.run before s₀
      (∀ now, .fired x now ∈ c.shotEvents a s →
        a = .tickSingles ∧ now = s.now.millis ∧ x.due ≤ now) ∧
      (a = .tickSingles → s.schedule.pending x = 1 → x.due ≤ s.now.millis →
        .fired x s.now.millis ∈ c.shotEvents a s) ∧
      (a = .tickSingles → (c.fireSingles s).ran.map (·.order) =
        (SingleShot.inOrder ((c.shotEvents a s).filterMap (·.fired?))).map (.setter ·.setter)) := by
  intro s₀ h
  have sound : s₀.schedule.Sound := c.start_sound started
  have once := (s₀.schedule.registered_once (c.fullJournal acts s₀) x).1
  have fresh : s₀.schedule.pending x = 0 := rfl
  have balance := Schedule.history_balance sound (c.fullJournal acts s₀) x
  rw [← shotHistory_eq] at once
  rw [← run_schedule, ← shotHistory_eq, fresh, Nat.add_zero] at balance
  refine ⟨once, balance, ?_, ?_, ?_, ?_, ?_⟩
  · intro earlier e later split ends e' inside
    have one : h.countP (·.ends x) ≤ 1 := by
      unfold h
      omega
    rw [split, List.countP_append, List.countP_cons_of_pos ends] at one
    have alone : ∀ a b : Nat, a + (b + 1) ≤ 1 → b = 0 := by omega
    exact Bool.eq_false_iff.mpr (List.countP_eq_zero.mp (alone _ _ one) e' inside)
  · intro y inside
    exact c.explains_history sound inside
  · intro w inside
    exact c.explains_history sound inside
  · intro inside
    exact c.explains_history sound inside
  · intro before a after _ s
    have sound' : s.schedule.Sound := c.run_sound before s₀ sound
    refine ⟨?_, ?_, ?_⟩
    · intro now inside
      exact c.fired_in_journal (fun o ho => c.warrants_journal ho) inside
    · rintro rfl pending due
      have there : s.schedule.singles.get? x.key = some x := by
        unfold Schedule.pending at pending
        split at pending
        · assumption
        · cases pending
      have taken := (Schedule.mem_due sound' s.now.millis x).mpr ⟨there, due⟩
      obtain ⟨rest, events, -⟩ := c.shotEvents_tick s
      rw [events]
      exact List.mem_append_left _ (List.mem_map.mpr ⟨x, taken, rfl⟩)
    · rintro rfl
      rw [c.fired_by_tick]
      exact c.fireSingles_orders s

end Controller

end HomeControl
