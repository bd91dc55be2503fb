import HomeControl.Proofs.Schedule.Window
/-!
Looks at a timer on a clock that may be set back. A look finds nothing that is not later than the look
before, and an absolute time at most once. But it looks an absolute time up on the first of its days,
and where the clock went back over midnight it has no day: then there is no answer.
-/

namespace HomeControl

namespace Date

theorem daysFrom_eq_nil_iff {first final : Date} :
    first.daysFrom final = [] ↔ final < first ∨ last ≤ first := by
  constructor
  · intro none
    by_contra some
    rw [not_or] at some
    have inside : first ∈ first.daysFrom final := by
      rw [mem_daysFrom]
      simp only [le_iff, lt_iff] at *
      omega
    rw [none] at inside
    exact List.not_mem_nil inside
  · intro late
    refine List.eq_nil_iff_forall_not_mem.mpr ?_
    intro day inside
    rw [mem_daysFrom] at inside
    simp only [le_iff, lt_iff] at *
    omega

end Date

namespace TimerDef

variable {t : TimerDef} {r : Resolver} {last now : Instant} {a b : Date} {days : List Date}

/-- There is no day to look at only where the clock went back to an earlier day, or where the look
before was on the last day of the calendar. -/
theorem daysSince?_nil_iff (hlast : r.dateOf? last = some a) (hnow : r.dateOf? now = some b)
    (start : a.inCalendar = true) (finish : b.inCalendar = true) :
    daysSince? r last now = some [] ↔ b < a ∨ a = Date.last := by
  have found : daysSince? r last now =
      some ((if a < (b.previous?).getD b then (b.previous?).getD b else a).daysFrom b) := by
    simp only [daysSince?, hlast, hnow, Option.bind_eq_bind, Option.bind_some]
  rw [Date.inCalendar_iff] at start finish
  rw [found, Option.some_inj, Date.daysFrom_eq_nil_iff]
  unfold Date.previous?
  split
  · split
    · simp only [Option.getD_some, Date.le_iff, Date.lt_iff, Date.ext_iff, Date.plus] at *
      omega
    · simp only [Option.getD_some, Date.le_iff, Date.lt_iff, Date.ext_iff, Date.plus] at *
      omega
  · split
    · simp only [Option.getD_none, Date.le_iff, Date.lt_iff, Date.ext_iff] at *
      omega
    · simp only [Option.getD_none, Date.le_iff, Date.lt_iff, Date.ext_iff] at *
      omega

theorem crossed?_of_none (found : daysSince? r last now = some days) {e : TimeSpec × String}
    (own : e ∈ t.events) (none : eventCrossings? r days last now e = none) :
    t.crossed? r last now = Option.none := by
  simp only [crossed?, found, mapM_of_none own none, Option.bind_eq_bind, Option.bind_some,
    Option.bind_none]

theorem crossed?_eq_none_iff (found : daysSince? r last now = some days) :
    t.crossed? r last now = none ↔ (∃ e ∈ t.events, e.1.isDaily = false) ∧ days = [] := by
  cases days with
  | cons first more =>
    rw [crossed?_eq t found]
    simp
  | nil =>
    constructor
    · intro none
      refine ⟨?_, rfl⟩
      by_contra every
      have daily : ∀ e ∈ t.events, e.1.isDaily = true := by simpa using every
      rw [crossed?_nil found daily] at none
      cases none
    · rintro ⟨⟨e, own, other⟩, -⟩
      refine crossed?_of_none found own ?_
      rw [eventCrossings?, other]
      rfl

theorem insertLater_perm (x : Instant × String) (entries : List (Instant × String)) :
    (insertLater x entries).Perm (x :: entries) := by
  induction entries with
  | nil => exact .refl _
  | cons y rest ih =>
    rw [insertLater]
    split
    · exact .refl _
    · exact (ih.cons y).trans (.swap x y rest)

theorem byTime_perm (entries : List (Instant × String)) : (byTime entries).Perm entries := by
  induction entries using List.reverseRecOn with
  | nil => exact .refl _
  | append_singleton front x ih =>
    rw [byTime, List.foldl_concat]
    exact (insertLater_perm x _).trans ((ih.cons x).trans (List.perm_append_singleton x front).symm)

def added (r : Resolver) (days : List Date) (last now : Instant) (e : TimeSpec × String) :
    List String :=
  ((eventCrossings? r days last now e).getD []).map (·.2)

/-- A look gives what its events add, each of them for itself. -/
theorem crossed?_perm (found : daysSince? r last now = some days) {commands : List String}
    (given : t.crossed? r last now = some commands) :
    commands.Perm (t.events.flatMap (added r days last now)) := by
  have each : ∀ e ∈ t.events, eventCrossings? r days last now e =
      some ((eventCrossings? r days last now e).getD []) := by
    intro e own
    cases event : eventCrossings? r days last now e with
    | some entries => rfl
    | none =>
      rw [crossed?_of_none found own event] at given
      cases given
  simp only [crossed?, found, mapM_of_some each, Option.bind_eq_bind, Option.bind_some,
    Option.some.injEq] at given
  rw [← given]
  refine ((byTime_perm _).map _).trans (.of_eq ?_)
  simp only [List.map_flatten, List.map_map, List.flatMap]
  rfl

theorem added_nil (e : TimeSpec × String) : added r [] last now e = [] := by
  unfold added eventCrossings?
  split
  · rfl
  · rfl

theorem added_cons (first : Date) (more : List Date) (e : TimeSpec × String) :
    added r (first :: more) last now e =
      (firingsOn r last now (e, 0) (daysOf first more e.1)).map (·.command) := by
  have same : eventCrossings? r (first :: more) last now e =
      some ((firingsOn r last now (e, 0) (daysOf first more e.1)).map Firing.entry) :=
    eventCrossings?_eq first more (e, 0)
  rw [added, same, Option.getD_some, List.map_map]
  rfl

theorem lt_of_mem_added {e : TimeSpec × String} {command : String}
    (inside : command ∈ added r days last now e) : last < now := by
  cases days with
  | nil =>
    rw [added_nil] at inside
    exact absurd inside List.not_mem_nil
  | cons first more =>
    rw [added_cons] at inside
    obtain ⟨x, among, -⟩ := List.mem_map.mp inside
    obtain ⟨-, -, -, after, before⟩ := mem_firingsOn.mp among
    exact lt_of_lt_of_le after before

theorem added_absolute {e : TimeSpec × String} (other : e.1.isDaily = false) :
    added r days last now e = [] ∨ added r days last now e = [e.2] := by
  cases days with
  | nil => exact Or.inl (added_nil e)
  | cons first more =>
    have one : daysOf first more e.1 = [first] := by simp [daysOf, other]
    rw [added_cons, one, firingsOn]
    cases found : firingOn? r last now (e, 0) first with
    | none => simp [found]
    | some x => simp [found, (firingOn?_eq_some.mp found).2.1]

/-- Whichever way the clock goes, a look gives nothing that is not later than the look before, and the
command of an absolute time once at most. It gives no answer just where the timer has an absolute time
and no day is left to look it up on. -/
theorem crossed?_on_any_clock (hlast : r.dateOf? last = some a) (hnow : r.dateOf? now = some b)
    (start : a.inCalendar = true) (finish : b.inCalendar = true) :
    (t.crossed? r last now = none ↔
      (∃ e ∈ t.events, e.1.isDaily = false) ∧ (b < a ∨ a = Date.last)) ∧
    (now ≤ last → ∀ commands ∈ t.crossed? r last now, commands = []) ∧
    ∀ before after e, t.events = before ++ e :: after → e.1.isDaily = false →
      ∀ commands ∈ t.crossed? r last now,
        ∃ others ∈ { t with events := before ++ after }.crossed? r last now,
          commands.Perm others ∨ commands.Perm (e.2 :: others) := by
  obtain ⟨days, found⟩ : ∃ days, daysSince? r last now = some days := by
    simp only [daysSince?, hlast, hnow, Option.bind_eq_bind, Option.bind_some]
    exact ⟨_, rfl⟩
  refine ⟨?_, ?_, ?_⟩
  · have none := daysSince?_nil_iff hlast hnow start finish
    rw [found, Option.some_inj] at none
    rw [crossed?_eq_none_iff found, none]
  · intro back commands given
    refine List.eq_nil_iff_forall_not_mem.mpr ?_
    intro command inside
    obtain ⟨e, -, among⟩ := List.mem_flatMap.mp ((crossed?_perm found given).subset inside)
    exact absurd (lt_of_mem_added among) (not_lt.mpr back)
  · intro before after e own other commands given
    have same := crossed?_perm found given
    -- The other events are answered too, as fewer events need no more days.
    cases rest : { t with events := before ++ after }.crossed? r last now with
    | none =>
      obtain ⟨⟨e', among, other'⟩, none⟩ := (crossed?_eq_none_iff found).mp rest
      have inside : e' ∈ t.events := by
        rw [own]
        exact ((List.sublist_cons_self e after).append_left before).subset among
      rw [(crossed?_eq_none_iff found).mpr ⟨⟨e', inside, other'⟩, none⟩] at given
      cases given
    | some others =>
      refine ⟨others, rfl, ?_⟩
      have same' := crossed?_perm found rest
      rw [own, List.flatMap_append, List.flatMap_cons] at same
      rw [List.flatMap_append] at same'
      have once : added r days last now e = [] ∨ added r days last now e = [e.2] :=
        added_absolute other
      rcases once with none | one
      · rw [none, List.nil_append] at same
        exact Or.inl (same.trans same'.symm)
      · rw [one] at same
        exact Or.inr ((same.trans List.perm_middle).trans (same'.symm.cons e.2))

/-- A feast at a fixed time, and a lamp an hour after each sunset. At eight the feast is found, and
nothing when the clock is set back to five. -/
theorem crossed?_on_any_clock_dusk :
    let five : Instant := ⟨61200, 0⟩
    let eight : Instant := ⟨72000, 0⟩
    dusk.crossed? evenSun eight five = some [] ∧
      dusk.crossed? evenSun five eight = some ["set lamp on", "do feast"] ∧
      ∃ others ∈ { dusk with events := dusk.events.take 1 }.crossed? evenSun five eight,
        ["set lamp on", "do feast"].Perm others ∨
          ["set lamp on", "do feast"].Perm ("do feast" :: others) := by
  intro five eight
  have today : evenSun.dateOf? five = some ⟨0⟩ := rfl
  have tonight : evenSun.dateOf? eight = some ⟨0⟩ := rfl
  have back := crossed?_on_any_clock (t := dusk) tonight today (by decide) (by decide)
  have ahead := crossed?_on_any_clock (t := dusk) today tonight (by decide) (by decide)
  refine ⟨?_, by decide +kernel, ?_⟩
  · cases given : dusk.crossed? evenSun eight five with
    | none => exact absurd (back.1.mp given).2 (by decide)
    | some commands => exact congrArg some (back.2.1 (by decide) commands given)
  · exact ahead.2.2 [_] [] _ rfl rfl ["set lamp on", "do feast"] (by decide +kernel)

/-- The clock is set back by a day after a fixed time. Nothing is due, but the next look has no
answer. -/
theorem crossed?_without_a_day :
    let r := (Place.mk .utc none).resolver
    let feast : TimerDef := ⟨"feast", none, false, [(.absolute ⟨1718866800, 0⟩, "do feast")]⟩
    let last : Instant := ⟨1718866800, 0⟩
    let now : Instant := ⟨1718780400, 0⟩
    feast.events.map (·.1) = (TimeSpec.parse? "1718866800000").toList ∧ now ≤ last ∧
      (r.dateOf? last).isSome = true ∧ (r.dateOf? now).isSome = true ∧
      feast.crossed? r last now = none := by
  intro r feast last now
  exact ⟨by decide +kernel, by decide, rfl, rfl, by decide +kernel⟩

end TimerDef

end HomeControl
