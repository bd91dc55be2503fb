import HomeControl.Proofs.Schedule.Crossing
import Mathlib.Data.List.Perm.Subperm
/-!
What a look finds, and what comes about between two looks. A look asks for the instants of daily
events on the days from that of the look before to its own. An event whose instant lies on another day
than the one it is asked for on may come about between the looks and not be found.
-/

namespace HomeControl

namespace Date

theorem mem_daysFrom {first final day : Date} :
    day ∈ first.daysFrom final ↔ (first ≤ day ∧ day ≤ final) ∧ day < last := by
  rw [daysFrom, List.mem_filter, List.mem_map, decide_eq_true_eq]
  refine and_congr_left fun _ => ?_
  simp only [List.mem_range, ext_iff, le_iff, plus]
  constructor
  · rintro ⟨k, short, same⟩
    omega
  · intro within
    exact ⟨(day.day - first.day).toNat, by omega, by omega⟩

theorem daysFrom_nodup (first final : Date) : (first.daysFrom final).Nodup := by
  refine List.Nodup.filter _ (List.Nodup.map (fun j k same => ?_) List.nodup_range)
  simp only [ext_iff, plus] at same
  omega

theorem Follows.near {a b : Date} (follows : b.Follows a) : b ≤ a.plus 1 := by
  rcases follows with rfl | rfl
  · simp only [le_iff, plus]
    omega
  · exact Int.le_refl _

end Date

namespace TimeSpec

theorem absolute_of_not_daily {spec : TimeSpec} (other : spec.isDaily = false) :
    ∃ i, spec = .absolute i := by
  cases spec with
  | absolute i => exact ⟨i, rfl⟩
  | _ => cases other

end TimeSpec

namespace TimerDef

variable {t : TimerDef} {r : Resolver} {last now : Instant} {a b : Date}

/-- A day that is looked at from one day to another one. It is not the last one of the calendar. -/
def Looked (a b day : Date) : Prop :=
  (a ≤ day ∧ day ≤ b) ∧ day < Date.last

def Answered (t : TimerDef) (a b : Date) : Prop :=
  ∀ e ∈ t.events, e.1.isDaily = false → ∃ day, Looked a b day

def Fixed (t : TimerDef) (r : Resolver) : Prop :=
  ∀ e ∈ t.events, ∀ i, e.1 = .absolute i → ∀ day, r.resolveOn e.1 day = .ok i

/-- What is found between two times: each event at each of its instants on the days that are looked
at, once and in order. -/
structure Finds (t : TimerDef) (r : Resolver) (last now : Instant) (a b : Date)
    (found : List Firing) : Prop where
  inOrder : found.Pairwise Firing.Before
  exact : ∀ x, x ∈ found ↔ ∃ spec, t.events[x.event]? = some (spec, x.command) ∧
    (∃ day, Looked a b day ∧ r.resolveOn spec day = .ok x.time) ∧ last < x.time ∧ x.time ≤ now

theorem daysSince?_eq (hlast : r.dateOf? last = some a) (hnow : r.dateOf? now = some b)
    (start : Date.first ≤ a) (near : b ≤ a.plus 1) : daysSince? r last now = some (a.daysFrom b) := by
  have first : (if a < (b.previous?).getD b then (b.previous?).getD b else a) = a := by
    refine if_neg ?_
    unfold Date.previous?
    split
    · simp only [Option.getD_some, Date.lt_iff, Date.le_iff, Date.plus] at *
      omega
    · simp only [Option.getD_none, Date.lt_iff, Date.le_iff] at *
      omega
  simp only [daysSince?, hlast, hnow, Option.bind_eq_bind, Option.bind_some, first]

theorem mapM_of_some {α β : Type} {f : α → Option β} {g : α → β} {xs : List α}
    (each : ∀ x ∈ xs, f x = some (g x)) : xs.mapM f = some (xs.map g) := by
  induction xs with
  | nil => rfl
  | cons x rest ih =>
    obtain ⟨first, later⟩ := List.forall_mem_cons.mp each
    rw [List.mapM_cons, first, ih later]
    rfl

theorem mapM_of_none {α β : Type} {f : α → Option β} {xs : List α} {x : α} (inside : x ∈ xs)
    (none : f x = none) : xs.mapM f = Option.none := by
  induction xs with
  | nil => exact absurd inside List.not_mem_nil
  | cons y rest ih =>
    rw [List.mapM_cons]
    rcases List.mem_cons.mp inside with rfl | later
    · rw [none]
      rfl
    · rw [ih later]
      cases f y <;> rfl

theorem looked_iff {day : Date} : day ∈ a.daysFrom b ↔ Looked a b day :=
  Date.mem_daysFrom

theorem crossed?_unanswered (days : daysSince? r last now = some (a.daysFrom b))
    (unanswered : ¬t.Answered a b) : t.crossed? r last now = none := by
  simp only [Answered, not_forall] at unanswered
  obtain ⟨e, own, other, none⟩ := unanswered
  have empty : a.daysFrom b = [] :=
    List.eq_nil_iff_forall_not_mem.mpr fun day inside => none ⟨day, looked_iff.mp inside⟩
  rw [empty] at days
  have event : eventCrossings? r [] last now e = Option.none := by
    rw [eventCrossings?, other]
    rfl
  simp only [crossed?, days, mapM_of_none own event, Option.bind_eq_bind, Option.bind_some,
    Option.bind_none]

theorem crossed?_nil (days : daysSince? r last now = some [])
    (daily : ∀ e ∈ t.events, e.1.isDaily = true) : t.crossed? r last now = some [] := by
  have event : ∀ e ∈ t.events, eventCrossings? r [] last now e = some [] := by
    intro e own
    rw [eventCrossings?, daily e own]
    rfl
  have nothing : (t.events.map fun _ => ([] : List (Instant × String))).flatten = [] := by
    rw [List.map_const', List.flatten_replicate_nil]
  simp only [crossed?, days, mapM_of_some event, nothing, Option.bind_eq_bind, Option.bind_some]
  rfl

theorem resolved_on_daysOf {first : Date} {more : List Date} {spec : TimeSpec} {i : Instant}
    (same : ∀ j, spec = .absolute j → ∀ day, r.resolveOn spec day = .ok j) :
    (∃ day ∈ daysOf first more spec, r.resolveOn spec day = .ok i) ↔
      ∃ day ∈ first :: more, r.resolveOn spec day = .ok i := by
  cases daily : spec.isDaily with
  | true => simp only [mem_daysOf, daily, true_and, List.mem_cons]
  | false =>
    obtain ⟨j, absolute⟩ := TimeSpec.absolute_of_not_daily daily
    simp only [same j absolute]
    refine ⟨fun found => ?_, fun found => ?_⟩
    · obtain ⟨-, -, resolved⟩ := found
      exact ⟨first, List.mem_cons_self, resolved⟩
    · obtain ⟨-, -, resolved⟩ := found
      exact ⟨first, mem_daysOf.mpr (Or.inl rfl), resolved⟩

/-- A look on the days from the one before finds each event at its instants on these days. -/
theorem crossed?_finds (days : daysSince? r last now = some (a.daysFrom b)) (fixed : t.Fixed r)
    (apart : t.Apart r last now (a.daysFrom b)) (answered : t.Answered a b) :
    ∃ found, t.Finds r last now a b found ∧
      t.crossed? r last now = some (found.map (·.command)) := by
  have unique := Date.daysFrom_nodup a b
  have inside : ∀ day, Looked a b day ↔ day ∈ a.daysFrom b := fun day => looked_iff.symm
  cases looked : a.daysFrom b with
  | nil =>
    rw [looked] at days
    simp only [looked, List.not_mem_nil] at inside
    have daily : ∀ e ∈ t.events, e.1.isDaily = true := by
      intro e own
      cases daily : e.1.isDaily with
      | true => rfl
      | false =>
        obtain ⟨day, among⟩ := answered e own daily
        exact ((inside day).mp among).elim
    refine ⟨[], ⟨List.Pairwise.nil, fun x => ?_⟩, crossed?_nil days daily⟩
    simp only [inside, List.not_mem_nil, false_and, exists_false, and_false]
  | cons first more =>
    rw [looked] at days unique apart
    refine ⟨_, ⟨Firing.arrange_inOrder (firings_grouped unique apart), fun x => ?_⟩,
      crossed?_eq t days⟩
    rw [Firing.mem_arrange, mem_firings]
    refine exists_congr fun spec => and_congr_right fun here => and_congr_left fun _ => ?_
    rw [resolved_on_daysOf (fixed _ (List.mem_of_getElem? here)), ← looked]
    simp only [inside]

theorem Looked.inCalendar {day : Date} (looked : Looked a b day) (start : Date.first ≤ a) :
    day.inCalendar = true := by
  obtain ⟨⟨early, -⟩, kept⟩ := looked
  rw [Date.inCalendar_iff]
  simp only [Date.le_iff, Date.lt_iff] at *
  omega

/-- Each instant between two times that a daily event has on some day of the calendar it also has on
a day that is looked at. -/
def Seen (t : TimerDef) (r : Resolver) (last now : Instant) (a b : Date) : Prop :=
  ∀ e ∈ t.events, e.1.isDaily = true → ∀ i, r.Occurs e.1 i → last < i → i ≤ now →
    ∃ day, Looked a b day ∧ r.resolveOn e.1 day = .ok i

theorem Finds.subset {found fired : List Firing} (finds : t.Finds r last now a b found)
    (fires : t.Fires r last now fired) (start : Date.first ≤ a) : found ⊆ fired := by
  intro x inside
  obtain ⟨spec, here, ⟨day, looked, resolved⟩, within⟩ := (finds.exact x).mp inside
  exact (fires.exact x).mpr ⟨spec, here, ⟨day, looked.inCalendar start, resolved⟩, within⟩

/-- What is found is what comes about if all instants of daily events are seen. -/
theorem Finds.fires_iff {found : List Firing} (finds : t.Finds r last now a b found)
    (start : Date.first ≤ a) (fixed : t.Fixed r) (answered : t.Answered a b) :
    t.Fires r last now found ↔ t.Seen r last now a b := by
  constructor
  · rintro fires ⟨spec, command⟩ own daily i occurs after before
    obtain ⟨k, here⟩ := List.getElem?_of_mem own
    have inside := (fires.exact ⟨i, k, command⟩).mpr ⟨spec, here, occurs, after, before⟩
    obtain ⟨spec', here', looked, -⟩ := (finds.exact _).mp inside
    cases here.symm.trans here'
    exact looked
  · intro seen
    refine ⟨finds.inOrder, fun x => ⟨fun inside => ?_, ?_⟩⟩
    · obtain ⟨spec, here, ⟨day, looked, resolved⟩, within⟩ := (finds.exact x).mp inside
      exact ⟨spec, here, ⟨day, looked.inCalendar start, resolved⟩, within⟩
    · rintro ⟨spec, here, occurs, after, before⟩
      have own := List.mem_of_getElem? here
      refine (finds.exact x).mpr ⟨spec, here, ?_, after, before⟩
      cases daily : spec.isDaily with
      | true => exact seen _ own daily _ occurs after before
      | false =>
        obtain ⟨day, looked⟩ := answered _ own daily
        obtain ⟨other, -, resolved⟩ := occurs
        obtain ⟨i, rfl⟩ := TimeSpec.absolute_of_not_daily daily
        rw [fixed _ own i rfl] at resolved
        exact ⟨day, looked, (fixed _ own i rfl day).trans resolved⟩

theorem Regular.seen (regular : t.Regular r) (monotone : r.Monotone)
    (hlast : r.dateOf? last = some a) (hnow : r.dateOf? now = some b) (finish : b < Date.last) :
    t.Seen r last now a b := by
  rintro e own daily i ⟨day, known, resolved⟩ after before
  have shown := regular.daily e own daily day i known resolved
  have early := monotone _ _ _ _ (le_of_lt after) hlast shown
  have late := monotone _ _ _ _ before shown hnow
  exact ⟨day, ⟨⟨early, late⟩, Int.lt_of_le_of_lt late finish⟩, resolved⟩

theorem Regular.apart (regular : t.Regular r) (start : Date.first ≤ a) :
    t.Apart r last now (a.daysFrom b) := by
  intro e own daily day among other also i _ _ found found'
  have shown := regular.daily e own daily day i ((looked_iff.mp among).inCalendar start) found
  have shown' := regular.daily e own daily other i ((looked_iff.mp also).inCalendar start) found'
  exact Option.some.inj (shown.symm.trans shown')

theorem looked_first (near : b.Follows a) (finish : b < Date.last) : Looked a b a := by
  rcases near with rfl | rfl
  · exact ⟨⟨Int.le_refl _, Int.le_refl _⟩, finish⟩
  · simp only [Looked, Date.le_iff, Date.lt_iff, Date.plus] at *
    omega

/-- A look at a timer on the day of the look before or on the next one gives what came about between
them. -/
theorem crossed?_fires (regular : t.Regular r) (monotone : r.Monotone)
    (hlast : r.dateOf? last = some a) (hnow : r.dateOf? now = some b) (near : b.Follows a)
    (start : Date.first ≤ a) (finish : b < Date.last) :
    ∃ fired, t.Fires r last now fired ∧ t.crossed? r last now = some (fired.map (·.command)) := by
  have days := daysSince?_eq hlast hnow start near.near
  have answered : t.Answered a b := fun _ _ _ => ⟨a, looked_first near finish⟩
  obtain ⟨found, finds, crossed⟩ :=
    crossed?_finds days regular.absolute (regular.apart start) answered
  have seen := regular.seen monotone hlast hnow finish
  exact ⟨found, (finds.fires_iff start regular.absolute answered).mpr seen, crossed⟩

/-- A look at a timer finds each event at its instants on the days that are looked at, if no daily
event has an instant twice. It gives no answer if an event is not daily and no day is looked at. So
it gives what comes about between the two looks if all instants of daily events are seen, and only
then. -/
theorem crossed?_exact (hlast : r.dateOf? last = some a) (hnow : r.dateOf? now = some b)
    (start : Date.first ≤ a) (near : b ≤ a.plus 1) (fixed : t.Fixed r)
    (apart : t.Apart r last now (a.daysFrom b)) :
    (t.crossed? r last now = none ↔ ¬t.Answered a b) ∧
      (t.Answered a b → ∃ found, t.Finds r last now a b found ∧
        t.crossed? r last now = some (found.map (·.command))) ∧
      ((∃ fired, t.Fires r last now fired ∧ t.crossed? r last now = some (fired.map (·.command))) ↔
        t.Answered a b ∧ t.Seen r last now a b) := by
  have days := daysSince?_eq hlast hnow start near
  have finds := crossed?_finds days fixed apart
  have none : t.crossed? r last now = none ↔ ¬t.Answered a b := by
    refine ⟨fun nothing answered => ?_, crossed?_unanswered days⟩
    obtain ⟨found, -, crossed⟩ := finds answered
    rw [nothing] at crossed
    cases crossed
  refine ⟨none, finds, ?_, ?_⟩
  · rintro ⟨fired, fires, crossed⟩
    have answered : t.Answered a b := not_not.mp fun no => by
      rw [none.mpr no] at crossed
      cases crossed
    obtain ⟨found, own, crossed'⟩ := finds answered
    -- As many commands are given as come about, so none of them is missed.
    have length : fired.length = found.length := by
      have same := Option.some.inj (crossed.symm.trans crossed')
      simpa only [List.length_map] using congrArg List.length same
    have unique : found.Nodup := own.inOrder.imp Firing.Before.ne
    have all : found.Perm fired :=
      (List.Nodup.subperm unique (own.subset fires start)).perm_of_length_le length.le
    have found_fires : t.Fires r last now found :=
      ⟨own.inOrder, fun x => all.mem_iff.trans (fires.exact x)⟩
    exact ⟨answered, (own.fires_iff start fixed answered).mp found_fires⟩
  · rintro ⟨answered, seen⟩
    obtain ⟨found, own, crossed⟩ := finds answered
    exact ⟨found, (own.fires_iff start fixed answered).mpr seen, crossed⟩

def evenSun : Resolver where
  resolveOn
    | .clock time, day => .ok ⟨day.day * 86400 + time.seconds, time.nanos⟩
    | .solar _ offset, day => .ok (Instant.plusNanos ⟨day.day * 86400 + 64800, 0⟩ offset)
    | .absolute i, _ => .ok i
  dateOf? := Zone.utc.dateOf?

theorem evenSun_solar {event : SunEvent} {hours : Int} {day : Date} {i : Instant} :
    evenSun.resolveOn (.solar event (hours * 3600000000000)) day = .ok i ↔
      i = ⟨day.day * 86400 + 64800 + hours * 3600, 0⟩ := by
  have later : Instant.plusNanos ⟨day.day * 86400 + 64800, 0⟩ (hours * 3600000000000) =
      ⟨day.day * 86400 + 64800 + hours * 3600, 0⟩ := by
    simp only [Instant.plusNanos, Instant.mk.injEq]
    omega
  rw [← later, eq_comm]
  exact Iff.of_eq (Except.ok.injEq ..)

def dusk : TimerDef :=
  ⟨"dusk", none, false,
    [(.solar .sunset (1 * 3600000000000), "set lamp on"), (.absolute ⟨70000, 0⟩, "do feast")]⟩

theorem crossed?_exact_dusk :
    let last : Instant := ⟨61200, 0⟩
    let now : Instant := ⟨72000, 0⟩
    evenSun.dateOf? last = some ⟨0⟩ ∧ evenSun.dateOf? now = some ⟨0⟩ ∧ Date.first ≤ ⟨0⟩ ∧
      (⟨0⟩ : Date) ≤ Date.plus ⟨0⟩ 1 ∧ dusk.Fixed evenSun ∧
      dusk.Apart evenSun last now (Date.daysFrom ⟨0⟩ ⟨0⟩) ∧
      (∃ fired, dusk.Fires evenSun last now fired ∧
        dusk.crossed? evenSun last now = some (fired.map (·.command))) ∧
      dusk.crossed? evenSun last now = some ["set lamp on", "do feast"] := by
  intro last now
  have fixed : dusk.Fixed evenSun := by
    rintro e own i spec day
    rw [spec]
    rfl
  have apart : dusk.Apart evenSun last now (Date.daysFrom ⟨0⟩ ⟨0⟩) := by
    intro e _ _ day among other also _ _ _ _ _
    cases List.mem_singleton.mp (show day ∈ [(⟨0⟩ : Date)] from among)
    cases List.mem_singleton.mp (show other ∈ [(⟨0⟩ : Date)] from also)
    rfl
  have today : Looked ⟨0⟩ ⟨0⟩ ⟨0⟩ := ⟨⟨by decide, by decide⟩, by decide⟩
  have seen : dusk.Seen evenSun last now ⟨0⟩ ⟨0⟩ := by
    rintro e own daily i ⟨day, -, resolved⟩ after before
    simp only [dusk, List.mem_cons, List.not_mem_nil, or_false] at own
    rcases own with rfl | rfl
    · have when := evenSun_solar.mp resolved
      refine ⟨day, ⟨⟨?_, ?_⟩, ?_⟩, resolved⟩ <;>
        simp only [when, last, now, Date.le_iff, Date.lt_iff, Date.last, Instant.le_iff,
          Instant.lt_iff] at * <;> omega
    · cases daily
  have exact := crossed?_exact rfl rfl (by decide) (by decide) fixed apart
  exact ⟨rfl, rfl, by decide, by decide, fixed, apart,
    exact.2.2.mpr ⟨fun _ _ _ => ⟨_, today⟩, seen⟩, by decide +kernel⟩

def dawn : TimerDef :=
  ⟨"dawn", none, false, [(.solar .sunset (12 * 3600000000000), "set lamp on")]⟩

/-- Looks at five and at seven in the morning miss what comes about at six, twelve hours after the
sunset of the day before. -/
theorem crossed?_misses_the_day_before :
    let last : Instant := ⟨104400, 0⟩
    let now : Instant := ⟨111600, 0⟩
    last < now ∧ evenSun.dateOf? last = some ⟨1⟩ ∧ evenSun.dateOf? now = some ⟨1⟩ ∧
      dawn.events.map (·.1) = (TimeSpec.parse? "sunset+12h").toList ∧
      dawn.Fires evenSun last now [⟨⟨108000, 0⟩, 0, "set lamp on"⟩] ∧
      dawn.crossed? evenSun last now = some [] := by
  intro last now
  refine ⟨by decide, rfl, rfl, by decide +kernel, ⟨List.pairwise_singleton _ _, ?_⟩,
    by decide +kernel⟩
  rintro ⟨time, event, command⟩
  rw [List.mem_singleton]
  constructor
  · intro same
    cases same
    exact ⟨_, rfl, ⟨⟨0⟩, by decide, evenSun_solar.mpr rfl⟩, by decide, by decide⟩
  · rintro ⟨spec, own, ⟨day, -, resolved⟩, after, before⟩
    cases event with
    | zero =>
      cases own
      rw [evenSun_solar] at resolved
      subst resolved
      have here : day.day = 0 := by
        simp only [last, now, Instant.le_iff, Instant.lt_iff] at after before
        omega
      rw [here]
      rfl
    | succ event => cases own

end TimerDef

end HomeControl
