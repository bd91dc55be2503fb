import HomeControl.Proofs.Schedule.Looks
/-!
The command of a strict timer. It is that of the latest instant at which an event of the timer has come
about on any day up to now, although only the instants of two days are looked at: those of the day before
are later than all older ones.
-/

namespace HomeControl

namespace TimerDef

variable {events : List (TimeSpec × String)} {r : Resolver} {now : Instant} {today : Date}

def Past (events : List (TimeSpec × String)) (r : Resolver) (now : Instant) (x : Firing) : Prop :=
  ∃ spec, events[x.event]? = some (spec, x.command) ∧ r.Occurs spec x.time ∧ x.time ≤ now

/-- What came about last up to now, over all days; at one instant the last event of the timer counts. -/
structure Latest (events : List (TimeSpec × String)) (r : Resolver) (now : Instant) (x : Firing) :
    Prop where
  past : Past events r now x
  last : ∀ y, Past events r now y → y = x ∨ y.Before x

theorem Latest.unique {x y : Firing} (hx : Latest events r now x) (hy : Latest events r now y) :
    x = y := by
  rcases hy.last x hx.past with same | first
  · exact same
  · rcases hx.last y hy.past with same | second
    · exact same.symm
    · exact absurd rfl (first.trans second).ne

theorem latest?_concat (front : List (Instant × String)) (x : Instant × String) :
    latest? (front ++ [x]) =
      match latest? front with
      | some best => if x.1 < best.1 then some best else some x
      | none => some x := by
  rw [latest?, List.foldl_concat]
  rfl

theorem latest?_firings {found : List Firing}
    (ordered : found.Pairwise fun x y => x.time = y.time → x.event < y.event) :
    (found = [] ∧ latest? (found.map Firing.entry) = none) ∨
      ∃ x ∈ found, latest? (found.map Firing.entry) = some x.entry ∧
        ∀ y ∈ found, y = x ∨ y.Before x := by
  induction found using List.reverseRecOn with
  | nil => exact Or.inl ⟨rfl, rfl⟩
  | append_singleton front y ih =>
    right
    obtain ⟨ordered, -, last⟩ := List.pairwise_append.mp ordered
    rw [List.map_append, List.map_singleton, latest?_concat]
    rcases ih ordered with ⟨rfl, none⟩ | ⟨x, inside, best, most⟩
    · refine ⟨y, List.mem_singleton.mpr rfl, rfl, ?_⟩
      intro z among
      exact Or.inl (List.mem_singleton.mp among)
    · rw [best]
      dsimp only
      split
      · rename_i earlier
        refine ⟨x, List.mem_append_left _ inside, rfl, ?_⟩
        intro z among
        rcases List.mem_append.mp among with among | among
        · exact most z among
        · rw [List.mem_singleton.mp among]
          exact Or.inr (Or.inl earlier)
      · rename_i notEarlier
        have behind : x.Before y := by
          rcases lt_or_eq_of_le (not_lt.mp notEarlier) with before | same
          · exact Or.inl before
          · exact Or.inr ⟨same, last x inside y (List.mem_singleton.mpr rfl) same⟩
        refine ⟨y, List.mem_append_right _ (List.mem_singleton.mpr rfl), rfl, ?_⟩
        intro z among
        rcases List.mem_append.mp among with among | among
        · rcases most z among with rfl | before
          · exact Or.inr behind
          · exact Or.inr (before.trans behind)
        · exact Or.inl (List.mem_singleton.mp among)

def foundOn? (r : Resolver) (day : Date) (e : (TimeSpec × String) × Nat) : Option Firing :=
  match r.resolveOn e.1.1 day with
  | .ok i => some ⟨i, e.2, e.1.2⟩
  | .error _ => none

def foundOn (events : List (TimeSpec × String)) (r : Resolver) (day : Date) : List Firing :=
  events.zipIdx.filterMap (foundOn? r day)

theorem foundOn?_eq_some {day : Date} {e : (TimeSpec × String) × Nat} {x : Firing} :
    foundOn? r day e = some x ↔
      x.event = e.2 ∧ x.command = e.1.2 ∧ r.resolveOn e.1.1 day = .ok x.time := by
  obtain ⟨time, event, command⟩ := x
  unfold foundOn?
  cases r.resolveOn e.1.1 day with
  | error _ => simp
  | ok i =>
    simp only [Option.some.injEq, Firing.mk.injEq, Except.ok.injEq]
    constructor
    · rintro ⟨rfl, rfl, rfl⟩
      exact ⟨rfl, rfl, rfl⟩
    · rintro ⟨rfl, rfl, rfl⟩
      exact ⟨rfl, rfl, rfl⟩

theorem mem_foundOn {day : Date} {x : Firing} :
    x ∈ foundOn events r day ↔
      ∃ spec, events[x.event]? = some (spec, x.command) ∧ r.resolveOn spec day = .ok x.time := by
  simp only [foundOn, List.mem_filterMap, foundOn?_eq_some]
  constructor
  · rintro ⟨⟨⟨spec, command⟩, k⟩, inside, rfl, same, resolved⟩
    exact ⟨spec, by rw [List.mk_mem_zipIdx_iff_getElem?.mp inside, same], resolved⟩
  · rintro ⟨spec, here, resolved⟩
    exact ⟨((spec, x.command), x.event), List.mk_mem_zipIdx_iff_getElem?.mpr here, rfl, rfl,
      resolved⟩

theorem foundOn_entries (events : List (TimeSpec × String)) (r : Resolver) (day : Date) :
    (foundOn events r day).map Firing.entry = onDay r events day := by
  have each : ∀ e : (TimeSpec × String) × Nat, (foundOn? r day e).map Firing.entry =
      (match r.resolveOn e.1.1 day with
        | .ok i => some (i, e.1.2)
        | .error _ => none) := by
    intro e
    unfold foundOn?
    cases r.resolveOn e.1.1 day with
    | error _ => rfl
    | ok i => rfl
  rw [foundOn, List.map_filterMap, onDay]
  conv_rhs => rw [← List.zipIdx_map_fst 0 events, List.filterMap_map]
  exact List.filterMap_congr fun e _ => each e

theorem foundOn_increasing (events : List (TimeSpec × String)) (r : Resolver) (day : Date) :
    (foundOn events r day).Pairwise fun x y => x.event < y.event := by
  refine List.pairwise_filterMap.mpr ((zipIdx_increasing events).imp ?_)
  intro e e' before x hx y hy
  rw [(foundOn?_eq_some.mp hx).1, (foundOn?_eq_some.mp hy).1]
  exact before

def looked (events : List (TimeSpec × String)) (r : Resolver) (now : Instant) (today : Date) :
    List Firing :=
  (foundOn events r (today.plus (-1)) ++ foundOn events r today).filter (·.time ≤ now)

theorem selectCurrent_eq (hnow : r.dateOf? now = some today) (later : Date.first < today) :
    selectCurrent events r now =
      (latest? ((looked events r now today).map Firing.entry)).map (·.2) := by
  have days : recentDays? r now = some [today.plus (-1), today] := by
    simp only [recentDays?, hnow, Option.map_some, Date.previous?, if_pos later]
  have entries : ((today.plus (-1) :: [today]).flatMap (onDay r events)).filter
      (fun c => decide (c.1 ≤ now)) = (looked events r now today).map Firing.entry := by
    rw [looked, List.flatMap_cons, List.flatMap_singleton, ← foundOn_entries, ← foundOn_entries,
      ← List.map_append, List.filter_map]
    rfl
  simp only [selectCurrent, days, Option.bind_eq_bind, Option.bind_some, entries]

/-- Whenever an event of a timer comes about, it does so on the day that is asked for; and each event
does so on the day before. -/
structure Recurs (events : List (TimeSpec × String)) (r : Resolver) (today : Date) : Prop where
  shown : ∀ e ∈ events, ∀ day i, day.inCalendar = true → r.resolveOn e.1 day = .ok i →
    r.dateOf? i = some day
  before : ∀ e ∈ events, ∃ i, r.resolveOn e.1 (today.plus (-1)) = .ok i

theorem first_lt (known : today.inCalendar = true) (later : today ≠ Date.first) :
    Date.first < today := by
  rw [Date.inCalendar_iff] at known
  rw [ne_eq, Date.ext_iff] at later
  simp only [Date.le_iff, Date.lt_iff] at *
  omega

theorem yesterday_known (known : today.inCalendar = true) (later : Date.first < today) :
    (today.plus (-1)).inCalendar = true := by
  rw [Date.inCalendar_iff] at *
  simp only [Date.le_iff, Date.lt_iff, Date.plus] at *
  omega

theorem yesterday_lt : today.plus (-1) < today := by
  simp only [Date.lt_iff, Date.plus]
  omega

theorem looked_ordered (recurs : Recurs events r today) (known : today.inCalendar = true)
    (later : Date.first < today) :
    (looked events r now today).Pairwise fun x y => x.time = y.time → x.event < y.event := by
  refine List.Pairwise.filter _ (List.pairwise_append.mpr ⟨?_, ?_, ?_⟩)
  · exact (foundOn_increasing events r _).imp fun before => fun _ => before
  · exact (foundOn_increasing events r _).imp fun before => fun _ => before
  · -- What comes about on different days does so at different times.
    intro x hx y hy same
    obtain ⟨spec, here, resolved⟩ := mem_foundOn.mp hx
    obtain ⟨spec', here', resolved'⟩ := mem_foundOn.mp hy
    have shown := recurs.shown _ (List.mem_of_getElem? here) _ _ (yesterday_known known later)
      resolved
    have shown' := recurs.shown _ (List.mem_of_getElem? here') _ _ known resolved'
    rw [same, shown', Option.some.injEq] at shown
    have apart : today.plus (-1) < today := yesterday_lt
    rw [← shown, Date.lt_iff] at apart
    omega

theorem mem_looked {x : Firing} :
    x ∈ looked events r now today ↔ (∃ spec, events[x.event]? = some (spec, x.command) ∧
      ∃ day, (day = today.plus (-1) ∨ day = today) ∧ r.resolveOn spec day = .ok x.time) ∧
        x.time ≤ now := by
  simp only [looked, List.mem_filter, List.mem_append, mem_foundOn, decide_eq_true_eq]
  refine and_congr_left fun _ => ?_
  constructor
  · rintro (⟨spec, here, resolved⟩ | ⟨spec, here, resolved⟩)
    · exact ⟨spec, here, _, Or.inl rfl, resolved⟩
    · exact ⟨spec, here, _, Or.inr rfl, resolved⟩
  · rintro ⟨spec, here, day, rfl | rfl, resolved⟩
    · exact Or.inl ⟨spec, here, resolved⟩
    · exact Or.inr ⟨spec, here, resolved⟩

theorem later_looked (recurs : Recurs events r today) (monotone : r.Monotone)
    (hnow : r.dateOf? now = some today) (known : today.inCalendar = true)
    (later : Date.first < today) {y : Firing} (past : Past events r now y) :
    y ∈ looked events r now today ∨ ∃ z ∈ looked events r now today, y.Before z := by
  obtain ⟨spec, here, ⟨day, own, resolved⟩, come⟩ := past
  have inside := List.mem_of_getElem? here
  have shown := recurs.shown _ inside day _ own resolved
  have early := monotone _ _ _ _ come shown hnow
  by_cases recent : day = today.plus (-1) ∨ day = today
  · exact Or.inl (mem_looked.mpr ⟨⟨spec, here, day, recent, resolved⟩, come⟩)
  · right
    obtain ⟨i, again⟩ := recurs.before _ inside
    have shown' := recurs.shown _ inside _ i (yesterday_known known later) again
    have older : day < today.plus (-1) := by
      simp only [Date.ext_iff, Date.le_iff, Date.lt_iff, Date.plus] at *
      omega
    refine ⟨⟨i, y.event, y.command⟩, mem_looked.mpr ⟨⟨spec, here, _, Or.inl rfl, again⟩, ?_⟩, ?_⟩
    · exact le_of_lt (monotone.lt shown' hnow yesterday_lt)
    · exact Or.inl (monotone.lt shown shown' older)

theorem looked_past (known : today.inCalendar = true) (later : Date.first < today) {x : Firing}
    (inside : x ∈ looked events r now today) : Past events r now x := by
  obtain ⟨⟨spec, here, day, recent, resolved⟩, come⟩ := mem_looked.mp inside
  refine ⟨spec, here, ⟨day, ?_, resolved⟩, come⟩
  rcases recent with rfl | rfl
  · exact yesterday_known known later
  · exact known

/-- Of events that come about on each day, the command is that of the one whose instant is the latest up
to now over all days, and of those at one instant that of the last in the timer. There is no command only
if there are no events. It is enough that instants lie on the day that is asked for, and that each event
comes about on the day before. -/
theorem selectCurrent_latest (recurs : Recurs events r today) (monotone : r.Monotone)
    (hnow : r.dateOf? now = some today) (known : today.inCalendar = true)
    (later : today ≠ Date.first) :
    (∀ command, selectCurrent events r now = some command ↔
        ∃ x, Latest events r now x ∧ x.command = command) ∧
      (selectCurrent events r now = none ↔ events = []) := by
  have later := first_lt known later
  rw [selectCurrent_eq hnow later]
  have ordered : (looked events r now today).Pairwise fun x y => x.time = y.time → x.event < y.event :=
    looked_ordered recurs known later
  rcases latest?_firings ordered with ⟨nothing, none⟩ | ⟨x, inside, best, most⟩
  · have empty : events = [] := by
      refine List.eq_nil_iff_forall_not_mem.mpr ?_
      intro e own
      obtain ⟨k, here⟩ := List.getElem?_of_mem own
      obtain ⟨i, resolved⟩ := recurs.before e own
      have shown := recurs.shown e own _ i (yesterday_known known later) resolved
      have found : (⟨i, k, e.2⟩ : Firing) ∈ looked events r now today :=
        mem_looked.mpr ⟨⟨e.1, here, _, Or.inl rfl, resolved⟩,
          le_of_lt (monotone.lt shown hnow yesterday_lt)⟩
      rw [nothing] at found
      exact List.not_mem_nil found
    rw [none]
    constructor
    · intro command
      constructor
      · intro some
        cases some
      · rintro ⟨x, ⟨⟨spec, here, -⟩, -⟩, -⟩
        simp [empty] at here
    · exact ⟨fun _ => empty, fun _ => rfl⟩
  · have latest : Latest events r now x := by
      refine ⟨looked_past known later inside, ?_⟩
      intro y past
      rcases later_looked recurs monotone hnow known later past with among | ⟨z, among, before⟩
      · exact most y among
      · rcases most z among with rfl | behind
        · exact Or.inr before
        · exact Or.inr (before.trans behind)
    rw [best]
    constructor
    · intro command
      constructor
      · intro same
        exact ⟨x, latest, Option.some.inj same⟩
      · rintro ⟨y, other, rfl⟩
        rw [other.unique latest]
        rfl
    · constructor
      · intro none
        cases none
      · intro empty
        obtain ⟨spec, here, -⟩ := latest.past
        simp [empty] at here

theorem evenSun_monotone : evenSun.Monotone :=
  Resolver.monotone_of_fixed (show Zone.utc.summer = none from rfl) rfl

theorem evenSun_shown {day : Date} {second : Int} {nanos : Nat} (known : day.inCalendar = true)
    (start : 0 ≤ second) (short : second < 86400) :
    evenSun.dateOf? ⟨day.day * 86400 + second, nanos⟩ = some day := by
  have here : Instant.dateAt ⟨day.day * 86400 + second, nanos⟩ 0 = day := by
    simp only [Instant.dateAt, Date.ext_iff]
    omega
  exact (Resolver.utc_dateOf? _).trans (by rw [here, if_pos known])

theorem evenSun_clock {time : TimeOfDay} {day : Date} {i : Instant} :
    evenSun.resolveOn (.clock time) day = .ok i ↔ i = ⟨day.day * 86400 + time.seconds, time.nanos⟩ := by
  rw [eq_comm]
  exact Iff.of_eq (Except.ok.injEq ..)

def evening : List (TimeSpec × String) :=
  [(.clock ⟨64800, 0⟩, "set lamp on"), (.solar .sunset (0 * 3600000000000), "set lamp 50"),
    (.clock ⟨25200, 0⟩, "set lamp off")]

theorem evening_recurs (today : Date) : Recurs evening evenSun today where
  shown e own day i known resolved := by
    simp only [evening, List.mem_cons, List.not_mem_nil, or_false] at own
    rcases own with rfl | rfl | rfl
    · rw [evenSun_clock.mp resolved]
      exact evenSun_shown known (by decide) (by decide)
    · rw [evenSun_solar.mp resolved, Int.add_assoc]
      exact evenSun_shown known (by decide) (by decide)
    · rw [evenSun_clock.mp resolved]
      exact evenSun_shown known (by decide) (by decide)
  before e own := by
    simp only [evening, List.mem_cons, List.not_mem_nil, or_false] at own
    rcases own with rfl | rfl | rfl
    · exact ⟨_, evenSun_clock.mpr rfl⟩
    · exact ⟨_, evenSun_solar.mpr rfl⟩
    · exact ⟨_, evenSun_clock.mpr rfl⟩

/-- At three in the morning the lamp is as the sun left it the evening before. -/
theorem selectCurrent_latest_evening :
    let now : Instant := ⟨97200, 0⟩
    Recurs evening evenSun ⟨1⟩ ∧ evenSun.Monotone ∧ evenSun.dateOf? now = some ⟨1⟩ ∧
      Date.inCalendar ⟨1⟩ = true ∧ (⟨1⟩ : Date) ≠ Date.first ∧
      (∃ x, Latest evening evenSun now x ∧ x.command = "set lamp 50") ∧
      selectCurrent evening evenSun now = some "set lamp 50" := by
  intro now
  have current : selectCurrent evening evenSun now = some "set lamp 50" := by decide +kernel
  obtain ⟨chosen, -⟩ := selectCurrent_latest (evening_recurs ⟨1⟩) evenSun_monotone
    (show evenSun.dateOf? now = some ⟨1⟩ from rfl) (by decide) (by decide)
  exact ⟨evening_recurs ⟨1⟩, evenSun_monotone, rfl, by decide, by decide,
    (chosen _).mp current, current⟩

end TimerDef

end HomeControl
