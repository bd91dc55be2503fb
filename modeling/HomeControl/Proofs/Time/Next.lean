import HomeControl.Proofs.Schedule.Looks
/-!
When a daily time comes next. The instant that is answered is the one of the day or of the day after it.
This is the first one to come as long as offsets from sun events leave instants on their days. An offset
can put the instant of an earlier day off past now, so that one is missed; and it can put the instant of
the next day back before now, so that what is answered is over.
-/

namespace HomeControl

namespace Instant

theorem plusNanos_lt {a b : Instant} (n : Int) (ha : a.nanos < 1000000000)
    (hb : b.nanos < 1000000000) (before : a < b) : a.plusNanos n < b.plusNanos n := by
  simp only [lt_iff, plusNanos] at *
  omega

theorem le_plusNanos {a : Instant} {n : Int} (ha : a.nanos < 1000000000) (later : 0 ≤ n) :
    a ≤ a.plusNanos n := by
  simp only [le_iff, lt_iff, plusNanos]
  omega

theorem plusNanos_le {a : Instant} {n : Int} (ha : a.nanos < 1000000000) (earlier : n ≤ 0) :
    a.plusNanos n ≤ a := by
  simp only [le_iff, lt_iff, plusNanos]
  omega

end Instant

namespace TimeSpec

def offset : TimeSpec → Int
  | solar _ offset => offset
  | _ => 0

/-- An instant is what a time means where the time of day or the sun event that it names is at another
one, the base. -/
def PutsOff : TimeSpec → Instant → Instant → Prop
  | solar _ offset, base, i => base.nanos < 1000000000 ∧ i = base.plusNanos offset
  | _, base, i => i = base

variable {spec : TimeSpec} {base i : Instant}

theorem PutsOff.lt {base' i' : Instant} (h : spec.PutsOff base i) (h' : spec.PutsOff base' i')
    (before : base < base') : i < i' := by
  cases spec with
  | solar event offset =>
    obtain ⟨whole, rfl⟩ := h
    obtain ⟨whole', rfl⟩ := h'
    exact Instant.plusNanos_lt offset whole whole' before
  | clock time =>
    cases h
    cases h'
    exact before
  | absolute j =>
    cases h
    cases h'
    exact before

theorem PutsOff.base_le (h : spec.PutsOff base i) (later : 0 ≤ spec.offset) : base ≤ i := by
  cases spec with
  | solar event offset =>
    obtain ⟨whole, rfl⟩ := h
    exact Instant.le_plusNanos whole later
  | clock time => exact le_of_eq h.symm
  | absolute j => exact le_of_eq h.symm

theorem PutsOff.le_base (h : spec.PutsOff base i) (earlier : spec.offset ≤ 0) : i ≤ base := by
  cases spec with
  | solar event offset =>
    obtain ⟨whole, rfl⟩ := h
    exact Instant.plusNanos_le whole earlier
  | clock time => exact le_of_eq h
  | absolute j => exact le_of_eq h

end TimeSpec

namespace Resolver

variable {r : Resolver} {spec : TimeSpec} {now t : Instant} {today : Date}

/-- On each day that a time means something, what it names is on that very day. -/
def Grounded (r : Resolver) (spec : TimeSpec) : Prop :=
  ∀ day i, day.inCalendar = true → r.resolveOn spec day = .ok i →
    ∃ base, r.dateOf? base = some day ∧ spec.PutsOff base i

/-- The first instant after now that a time means on any day. -/
structure First (r : Resolver) (spec : TimeSpec) (now t : Instant) : Prop where
  occurs : r.Occurs spec t
  after : now < t
  first : ∀ i, r.Occurs spec i → ¬(now < i ∧ i < t)

/-- What a time means on the days before a day is over. -/
def Over (r : Resolver) (spec : TimeSpec) (day : Date) (now : Instant) : Prop :=
  ∀ earlier i, earlier.inCalendar = true → earlier < day → r.resolveOn spec earlier = .ok i → i ≤ now

/-- A daily time is looked up on the day of now, and if that is over on the next day. -/
theorem nextAfter_cases (daily : spec.isDaily = true) (hnow : r.dateOf? now = some today)
    (next : r.nextAfter spec now = .ok t) :
    (r.resolveOn spec today = .ok t ∧ now < t) ∨
      ∃ i, r.resolveOn spec today = .ok i ∧ i ≤ now ∧ today < Date.last ∧
        r.resolveOn spec (today.plus 1) = .ok t := by
  unfold nextAfter at next
  split at next
  · cases daily
  · rw [hnow] at next
    dsimp only at next
    cases resolved : r.resolveOn spec today with
    | error e =>
      rw [resolved] at next
      cases next
    | ok i =>
      rw [resolved] at next
      by_cases later : now < i
      · left
        have same : Except.ok i = Except.ok t := (if_pos later).symm.trans next
        cases same
        exact ⟨rfl, later⟩
      · right
        have gone := (if_neg later).symm.trans next
        by_cases more : today < Date.last
        · rw [Date.next?, if_pos more] at gone
          exact ⟨i, rfl, not_lt.mp later, more, gone⟩
        · rw [Date.next?, if_neg more] at gone
          cases gone

theorem Grounded.lt (grounded : r.Grounded spec) (monotone : r.Monotone) {a b : Date}
    {i j : Instant} (known : a.inCalendar = true) (known' : b.inCalendar = true) (before : a < b)
    (hi : r.resolveOn spec a = .ok i) (hj : r.resolveOn spec b = .ok j) : i < j := by
  obtain ⟨base, shown, put⟩ := grounded a i known hi
  obtain ⟨base', shown', put'⟩ := grounded b j known' hj
  exact put.lt put' (monotone.lt shown shown' before)

theorem Grounded.first_of_over (grounded : r.Grounded spec) (monotone : r.Monotone) {day : Date}
    (known : day.inCalendar = true) (resolved : r.resolveOn spec day = .ok t) (after : now < t)
    (gone : r.Over spec day now) : r.First spec now t := by
  refine ⟨⟨day, known, resolved⟩, after, ?_⟩
  rintro i ⟨other, own, found⟩ ⟨later, sooner⟩
  rcases lt_trichotomy other.day day.day with before | same | behind
  · exact absurd (gone other i own before found) (not_le.mpr later)
  · rw [(Date.ext_iff other day).mpr same, resolved] at found
    cases found
    exact absurd sooner (lt_irrefl _)
  · have back := grounded.lt monotone known own behind resolved found
    exact absurd sooner (not_lt.mpr (le_of_lt back))

theorem Grounded.over_next (grounded : r.Grounded spec) (monotone : r.Monotone) {day : Date}
    (known : day.inCalendar = true) {i : Instant} (resolved : r.resolveOn spec day = .ok i)
    (gone : i ≤ now) : r.Over spec (day.plus 1) now := by
  intro earlier j own before found
  by_cases same : earlier = day
  · rw [same, resolved] at found
    cases found
    exact gone
  · have sooner : earlier < day := by
      simp only [Date.ext_iff, Date.lt_iff, Date.plus] at *
      omega
    exact (le_of_lt (grounded.lt monotone own known sooner found resolved)).trans gone

/-- The next instant that a daily time means is answered if and only if the answer is after now and what
the time means on earlier days is over. The answer can be before now only if the time is put back from a
sun event, and something of an earlier day can be still to come only if it is put off from one. -/
theorem nextAfter_first_iff (daily : spec.isDaily = true) (grounded : r.Grounded spec)
    (monotone : r.Monotone) (hnow : r.dateOf? now = some today) (known : today.inCalendar = true)
    (next : r.nextAfter spec now = .ok t) :
    (r.First spec now t ↔ now < t ∧ r.Over spec today now) ∧
      (0 ≤ spec.offset → now < t) ∧ (spec.offset ≤ 0 → r.Over spec today now) := by
  have kept : spec.offset ≤ 0 → r.Over spec today now := by
    intro back earlier i own before resolved
    obtain ⟨base, shown, put⟩ := grounded earlier i own resolved
    exact (put.le_base back).trans (le_of_lt (monotone.lt shown hnow before))
  rcases nextAfter_cases daily hnow next with ⟨resolved, after⟩ | ⟨i, resolved, past, more, tomorrow⟩
  · refine ⟨?_, fun _ => after, kept⟩
    constructor
    · intro first
      refine ⟨after, ?_⟩
      intro earlier i own before found
      have sooner : i < t := grounded.lt monotone own known before found resolved
      by_contra late
      exact first.first i ⟨earlier, own, found⟩ ⟨not_le.mp late, sooner⟩
    · rintro ⟨-, gone⟩
      exact grounded.first_of_over monotone known resolved after gone
  · have known' : (today.plus 1).inCalendar = true := by
      rw [Date.inCalendar_iff] at *
      simp only [Date.le_iff, Date.lt_iff, Date.plus] at *
      omega
    have follows : today < today.plus 1 := by
      simp only [Date.lt_iff, Date.plus]
      omega
    have gone := grounded.over_next monotone known resolved past
    refine ⟨?_, ?_, kept⟩
    · constructor
      · intro first
        refine ⟨first.after, ?_⟩
        intro earlier j own before found
        exact gone earlier j own (Int.lt_trans before follows) found
      · rintro ⟨after, -⟩
        exact grounded.first_of_over monotone known' tomorrow after gone
    · intro off
      obtain ⟨base, shown, put⟩ := grounded (today.plus 1) t known' tomorrow
      exact lt_of_lt_of_le (monotone.lt hnow shown follows) (put.base_le off)

def ofSun (zone : Zone) (sun : SunEvent → Date → Except TimeError Instant) : Resolver where
  resolveOn
    | .absolute i, _ => .ok i
    | .clock time, day =>
      match zone.instant? ⟨day, time⟩ with
      | some i => .ok i
      | none => .error (.skipped ⟨day, time⟩)
    | .solar event offset, day =>
      match sun event day with
      | .ok base =>
        if (base.plusNanos offset).inCalendar then .ok (base.plusNanos offset)
        else .error (.invalid (TimeSpec.solar event offset).text)
      | .error e => .error e
  dateOf? := zone.dateOf?

theorem resolver_eq_ofSun (p : Place) : p.resolver = ofSun p.zone p.sunTime := by
  have same : p.resolveOn = (ofSun p.zone p.sunTime).resolveOn := by
    funext spec day
    cases spec with
    | absolute i => rfl
    | clock time => rfl
    | solar event offset =>
      simp only [Place.resolveOn, ofSun]
      cases p.sunTime event day <;> rfl
  exact congrArg (fun f => (⟨f, p.zone.dateOf?⟩ : Resolver)) same

theorem instant?_fixed {zone : Zone} (fixed : zone.summer = none) (l : LocalTime) :
    zone.instant? l =
      if (l.instant zone.offset).inCalendar then some (l.instant zone.offset) else none := by
  simp only [Zone.instant?, Zone.offsetFor?, fixed]
  rfl

theorem dateAt_local {day : Date} {time : TimeOfDay} (short : time.seconds < 86400) (ahead : Int) :
    (LocalTime.instant ⟨day, time⟩ ahead).dateAt ahead = day := by
  simp only [LocalTime.instant, LocalTime.seconds, Instant.dateAt, Date.ext_iff]
  omega

theorem ofSun_clock {zone : Zone} {sun : SunEvent → Date → Except TimeError Instant}
    {time : TimeOfDay} {day : Date} {i : Instant} :
    (ofSun zone sun).resolveOn (.clock time) day = .ok i ↔ zone.instant? ⟨day, time⟩ = some i := by
  simp only [ofSun]
  cases zone.instant? ⟨day, time⟩ with
  | none => simp
  | some j => simp

theorem ofSun_solar {zone : Zone} {sun : SunEvent → Date → Except TimeError Instant}
    {event : SunEvent} {offset : Int} {day : Date} {i : Instant} :
    (ofSun zone sun).resolveOn (.solar event offset) day = .ok i ↔
      ∃ base, sun event day = .ok base ∧ i = base.plusNanos offset ∧ i.inCalendar = true := by
  simp only [ofSun]
  cases sun event day with
  | error e => simp
  | ok base =>
    simp only [Except.ok.injEq, exists_eq_left']
    split
    · rename_i known
      rw [Except.ok.injEq]
      constructor
      · rintro rfl
        exact ⟨rfl, known⟩
      · rintro ⟨rfl, -⟩
        rfl
    · rename_i unknown
      constructor
      · intro none
        cases none
      · rintro ⟨rfl, known⟩
        exact absurd known unknown

/-- Where it is never summer, a time of day is on the day that is asked for; so times are grounded if the
sun events of each day are on that day. -/
theorem ofSun_grounded {zone : Zone} {sun : SunEvent → Date → Except TimeError Instant}
    (fixed : zone.summer = none)
    (own : ∀ event day i, day.inCalendar = true → sun event day = .ok i →
      zone.dateOf? i = some day ∧ i.nanos < 1000000000)
    (daily : spec.isDaily = true) (short : ∀ time, spec = .clock time → time.seconds < 86400) :
    (ofSun zone sun).Grounded spec := by
  intro day i known resolved
  cases spec with
  | absolute j => cases daily
  | clock time =>
    refine ⟨i, ?_, rfl⟩
    have found := ofSun_clock.mp resolved
    rw [instant?_fixed fixed, Option.ite_none_right_eq_some, Option.some.injEq] at found
    obtain ⟨-, rfl⟩ := found
    show zone.dateOf? _ = _
    rw [dateOf?_fixed fixed, dateAt_local (short time rfl), if_pos known]
  | solar event offset =>
    obtain ⟨base, found, same, -⟩ := ofSun_solar.mp resolved
    obtain ⟨shown, whole⟩ := own event day base known found
    exact ⟨base, shown, whole, same⟩

def atSix : Resolver :=
  ofSun .utc fun _ day => .ok ⟨day.day * 86400 + 64800, 0⟩

theorem atSix_solar {event : SunEvent} {hours : Int} {day : Date} {i : Instant} :
    atSix.resolveOn (.solar event (hours * 3600000000000)) day = .ok i ↔
      i = ⟨day.day * 86400 + 64800 + hours * 3600, 0⟩ ∧ i.inCalendar = true := by
  have later : Instant.plusNanos ⟨day.day * 86400 + 64800, 0⟩ (hours * 3600000000000) =
      ⟨day.day * 86400 + 64800 + hours * 3600, 0⟩ := by
    simp only [Instant.plusNanos, Instant.mk.injEq]
    omega
  rw [atSix, ofSun_solar]
  simp only [Except.ok.injEq, exists_eq_left', later]

theorem atSix_grounded (event : SunEvent) (offset : Int) : atSix.Grounded (.solar event offset) := by
  refine ofSun_grounded rfl ?_ rfl nofun
  intro event day i known same
  cases same
  have here : Instant.dateAt ⟨day.day * 86400 + 64800, 0⟩ Zone.utc.offset = day := by
    simp only [Instant.dateAt, Zone.utc, Date.ext_iff]
    omega
  rw [dateOf?_fixed rfl, here, if_pos known]
  exact ⟨rfl, Nat.zero_lt_succ _⟩

theorem atSix_monotone : atSix.Monotone :=
  monotone_of_fixed (show Zone.utc.summer = none from rfl) rfl

/-- At seven in the morning, the next time that is twelve hours after sunset is tomorrow at six. -/
theorem nextAfter_first_iff_morning :
    let spec : TimeSpec := .solar .sunset (12 * 3600000000000)
    let now : Instant := ⟨111600, 0⟩
    spec.isDaily = true ∧ atSix.Grounded spec ∧ atSix.Monotone ∧ atSix.dateOf? now = some ⟨1⟩ ∧
      Date.inCalendar ⟨1⟩ = true ∧ atSix.nextAfter spec now = .ok ⟨194400, 0⟩ ∧
      atSix.First spec now ⟨194400, 0⟩ := by
  intro spec now
  have grounded := atSix_grounded .sunset (12 * 3600000000000)
  have next : atSix.nextAfter spec now = .ok ⟨194400, 0⟩ := by decide +kernel
  obtain ⟨exact, -, -⟩ := nextAfter_first_iff rfl grounded atSix_monotone
    (show atSix.dateOf? now = some ⟨1⟩ from rfl) (by decide) next
  have gone : atSix.Over spec ⟨1⟩ now := by
    intro earlier i own before resolved
    obtain ⟨rfl, -⟩ := atSix_solar.mp resolved
    simp only [Date.lt_iff] at before
    simp only [now, Instant.le_iff, Instant.lt_iff]
    omega
  exact ⟨rfl, grounded, atSix_monotone, rfl, by decide, next, exact.mpr ⟨by decide, gone⟩⟩

/-- At five in the morning, what is twelve hours after the sunset of the day before is still to come and is
passed over. At eleven in the evening, what is twenty hours before sunset is answered with an instant
that is over. -/
theorem nextAfter_is_not_first :
    let off : TimeSpec := .solar .sunset (12 * 3600000000000)
    let back : TimeSpec := .solar .sunset (-20 * 3600000000000)
    TimeSpec.parse? "sunset+12h" = some off ∧ TimeSpec.parse? "sunset-20h" = some back ∧
      atSix.nextAfter off ⟨104400, 0⟩ = .ok ⟨194400, 0⟩ ∧ atSix.Occurs off ⟨108000, 0⟩ ∧
      (⟨104400, 0⟩ : Instant) < ⟨108000, 0⟩ ∧ (⟨108000, 0⟩ : Instant) < ⟨194400, 0⟩ ∧
      atSix.nextAfter back ⟨169200, 0⟩ = .ok ⟨165600, 0⟩ ∧
      ¬(⟨169200, 0⟩ : Instant) < ⟨165600, 0⟩ := by
  intro off back
  have before : atSix.Occurs off ⟨108000, 0⟩ :=
    ⟨⟨0⟩, by decide, atSix_solar.mpr ⟨by decide, by decide⟩⟩
  exact ⟨by decide +kernel, by decide +kernel, by decide +kernel, before, by decide, by decide,
    by decide +kernel, by decide⟩

end Resolver

end HomeControl
