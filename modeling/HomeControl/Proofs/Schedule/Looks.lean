import HomeControl.Proofs.Schedule.Window
import HomeControl.Proofs.Schedule.Journal
/-!
Looks at the timers, one after the other. Each begins where the one before ended, which is all that a
schedule keeps of them, so nothing is lost between two looks and nothing is found twice.
-/

namespace HomeControl

def ScheduleOp.isLook : ScheduleOp → Bool
  | .look _ => true
  | _ => false

theorem ScheduleOp.lastTick_apply {o : ScheduleOp} (other : o.isLook = false) (t : Schedule) :
    (o.apply t).lastTick = t.lastTick := by
  cases o with
  | look now => cases other
  | note key generation v =>
    obtain ⟨faders, same⟩ := Schedule.noteApplied_frame t key generation v
    rw [apply, same]
  | drop key generation =>
    obtain ⟨faders, same⟩ := Schedule.dropFader_frame t key generation
    rw [apply, same]
  | take now key =>
    cases taken : t.takeDue? key now with
    | none => simp [apply, taken]
    | some found =>
      obtain ⟨shot, after⟩ := found
      obtain ⟨-, -, rfl⟩ := Schedule.takeDue?_eq_some taken
      simp [apply, taken]
  | _ => rfl

theorem Schedule.lastTick_replay {ops : List ScheduleOp} (others : ∀ o ∈ ops, o.isLook = false)
    (t : Schedule) : (t.replay ops).lastTick = t.lastTick := by
  induction ops generalizing t with
  | nil => rfl
  | cons o rest ih =>
    obtain ⟨first, later⟩ := List.forall_mem_cons.mp others
    rw [replay_cons, ih later, ScheduleOp.lastTick_apply first]

namespace Controller

variable (c : Controller)

theorem planOps_look (now : Int) (p : Plan) :
    ∀ o ∈ State.planOps c.topology now p, o.isLook = false := by
  intro o inside
  simp only [State.planOps, State.settingOps, State.enlistOps, List.mem_append, List.mem_map] at inside
  rcases inside with ⟨w, -, rfl⟩ | ⟨spec, -, rfl⟩ | ⟨timed, -, rfl⟩ <;> rfl

theorem ordersOps_look (depth : Nat) (orders : List Order) (s : State) :
    ∀ o ∈ c.ordersOps depth orders s, o.isLook = false := by
  induction orders generalizing s with
  | nil => exact List.forall_mem_nil _
  | cons first rest ih =>
    intro o inside
    simp only [ordersOps] at inside
    split at inside
    · rcases List.mem_append.mp inside with now | later
      · cases first with
        | command text timed => exact c.planOps_look _ _ o now
        | setter w => exact c.planOps_look _ _ o now
      · exact ih _ o later
    · exact absurd inside List.not_mem_nil

theorem faderOps_look (now : Int) (f : ActiveFader) :
    ∀ o ∈ c.faderOps now f, o.isLook = false := by
  intro o inside
  rcases List.mem_append.mp inside with noted | dropped
  · obtain ⟨v, -, rfl⟩ := List.mem_map.mp noted
    rfl
  · split at dropped
    · cases List.mem_singleton.mp dropped
      rfl
    · exact absurd dropped List.not_mem_nil

theorem journal_look {a : Act} (other : a ≠ .tickTimers) (s : State) :
    ∀ o ∈ c.journal a s, o.isLook = false := by
  intro o inside
  cases a with
  | command timed depth text => exact c.ordersOps_look _ _ _ o inside
  | plan depth p => exact c.planOps_look _ _ o inside
  | get g depth => exact absurd inside List.not_mem_nil
  | set w depth => exact absurd inside List.not_mem_nil
  | clock now => exact absurd inside List.not_mem_nil
  | fader spec => exact List.mem_singleton.mp inside ▸ rfl
  | single timed => exact List.mem_singleton.mp inside ▸ rfl
  | cancel key => exact List.mem_singleton.mp inside ▸ rfl
  | tickTimers => exact absurd rfl other
  | tickFaders =>
    obtain ⟨f, -, own⟩ := List.mem_flatMap.mp inside
    exact c.faderOps_look _ f o own
  | tickSingles =>
    rcases List.mem_append.mp inside with taken | later
    · obtain ⟨key, -, rfl⟩ := List.mem_map.mp taken
      rfl
    · exact c.ordersOps_look _ _ _ o later

theorem step_lastTick (a : Act) (s : State) :
    (c.step a s).schedule.lastTick =
      if a = .tickTimers then some s.now else s.schedule.lastTick := by
  rw [step_schedule]
  split
  · rename_i look
    subst look
    rw [journal, Schedule.replay_cons]
    refine Schedule.lastTick_replay (fun o inside => ?_) _
    cases orders : (c.tickTimers s).1 with
    | none =>
      rw [orders] at inside
      exact absurd inside List.not_mem_nil
    | some orders' =>
      rw [orders] at inside
      exact c.ordersOps_look _ _ _ o inside
  · rename_i other
    exact Schedule.lastTick_replay (c.journal_look other s) _

def looksOf (c : Controller) : List Act → State → List State
  | [], _ => []
  | a :: rest, s => (if a = .tickTimers then [s] else []) ++ c.looksOf rest (c.step a s)

variable {c} in
theorem fireTimers_of_orders {orders : List Order} {s : State}
    (found : (c.tickTimers s).1 = some orders) :
    c.fireTimers s = c.performAll 0 orders (c.tickTimers s).2 := by
  unfold fireTimers
  split
  · rename_i ticked
    rw [ticked] at found
    cases found
    rw [ticked]
  · rename_i ticked
    rw [ticked] at found
    cases found

theorem performAll_orders {depth : Nat} {orders : List Order} {s : State}
    (whole : (c.performAll depth orders s).broken = false) :
    (c.performAll depth orders s).ran.map (·.order) = orders := by
  induction orders generalizing s with
  | nil => rfl
  | cons o rest ih =>
    simp only [performAll] at *
    split at whole
    · rename_i possible
      rw [if_pos possible, List.map_cons, ih whole]
    · cases whole

end Controller

namespace Resolver

/-- A time that may be looked at after another one: a later one on the same day or the next. -/
def Next (r : Resolver) (last now : Instant) : Prop :=
  last < now ∧ ∀ a b, r.dateOf? last = some a → r.dateOf? now = some b → b.Follows a

/-- The day of a look, on which the instants of all events can be looked for. It is not the last one
of the calendar. -/
def Answers (r : Resolver) (timers : List TimerDef) (now : Instant) : Prop :=
  ∃ day, r.dateOf? now = some day ∧ Date.first ≤ day ∧ day < Date.last ∧
    ∀ t ∈ timers, ∀ e ∈ t.events, r.reaches e.1 day = true

end Resolver

namespace TimerDef

/-- What looks at timers at some times give, the part of each timer by itself, if `last` was the look
before. -/
def looks? (r : Resolver) (timers : List TimerDef) :
    Option Instant → List Instant → Option (List (List (List Order)))
  | _, [] => some []
  | last, now :: rest => do
    let parts ← timers.mapM (Controller.timerOrders? r last now)
    let later ← looks? r timers (some now) rest
    some (parts :: later)

variable {r : Resolver} {timers : List TimerDef}

theorem look_fires (edge : ∀ t ∈ timers, t.strict = false) (regular : ∀ t ∈ timers, t.Regular r)
    (monotone : r.Monotone) {last now : Instant} (next : r.Next last now)
    (before : r.Answers timers last) (after : r.Answers timers now) {t : TimerDef}
    (inside : t ∈ timers) :
    ∃ fired, t.Fires r last now fired ∧ Controller.timerOrders? r (some last) now t =
      some (fired.map fun x => .command x.command false) := by
  obtain ⟨a, hlast, start, -, answered⟩ := before
  obtain ⟨b, hnow, -, finish, answering⟩ := after
  have near := next.2 a b hlast hnow
  obtain ⟨fired, fires, crossed⟩ :=
    crossed?_fires (regular t inside) monotone hlast hnow near start finish
  refine ⟨fired, fires, ?_⟩
  have reached : t.reaches r (daysSince? r last now) = true := by
    rw [daysSince?_eq hlast hnow start near.near]
    refine List.all_eq_true.mpr fun day among => List.all_eq_true.mpr fun e own => ?_
    obtain ⟨⟨early, late⟩, -⟩ := looked_iff.mp among
    rcases Date.eq_of_follows near early late with rfl | rfl
    · exact answered t inside e own
    · exact answering t inside e own
  rw [Controller.timerOrders?, if_neg (by simp [edge t inside])]
  simp only [reached, if_true, crossed, Option.map_some, List.map_map]
  rfl

theorem looks?_fires (edge : ∀ t ∈ timers, t.strict = false) (regular : ∀ t ∈ timers, t.Regular r)
    (monotone : r.Monotone) {last : Instant} {rest : List Instant}
    (spaced : (last :: rest).IsChain r.Next) (answers : ∀ now ∈ last :: rest, r.Answers timers now) :
    last ≤ rest.getLastD last ∧ ∃ looks, looks? r timers (some last) rest = some looks ∧
      ∀ (k : Nat) (t : TimerDef), timers[k]? = some t →
        ∃ fired, t.Fires r last (rest.getLastD last) fired ∧
        looks.flatMap (fun parts => (parts[k]?).getD []) =
          fired.map fun x => .command x.command false := by
  -- On the looks that are left: what the first of them gives lies before all that the others give.
  induction rest generalizing last with
  | nil => exact ⟨le_refl _, [], rfl, fun _ t _ => ⟨[], Fires.none t r last, rfl⟩⟩
  | cons now rest ih =>
    obtain ⟨next, spaced⟩ := List.isChain_cons_cons.mp spaced
    obtain ⟨before, answers⟩ := List.forall_mem_cons.mp answers
    obtain ⟨late, looks, found, shares⟩ := ih spaced answers
    have one := fun t (inside : t ∈ timers) => look_fires edge regular monotone next before
      (answers now List.mem_cons_self) inside
    choose! fired fires orders using one
    rw [List.getLastD_cons]
    refine ⟨(le_of_lt next.1).trans late, (timers.map fun t => (fired t).map fun x =>
      .command x.command false) :: looks, ?_, fun k t own => ?_⟩
    · simp only [looks?, mapM_of_some orders, found, Option.bind_eq_bind, Option.bind_some]
    · obtain ⟨later, fires', share⟩ := shares k t own
      refine ⟨fired t ++ later,
        (fires t (List.mem_of_getElem? own)).append (le_of_lt next.1) late fires', ?_⟩
      rw [List.flatMap_cons, share, List.map_append, List.getElem?_map, own]
      rfl

theorem firstLook (edge : ∀ t ∈ timers, t.strict = false) (now : Instant) :
    timers.mapM (Controller.timerOrders? r none now) = some (timers.map fun _ => []) :=
  mapM_of_some fun t inside => if_neg (by simp [edge t inside])

theorem looksOf_orders {c : Controller} (resolver : c.place.resolver = r) (own : c.timers = timers)
    {acts : List Act} {s : State} {looks : List (List (List Order))}
    (found : looks? r timers s.schedule.lastTick ((c.looksOf acts s).map (·.now)) = some looks)
    {i : Nat} {s' : State} {parts : List (List Order)} (at' : (c.looksOf acts s)[i]? = some s')
    (there : looks[i]? = some parts) : (c.tickTimers s').1 = some parts.flatten := by
  induction acts generalizing s looks i with
  | nil => simp [Controller.looksOf] at at'
  | cons a rest ih =>
    have after := c.step_lastTick a s
    by_cases look : a = .tickTimers
    · simp only [Controller.looksOf, look, if_true, List.singleton_append, List.map_cons,
        looks?] at found at' after
      obtain ⟨first, hfirst, found⟩ := Option.bind_eq_some_iff.mp found
      obtain ⟨later, hlater, found⟩ := Option.bind_eq_some_iff.mp found
      cases found
      cases i with
      | zero =>
        cases at'
        cases there
        simp only [Controller.tickTimers, resolver, own, hfirst, Option.map_some]
      | succ i => exact ih (after ▸ hlater) at' there
    · simp only [Controller.looksOf, look, if_false, List.nil_append] at found at' after
      exact ih (after ▸ found) at' there

/-- Looks at timers that are not strict, each on the day of the one before or on the next one but none
on the last day of the calendar, give of each timer what comes about between the first and the last of
them, however many there are between these; and so do the looks of every run. -/
theorem looks_lose_and_repeat_nothing (edge : ∀ t ∈ timers, t.strict = false)
    (regular : ∀ t ∈ timers, t.Regular r) (monotone : r.Monotone) {first : Instant}
    {rest : List Instant} (spaced : (first :: rest).IsChain r.Next)
    (answers : ∀ now ∈ first :: rest, r.Answers timers now) :
    ∃ looks, looks? r timers none (first :: rest) = some looks ∧
      (∀ (k : Nat) (t : TimerDef), timers[k]? = some t →
        ∃ fired, (∀ l, t.Fires r first (rest.getLastD first) l ↔ l = fired) ∧
          looks.flatMap (fun parts => (parts[k]?).getD []) =
            fired.map fun x => .command x.command false) ∧
      ∀ (c : Controller) (acts : List Act) (s : State), c.place.resolver = r → c.timers = timers →
        s.schedule.lastTick = none → (c.looksOf acts s).map (·.now) = first :: rest →
        ∀ (i : Nat) s' parts, (c.looksOf acts s)[i]? = some s' → looks[i]? = some parts →
          (c.tickTimers s').1 = some parts.flatten ∧
            ((c.fireTimers s').broken = false →
              (c.fireTimers s').ran.map (·.order) = parts.flatten) := by
  obtain ⟨-, later, found, shares⟩ := looks?_fires edge regular monotone spaced answers
  have looks : looks? r timers none (first :: rest) = some ((timers.map fun _ => []) :: later) := by
    simp only [looks?, firstLook edge first, found, Option.bind_eq_bind, Option.bind_some]
  refine ⟨_, looks, fun k t own => ?_, ?_⟩
  · obtain ⟨fired, fires, share⟩ := shares k t own
    refine ⟨fired, fun l => ⟨fun h => h.unique fires, fun same => same ▸ fires⟩, ?_⟩
    rw [List.flatMap_cons, share, List.getElem?_map, own]
    rfl
  · intro c acts s resolver own fresh times i s' parts at' there
    have orders := looksOf_orders resolver own (by rw [fresh, times]; exact looks) at' there
    refine ⟨orders, fun whole => ?_⟩
    rw [Controller.fireTimers_of_orders orders] at whole ⊢
    exact c.performAll_orders whole

end TimerDef

namespace Resolver

theorem dateOf?_fixed {zone : Zone} (fixed : zone.summer = none) (i : Instant) :
    zone.dateOf? i =
      if (i.dateAt zone.offset).inCalendar then some (i.dateAt zone.offset) else none := by
  simp only [Zone.dateOf?, Zone.offsetAt, fixed]

theorem monotone_of_fixed {r : Resolver} {zone : Zone} (fixed : zone.summer = none)
    (dates : r.dateOf? = zone.dateOf?) : r.Monotone := by
  intro i j a b early ha hb
  rw [dates, dateOf?_fixed fixed, Option.ite_none_right_eq_some, Option.some.injEq] at ha hb
  rw [← ha.2, ← hb.2]
  simp only [Date.le_iff, Instant.dateAt, Instant.le_iff, Instant.lt_iff] at *
  omega

def utc : Resolver := (⟨.utc, none⟩ : Place).resolver

theorem utc_dateOf? (i : Instant) :
    utc.dateOf? i = if (i.dateAt 0).inCalendar then some (i.dateAt 0) else none := rfl

theorem utc_monotone : utc.Monotone :=
  monotone_of_fixed (show Zone.utc.summer = none from rfl) rfl

theorem utc_clock {time : TimeOfDay} {day : Date} {i : Instant}
    (resolved : utc.resolveOn (.clock time) day = .ok i) :
    i = ⟨day.day * 86400 + time.seconds, time.nanos⟩ ∧ i.inCalendar = true := by
  have read : Zone.utc.instant? ⟨day, time⟩ =
      if (LocalTime.instant ⟨day, time⟩ 0).inCalendar
        then some (LocalTime.instant ⟨day, time⟩ 0) else none := rfl
  rw [show utc.resolveOn = Place.resolveOn ⟨.utc, none⟩ from rfl] at resolved
  simp only [Place.resolveOn, read] at resolved
  split at resolved
  · rename_i found
    cases resolved
    rw [Option.ite_none_right_eq_some, Option.some.injEq] at found
    rw [← found.2]
    refine ⟨?_, found.1⟩
    rw [LocalTime.instant, LocalTime.seconds, Int.sub_zero]
  · cases resolved

end Resolver

namespace TimerDef

open Resolver

theorem utc_regular {t : TimerDef}
    (clock : ∀ e ∈ t.events, e.1.isDaily = true → ∃ time, e.1 = .clock time ∧ time.seconds < 86400) :
    t.Regular utc where
  daily e inside daily day i _ resolved := by
    obtain ⟨time, spec, short⟩ := clock e inside daily
    rw [spec] at resolved
    obtain ⟨rfl, known⟩ := utc_clock resolved
    have here : Instant.dateAt ⟨day.day * 86400 + time.seconds, time.nanos⟩ 0 = day := by
      rw [Instant.dateAt, Date.ext_iff]
      dsimp only
      omega
    rw [Instant.inCalendar, here] at known
    rw [utc_dateOf?, here, if_pos known]
  absolute e _ i spec day := by
    rw [spec]
    rfl

def midnight : TimerDef :=
  ⟨"midnight", none, false, [(.clock ⟨0, 0⟩, "set lamp off"), (.absolute ⟨86400, 0⟩, "do feast")]⟩

theorem looks_lose_and_repeat_nothing_midnight :
    (∀ t ∈ [midnight], t.strict = false) ∧ (∀ t ∈ [midnight], t.Regular utc) ∧ utc.Monotone ∧
      [(⟨86000, 0⟩ : Instant), ⟨86400, 0⟩, ⟨90000, 0⟩].IsChain utc.Next ∧
      (∀ now ∈ [(⟨86000, 0⟩ : Instant), ⟨86400, 0⟩, ⟨90000, 0⟩], utc.Answers [midnight] now) ∧
      ∃ fired, (∀ l, midnight.Fires utc ⟨86000, 0⟩ ⟨90000, 0⟩ l ↔ l = fired) ∧
        fired.map (fun x => Order.command x.command false) =
          [.command "set lamp off" false, .command "do feast" false] := by
  have edge : ∀ t ∈ [midnight], t.strict = false := by decide
  have regular : ∀ t ∈ [midnight], t.Regular utc := by
    refine List.forall_mem_singleton.mpr (utc_regular fun e inside daily => ?_)
    simp only [midnight, List.mem_cons, List.not_mem_nil, or_false] at inside
    rcases inside with rfl | rfl
    · exact ⟨⟨0, 0⟩, rfl, by decide⟩
    · cases daily
  have spaced : [(⟨86000, 0⟩ : Instant), ⟨86400, 0⟩, ⟨90000, 0⟩].IsChain utc.Next := by
    refine List.isChain_cons_cons.mpr ⟨⟨by decide, fun a b ha hb => ?_⟩,
      List.isChain_pair.mpr ⟨by decide, fun a b ha hb => ?_⟩⟩
    · cases ha
      cases hb
      exact Or.inr rfl
    · cases ha
      cases hb
      exact Or.inl rfl
  have answers : ∀ now ∈ [(⟨86000, 0⟩ : Instant), ⟨86400, 0⟩, ⟨90000, 0⟩],
      utc.Answers [midnight] now := by
    intro now inside
    simp only [List.mem_cons, List.not_mem_nil, or_false] at inside
    rcases inside with rfl | rfl | rfl
    · exact ⟨⟨0⟩, rfl, by decide, by decide, by decide +kernel⟩
    · exact ⟨⟨1⟩, rfl, by decide, by decide, by decide +kernel⟩
    · exact ⟨⟨1⟩, rfl, by decide, by decide, by decide +kernel⟩
  obtain ⟨looks, found, shares, -⟩ :=
    looks_lose_and_repeat_nothing edge regular utc_monotone spaced answers
  have three : looks? utc [midnight] none [⟨86000, 0⟩, ⟨86400, 0⟩, ⟨90000, 0⟩] =
      some [[[]], [[.command "set lamp off" false, .command "do feast" false]], [[]]] := by
    decide +kernel
  rw [three, Option.some.injEq] at found
  obtain ⟨fired, exact, share⟩ := shares 0 midnight rfl
  rw [← found] at share
  exact ⟨edge, regular, utc_monotone, spaced, answers, fired, exact, share.symm⟩

def noon : TimerDef :=
  ⟨"noon", none, false, [(.clock ⟨43200, 0⟩, "set lamp on")]⟩

theorem looks_lose_the_last_day :
    let first : Instant := ⟨8210266830000, 0⟩
    let final : Instant := ⟨8210266837200, 0⟩
    noon.strict = false ∧ noon.Regular utc ∧ utc.Monotone ∧ [first, final].IsChain utc.Next ∧
      utc.dateOf? first = some Date.last ∧ utc.dateOf? final = some Date.last ∧
      noon.Fires utc first final [⟨⟨8210266833600, 0⟩, 0, "set lamp on"⟩] ∧
      looks? utc [noon] none [first, final] = some [[[]], [[]]] := by
  intro first final
  have regular : noon.Regular utc := by
    refine utc_regular fun e inside _ => ?_
    cases List.mem_singleton.mp inside
    exact ⟨⟨43200, 0⟩, rfl, by decide⟩
  have spaced : [first, final].IsChain utc.Next := by
    refine List.isChain_pair.mpr ⟨by decide, fun a b ha hb => ?_⟩
    cases ha
    cases hb
    exact Or.inl rfl
  refine ⟨rfl, regular, utc_monotone, spaced, rfl, rfl, ⟨List.pairwise_singleton _ _, ?_⟩,
    by decide +kernel⟩
  rintro ⟨time, event, command⟩
  rw [List.mem_singleton]
  constructor
  · intro same
    cases same
    exact ⟨.clock ⟨43200, 0⟩, rfl, ⟨Date.last, by decide, rfl⟩, by decide, by decide⟩
  · rintro ⟨spec, own, ⟨day, -, resolved⟩, after, before⟩
    cases event with
    | zero =>
      cases own
      obtain ⟨rfl, -⟩ := utc_clock resolved
      have here : day.day = 95026236 := by
        simp only [first, final, Instant.le_iff, Instant.lt_iff] at after before
        omega
      rw [here]
      rfl
    | succ event => cases own

end TimerDef

end HomeControl
