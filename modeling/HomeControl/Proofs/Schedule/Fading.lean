import HomeControl.Proofs.Schedule.FaderTick
/-!
A fade in a run. From its registration on, whatever else happens, the looks at the fades apply its
course, and it is there until the first look at or after its end. Only what floats do between the
two ends of a brightness is assumed.
-/

namespace HomeControl

/-- Whether `y` is no further from the goal than `x`, on the way from one byte to another. -/
def Onward (start goal x y : UInt8) : Prop :=
  if start ≤ goal then x ≤ y else y ≤ x

instance (start goal x y : UInt8) : Decidable (Onward start goal x y) :=
  inferInstanceAs (Decidable (if start ≤ goal then x ≤ y else y ≤ x))

theorem Onward.refl (start goal x : UInt8) : Onward start goal x x := by
  unfold Onward
  split
  · exact UInt8.le_refl x
  · exact UInt8.le_refl x

theorem Onward.ends (start goal : UInt8) : Onward start goal start goal := by
  unfold Onward
  split
  · assumption
  · rename_i above
    exact (UInt8.le_total start goal).resolve_left above

namespace ActiveFader

/-- What is assumed of floats, for a fade at some times: the progress grows with the time, and
blending grows with the progress and stays between its ends. -/
structure Steady (f : ActiveFader) (start goal : UInt8) (times : List Int) : Prop where
  progress : ∀ t ∈ times, ∀ u ∈ times, t ≤ u → f.progress t ≤ f.progress u
  blend : ∀ t ∈ times, ∀ u ∈ times, f.progress t ≤ f.progress u →
    Onward start goal (HomeControl.blend start goal (f.progress t))
      (HomeControl.blend start goal (f.progress u))
  leaves : ∀ t ∈ times, Onward start goal start (HomeControl.blend start goal (f.progress t))
  arrives : ∀ t ∈ times, Onward start goal (HomeControl.blend start goal (f.progress t)) goal

def level (f : ActiveFader) (start goal : UInt8) (now : Int) : UInt8 :=
  if f.isFinished now then goal else blend start goal (f.progress now)

theorem valueAt_eq_level {f : ActiveFader} {start goal : UInt8}
    (ends : f.spec.values = .brightness start goal) (now : Int) :
    f.valueAt now = .int (f.level start goal now).toNat := by
  unfold valueAt level
  rw [ends]
  split
  · rfl
  · rfl

theorem level_onward {f : ActiveFader} {start goal : UInt8} {times : List Int}
    (steady : f.Steady start goal times) {t u : Int} (ht : t ∈ times) (hu : u ∈ times)
    (ordered : t ≤ u) : Onward start goal (f.level start goal t) (f.level start goal u) := by
  unfold level
  by_cases before : f.isFinished t = true
  · have after : f.isFinished u = true := by
      simp only [isFinished, decide_eq_true_eq] at before ⊢
      omega
    rw [if_pos before, if_pos after]
    exact Onward.refl start goal goal
  · rw [if_neg before]
    split
    · exact steady.arrives t ht
    · exact steady.blend t ht u hu (steady.progress t ht u hu ordered)

theorem course_onward {f : ActiveFader} {start goal : UInt8} {times : List Int}
    (ends : f.spec.values = .brightness start goal) (steady : f.Steady start goal times)
    (ordered : times.Pairwise (· ≤ ·)) :
    ∃ levels : List UInt8, f.course times = levels.map (fun n => .int n.toNat) ∧
      (start :: levels).Pairwise (Onward start goal) := by
  obtain ⟨looks, sub, course⟩ := f.course_eq_map times
  refine ⟨looks.map (f.level start goal), ?_, List.pairwise_cons.mpr ⟨?_, ?_⟩⟩
  · rw [course, List.map_map]
    exact List.map_congr_left fun t _ => valueAt_eq_level ends t
  · intro n inside
    obtain ⟨t, ht, rfl⟩ := List.mem_map.mp inside
    unfold level
    split
    · exact Onward.ends start goal
    · exact steady.leaves t (sub.subset ht)
  · rw [List.pairwise_map]
    refine (ordered.sublist sub).imp_of_mem ?_
    intro t u ht hu before
    exact level_onward steady (sub.subset ht) (sub.subset hu) before

end ActiveFader

namespace Controller

/-- The states in which a run looks at the fades. -/
def fadeLooks (c : Controller) : List Act → State → List State
  | [], _ => []
  | a :: rest, s =>
    (if a = .tickFaders then [s] else []) ++ c.fadeLooks rest (c.step a s)

def fadeTimes (c : Controller) (acts : List Act) (s : State) : List Int :=
  (c.fadeLooks acts s).map (·.now.millis)

def fadeSetters (c : Controller) (acts : List Act) (s : State) : List Setter :=
  (c.fadeLooks acts s).flatMap (·.fadeSetters)

def fadeValues (c : Controller) (key : ScheduleKey) (acts : List Act) (s : State) : List Value :=
  (c.fadeLooks acts s).flatMap (·.fadeValues key)

/-- Whether nothing in a run but the looks at the fades touches the fade on a key. -/
def LeavesFade (c : Controller) (key : ScheduleKey) : List Act → State → Prop
  | [], _ => True
  | a :: rest, s =>
    (a ≠ .tickFaders →
      (c.step a s).schedule.faders.get? key = s.schedule.faders.get? key) ∧
    c.LeavesFade key rest (c.step a s)

instance decidableLeavesFade (c : Controller) (key : ScheduleKey) :
    (acts : List Act) → (s : State) → Decidable (c.LeavesFade key acts s)
  | [], _ => isTrue trivial
  | a :: rest, s =>
    have := decidableLeavesFade c key rest (c.step a s)
    inferInstanceAs (Decidable ((a ≠ .tickFaders →
      (c.step a s).schedule.faders.get? key = s.schedule.faders.get? key) ∧
        c.LeavesFade key rest (c.step a s)))

theorem fadeLooks_append (c : Controller) (before after : List Act) (s : State) :
    c.fadeLooks (before ++ after) s = c.fadeLooks before s ++ c.fadeLooks after (c.run before s) := by
  induction before generalizing s with
  | nil => rfl
  | cons a rest ih =>
    simp only [List.cons_append, fadeLooks, ih, List.append_assoc]
    rfl

variable {c : Controller}

theorem leavesFade_append {key : ScheduleKey} {before after : List Act} {s : State} :
    c.LeavesFade key (before ++ after) s ↔
      c.LeavesFade key before s ∧ c.LeavesFade key after (c.run before s) := by
  induction before generalizing s with
  | nil => exact ⟨fun h => ⟨trivial, h⟩, fun h => h.2⟩
  | cons a rest ih =>
    simp only [List.cons_append, LeavesFade, ih, and_assoc]
    rfl

theorem fadeTimes_cons (a : Act) (rest : List Act) (s : State) :
    c.fadeTimes (a :: rest) s =
      (if a = .tickFaders then [s.now.millis] else []) ++ c.fadeTimes rest (c.step a s) := by
  unfold fadeTimes
  rw [fadeLooks, List.map_append]
  split <;> rfl

theorem fadeSetters_cons (a : Act) (rest : List Act) (s : State) :
    c.fadeSetters (a :: rest) s =
      (if a = .tickFaders then s.fadeSetters else []) ++ c.fadeSetters rest (c.step a s) := by
  unfold fadeSetters
  rw [fadeLooks, List.flatMap_append]
  split <;> simp

theorem fadeValues_cons (key : ScheduleKey) (a : Act) (rest : List Act) (s : State) :
    c.fadeValues key (a :: rest) s =
      (if a = .tickFaders then s.fadeValues key else []) ++
        c.fadeValues key rest (c.step a s) := by
  unfold fadeValues
  rw [fadeLooks, List.flatMap_append]
  split <;> simp

theorem get?_look {s : State} (sound : s.schedule.Sound) (key : ScheduleKey) :
    (c.step .tickFaders s).schedule.faders.get? key =
      (s.schedule.faders.get? key).bind (·.afterLook c.topology s.now.millis) :=
  c.tickFaders_get? sound key

theorem absent_fade {key : ScheduleKey} {acts : List Act} {s : State} (sound : s.schedule.Sound)
    (absent : s.schedule.faders.get? key = none) (untouched : c.LeavesFade key acts s) :
    c.fadeValues key acts s = [] ∧ (c.run acts s).schedule.faders.get? key = none := by
  induction acts generalizing s with
  | nil => exact ⟨rfl, absent⟩
  | cons a rest ih =>
    obtain ⟨kept, untouched⟩ := untouched
    have next : (c.step a s).schedule.faders.get? key = none := by
      by_cases look : a = .tickFaders
      · subst look
        rw [get?_look sound, absent]
        rfl
      · exact (kept look).trans absent
    obtain ⟨values, final⟩ := ih (c.run_sound [a] s sound) next untouched
    refine ⟨?_, final⟩
    have now : (if a = .tickFaders then s.fadeValues key else []) = [] := by
      split
      · rw [State.fadeValues_eq sound, absent]
        rfl
      · rfl
    rw [fadeValues_cons, now]
    exact values

theorem mem_fadeSetters {s : State} (sound : s.schedule.Sound) {f : ActiveFader}
    (there : s.schedule.faders.get? f.key = some f) {v : Value}
    (stepped : f.step? s.now.millis = some v) : f.setter v ∈ s.fadeSetters := by
  have inside : f ∈ s.schedule.fadersInOrder :=
    (Schedule.mem_fadersInOrder sound f).mpr there
  exact List.mem_filterMap.mpr ⟨f, inside, by rw [stepped]; rfl⟩

theorem spec_in_run {f : ActiveFader} {acts : List Act} {s : State} (sound : s.schedule.Sound)
    (same : ∀ g, s.schedule.faders.get? f.key = some g → g.spec = f.spec)
    (untouched : c.LeavesFade f.key acts s) {look : State} (looked : look ∈ c.fadeLooks acts s) :
    look.schedule.Sound ∧
      ∀ g, look.schedule.faders.get? f.key = some g → g.spec = f.spec := by
  induction acts generalizing s with
  | nil => cases looked
  | cons a rest ih =>
    obtain ⟨kept, untouched⟩ := untouched
    have next : ∀ g, (c.step a s).schedule.faders.get? f.key = some g → g.spec = f.spec := by
      intro g found
      by_cases tick : a = .tickFaders
      · subst tick
        rw [get?_look sound] at found
        obtain ⟨before, there, after⟩ := Option.bind_eq_some_iff.mp found
        exact (ActiveFader.spec_afterLook after).trans (same before there)
      · exact same g ((kept tick).symm.trans found)
    rcases List.mem_append.mp looked with now | later
    · by_cases tick : a = .tickFaders
      · rw [if_pos tick] at now
        rw [List.mem_singleton.mp now]
        exact ⟨sound, same⟩
      · rw [if_neg tick] at now
        cases now
    · exact ih (c.run_sound [a] s sound) next untouched later

theorem fadeSetters_in_run {f : ActiveFader} {acts : List Act} {s : State}
    (sound : s.schedule.Sound)
    (same : ∀ g, s.schedule.faders.get? f.key = some g → g.spec = f.spec)
    (untouched : c.LeavesFade f.key acts s) {look : State} (looked : look ∈ c.fadeLooks acts s) :
    look.fadeSetters.filter (·.key = f.key) = (look.fadeValues f.key).map f.setter := by
  obtain ⟨sound, same⟩ := spec_in_run sound same untouched looked
  rw [State.fadeSetters_on sound, State.fadeValues_eq sound]
  cases there : look.schedule.faders.get? f.key with
  | none => rfl
  | some g =>
    have setter : g.setter = f.setter := by
      funext v
      rw [ActiveFader.setter, same g there, ← ActiveFader.setter]
    rw [Option.bind_some, Option.bind_some, setter, Option.toList_map]

theorem known?_in_run {f : ActiveFader} {acts : List Act} {s : State} (sound : s.schedule.Sound)
    (same : ∀ g, s.schedule.faders.get? f.key = some g → g.spec = f.spec)
    (untouched : c.LeavesFade f.key acts s)
    (works : ∀ w ∈ c.fadeSetters acts s, w.key = f.key → c.topology.accepts w = true)
    {look : State} (looked : look ∈ c.fadeLooks acts s) {v : Value}
    (applied : v ∈ look.fadeValues f.key) :
    (c.tickFaders look).house.known? f.key.node f.key.attr = some v := by
  have among : f.setter v ∈ look.fadeSetters.filter (·.key = f.key) := by
    rw [fadeSetters_in_run sound same untouched looked]
    exact List.mem_map_of_mem applied
  have made : f.setter v ∈ look.fadeSetters := List.mem_of_mem_filter among
  have accepted : c.topology.accepts (f.setter v) = true :=
    works _ (List.mem_flatMap.mpr ⟨look, looked, made⟩) (f.key_setter v)
  exact c.known?_tickFaders (spec_in_run sound same untouched looked).1 made accepted

theorem fade_in_run {f : ActiveFader} {acts : List Act} {s : State} (sound : s.schedule.Sound)
    (there : s.schedule.faders.get? f.key = some f) (untouched : c.LeavesFade f.key acts s)
    (works : ∀ w ∈ c.fadeSetters acts s, w.key = f.key → c.topology.accepts w = true) :
    c.fadeValues f.key acts s = f.course (c.fadeTimes acts s) ∧
      ((c.run acts s).schedule.faders.get? f.key).map (·.generation) =
        if ∃ t ∈ c.fadeTimes acts s, f.finish ≤ t then none else some f.generation := by
  induction acts generalizing s f with
  | nil =>
    refine ⟨rfl, ?_⟩
    simp [run, fadeTimes, fadeLooks, there]
  | cons a rest ih =>
    obtain ⟨kept, untouched⟩ := untouched
    have sound' := c.run_sound [a] s sound
    have later : ∀ w ∈ c.fadeSetters rest (c.step a s), w.key = f.key →
        c.topology.accepts w = true := by
      intro w inside
      rw [fadeSetters_cons] at works
      exact works w (List.mem_append_right _ inside)
    by_cases look : a = .tickFaders
    · subst look
      have accepted : (f.step? s.now.millis).all
          (fun v => c.topology.accepts (f.setter v)) = true := by
        cases stepped : f.step? s.now.millis with
        | none => rfl
        | some v =>
          refine works (f.setter v) ?_ rfl
          rw [fadeSetters_cons]
          exact List.mem_append_left _ (mem_fadeSetters sound there stepped)
      have after : (c.step .tickFaders s).schedule.faders.get? f.key =
          if f.isFinished s.now.millis then none else some (f.applied s.now.millis) := by
        rw [get?_look sound, there, Option.bind_some, ActiveFader.afterLook, accepted]
        rfl
      simp only [fadeValues_cons, fadeTimes_cons, if_true, List.singleton_append,
        State.fadeValues_eq sound, there, Option.bind_some, ActiveFader.course]
      by_cases ended : f.isFinished s.now.millis = true
      · rw [if_pos ended] at after
        obtain ⟨values, final⟩ := absent_fade sound' after untouched
        have reached : ∃ t ∈ s.now.millis :: c.fadeTimes rest (c.step .tickFaders s),
            f.finish ≤ t := ⟨_, List.mem_cons_self, of_decide_eq_true ended⟩
        refine ⟨?_, ?_⟩
        · rw [if_pos ended]
          exact congrArg _ values
        · rw [if_pos reached]
          exact congrArg _ final
      · rw [if_neg ended] at after
        obtain ⟨values, final⟩ := ih (f := f.applied s.now.millis) sound' after untouched later
        refine ⟨?_, ?_⟩
        · rw [if_neg ended]
          exact congrArg _ values
        · have open' : ¬ f.finish ≤ s.now.millis := fun reached => ended (decide_eq_true reached)
          simp only [List.mem_cons, or_and_right, exists_or, exists_eq_left, open', false_or]
          exact final
    · have after := (kept look).trans there
      obtain ⟨values, final⟩ := ih sound' after untouched later
      rw [fadeValues_cons, fadeTimes_cons, if_neg look, if_neg look]
      exact ⟨values, final⟩

/-- From its registration on a fade repeats no value, ends with its goal, is dropped by the first
look at or after its end and not before, and applies nothing from then on. Each look sets the house
to what the fades apply, and what this one applies is known of its node. A brightness never turns
back. -/
theorem fade_runs_to_its_end (c : Controller) (started : Instant) (earlier acts : List Act)
    (spec : FaderSpec) (s s₀ : State) (f : ActiveFader)
    (reachable : s = c.run earlier (.start c.topology started))
    (registered : s₀ = c.step (.fader spec) s)
    (active : f = .ofSpec spec s.now.millis s.schedule.generation)
    (untouched : c.LeavesFade f.key acts s₀)
    (works : ∀ w ∈ c.fadeSetters acts s₀, w.key = f.key → c.topology.accepts w = true)
    (reached : ∃ t ∈ c.fadeTimes acts s₀, f.finish ≤ t) :
    (c.fadeValues f.key acts s₀).IsChain (· ≠ ·) ∧
    (c.fadeValues f.key acts s₀).getLast? = some spec.values.goal ∧
    (∀ before after, acts = before ++ after →
      ((c.run before s₀).schedule.faders.get? f.key).map (·.generation) =
        (if ∃ t ∈ c.fadeTimes before s₀, f.finish ≤ t then none else some f.generation) ∧
      ((∃ t ∈ c.fadeTimes before s₀, f.finish ≤ t) →
        c.fadeValues f.key after (c.run before s₀) = [])) ∧
    (∀ look ∈ c.fadeLooks acts s₀,
      (c.step .tickFaders look).house = look.house.setAll c.topology 0 look.fadeSetters ∧
      look.fadeSetters.filter (·.key = f.key) = (look.fadeValues f.key).map f.setter ∧
      ∀ v ∈ look.fadeValues f.key,
        (c.step .tickFaders look).house.known? f.key.node f.key.attr = some v) ∧
    ∀ start goal, spec.values = .brightness start goal →
      (c.fadeTimes acts s₀).Pairwise (· ≤ ·) → f.Steady start goal (c.fadeTimes acts s₀) →
      ∃ levels : List UInt8, c.fadeValues f.key acts s₀ = levels.map (fun n => .int n.toNat) ∧
        (start :: levels).Pairwise (Onward start goal) := by
  have sound : s.schedule.Sound := by
    rw [reachable]
    exact c.run_sound earlier _ (c.start_sound started)
  have sound₀ : s₀.schedule.Sound := by
    rw [registered]
    exact c.run_sound [.fader spec] s sound
  have there : s₀.schedule.faders.get? f.key = some f := by
    rw [registered, active]
    exact (Keyed.get?_insert _ _ _ _).trans (if_pos rfl)
  have fresh : f.lastApplied = none := by
    rw [active]
    rfl
  have faithful : f.Faithful := by
    intro last known
    rw [fresh] at known
    cases known
  have course := (fade_in_run sound₀ there untouched works).1
  refine ⟨?_, ?_, ?_, ?_, ?_⟩
  · have chain := ActiveFader.course_chain faithful (c.fadeTimes acts s₀)
    rw [fresh, ← course] at chain
    exact chain
  · have last := ActiveFader.course_reaches_goal faithful reached
    have goal : f.spec.values.goal = spec.values.goal := by
      rw [active]
      rfl
    rw [fresh, ← course, goal] at last
    exact last
  · rintro before after rfl
    obtain ⟨first, second⟩ := leavesFade_append.mp untouched
    have accepted : ∀ w ∈ c.fadeSetters before s₀, w.key = f.key →
        c.topology.accepts w = true := by
      intro w inside
      refine works w ?_
      unfold fadeSetters
      rw [fadeLooks_append, List.flatMap_append]
      exact List.mem_append_left _ inside
    have entry := (fade_in_run sound₀ there first accepted).2
    refine ⟨entry, ?_⟩
    intro ended
    rw [if_pos ended, Option.map_eq_none_iff] at entry
    exact (absent_fade (c.run_sound before s₀ sound₀) entry second).1
  · intro look looked
    have same : ∀ g, s₀.schedule.faders.get? f.key = some g → g.spec = f.spec := by
      intro g found
      rw [Option.some.inj (found.symm.trans there)]
    exact ⟨c.tickFaders_house look, fadeSetters_in_run sound₀ same untouched looked,
      fun v applied => known?_in_run sound₀ same untouched works looked applied⟩
  · intro start goal ends ordered steady
    rw [course]
    refine ActiveFader.course_onward ?_ steady ordered
    rw [active]
    exact ends

theorem fade_runs_to_its_end_dimming :
    let c := ofBulb ⟨"bulb", Device.virtualKind, [], [Attr.brightness], false, []⟩
    let s := State.start c.topology ⟨0, 0⟩
    let spec : FaderSpec := ⟨"lamp", .brightness 10 90, .ofSeconds 1⟩
    let acts : List Act := [.clock ⟨0, 400000000⟩, .tickFaders, .clock ⟨0, 401000000⟩, .tickFaders,
      .clock ⟨5, 0⟩, .tickFaders, .tickFaders]
    (∃ levels : List UInt8,
      c.fadeValues ⟨"lamp", Attr.brightness⟩ acts (c.step (.fader spec) s) =
        levels.map (fun n => .int n.toNat) ∧
      (10 :: levels).Pairwise (Onward 10 90)) ∧
    ∀ look ∈ c.fadeLooks acts (c.step (.fader spec) s),
      ∀ v ∈ look.fadeValues ⟨"lamp", Attr.brightness⟩,
        (c.step .tickFaders look).house.known? "lamp" Attr.brightness = some v := by
  intro c s spec acts
  have steady : (ActiveFader.ofSpec spec s.now.millis s.schedule.generation).Steady 10 90
      (c.fadeTimes acts (c.step (.fader spec) s)) :=
    ⟨by decide +kernel, by decide +kernel, by decide +kernel, by decide +kernel⟩
  obtain ⟨-, -, -, looks, level⟩ := fade_runs_to_its_end c ⟨0, 0⟩ [] acts spec s _ _ rfl rfl rfl
    (by decide +kernel) (by decide +kernel) (by decide +kernel)
  exact ⟨level 10 90 rfl (by decide +kernel) steady, fun look looked => (looks look looked).2.2⟩

end Controller

end HomeControl
