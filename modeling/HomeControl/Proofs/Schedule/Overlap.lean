import HomeControl.Proofs.Schedule.Generation
/-!
Looks at the fades that overlap with everything else. A look takes down the fades that there are, and
then visits each of them: it sets the value, notes it, and drops the fade if it is over. Between any
two of these steps anything may happen, other looks too, so a visit may find another fade on its key
or none. It finds out by the generation.
-/

namespace HomeControl

inductive Stage where
  | apply
  | note (v : Value)
  | close
  | done
  deriving DecidableEq, Repr

/-- One fade on its way through a look, as it was when the look began. -/
structure Visit where
  now : Int
  fade : ActiveFader
  stage : Stage
  deriving DecidableEq, Repr

/-- The visits of all looks so far, in the order in which they were begun. -/
structure Overlap where
  state : State
  visits : List Visit

def Overlap.fade? (o : Overlap) (key : ScheduleKey) : Option ActiveFader :=
  o.state.schedule.faders.get? key

def Overlap.generation? (o : Overlap) (slot : Slot) : Option Nat :=
  o.state.schedule.generationAt? slot

inductive Move where
  | act (a : Act)
  | look
  | visit (index : Nat)

namespace Controller

variable (c : Controller)

def visit (v : Visit) (s : State) : Stage × State :=
  match v.stage with
  | .apply =>
    match v.fade.step? v.now with
    | some value =>
      match s.house.set c.topology (v.fade.setter value) 0 with
      | (.ok _, house) => (.note value, { s with house := house })
      | (.error _, house) => (.close, { s with house := house })
    | none => (.close, s)
  | .note value =>
    (.close, { s with schedule := s.schedule.noteApplied v.fade.key v.fade.generation value })
  | .close => (.done, s.endFade v.now v.fade)
  | .done => (.done, s)

def begin (s : State) : List Visit :=
  s.schedule.fadersInOrder.map (⟨s.now.millis, ·, .apply⟩)

def move (m : Move) (o : Overlap) : Overlap :=
  match m with
  | .act a => { o with state := c.step a o.state }
  | .look => { o with visits := o.visits ++ begin o.state }
  | .visit i =>
    match o.visits[i]? with
    | some v =>
      let (stage, s) := c.visit v o.state
      ⟨s, o.visits.set i { v with stage := stage }⟩
    | none => o

def goOn (moves : List Move) (o : Overlap) : Overlap :=
  moves.foldl (fun o m => c.move m o) o

theorem goOn_append (before after : List Move) (o : Overlap) :
    c.goOn (before ++ after) o = c.goOn after (c.goOn before o) :=
  List.foldl_append

/-- A visit changes a fade only if it stands on the key of the visit with the generation of the
visit. It notes a value for this fade, or drops it as its time is over. -/
theorem visit_changes (v : Visit) (s : State) (key : ScheduleKey) :
    (c.visit v s).2.schedule.faders.get? key = s.schedule.faders.get? key ∨
      key = v.fade.key ∧ ∃ f, s.schedule.faders.get? key = some f ∧
        f.generation = v.fade.generation ∧
        ((∃ value, (c.visit v s).2.schedule.faders.get? key =
            some (f.withLast (some value))) ∨
          v.fade.isFinished v.now = true ∧ (c.visit v s).2.schedule.faders.get? key = none) := by
  unfold visit
  cases v.stage with
  | apply =>
    left
    cases v.fade.step? v.now with
    | none => rfl
    | some value =>
      dsimp only
      split <;> rfl
  | note value =>
    simp only [Schedule.get?_noteApplied]
    cases found : s.schedule.faders.get? key with
    | none => exact Or.inl rfl
    | some f =>
      simp only [Option.map_some]
      by_cases own : v.fade.key = key ∧ f.generation = v.fade.generation
      · rw [if_pos own]
        exact Or.inr ⟨own.1.symm, f, rfl, own.2, Or.inl ⟨value, rfl⟩⟩
      · rw [if_neg own]
        exact Or.inl rfl
  | close =>
    simp only [State.schedule_endFade]
    by_cases finished : v.fade.isFinished v.now = true
    · rw [if_pos finished, Schedule.get?_dropFader]
      cases found : s.schedule.faders.get? key with
      | none => exact Or.inl rfl
      | some f =>
        simp only [Option.bind_some]
        by_cases own : v.fade.key = key ∧ f.generation = v.fade.generation
        · rw [if_pos own]
          exact Or.inr ⟨own.1.symm, f, rfl, own.2, Or.inr ⟨finished, rfl⟩⟩
        · rw [if_neg own]
          exact Or.inl rfl
    · rw [if_neg finished]
      exact Or.inl rfl
  | done => exact Or.inl rfl

theorem visit_replays (v : Visit) (s : State) :
    ∃ ops, (c.visit v s).2.schedule = s.schedule.replay ops := by
  unfold visit
  cases v.stage with
  | apply =>
    refine ⟨[], ?_⟩
    cases v.fade.step? v.now with
    | none => rfl
    | some value =>
      dsimp only
      split <;> rfl
  | note value => exact ⟨[.note v.fade.key v.fade.generation value], rfl⟩
  | close =>
    simp only [State.schedule_endFade]
    split
    · exact ⟨[.drop v.fade.key v.fade.generation], rfl⟩
    · exact ⟨[], rfl⟩
  | done => exact ⟨[], rfl⟩

theorem move_replays (m : Move) (o : Overlap) :
    ∃ ops, (c.move m o).state.schedule = o.state.schedule.replay ops := by
  cases m with
  | act a => exact ⟨c.journal a o.state, c.step_schedule a o.state⟩
  | look => exact ⟨[], rfl⟩
  | visit i =>
    simp only [move]
    cases o.visits[i]? with
    | none => exact ⟨[], rfl⟩
    | some v => exact c.visit_replays v o.state

theorem move_keeps_visit (m : Move) {o : Overlap} {i : Nat} {v : Visit}
    (there : o.visits[i]? = some v) :
    ∃ stage, (c.move m o).visits[i]? = some { v with stage := stage } := by
  cases m with
  | act a => exact ⟨v.stage, there⟩
  | look =>
    obtain ⟨inside, -⟩ := List.getElem?_eq_some_iff.mp there
    exact ⟨v.stage, (List.getElem?_append_left inside).trans there⟩
  | visit j =>
    simp only [move]
    cases visited : o.visits[j]? with
    | none => exact ⟨v.stage, there⟩
    | some w =>
      by_cases same : j = i
      · subst same
        rw [there] at visited
        cases visited
        obtain ⟨inside, -⟩ := List.getElem?_eq_some_iff.mp there
        exact ⟨_, List.getElem?_set_self inside⟩
      · exact ⟨v.stage, (List.getElem?_set_ne same).trans there⟩

theorem visit_thrice (now : Int) (f : ActiveFader) (before after : List Visit) (s : State) :
    c.goOn (List.replicate 3 (.visit before.length)) ⟨s, before ++ ⟨now, f, .apply⟩ :: after⟩ =
      ⟨c.stepFader now s f, before ++ ⟨now, f, .done⟩ :: after⟩ := by
  have steps : ∀ (stage : Stage) (s : State),
      c.move (.visit before.length) ⟨s, before ++ ⟨now, f, stage⟩ :: after⟩ =
        ⟨(c.visit ⟨now, f, stage⟩ s).2, before ++ ⟨now, f, (c.visit ⟨now, f, stage⟩ s).1⟩ :: after⟩ := by
    intro stage s
    simp [move, List.set_append_right]
  simp only [goOn, List.replicate, List.foldl_cons, List.foldl_nil, steps]
  unfold visit stepFader
  cases f.step? now with
  | none => rfl
  | some value =>
    dsimp only [ActiveFader.setter]
    cases s.house.set c.topology ⟨f.spec.node, f.spec.attr, some value⟩ 0 with
    | mk answer house =>
      cases answer with
      | ok _ => rfl
      | error e => rfl

theorem visits_in_turn (now : Int) (fades : List ActiveFader) (before : List Visit) (s : State) :
    (c.goOn ((List.range' before.length fades.length).flatMap fun i => List.replicate 3 (.visit i))
      ⟨s, before ++ fades.map (⟨now, ·, .apply⟩)⟩).state = fades.foldl (c.stepFader now) s := by
  induction fades generalizing before s with
  | nil => rfl
  | cons f rest ih =>
    have next := ih (before ++ [⟨now, f, .done⟩]) (c.stepFader now s f)
    rw [List.length_append, List.length_singleton, List.append_assoc] at next
    rw [List.length_cons, List.range'_succ, List.flatMap_cons, goOn_append, List.map_cons,
      visit_thrice]
    exact next

def alone (o : Overlap) : List Move :=
  .look :: (List.range' o.visits.length o.state.schedule.fadersInOrder.length).flatMap
    fun i => List.replicate 3 (.visit i)

theorem look_alone (o : Overlap) : (c.goOn (alone o) o).state = c.tickFaders o.state :=
  c.visits_in_turn o.state.now.millis o.state.schedule.fadersInOrder o.visits o.state

theorem goOn_replays (moves : List Move) (o : Overlap) :
    ∃ ops, (c.goOn moves o).state.schedule = o.state.schedule.replay ops := by
  induction moves generalizing o with
  | nil => exact ⟨[], rfl⟩
  | cons m rest ih =>
    obtain ⟨first, now⟩ := c.move_replays m o
    obtain ⟨others, later⟩ := ih (c.move m o)
    refine ⟨first ++ others, ?_⟩
    rw [Schedule.replay_append, ← now]
    exact later

theorem goOn_keeps_visit (moves : List Move) {o : Overlap} {i : Nat} {v : Visit}
    (there : o.visits[i]? = some v) :
    ∃ stage, (c.goOn moves o).visits[i]? = some { v with stage := stage } := by
  induction moves generalizing o v with
  | nil => exact ⟨v.stage, there⟩
  | cons m rest ih =>
    obtain ⟨stage, kept⟩ := c.move_keeps_visit m there
    obtain ⟨last, left⟩ := ih kept
    exact ⟨last, left⟩

theorem goOn_distinct (started : Instant) (moves : List Move) :
    (c.goOn moves ⟨.start c.topology started, []⟩).state.schedule.Distinct := by
  obtain ⟨ops, same⟩ := c.goOn_replays moves ⟨.start c.topology started, []⟩
  rw [same]
  exact Schedule.replay_distinct Schedule.empty_distinct ops

theorem goOn_sound (started : Instant) (moves : List Move) :
    (c.goOn moves ⟨.start c.topology started, []⟩).state.schedule.Sound := by
  obtain ⟨ops, same⟩ := c.goOn_replays moves ⟨.start c.topology started, []⟩
  rw [same]
  exact Schedule.replay_sound (c.start_sound started) ops

theorem fade_since {o : Overlap} {moves : List Move} {key : ScheduleKey} {f : ActiveFader}
    (there : (c.goOn moves o).fade? key = some f)
    (old : f.generation < o.state.schedule.generation) :
    ∃ last, o.fade? key = some (f.withLast last) := by
  obtain ⟨ops, same⟩ := c.goOn_replays moves o
  rw [Overlap.fade?, same] at there
  exact Schedule.fader_of_replay there old

theorem goOn_stays_away {o : Overlap} {slot : Slot} {generation : Nat}
    (given : generation < o.state.schedule.generation)
    (away : o.generation? slot ≠ some generation) (moves : List Move) :
    (c.goOn moves o).generation? slot ≠ some generation := by
  obtain ⟨ops, same⟩ := c.goOn_replays moves o
  rw [Overlap.generation?, same]
  exact Schedule.stays_away ops given away

theorem goOn_generation_le (moves : List Move) (o : Overlap) :
    o.state.schedule.generation ≤ (c.goOn moves o).state.schedule.generation := by
  obtain ⟨ops, same⟩ := c.goOn_replays moves o
  rw [same]
  exact Schedule.generation_le_replay _ ops

/-- A visit, however late, changes its own fade only, and only if this has stood there since. -/
theorem visit_touches_own {o : Overlap} {v : Visit}
    (stood : o.fade? v.fade.key = some v.fade)
    (given : v.fade.generation < o.state.schedule.generation) (between : List Move)
    (key : ScheduleKey) :
    let s := (c.goOn between o).state
    (c.visit v s).2.schedule.faders.get? key = s.schedule.faders.get? key ∨
      key = v.fade.key ∧
      (∀ earlier later, between = earlier ++ later →
        ∃ last, (c.goOn earlier o).fade? key = some (v.fade.withLast last)) ∧
      ((∃ value, (c.visit v s).2.schedule.faders.get? key =
          some (v.fade.withLast (some value))) ∨
        v.fade.isFinished v.now = true ∧ (c.visit v s).2.schedule.faders.get? key = none) := by
  intro s
  rcases c.visit_changes v s key with same | ⟨rfl, f, there, own, change⟩
  · exact Or.inl same
  · -- A fade with the generation of the visit can only be the one that stood there at first.
    obtain ⟨last, was⟩ := c.fade_since there (own ▸ given)
    rw [stood] at was
    have same : ∀ x, f.withLast x = v.fade.withLast x := by
      intro x
      rw [Option.some.inj was]
      rfl
    refine Or.inr ⟨rfl, ?_, ?_⟩
    · rintro earlier later rfl
      change (c.goOn (earlier ++ later) o).fade? v.fade.key = some f at there
      rw [goOn_append] at there
      have old : f.generation < (c.goOn earlier o).state.schedule.generation :=
        own ▸ Nat.lt_of_lt_of_le given (c.goOn_generation_le earlier o)
      obtain ⟨before, stands⟩ := c.fade_since there old
      exact ⟨before, same before ▸ stands⟩
    · simpa only [same] using change

theorem mem_begin_of_begun {o : Overlap} {i : Nat} {v : Visit} (since : o.visits.length ≤ i)
    (begun : (c.move .look o).visits[i]? = some v) : v ∈ begin o.state := by
  rw [show (c.move .look o).visits = o.visits ++ begin o.state from rfl,
    List.getElem?_append_right since] at begun
  exact List.mem_of_getElem? begun

theorem begun_stood {o : Overlap} (sound : o.state.schedule.Sound) {i : Nat} {v : Visit}
    (since : o.visits.length ≤ i) (begun : (c.move .look o).visits[i]? = some v) :
    o.fade? v.fade.key = some v.fade := by
  obtain ⟨f, seen, rfl⟩ := List.mem_map.mp (c.mem_begin_of_begun since begun)
  exact (Schedule.mem_fadersInOrder sound f).mp seen

/-- Work that is not at its place any more does not come back, there or elsewhere. -/
theorem gone_for_good {o : Overlap} (distinct : o.state.schedule.Distinct) {slot : Slot}
    {generation : Nat} (there : o.generation? slot = some generation) (moves : List Move)
    (gone : (c.goOn moves o).generation? slot ≠ some generation) (rest : List Move)
    (slot' : Slot) : (c.goOn rest (c.goOn moves o)).generation? slot' ≠ some generation := by
  have given : generation < o.state.schedule.generation := distinct.given slot _ there
  -- At first the generation was at `slot` only.
  have away : (c.goOn moves o).generation? slot' ≠ some generation := by
    by_cases same : slot' = slot
    · rw [same]
      exact gone
    · refine c.goOn_stays_away given ?_ moves
      exact fun here => same (distinct.once slot' slot generation here there)
  exact c.goOn_stays_away (Nat.lt_of_lt_of_le given (c.goOn_generation_le moves o)) away rest

/-- Alone a look is what `tickFaders` does. One that overlaps with whatever else, other looks too,
leaves alone what it did not see. A visit belongs to a fade that stood there when the look began.
What it changes, if anything, is this fade, which has stood there ever since: it notes a value for it,
or drops it as its time is over. So a fade that was not there when the look began is not touched,
whatever its key. Work that was cancelled or replaced does not come back at any place. -/
theorem look_touches_own_fades (started : Instant) (moves between : List Move) :
    let o₀ := c.goOn moves ⟨.start c.topology started, []⟩
    let o₁ := c.move .look o₀
    let o₂ := c.goOn between o₁
    (c.goOn (alone o₀) o₀).state = c.tickFaders o₀.state ∧
    (∀ i v, o₀.visits.length ≤ i → o₁.visits[i]? = some v →
      let o₃ := c.move (.visit i) o₂
      o₀.fade? v.fade.key = some v.fade ∧
      (∀ key, o₃.fade? key = o₂.fade? key ∨
        key = v.fade.key ∧
        (∀ earlier later, between = earlier ++ later →
          ∃ last, (c.goOn earlier o₁).fade? key = some (v.fade.withLast last)) ∧
        ((∃ value, o₃.fade? key = some (v.fade.withLast (some value))) ∨
          v.fade.isFinished v.now = true ∧ o₃.fade? key = none)) ∧
      ∀ key f, o₂.fade? key = some f →
        o₀.generation? (.fade key) ≠ some f.generation →
        o₃.fade? key = some f) ∧
    ∀ slot generation, o₀.generation? slot = some generation →
      o₂.generation? slot ≠ some generation →
      ∀ rest slot', (c.goOn rest o₂).generation? slot' ≠ some generation := by
  intro o₀ o₁ o₂
  have distinct : o₀.state.schedule.Distinct := c.goOn_distinct started moves
  refine ⟨c.look_alone o₀, ?_, ?_⟩
  · intro i v since begun o₃
    have stood : o₀.fade? v.fade.key = some v.fade :=
      c.begun_stood (c.goOn_sound started moves) since begun
    have placed : o₀.generation? (.fade v.fade.key) = some v.fade.generation :=
      congrArg (Option.map _) stood
    obtain ⟨stage, still⟩ := c.goOn_keeps_visit between begun
    have visited : o₃.state = (c.visit { v with stage := stage } o₂.state).2 := by
      simp only [o₃, move]
      rw [still]
    have own := c.visit_touches_own (o := o₁) (v := { v with stage := stage }) stood
      (distinct.given _ _ placed) between
    dsimp only at own
    rw [← visited] at own
    refine ⟨stood, own, ?_⟩
    intro key g there later
    rcases own key with same | ⟨rfl, ever, -⟩
    · exact same.trans there
    · obtain ⟨last, stands⟩ := ever between [] (List.append_nil _).symm
      rw [there] at stands
      cases stands
      exact absurd placed later
  · intro slot generation there gone
    exact c.gone_for_good distinct there (.look :: between) gone

/-- A fade that is started anew while a look visits the old one is left as it is. -/
example :
    let c := ofBulb ⟨"bulb", Device.virtualKind, [], [Attr.brightness], false, []⟩
    let fade : Move := .act (.fader ⟨"lamp", .brightness 0 100, ⟨0⟩⟩)
    let moves : List Move := [fade, .look, .visit 0, fade, .visit 0, .visit 0]
    (c.goOn moves ⟨.start c.topology ⟨0, 0⟩, []⟩).state.schedule.faders.values.map
      (fun f => (f.generation, f.lastApplied)) = [(2, none)] := by
  decide +kernel

end Controller

end HomeControl
