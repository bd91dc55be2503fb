import HomeControl.Proofs.Schedule.FaderTick
/-!
The journal of a run: the operations on the schedule that it comes down to. Each act has its part of
it, which follows from the act and the state before, and the schedule after a run is what the
journal makes of the schedule before. So what is shown of single operations holds in every run.
-/

namespace HomeControl

/-- One operation on a schedule. A setting that succeeded cancels the work on its key. -/
inductive ScheduleOp where
  | fade (spec : FaderSpec) (now : Int)
  | shoot (timed : TimedSetter)
  | set (w : Setter)
  | cancel (key : ScheduleKey)
  | take (now : Int) (key : ScheduleKey)
  | note (key : ScheduleKey) (generation : Nat) (v : Value)
  | drop (key : ScheduleKey) (generation : Nat)
  | look (now : Instant)
  deriving DecidableEq, Repr

def ScheduleOp.apply (o : ScheduleOp) (t : Schedule) : Schedule :=
  match o with
  | .fade spec now => t.addFader spec now
  | .shoot timed => t.addSingle timed
  | .set w => t.cancel w.key
  | .cancel key => t.cancel key
  | .take now key => ((t.takeDue? key now).map (·.2)).getD t
  | .note key generation v => t.noteApplied key generation v
  | .drop key generation => t.dropFader key generation
  | .look now => { t with lastTick := some now }

theorem ScheduleOp.apply_sound {t : Schedule} (h : t.Sound) (o : ScheduleOp) :
    (o.apply t).Sound := by
  cases o with
  | fade spec now => exact Schedule.addFader_sound h spec now
  | shoot timed => exact Schedule.addSingle_sound h timed
  | set w => exact Schedule.cancel_sound h w.key
  | cancel key => exact Schedule.cancel_sound h key
  | take now key =>
    cases taken : t.takeDue? key now with
    | none => simpa [apply, taken] using h
    | some found =>
      obtain ⟨shot, after⟩ := found
      obtain ⟨-, -, rfl⟩ := Schedule.takeDue?_eq_some taken
      simpa [apply, taken] using Schedule.eraseSingle_sound h key
  | note key generation v => exact Schedule.noteApplied_sound h key generation v
  | drop key generation => exact Schedule.dropFader_sound h key generation
  | look now => exact ⟨h.fadersOnce, h.singlesOnce, h.fader, h.single⟩

namespace Schedule

def replay (t : Schedule) (ops : List ScheduleOp) : Schedule :=
  ops.foldl (fun t o => o.apply t) t

theorem replay_append (t : Schedule) (before after : List ScheduleOp) :
    t.replay (before ++ after) = (t.replay before).replay after :=
  List.foldl_append

theorem replay_sound {t : Schedule} (h : t.Sound) (ops : List ScheduleOp) :
    (t.replay ops).Sound := by
  induction ops generalizing t with
  | nil => exact h
  | cons o rest ih => exact ih (o.apply_sound h)

theorem replay_cons (t : Schedule) (o : ScheduleOp) (rest : List ScheduleOp) :
    t.replay (o :: rest) = (o.apply t).replay rest := rfl

theorem takeAllDue_schedule (t : Schedule) (now : Int) (keys : List ScheduleKey) :
    (t.takeAllDue now keys).2 = t.replay (keys.map (.take now)) := by
  induction keys generalizing t with
  | nil => rfl
  | cons key rest ih =>
    simp only [takeAllDue, List.map_cons, replay_cons, ScheduleOp.apply]
    cases taken : t.takeDue? key now with
    | none => exact ih t
    | some found => exact ih found.2

end Schedule

namespace State

variable (t : Topology)

theorem readAll_schedule (depth : Nat) (gs : List Getter) (s : State) :
    (s |> readAll t depth gs).2.schedule = s.schedule ∧
      (s |> readAll t depth gs).2.now = s.now := by
  induction gs generalizing s with
  | nil => exact ⟨rfl, rfl⟩
  | cons g rest ih => exact ih (s.read t depth g).2

def settingOps (ws : List Setter) : List ScheduleOp :=
  (ws.filter t.accepts).map .set

theorem writeAll_schedule (depth : Nat) (ws : List Setter) (s : State) :
    (s |> writeAll t depth ws).2.schedule = s.schedule.replay (settingOps t ws) ∧
      (s |> writeAll t depth ws).2.now = s.now := by
  induction ws generalizing s with
  | nil => exact ⟨rfl, rfl⟩
  | cons w rest ih =>
    simp only [writeAll, write]
    cases call : s.house.set t w depth with
    | mk answer house =>
      cases answer with
      | ok _ =>
        have step : settingOps t (w :: rest) = .set w :: settingOps t rest := by
          simp [settingOps, House.accepts_of_ok call]
        rw [step]
        exact ih ⟨house, s.schedule.cancel w.key, s.now⟩
      | error e =>
        have step : settingOps t (w :: rest) = settingOps t rest := by
          simp [settingOps, House.refuses_of_error call]
        rw [step]
        exact ih { s with house := house }

def enlistOps (now : Int) (faders : List FaderSpec) (timed : List TimedSetter) :
    List ScheduleOp :=
  faders.map (.fade · now) ++ timed.map .shoot

theorem enlist_schedule (s : State) (faders : List FaderSpec) (timed : List TimedSetter) :
    (s.enlist faders timed).schedule =
      s.schedule.replay (enlistOps s.now.millis faders timed) := by
  simp only [enlist, Schedule.replay, enlistOps, List.foldl_append, List.foldl_map]
  rfl

def planOps (now : Int) (p : Plan) : List ScheduleOp :=
  settingOps t (Setter.survivors p.setters) ++ enlistOps now p.faders p.timed

theorem execute_schedule (depth : Nat) (p : Plan) (s : State) :
    (s.execute t depth p).2.schedule = s.schedule.replay (planOps t s.now.millis p) := by
  have read := readAll_schedule t depth p.getters.eraseDups s
  have written := writeAll_schedule t depth (Setter.survivors p.setters)
    (s |> readAll t depth p.getters.eraseDups).2
  rw [read.1, read.2] at written
  unfold planOps
  rw [Schedule.replay_append, ← written.1, ← written.2]
  exact enlist_schedule _ p.faders p.timed

end State

namespace Controller

variable (c : Controller)

def orderOps (o : Order) (s : State) : List ScheduleOp :=
  match o with
  | .command text timed => State.planOps c.topology s.now.millis (c.compile timed text s)
  | .setter w => State.planOps c.topology s.now.millis (.ofSetters [w])

theorem perform_schedule (depth : Nat) (o : Order) (s : State) :
    (c.perform depth o s).2.schedule = s.schedule.replay (c.orderOps o s) := by
  cases o with
  | command text timed => exact State.execute_schedule c.topology depth _ s
  | setter w => exact State.execute_schedule c.topology depth _ s

def ordersOps (c : Controller) (depth : Nat) : List Order → State → List ScheduleOp
  | [], _ => []
  | o :: rest, s =>
    if c.canPerform o s then c.orderOps o s ++ c.ordersOps depth rest (c.perform depth o s).2
    else []

theorem performAll_schedule (depth : Nat) (orders : List Order) (s : State) :
    (c.performAll depth orders s).state.schedule =
      s.schedule.replay (c.ordersOps depth orders s) := by
  induction orders generalizing s with
  | nil => rfl
  | cons o rest ih =>
    simp only [performAll, ordersOps]
    split
    · rw [Schedule.replay_append, ← perform_schedule]
      exact ih _
    · rfl

def faderOps (now : Int) (f : ActiveFader) : List ScheduleOp :=
  ((f.step? now).toList.filter fun v => c.topology.accepts (f.setter v)).map
      (.note f.key f.generation) ++
    if f.isFinished now then [.drop f.key f.generation] else []

theorem stepFader_schedule (now : Int) (s : State) (f : ActiveFader) :
    (c.stepFader now s f).schedule = s.schedule.replay (c.faderOps now f) := by
  have applied : ((f.step? now).elim s (s.applyFade c.topology f)).schedule =
      s.schedule.replay (((f.step? now).toList.filter fun v => c.topology.accepts (f.setter v)).map
        (.note f.key f.generation)) := by
    cases f.step? now with
    | none => rfl
    | some v =>
      simp only [Option.elim_some, State.applyFade, Option.toList_some, List.filter_cons,
        List.filter_nil]
      split <;> rfl
  rw [stepFader_eq, State.schedule_endFade, applied]
  unfold faderOps
  rw [Schedule.replay_append]
  split <;> rfl

theorem tickFaders_schedule (s : State) :
    (c.tickFaders s).schedule =
      s.schedule.replay (s.schedule.fadersInOrder.flatMap (c.faderOps s.now.millis)) := by
  unfold tickFaders
  generalize s.schedule.fadersInOrder = fades, s.now.millis = now
  induction fades generalizing s with
  | nil => rfl
  | cons f rest ih =>
    rw [List.foldl_cons, ih, List.flatMap_cons, Schedule.replay_append, stepFader_schedule]

def journal (a : Act) (s : State) : List ScheduleOp :=
  match a with
  | .command timed depth text => c.ordersOps depth [.command text timed] s
  | .plan _ p => State.planOps c.topology s.now.millis p
  | .get _ _ => []
  | .set _ _ => []
  | .fader spec => [.fade spec s.now.millis]
  | .single timed => [.shoot timed]
  | .cancel key => [.cancel key]
  | .clock _ => []
  | .tickTimers =>
    .look s.now ::
      ((c.tickTimers s).1.map fun orders => c.ordersOps 0 orders (c.tickTimers s).2).getD []
  | .tickFaders => s.schedule.fadersInOrder.flatMap (c.faderOps s.now.millis)
  | .tickSingles =>
    (s.schedule.dueKeys s.now.millis).map (.take s.now.millis) ++
      c.ordersOps 0 (tickSingles s).1 (tickSingles s).2

theorem step_schedule (a : Act) (s : State) :
    (c.step a s).schedule = s.schedule.replay (c.journal a s) := by
  cases a with
  | command timed depth text => exact c.performAll_schedule depth _ s
  | plan depth p => exact State.execute_schedule c.topology depth p s
  | tickTimers =>
    simp only [step, fireTimers, journal, Schedule.replay_cons]
    cases found : c.tickTimers s with
    | mk orders after =>
      have looked : after.schedule = ScheduleOp.apply (.look s.now) s.schedule := by
        rw [← show (c.tickTimers s).2 = after by rw [found]]
        rfl
      cases orders with
      | none => exact looked
      | some orders =>
        rw [← looked]
        exact c.performAll_schedule 0 orders after
  | tickFaders => exact c.tickFaders_schedule s
  | tickSingles =>
    have taken : (tickSingles s).2.schedule =
        s.schedule.replay ((s.schedule.dueKeys s.now.millis).map (.take s.now.millis)) :=
      s.schedule.takeAllDue_schedule s.now.millis _
    simp only [step, fireSingles, journal, Schedule.replay_append, ← taken]
    exact c.performAll_schedule 0 _ _
  | _ => rfl

def fullJournal (c : Controller) : List Act → State → List ScheduleOp
  | [], _ => []
  | a :: rest, s => c.journal a s ++ c.fullJournal rest (c.step a s)

theorem run_schedule (acts : List Act) (s : State) :
    (c.run acts s).schedule = s.schedule.replay (c.fullJournal acts s) := by
  induction acts generalizing s with
  | nil => rfl
  | cons a rest ih =>
    rw [fullJournal, Schedule.replay_append, ← step_schedule]
    exact ih (c.step a s)

/-- What has to be the case for an operation to stand in the journal of an act: only settings that
are carried out cancel, only what is asked to be cancelled is, and setters are taken out only where
the later setters are looked at. -/
def Warrants (a : Act) (s : State) : ScheduleOp → Prop
  | .set w => c.topology.accepts w = true
  | .cancel key => a = .cancel key
  | .take now key =>
    a = .tickSingles ∧ now = s.now.millis ∧ key ∈ s.schedule.dueKeys s.now.millis
  | _ => True

theorem warrants_plan (a : Act) (s : State) {now : Int} {p : Plan} {o : ScheduleOp}
    (h : o ∈ State.planOps c.topology now p) : c.Warrants a s o := by
  simp only [State.planOps, State.settingOps, State.enlistOps, List.mem_append, List.mem_map,
    List.mem_filter] at h
  rcases h with ⟨w, ⟨-, accepted⟩, rfl⟩ | ⟨spec, -, rfl⟩ | ⟨timed, -, rfl⟩
  · exact accepted
  · trivial
  · trivial

theorem warrants_orders (a : Act) (s : State) {depth : Nat} {orders : List Order} {s' : State}
    {o : ScheduleOp} (h : o ∈ c.ordersOps depth orders s') : c.Warrants a s o := by
  induction orders generalizing s' with
  | nil => exact absurd h List.not_mem_nil
  | cons first rest ih =>
    simp only [ordersOps] at h
    split at h
    · rcases List.mem_append.mp h with now | later
      · cases first with
        | command text timed => exact c.warrants_plan a s now
        | setter w => exact c.warrants_plan a s now
      · exact ih later
    · exact absurd h List.not_mem_nil

theorem warrants_fader (a : Act) (s : State) {now : Int} {f : ActiveFader} {o : ScheduleOp}
    (h : o ∈ c.faderOps now f) : c.Warrants a s o := by
  rcases List.mem_append.mp h with noted | dropped
  · obtain ⟨v, -, rfl⟩ := List.mem_map.mp noted
    trivial
  · split at dropped
    · cases List.mem_singleton.mp dropped
      trivial
    · exact absurd dropped List.not_mem_nil

theorem warrants_journal {a : Act} {s : State} {o : ScheduleOp} (h : o ∈ c.journal a s) :
    c.Warrants a s o := by
  cases a with
  | command timed depth text => exact c.warrants_orders _ s h
  | plan depth p => exact c.warrants_plan _ s h
  | get g depth => exact absurd h List.not_mem_nil
  | set w depth => exact absurd h List.not_mem_nil
  | clock now => exact absurd h List.not_mem_nil
  | fader spec =>
    cases List.mem_singleton.mp h
    trivial
  | single timed =>
    cases List.mem_singleton.mp h
    trivial
  | cancel key =>
    cases List.mem_singleton.mp h
    exact rfl
  | tickTimers =>
    rcases List.mem_cons.mp h with rfl | later
    · trivial
    · cases orders : (c.tickTimers s).1 with
      | none =>
        rw [orders] at later
        exact absurd later List.not_mem_nil
      | some orders' =>
        rw [orders] at later
        exact c.warrants_orders _ s later
  | tickFaders =>
    obtain ⟨f, -, inside⟩ := List.mem_flatMap.mp h
    exact c.warrants_fader _ s inside
  | tickSingles =>
    rcases List.mem_append.mp h with taken | later
    · obtain ⟨key, due, rfl⟩ := List.mem_map.mp taken
      exact ⟨rfl, rfl, due⟩
    · exact c.warrants_orders _ s later

theorem warrants_fullJournal {acts : List Act} {s : State} {o : ScheduleOp}
    (h : o ∈ c.fullJournal acts s) : ∃ a ∈ acts, ∃ s', c.Warrants a s' o := by
  induction acts generalizing s with
  | nil => exact absurd h List.not_mem_nil
  | cons a rest ih =>
    rcases List.mem_append.mp h with now | later
    · exact ⟨a, List.mem_cons_self, s, c.warrants_journal now⟩
    · obtain ⟨b, inside, s', warranted⟩ := ih later
      exact ⟨b, List.mem_cons_of_mem _ inside, s', warranted⟩

end Controller

end HomeControl
