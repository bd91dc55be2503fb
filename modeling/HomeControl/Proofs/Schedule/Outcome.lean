import HomeControl.Proofs.Schedule.Batch
import HomeControl.Proofs.Schedule.Journal
/-!
What is scheduled once a plan was carried out. On every key the plan's own fades and later setters
come last; where it has none, the setters that were carried out have cancelled what was there.
-/

namespace HomeControl

def FaderSpec.key (f : FaderSpec) : ScheduleKey :=
  .of f.node f.attr

namespace Schedule

theorem get?_cancelled (ws : List Setter) (t : Schedule) (key : ScheduleKey) :
    (t.replay (ws.map .set)).faders.get? key =
        (if ∃ w ∈ ws, w.key = key then none else t.faders.get? key) ∧
      (t.replay (ws.map .set)).singles.get? key =
        (if ∃ w ∈ ws, w.key = key then none else t.singles.get? key) ∧
      (t.replay (ws.map .set)).generation = t.generation := by
  induction ws generalizing t with
  | nil => simp [replay]
  | cons w rest ih =>
    obtain ⟨fades, shots, generation⟩ := ih (t.cancel w.key)
    rw [List.map_cons, replay_cons, ScheduleOp.apply, fades, shots, generation]
    simp only [cancel, Keyed.get?_erase, List.mem_cons, exists_eq_or_imp]
    by_cases own : w.key = key
    · simp [own]
    · simp [own]

theorem get?_addFader (t : Schedule) (spec : FaderSpec) (now : Int) (key : ScheduleKey) :
    (t.addFader spec now).faders.get? key =
      if spec.key = key then some (.ofSpec spec now t.generation) else t.faders.get? key :=
  Keyed.get?_insert ..

theorem singles_addFaders (now : Int) (specs : List FaderSpec) (t : Schedule) :
    (specs.foldl (fun t spec => t.addFader spec now) t).singles = t.singles := by
  induction specs generalizing t with
  | nil => rfl
  | cons spec rest ih => exact ih (t.addFader spec now)

theorem faders_addSingles (timed : List TimedSetter) (t : Schedule) :
    (timed.foldl addSingle t).faders = t.faders := by
  induction timed generalizing t with
  | nil => rfl
  | cons x rest ih => exact ih (t.addSingle x)

end Schedule

namespace State

variable (t : Topology)

def carriedOut (depth : Nat) : List Setter → State → List Setter
  | [], _ => []
  | w :: rest, s =>
    match s.write t depth w with
    | (.ok _, s) => w :: carriedOut depth rest s
    | (.error _, s) => carriedOut depth rest s

/-- The setters of a plan that no later one overrides and that are carried out. -/
def settled (depth : Nat) (p : Plan) (s : State) : List Setter :=
  carriedOut t depth (Setter.survivors p.setters) (s |> readAll t depth p.getters.eraseDups).2

theorem carriedOut_eq (depth : Nat) (ws : List Setter) (s : State) :
    carriedOut t depth ws s = ws.filter t.accepts := by
  induction ws generalizing s with
  | nil => rfl
  | cons w rest ih =>
    simp only [carriedOut, write, List.filter_cons]
    cases call : s.house.set t w depth with
    | mk answer house =>
      cases answer with
      | ok _ => simp only [House.accepts_of_ok call, if_true, ih]
      | error e => simp only [House.refuses_of_error call, Bool.false_eq_true, if_false, ih]

theorem settingOps_survivors (depth : Nat) (p : Plan) (s : State) :
    settingOps t (Setter.survivors p.setters) = (settled t depth p s).map .set := by
  unfold settingOps settled
  rw [carriedOut_eq]

theorem execute_schedule_eq (depth : Nat) (p : Plan) (s : State) :
    (s.execute t depth p).2.schedule =
      p.timed.foldl .addSingle (p.faders.foldl (fun t spec => t.addFader spec s.now.millis)
        (s.schedule.replay ((settled t depth p s).map .set))) := by
  rw [execute_schedule]
  simp only [planOps, enlistOps, settingOps_survivors t depth p s, Schedule.replay,
    List.foldl_append, List.foldl_map]
  rfl

/-- On every key stands, once a plan was carried out, the last of the fades that it has for the key,
begun then and with nothing applied; without one, nothing if a setter on the key was carried out, and
what stood there before if none was, be it that the plan has none or that it was overridden or failed.
The same is true of the setters for later. -/
theorem execute_schedules (depth : Nat) (p : Plan) (s : State) (key : ScheduleKey) :
    let after := (s.execute t depth p).2.schedule
    (match (p.faders.filter (·.key = key)).getLast? with
      | some spec => ∃ generation, s.schedule.generation ≤ generation ∧
          after.faders.get? key = some (.ofSpec spec s.now.millis generation)
      | none => after.faders.get? key =
          if ∃ w ∈ settled t depth p s, w.key = key then none else s.schedule.faders.get? key) ∧
    (match (p.timed.filter (·.setter.key = key)).getLast? with
      | some timed => ∃ generation, s.schedule.generation ≤ generation ∧
          after.singles.get? key = some ⟨timed.setter, timed.due, generation⟩
      | none => after.singles.get? key =
          if ∃ w ∈ settled t depth p s, w.key = key then none else s.schedule.singles.get? key) := by
  intro after
  obtain ⟨noFade, noShot, generation⟩ :=
    Schedule.get?_cancelled (settled t depth p s) s.schedule key
  have whole : after = _ := execute_schedule_eq t depth p s
  generalize s.schedule.replay ((settled t depth p s).map .set) = cancelled
    at whole noFade noShot generation
  have fades := Schedule.last_registered (fun t spec => t.addFader spec s.now.millis)
    (·.faders.get? ·) (fun _ _ => Nat.le_succ _)
    (fun t spec key => t.get?_addFader spec s.now.millis key) p.faders cancelled key
  have counted := Schedule.generation_foldl (fun t spec => t.addFader spec s.now.millis)
    (fun _ _ => Nat.le_succ _) p.faders cancelled
  have shots := Schedule.last_registered .addSingle (·.singles.get? ·) (fun _ _ => Nat.le_succ _)
    Schedule.get?_addSingle p.timed
    (p.faders.foldl (fun t spec => t.addFader spec s.now.millis) cancelled) key
  rw [generation] at counted
  simp only [generation, Schedule.singles_addFaders] at fades shots
  rw [whole, Schedule.faders_addSingles]
  refine ⟨?_, ?_⟩
  · cases last : (p.faders.filter (·.key = key)).getLast? with
    | some spec =>
      rw [last] at fades
      exact fades
    | none =>
      rw [last] at fades
      exact fades.trans noFade
  · cases last : (p.timed.filter (·.setter.key = key)).getLast? with
    | some timed =>
      rw [last] at shots
      obtain ⟨given, late, found⟩ := shots
      exact ⟨given, counted.trans late, found⟩
    | none =>
      rw [last] at shots
      exact shots.trans noShot

end State

end HomeControl
