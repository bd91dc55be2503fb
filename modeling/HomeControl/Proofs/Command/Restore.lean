import HomeControl.Proofs.Command.Emitted
import HomeControl.Proofs.Command.Expansion
import HomeControl.Proofs.House.Configured
import HomeControl.Proofs.Schedule.Batch
import HomeControl.Proofs.Schedule.Journal
/-!
Settings for a while. A command that sets something for a time puts back what was known before, or
the value at rest, where the device carries out the setter that does so; whether it can is not
looked at when the command is understood.
-/

namespace HomeControl

open Text

namespace Situation

/-- The setters of a text that is one `set` command, and the words of its time. -/
def timedSet? (s : Situation) (timed : Bool) (text : String) : Option (Draft × List String) :=
  match commandsOf text with
  | [one] =>
    match words one with
    | "set" :: rest =>
      match s.targets timed rest with
      | ([], _) => none
      | (nodes, rest) =>
        match s.readParts nodes rest with
        | (draft, some time) => some (draft, time)
        | (_, none) => none
    | _ => none
  | _ => none

variable {s : Situation}

theorem batch_of_timedSet? {timed : Bool} {text : String} {draft : Draft} {time : List String}
    (h : s.timedSet? timed text = some (draft, time)) (expand : List String → Plan) :
    s.batch timed expand text =
      { s.readModifier draft.setters time with
        errors := draft.errors ++ (s.readModifier draft.setters time).errors } := by
  unfold timedSet? at h
  split at h
  · rename_i one commands
    split at h
    · rename_i rest spoken
      split at h
      · cases h
      · rename_i nodes rest' some' targets
        split at h
        · rename_i draft' time' parts
          cases h
          have plan : s.command timed expand one =
              { s.readModifier draft.setters time with
                errors := draft.errors ++ (s.readModifier draft.setters time).errors } := by
            simp only [command, spoken, set, targets, setNodes_eq, parts]
          simp only [batch, commands, List.foldl_cons, List.foldl_nil, Plan.empty_merge, plan]
        · cases h
    · cases h
  · cases h

def undo (s : Situation) (w : Setter) : Setter :=
  match s.previous w with
  | .ok back => back
  | .error _ => w

theorem restore_of_clean {ws : List Setter} {due : Int} (clean : (s.restore ws due).errors = []) :
    (∀ w ∈ ws, s.previous w = .ok (s.undo w)) ∧
      s.restore ws due = { setters := ws, timed := ws.map fun w => ⟨s.undo w, due⟩ } := by
  have backs : ∀ (l : List Setter) (p : Plan), (l.foldl (s.restoreOne due) p).errors = [] →
      p.errors = [] ∧ (∀ w ∈ l, s.previous w = .ok (s.undo w)) ∧
        l.foldl (s.restoreOne due) p =
          { p with timed := p.timed ++ l.map fun w => ⟨s.undo w, due⟩ } := by
    intro l
    induction l with
    | nil =>
      intro p none
      exact ⟨none, fun _ inside => absurd inside List.not_mem_nil, by simp⟩
    | cons w rest ih =>
      intro p none
      obtain ⟨before, others, fold⟩ := ih (s.restoreOne due p w) none
      unfold restoreOne at before fold
      cases found : s.previous w with
      | error e =>
        rw [found] at before
        exact absurd before (by simp [Plan.note])
      | ok back =>
        have own : s.undo w = back := by
          unfold undo
          rw [found]
        rw [found] at before fold
        refine ⟨before, List.forall_mem_cons.mpr ⟨own ▸ found, others⟩, ?_⟩
        rw [List.foldl_cons]
        unfold restoreOne
        rw [found, fold, List.map_cons, own, List.append_assoc]
        rfl
  obtain ⟨-, found, fold⟩ := backs ws .empty clean
  refine ⟨found, ?_⟩
  unfold restore
  rw [fold]
  rfl

/-- A command that sets something for a while, and means no error, sets and undoes. -/
theorem compile_of_timedSet? {timed : Bool} {text keyword : String} {draft : Draft}
    {more : List String} (h : s.timedSet? timed text = some (draft, keyword :: more))
    (restoring : keyword = "for" ∨ keyword = "until")
    (clean : (s.compile timed text).errors = []) :
    ∃ due, s.compile timed text = s.restore draft.setters due := by
  have batch := batch_of_timedSet? h (s.expand timed [])
  have plan : s.compile timed text = s.batch timed (s.expand timed []) text := by
    simp only [compile] at clean ⊢
    split
    · rename_i nothing
      rw [if_pos nothing] at clean
      exact absurd clean (by simp [Plan.note])
    · rfl
  rw [plan, batch] at clean
  obtain ⟨spoken, modified⟩ := List.append_eq_nil_iff.mp clean
  have same : s.compile timed text = s.readModifier draft.setters (keyword :: more) := by
    rw [plan, batch, spoken]
    rfl
  rw [same]
  have known : Word.isTimeKeyword keyword = true := by
    rcases restoring with rfl | rfl
    · decide
    · decide
  unfold readModifier at modified ⊢
  simp only [known, if_true] at modified ⊢
  cases more with
  | nil => exact absurd modified (by simp [Plan.failure])
  | cons word rest =>
    obtain ⟨timely, nothing⟩ := List.append_eq_nil_iff.mp modified
    have whole : ∀ p : Plan, { p with errors := p.errors ++ leftover rest } = p := by
      intro p
      rw [nothing, List.append_nil]
    simp only [whole]
    rcases restoring with rfl | rfl
    · unfold modify at timely ⊢
      cases time : s.timeIn word with
      | ok due => exact ⟨due, rfl⟩
      | error e =>
        rw [time] at timely
        exact absurd timely (by simp [Except.map, Plan.failure])
    · unfold modify at timely ⊢
      cases time : s.timeAt word with
      | ok due => exact ⟨due, rfl⟩
      | error e =>
        rw [time] at timely
        exact absurd timely (by simp [Except.map, Plan.failure])

end Situation

/-- What should be known of the target of a setter once it is undone: what was known before, or the
value at rest. A flip leaves unknown what was unknown. -/
def Setter.baseline (w : Setter) (known : Option Value) : Option Value :=
  if w.attr = Attr.flip then known else known.or (Attr.restValue? w.attr)

theorem Situation.previous_undoes {s : Situation} {w back : Setter}
    (solid : ∀ v, s.known w.node w.attr = some v → v ≠ .null) (h : s.previous w = .ok back) :
    back.node = w.node ∧ back.target = w.target ∧
      back.outcome (w.outcome (s.known w.node w.target)) =
        w.baseline (s.known w.node w.target) := by
  by_cases flip : w.attr = Attr.flip
  · have own : back = .flip w.node := by
      unfold previous at h
      rw [if_pos flip] at h
      cases h
      rfl
    subst own
    have target : w.target = Attr.state := if_pos flip
    refine ⟨rfl, target.symm, ?_⟩
    have turned : ∀ known, w.outcome known = (Setter.flip w.node).outcome known := by
      intro known
      unfold Setter.outcome
      rw [if_pos flip]
      rfl
    rw [turned, Setter.outcome_flip_flip, Setter.baseline, if_pos flip]
  · have target := Setter.target_eq flip
    have kept : (s.known w.node w.attr).filter (!·.isNull) = s.known w.node w.attr := by
      cases known : s.known w.node w.attr with
      | none => rfl
      | some v =>
        have : v.isNull = false := by
          cases v with
          | null => exact absurd rfl (solid _ known)
          | _ => rfl
        simp [Option.filter, this]
    rw [s.previous_eq flip, kept] at h
    split at h
    · rename_i v found
      cases h
      refine ⟨rfl, (Setter.target_eq flip).trans target.symm, ?_⟩
      rw [target, Setter.baseline, if_neg flip, found]
      exact Setter.outcome_eq (w := ⟨w.node, w.attr, some v⟩) flip _
    · cases h

def House.Solid (h : House) : Prop :=
  ∀ node attr v, h.known? node attr = some v → v ≠ .null

theorem Value.covers_solid : Value.Covers fun _ v => v ≠ .null where
  state _ := by intro h; cases h
  brightness _ := by intro h; cases h
  color _ := by intro h; cases h

namespace House

theorem get_solid {t : Topology} {h : House} (solid : h.Solid) (node attr : String) (depth : Nat) :
    (h.get t node attr depth).2.Solid := by
  intro n a v known
  rcases known?_get t h node attr depth n a with same | ⟨w, -, real, -, -, now⟩
  · rw [same] at known
    exact solid n a v known
  · rw [now] at known
    cases known
    exact real

theorem set_solid {t : Topology} {h : House} (solid : h.Solid) (w : Setter) (depth : Nat)
    (emitted : w.Emitted fun _ v => v ≠ .null) : (h.set t w depth).2.Solid := by
  intro n a v known
  rw [known?_set] at known
  split at known
  · rcases emitted with flip | ⟨settable, value, given, real⟩
    · rw [flip] at known
      cases before : h.known? n a with
      | none =>
        rw [before] at known
        cases known
      | some k =>
        rw [before] at known
        have kept := solid n a k before
        cases k with
        | bool on =>
          cases known
          intro null
          cases null
        | _ =>
          cases known
          exact kept
    · rw [Setter.outcome_eq settable.ne_flip, given] at known
      cases known
      exact real
  · exact solid n a v known

end House

namespace Controller

theorem run_solid (c : Controller) (started : Instant) (acts : List Act)
    (asked : ∀ a ∈ acts, a.Carries (Setter.Emitted fun _ v => v ≠ .null)) :
    (c.run acts (.start c.topology started)).house.Solid := by
  refine c.run_emitted Value.covers_solid (fun h _ node attr v _ _ real => real) ?_ ?_ started ?_
    acts asked
  · intro h solid node attr depth
    exact House.get_solid solid node attr depth
  · intro h solid w depth emitted
    exact House.set_solid solid w depth emitted
  · intro node attr v known
    rw [House.known?_start] at known
    cases known

/-- A plan that is carried out leaves of each of its last setters what this one does, and under its
key the later setter that it goes with. -/
theorem execute_with_timed (c : Controller) (depth : Nat) {ws : List Setter}
    {f : Setter → TimedSetter} (keyed : ∀ w ∈ ws, (f w).setter.key = w.key)
    (accepted : ∀ w ∈ Setter.survivors ws, c.topology.accepts w = true) {w : Setter}
    (survivor : w ∈ Setter.survivors ws) (s : State) :
    let after := (c.executePlan depth { setters := ws, timed := ws.map f } s).2
    after.house.known? w.node w.target = w.outcome (s.house.known? w.node w.target) ∧
      ∃ generation, after.schedule.singles.get? w.key =
        some ⟨(f w).setter, (f w).due, generation⟩ := by
  intro after
  refine ⟨?_, ?_⟩
  · have known := House.known?_setAll c.topology depth (Setter.survivors_once ws) survivor s.house
    rw [if_pos (accepted w survivor)] at known
    have house : after.house = s.house.setAll c.topology depth (Setter.survivors ws) :=
      State.execute_house c.topology depth (p := { setters := ws, timed := ws.map f }) rfl s
    rw [house, known]
  · have schedule : after.schedule = (ws.map f).foldl .addSingle
        (s.schedule.replay (State.settingOps c.topology (Setter.survivors ws))) := by
      refine (State.execute_schedule c.topology depth _ s).trans ?_
      simp only [State.planOps, State.enlistOps, List.map_nil, List.nil_append,
        Schedule.replay, List.foldl_append, List.foldl_map]
      rfl
    rw [schedule]
    exact Schedule.get?_registered keyed survivor _

/-- After a command that sets something for a while, each of its setters is undone by the first look
at the later setters at or after the time: what is known is what was known before, or the value at
rest, if and only if the device carries out the setter that puts it back. -/
theorem timed_set_is_undone (c : Controller) (started : Instant) (acts : List Act)
    (asked : ∀ a ∈ acts, a.Carries (Setter.Emitted fun _ v => v ≠ .null)) (s : State)
    (reached : s = c.run acts (.start c.topology started)) (timed : Bool) (depth : Nat)
    (text keyword : String) (draft : Situation.Draft) (more : List String)
    (single : (c.situation s).timedSet? timed text = some (draft, keyword :: more))
    (restoring : keyword = "for" ∨ keyword = "until")
    (success : (c.execute timed depth text s).1.isSuccess = true) (later : Instant)
    (passed : ∀ t ∈ (c.compile timed text s).timed, t.due ≤ later.millis) :
    let p := c.fireSingles { (c.execute timed depth text s).2 with now := later }
    ∀ w ∈ Setter.survivors (c.compile timed text s).setters,
      ∃ back, (c.situation s).previous w = .ok back ∧
        (∃ d ∈ p.ran, d.order = .setter back) ∧
        (∀ d ∈ p.ran, d.order = .setter back →
          (d.response.isSuccess = true ↔ c.topology.accepts back = true)) ∧
        p.state.house.known? w.node w.target =
          if c.topology.accepts back = true then w.baseline (s.house.known? w.node w.target)
          else w.outcome (s.house.known? w.node w.target) := by
  intro p w survivor
  have solid : s.house.Solid := by
    rw [reached]
    exact c.run_solid started acts asked
  have sound : s.schedule.Sound := by
    rw [reached]
    exact c.run_sound acts _ (c.start_sound started)
  obtain ⟨clean, accepted⟩ := State.execute_errors c.topology success
  obtain ⟨due, compiled⟩ := Situation.compile_of_timedSet? single restoring clean
  have plan : c.compile timed text s = (c.situation s).restore draft.setters due := compiled
  rw [plan] at clean
  obtain ⟨undone, shape⟩ := Situation.restore_of_clean clean
  rw [shape] at plan
  have undoes : ∀ x ∈ draft.setters, ((c.situation s).undo x).key = x.key ∧
      ((c.situation s).undo x).node = x.node ∧ ((c.situation s).undo x).target = x.target ∧
      ((c.situation s).undo x).outcome (x.outcome (s.house.known? x.node x.target)) =
        x.baseline (s.house.known? x.node x.target) := by
    intro x inside
    have back := Situation.previous_undoes (solid x.node x.attr) (undone x inside)
    refine ⟨?_, back⟩
    rw [Setter.key_eq, Setter.key_eq, back.1, back.2.1]
  rw [plan] at accepted survivor passed
  have among : w ∈ draft.setters := survivors_subset _ survivor
  obtain ⟨key, node, target, back⟩ := undoes w among
  obtain ⟨known, generation, there⟩ := c.execute_with_timed depth
    (f := fun x => ⟨(c.situation s).undo x, due⟩) (fun x inside => (undoes x inside).1) accepted
    survivor s
  rw [← plan] at known there
  -- The look at the later setters finds the one that undoes `w`.
  have sound' := c.run_sound [.plan depth (c.compile timed text s)] s sound
  have timely : due ≤ later.millis :=
    passed ⟨(c.situation s).undo w, due⟩ (List.mem_map.mpr ⟨w, among, rfl⟩)
  have registered : (c.execute timed depth text s).2.schedule.singles.get?
      ((c.situation s).undo w).key = some ⟨(c.situation s).undo w, due, generation⟩ := by
    rw [key]
    exact there
  obtain ⟨ran, final⟩ := c.fireSingles_due
    (s := { (c.execute timed depth text s).2 with now := later })
    (x := ⟨(c.situation s).undo w, due, generation⟩) sound' registered timely
  refine ⟨(c.situation s).undo w, undone w among, ran, ?_, ?_⟩
  · intro d inside order
    exact c.fireSingles_answers _ d inside _ order
  · have before : (c.execute timed depth text s).2.house.known? w.node w.target =
        w.outcome (s.house.known? w.node w.target) := known
    have done : p.state.house.known? w.node w.target =
        if c.topology.accepts ((c.situation s).undo w) = true then
          ((c.situation s).undo w).outcome
            ((c.execute timed depth text s).2.house.known? w.node w.target)
        else (c.execute timed depth text s).2.house.known? w.node w.target := by
      rw [node, target] at final
      exact final
    rw [before, back] at done
    exact done

/-- A lamp that can be switched on and off is off again after a while. -/
theorem timed_set_is_undone_switching :
    let c := ofBulb ⟨"bulb", Device.virtualKind, [Attr.state], [Attr.on, Attr.off], false, []⟩
    let s := State.start c.topology ⟨0, 0⟩
    let p := c.fireSingles { (c.execute false 0 "set lamp on for 10" s).2 with now := ⟨10, 0⟩ }
    ∀ w ∈ Setter.survivors (c.compile false "set lamp on for 10" s).setters,
      ∃ back, (c.situation s).previous w = .ok back ∧
        (∃ d ∈ p.ran, d.order = .setter back) ∧
        (∀ d ∈ p.ran, d.order = .setter back →
          (d.response.isSuccess = true ↔ c.topology.accepts back = true)) ∧
        p.state.house.known? w.node w.target =
          if c.topology.accepts back = true then w.baseline (s.house.known? w.node w.target)
          else w.outcome (s.house.known? w.node w.target) := by
  intro c s
  exact timed_set_is_undone c ⟨0, 0⟩ [] (fun a inside => absurd inside List.not_mem_nil) s rfl false
    0 "set lamp on for 10" "for" ⟨[.state "lamp" true], []⟩ ["10"] (by decide +kernel) (Or.inl rfl)
    (by decide +kernel) ⟨10, 0⟩ (by decide +kernel)

/-- A lamp that can be switched on only stays on, and what should switch it off fails. -/
theorem timed_set_is_not_undone :
    let c := ofBulb ⟨"bulb", Device.virtualKind, [Attr.state], [Attr.on], false, []⟩
    let s := State.start c.topology ⟨0, 0⟩
    let p := c.fireSingles { (c.execute false 0 "set lamp on for 10" s).2 with now := ⟨10, 0⟩ }
    Controller.ofConfig .utc (.ofBulb [("getters", .list [.text Attr.state]),
        ("setters", .list [.text Attr.on])]) = .ok c ∧
      (c.situation s).timedSet? false "set lamp on for 10" =
        some (⟨[.state "lamp" true], []⟩, ["for", "10"]) ∧
      (c.compile false "set lamp on for 10" s).errors = [] ∧
      (c.execute false 0 "set lamp on for 10" s).1.isSuccess = true ∧
      (∀ t ∈ (c.compile false "set lamp on for 10" s).timed, t.due ≤ 10000) ∧
      p.ran.map (·.response.isSuccess) = [false] ∧
      p.state.house.known? "lamp" Attr.state = some (.bool true) ∧
      (Setter.state "lamp" true).baseline (s.house.known? "lamp" Attr.state) =
        some (.bool false) := by
  intro c s p
  exact ⟨rfl, by decide +kernel⟩

end Controller

end HomeControl
