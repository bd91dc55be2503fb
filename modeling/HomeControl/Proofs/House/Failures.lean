import HomeControl.Proofs.Feedback
import HomeControl.Proofs.House.SameBut
import HomeControl.Proofs.Readings
import HomeControl.Proofs.Topology.Reach
/-!
Plans of which some calls fail. All else that a plan does is as if the failing calls were left out,
but for what readings of `online` show of the devices that failed.
-/

namespace HomeControl

/-- The calls of a plan that fail, each with its error. -/
structure Failures where
  getters : List (Getter × NodeError)
  setters : List (Setter × NodeError)
  deriving DecidableEq, Repr

namespace Failures

def devices (f : Failures) (t : Topology) : List String :=
  (f.getters.map (·.1.node) ++ f.setters.map (·.1.node)).filterMap fun node =>
    (t.nodes.get? node).map (·.device.id)

/-- Whether a plan reads an attribute that shows if a device is online to which a call failed. -/
def blurs (f : Failures) (t : Topology) (p : Plan) (node attr : String) : Bool :=
  decide (⟨node, attr⟩ ∈ p.getters) &&
    match t.nodes.get? node with
    | some n => n.device.isFlag (n.deviceAttr attr) && (f.devices t).contains n.device.id
    | none => false

end Failures

/-- The calls of a plan that are left if some fail. -/
def Plan.sparing (p : Plan) (f : Failures) : Plan :=
  { p with
    getters := p.getters.eraseDups.filter (· ∉ f.getters.map (·.1))
    setters := (Setter.survivors p.setters).filter (· ∉ f.setters.map (·.1)) }

/-- The results of a command, where no results are as good as empty ones. -/
def Response.shown (r : Response) : Value :=
  r.results.getD (.record [])

namespace State

variable (t : Topology)

def failedGetters (answers : List (Getter × Except NodeError Value)) : List (Getter × NodeError) :=
  answers.filterMap fun a => (errorIn? a.2).map (a.1, ·)

def failedSetters (depth : Nat) : List Setter → State → List (Setter × NodeError)
  | [], _ => []
  | w :: rest, s =>
    match s.write t depth w with
    | (.ok _, s) => failedSetters depth rest s
    | (.error e, s) => (w, e) :: failedSetters depth rest s

def failures (depth : Nat) (p : Plan) (s : State) : Failures :=
  let (answers, s) := s |> readAll t depth p.getters.eraseDups
  ⟨failedGetters answers, failedSetters t depth (Setter.survivors p.setters) s⟩

def sumErrors (depth : Nat) (p : Plan) (s : State) : List ReadingError :=
  (results p.aggregate (goodReadings (s |> readAll t depth p.getters.eraseDups).1)).2

def readingsOf (answers : List (Getter × Except NodeError Value)) : List Reading :=
  answers.filterMap fun (g, answer) =>
    match answer with
    | .ok value => some ⟨g.node, g.attr, value⟩
    | .error _ => none

theorem readAll_cons (depth : Nat) (g : Getter) (rest : List Getter) (s : State) :
    (s |> readAll t depth (g :: rest)) =
      let first := s.house.get t g.node g.attr depth
      let others := { s with house := first.2 } |> readAll t depth rest
      ((g, first.1) :: others.1, others.2) := rfl

theorem failedGetters_readAll (depth : Nat) (gs : List Getter) (s : State) :
    failedGetters (s |> readAll t depth gs).1 =
      gs.filterMap fun g => (t.readingError? g).map (g, ·) := by
  induction gs generalizing s with
  | nil => rfl
  | cons g rest ih =>
    rw [readAll_cons, List.filterMap_cons, ← ih, ← House.error_get (t := t) s.house g depth]
    rfl

theorem failedReadings_eq_filterMap (answers : List (Getter × Except NodeError Value)) :
    failedReadings answers = answers.filterMap fun a => errorIn? a.2 := by
  refine List.filterMap_congr fun a _ => ?_
  obtain ⟨g, answer⟩ := a
  cases answer <;> rfl

theorem failedReadings_eq (answers : List (Getter × Except NodeError Value)) :
    failedReadings answers = (failedGetters answers).map (·.2) := by
  rw [failedReadings_eq_filterMap, failedGetters, List.map_filterMap]
  simp only [Option.map_map, Function.comp_def, Option.map_id']

theorem failedSetters_eq (depth : Nat) (ws : List Setter) (s : State) :
    failedSetters t depth ws s = ws.filterMap fun w => (t.settingError? w).map (w, ·) := by
  induction ws generalizing s with
  | nil => rfl
  | cons w rest ih =>
    have own := House.error_set (t := t) s.house w depth
    simp only [failedSetters, write, List.filterMap_cons]
    cases call : s.house.set t w depth with
    | mk answer house =>
      rw [call] at own
      cases answer with
      | ok _ =>
        rw [← own]
        exact ih _
      | error e =>
        rw [← own]
        exact congrArg ((w, e) :: ·) (ih _)

end State

section Spared

open House (SameBut)

variable {t : Topology} {lost : String → Prop} {blurred : String → String → Bool}

theorem House.SameBut.Agree.blot {v w : Value} {node attr : String}
    (agree : SameBut.Agree (blurred node attr) v w) :
    Reading.blot blurred ⟨node, attr, v⟩ = Reading.blot blurred ⟨node, attr, w⟩ := by
  rcases agree with rfl | ⟨blur, x, y, rfl, rfl⟩
  · rfl
  · simp only [Reading.blot, blur, if_true]
    rfl

/-- Without the readings that fail, the other ones answer the same, and the house is the same. -/
theorem State.readAll_spared (linked : t.Linked) (depth : Nat) (gs : List Getter)
    (gone : ∀ g ∈ gs, (t.readingError? g).isSome = true →
      ∀ n, t.nodes.get? g.node = some n → lost n.device.id)
    (blurs : ∀ g ∈ gs, ∀ n, t.nodes.get? g.node = some n →
      n.device.isFlag (n.deviceAttr g.attr) = true → lost n.device.id →
      blurred g.node g.attr = true)
    {a b : State} (same : SameBut t lost blurred a.house b.house) :
    let whole := a |> readAll t depth gs
    let spared := b |> readAll t depth (gs.filter fun g => (t.readingError? g).isNone)
    SameBut t lost blurred whole.2.house spared.2.house ∧
      (readingsOf whole.1).map (·.blot blurred) = (readingsOf spared.1).map (·.blot blurred) := by
  induction gs generalizing a b with
  | nil => exact ⟨same, rfl⟩
  | cons g rest ih =>
    obtain ⟨goneHere, gone⟩ := List.forall_mem_cons.mp gone
    obtain ⟨blursHere, blurs⟩ := List.forall_mem_cons.mp blurs
    cases fails : t.readingError? g with
    | some e =>
      have refused : (t.readingError? g).isSome = true := by rw [fails]; rfl
      have left : SameBut t lost blurred (a.house.get t g.node g.attr depth).2 a.house :=
        SameBut.get_refused linked a.house refused (goneHere refused) depth
      rw [List.filter_cons_of_neg (by simp [fails]), readAll_cons]
      obtain ⟨house, readings⟩ := ih gone blurs
        (a := { a with house := (a.house.get t g.node g.attr depth).2 }) (left.trans same)
      have own : (a.house.get t g.node g.attr depth).1 = .error e :=
        eq_error_of_errorIn? ((House.error_get a.house g depth).trans fails)
      refine ⟨house, ?_⟩
      rw [← readings]
      simp only [readingsOf, List.filterMap_cons, own]
    | none =>
      obtain ⟨v, w, first, second, agree, after⟩ := same.get_answered linked fails blursHere depth
      rw [List.filter_cons_of_pos (by simp [fails]), readAll_cons, readAll_cons]
      obtain ⟨house, readings⟩ := ih gone blurs
        (a := { a with house := (a.house.get t g.node g.attr depth).2 })
        (b := { b with house := (b.house.get t g.node g.attr depth).2 }) after
      refine ⟨house, ?_⟩
      simp only [readingsOf, List.filterMap_cons, first, second, List.map_cons] at readings ⊢
      rw [agree.blot, readings]

theorem House.setAll_spared (linked : t.Linked) (depth : Nat) {ws : List Setter}
    (gone : ∀ w ∈ ws, t.accepts w = false →
      ∀ n, t.nodes.get? w.node = some n → lost n.device.id)
    {a b : House} (same : SameBut t lost blurred a b) :
    SameBut t lost blurred (a.setAll t depth ws) (b.setAll t depth (ws.filter t.accepts)) := by
  induction ws generalizing a b with
  | nil => exact same
  | cons w rest ih =>
    obtain ⟨goneHere, gone⟩ := List.forall_mem_cons.mp gone
    cases accepted : t.accepts w with
    | false =>
      rw [List.filter_cons_of_neg (by simp [accepted])]
      exact ih gone ((SameBut.set_refused linked a accepted (goneHere accepted) depth).trans same)
    | true =>
      rw [List.filter_cons_of_pos accepted]
      exact ih gone (same.set_accepted linked accepted depth)

end Spared

namespace State

variable (t : Topology) (depth : Nat)

theorem failures_setters (p : Plan) (s : State) :
    (s.failures t depth p).setters =
      (Setter.survivors p.setters).filterMap fun w => (t.settingError? w).map (w, ·) :=
  failedSetters_eq t depth _ _

theorem failures_getters (p : Plan) (s : State) :
    (s.failures t depth p).getters =
      p.getters.eraseDups.filterMap fun g => (t.readingError? g).map (g, ·) :=
  failedGetters_readAll t depth _ s

theorem mem_failedGetters (p : Plan) (s : State) (g : Getter) :
    g ∈ (s.failures t depth p).getters.map (·.1) ↔
      g ∈ p.getters ∧ (t.readingError? g).isSome = true := by
  simp only [failures_getters, List.map_filterMap, Option.map_map, List.mem_filterMap,
    List.mem_eraseDups, Option.map_eq_some_iff, Option.isSome_iff_exists]
  constructor
  · rintro ⟨x, inside, e, fails, rfl⟩
    exact ⟨inside, e, fails⟩
  · rintro ⟨inside, e, fails⟩
    exact ⟨g, inside, e, fails, rfl⟩

theorem mem_failedSetters (p : Plan) (s : State) (w : Setter) :
    w ∈ (s.failures t depth p).setters.map (·.1) ↔
      w ∈ Setter.survivors p.setters ∧ t.accepts w = false := by
  simp only [failures_setters, List.map_filterMap, Option.map_map, List.mem_filterMap,
    Option.map_eq_some_iff, ← Bool.not_eq_true, ← Topology.settingError?_eq_none,
    Option.eq_none_iff_forall_ne_some, ne_eq, not_forall, not_not]
  constructor
  · rintro ⟨x, inside, e, fails, rfl⟩
    exact ⟨inside, e, fails⟩
  · rintro ⟨inside, e, fails⟩
    exact ⟨w, inside, e, fails, rfl⟩

theorem sparing_getters (p : Plan) (s : State) :
    (p.sparing (s.failures t depth p)).getters.eraseDups =
      p.getters.eraseDups.filter fun g => (t.readingError? g).isNone := by
  have left : (p.sparing (s.failures t depth p)).getters =
      p.getters.eraseDups.filter fun g => (t.readingError? g).isNone := by
    refine List.filter_congr fun g inside => ?_
    simp only [mem_failedGetters, List.mem_eraseDups.mp inside, true_and]
    cases t.readingError? g <;> rfl
  rw [left]
  exact eraseDups_of_nodup ((nodup_eraseDups _).filter _)

theorem sparing_setters (p : Plan) (s : State) :
    Setter.survivors (p.sparing (s.failures t depth p)).setters =
      (Setter.survivors p.setters).filter t.accepts := by
  have left : (p.sparing (s.failures t depth p)).setters =
      (Setter.survivors p.setters).filter t.accepts := by
    refine List.filter_congr fun w inside => ?_
    simp only [mem_failedSetters, inside, true_and]
    cases t.accepts w <;> rfl
  rw [left]
  exact Setter.survivors_eq_self ((Setter.survivors_once p.setters).sublist
    (List.filter_sublist.map _))

theorem gone_of_node {p : Plan} {s : State} {node : String} {n : Node}
    (found : t.nodes.get? node = some n)
    (fails : node ∈ ((s.failures t depth p).getters.map (·.1)).map (·.node) ∨
      node ∈ ((s.failures t depth p).setters.map (·.1)).map (·.node)) :
    n.device.id ∈ (s.failures t depth p).devices t := by
  refine List.mem_filterMap.mpr ⟨node, ?_, by rw [found]; rfl⟩
  rw [List.map_map, List.map_map] at fails
  exact List.mem_append.mpr fails

theorem nodup_failing {α ε : Type} {calls : List α} (once : calls.Nodup) (fails : α → Option ε) :
    ((calls.filterMap fun x => (fails x).map (x, ·)).map (·.1)).Nodup := by
  rw [List.map_filterMap]
  refine once.filterMap fun x y z hx hy => ?_
  simp only [Option.map_map, Option.mem_def, Option.map_eq_some_iff, Function.comp_apply,
    exists_and_right] at hx hy
  exact hx.2.trans hy.2.symm

theorem failed_getters_gone (p : Plan) (s : State) :
    ∀ g ∈ p.getters.eraseDups, (t.readingError? g).isSome = true →
      ∀ n, t.nodes.get? g.node = some n → n.device.id ∈ (s.failures t depth p).devices t := by
  intro g inside fails n found
  refine gone_of_node t depth found (Or.inl (List.mem_map_of_mem ?_))
  exact (mem_failedGetters t depth p s g).mpr ⟨List.mem_eraseDups.mp inside, fails⟩

theorem failed_setters_gone (p : Plan) (s : State) :
    ∀ w ∈ Setter.survivors p.setters, t.accepts w = false →
      ∀ n, t.nodes.get? w.node = some n → n.device.id ∈ (s.failures t depth p).devices t := by
  intro w inside fails n found
  refine gone_of_node t depth found (Or.inr (List.mem_map_of_mem ?_))
  exact (mem_failedSetters t depth p s w).mpr ⟨inside, fails⟩

theorem failures_blur (p : Plan) (s : State) :
    ∀ g ∈ p.getters.eraseDups, ∀ n, t.nodes.get? g.node = some n →
      n.device.isFlag (n.deviceAttr g.attr) = true →
      n.device.id ∈ (s.failures t depth p).devices t →
      (s.failures t depth p).blurs t p g.node g.attr = true := by
  intro g inside n found flag gone
  simp only [Failures.blurs, found, flag, Bool.true_and, Bool.and_eq_true, decide_eq_true_eq]
  exact ⟨List.mem_eraseDups.mp inside, List.contains_iff_mem.mpr gone⟩

theorem results_of_blotted {blurred : String → String → Bool} {xs ys : List Reading}
    (same : xs.map (·.blot blurred) = ys.map (·.blot blurred)) (how : Option Aggregate) :
    (results how (.ofList xs)).1.blotResults blurred =
        (results how (.ofList ys)).1.blotResults blurred ∧
      (how ≠ none → (results how (.ofList xs)).1 = (results how (.ofList ys)).1) := by
  cases how with
  | none =>
    refine ⟨?_, fun given => absurd rfl given⟩
    simp only [results, Readings.blot_toValue, Readings.blot_ofList, same]
  | some how =>
    have totals : (Readings.ofList xs).totals how = (Readings.ofList ys).totals how := by
      rw [← Readings.totals_blot blurred, ← Readings.totals_blot blurred (.ofList ys),
        Readings.blot_ofList, Readings.blot_ofList, same]
    exact ⟨congrArg _ totals, fun _ => totals⟩

theorem execute_calls (p : Plan) (s : State) :
    (s.execute t depth p).2.house =
      (s |> readAll t depth p.getters.eraseDups).2.house.setAll t depth
        (Setter.survivors p.setters) :=
  writeAll_house t depth _ _

theorem execute_shown (p : Plan) (s : State) :
    (s.execute t depth p).1.shown =
      (results p.aggregate
        (.ofList (readingsOf (s |> readAll t depth p.getters.eraseDups).1))).1 := by
  have whole : (s.execute t depth p).1.results = if p.getters.isEmpty then none else
      some (results p.aggregate
        (.ofList (readingsOf (s |> readAll t depth p.getters.eraseDups).1))).1 := rfl
  unfold Response.shown
  rw [whole]
  cases p.getters with
  | cons g rest => rfl
  | nil => cases p.aggregate <;> rfl

theorem execute_messages (p : Plan) (s : State) :
    (s.execute t depth p).1.errors =
      p.errors.map .plan ++ (s.failures t depth p).getters.map (.node ·.2) ++
        (s.sumErrors t depth p).map .reading ++
        (s.failures t depth p).setters.map (.node ·.2) := by
  have whole : (s.execute t depth p).1.errors = p.errors.map .plan ++
      (failedReadings (s |> readAll t depth p.getters.eraseDups).1).map .node ++
      (s.sumErrors t depth p).map .reading ++
      ((s |> readAll t depth p.getters.eraseDups).2 |>
        writeAll t depth (Setter.survivors p.setters)).1.map .node := rfl
  have settings : ((s |> readAll t depth p.getters.eraseDups).2 |>
      writeAll t depth (Setter.survivors p.setters)).1 =
      (s.failures t depth p).setters.map (·.2) := by
    rw [writeAll_answers, failures_setters, List.map_filterMap]
    simp only [Option.map_map, Function.comp_def, Option.map_id']
  rw [whole, failedReadings_eq, settings, List.map_map, List.map_map]
  rfl

/-- The calls of a plan that fail disturb nothing else. What devices store, what is known, what
happened, what is scheduled and what is answered is as if these calls were left out, but for whether
the devices that failed are online and for readings that show this. Each of the calls has its own
error, between those of the command and of the sums, and without any errors the command succeeded. -/
theorem failures_disturb_nothing {config : Config} {t : Topology}
    (made : Topology.ofConfig config = .ok t) (depth : Nat) (p : Plan) (s : State) :
    let f := s.failures t depth p
    let blurred := f.blurs t p
    let whole := s.execute t depth p
    let spared := s.execute t depth (p.sparing f)
    (∀ id d, t.devices.get? id = some d →
      (whole.2.house.device d).store = (spared.2.house.device d).store ∧
      (id ∉ f.devices t → (whole.2.house.device d).online = (spared.2.house.device d).online)) ∧
    (∀ node attr, blurred node attr = false →
      whole.2.house.known? node attr = spared.2.house.known? node attr) ∧
    ((Controller.fired s whole.2).filter fun e => !blurred e.node e.attr) =
      ((Controller.fired s spared.2).filter fun e => !blurred e.node e.attr) ∧
    whole.2.schedule = spared.2.schedule ∧
    whole.1.shown.blotResults blurred = spared.1.shown.blotResults blurred ∧
    (p.aggregate ≠ none → whole.1.shown = spared.1.shown) ∧
    (f.getters.map (·.1)).Nodup ∧ (f.setters.map (·.1)).Nodup ∧
    whole.1.errors = p.errors.map .plan ++ f.getters.map (.node ·.2) ++
      (s.sumErrors t depth p).map .reading ++ f.setters.map (.node ·.2) ∧
    (whole.1.isSuccess = true ↔
      p.errors = [] ∧ f.getters = [] ∧ f.setters = [] ∧ s.sumErrors t depth p = []) := by
  intro f blurred whole spared
  have linked := Topology.linked_of_config made
  obtain ⟨read, readings⟩ := readAll_spared linked depth p.getters.eraseDups
    (failed_getters_gone t depth p s) (failures_blur t depth p s) (.refl s.house)
  have houses : House.SameBut t (· ∈ f.devices t) blurred whole.2.house spared.2.house := by
    rw [execute_calls, execute_calls, sparing_getters, sparing_setters]
    exact House.setAll_spared linked depth (failed_setters_gone t depth p s) read
  have shown := results_of_blotted readings p.aggregate
  have own : spared.1.shown = (results p.aggregate (.ofList (readingsOf
      (s |> readAll t depth (p.getters.eraseDups.filter fun g => (t.readingError? g).isNone)).1))).1 :=
    (execute_shown t depth _ s).trans (by rw [sparing_getters]; rfl)
  rw [← execute_shown, ← own] at shown
  have errors := execute_messages t depth p s
  refine ⟨fun id d found => ?_, houses.known, ?_, ?_, shown.1, shown.2, ?_, ?_, errors, ?_⟩
  · obtain rfl := Topology.device_id_of_config made found
    exact ⟨houses.stores d found, houses.online d found⟩
  · obtain ⟨first, all, -⟩ := execute_fires t depth p s
    obtain ⟨second, some, -⟩ := execute_fires t depth (p.sparing f) s
    have events := houses.events
    rw [show whole.2.house.events = _ from all, show spared.2.house.events = _ from some,
      List.filter_append, List.filter_append, List.append_cancel_left_eq] at events
    rw [Controller.fired, Controller.fired, show whole.2.house.events = _ from all,
      show spared.2.house.events = _ from some, List.drop_left, List.drop_left]
    exact events
  · rw [execute_schedule, execute_schedule, planOps, planOps, sparing_setters]
    simp only [settingOps, List.filter_filter, Bool.and_self]
    rfl
  · rw [show f.getters = _ from failures_getters t depth p s]
    exact nodup_failing (nodup_eraseDups _) _
  · rw [show f.setters = _ from failures_setters t depth p s]
    exact nodup_failing (Setter.survivors_once p.setters).of_map _
  · rw [Response.isSuccess, errors]
    simp only [List.isEmpty_iff, List.append_eq_nil_iff, List.map_eq_nil_iff, and_assoc]
    constructor
    · rintro ⟨plan, getters, sums, setters⟩
      exact ⟨plan, getters, setters, sums⟩
    · rintro ⟨plan, getters, setters, sums⟩
      exact ⟨plan, getters, sums, setters⟩

/-- A pump that cannot be reached between two readings and settings of a lamp. Its reading of
`online` is the only difference. -/
theorem failures_disturb_nothing_pump :
    let config : Config :=
      { devices := [⟨"bulb", Device.virtualKind, [("getters", .list [.text Attr.state]),
            ("setters", .list [.text Attr.on])]⟩,
          ⟨"motor", Device.virtualKind, [("getters", .list [.text "power"]), ("offline", .bool true)]⟩]
        nodes := [⟨"lamp", "bulb", none, none, []⟩, ⟨"pump", "motor", none, none, []⟩] }
    let bulb : Device := ⟨"bulb", Device.virtualKind, [Attr.state], [Attr.on], false, []⟩
    let motor : Device := ⟨"motor", Device.virtualKind, ["power"], [], true, []⟩
    let t : Topology := ⟨⟨[("bulb", bulb), ("motor", motor)]⟩,
      ⟨[("lamp", ⟨"lamp", bulb, none, none, []⟩), ("pump", ⟨"pump", motor, none, none, []⟩)]⟩,
      .empty, [], .empty, .empty, []⟩
    let p : Plan :=
      { getters := [⟨"lamp", Attr.state⟩, ⟨"pump", "power"⟩, ⟨"pump", Attr.online⟩]
        setters := [.state "pump" true, .state "lamp" true] }
    let s := State.start t ⟨0, 0⟩
    let f := s.failures t 0 p
    let whole := s.execute t 0 p
    let spared := s.execute t 0 (p.sparing f)
    Topology.ofConfig config = .ok t ∧
      (p.sparing f).getters = [⟨"lamp", Attr.state⟩, ⟨"pump", Attr.online⟩] ∧
      (p.sparing f).setters = [.state "lamp" true] ∧
      whole.1.shown.blotResults (f.blurs t p) = spared.1.shown.blotResults (f.blurs t p) ∧
      whole.1.shown ≠ spared.1.shown ∧
      whole.1.errors = f.getters.map (.node ·.2) ++ f.setters.map (.node ·.2) ∧
      f.getters.length = 1 ∧ f.setters.length = 1 := by
  intro config bulb motor t p s f whole spared
  have made : Topology.ofConfig config = .ok t := rfl
  obtain ⟨-, -, -, -, shown, -, -, -, errors, -⟩ := failures_disturb_nothing made 0 p s
  exact ⟨made, by decide +kernel, by decide +kernel, shown, by decide +kernel,
    errors.trans (by decide +kernel), by decide +kernel, by decide +kernel⟩

end State

end HomeControl
