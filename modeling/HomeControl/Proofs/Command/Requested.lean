import HomeControl.Http
import HomeControl.Proofs.Command.Macro
import HomeControl.Proofs.House.Configured
import HomeControl.Proofs.Run
/-!
Requests for actions. Their ids are put behind one `do`, and the text that this gives is cut at
semicolons like any other; so the ids up to the first semicolon are carried out as actions, and
what is behind it as commands.
-/

namespace HomeControl

open Text

namespace Http

theorem spoken_of_actionIds {text : String} (whole : ';' ∉ text.toList) :
    ∀ id ∈ actionIds text, Word.Spoken id := by
  intro id h
  obtain ⟨piece, inside, rfl⟩ := List.mem_map.mp h
  obtain ⟨among, some⟩ := List.mem_filter.mp inside
  refine ⟨by simpa using some, ?_⟩
  intro c member
  rw [String.toList_ofList] at member
  obtain ⟨apart, there⟩ := mem_splitOnP among c member
  exact ⟨(Bool.or_eq_false_iff.mp apart).1, ne_of_mem_of_not_mem there whole⟩

def Route.actionsText? (route : Route) (body : String) : Option String :=
  match route with
  | actionsBody => some body
  | actionsPath part => percentDecoded? part
  | _ => none

theorem demand_of_actionsText? {route : Route} {body text : String}
    (h : route.actionsText? body = some text) : route.demand body = .actions (actionIds text) := by
  unfold Route.actionsText? at h
  split at h
  · cases h
    rfl
  · simp only [Route.demand, decoded, h]
  · cases h

/-- The plan of a line of ids: what stands in front of the first semicolon are actions, and all that
is behind it are commands. -/
def planOf (s : Situation) (line : String) : Plan :=
  Plan.merged (s.command false (s.expand false []))
    ((words (ahead line)).foldl (s.enter false []) .empty) (Situation.commandsOf (behind line))

theorem compile_actions (s : Situation) (ids : List String) :
    s.compile false (Controller.actionsCommand ids) = (planOf s (" ".intercalate ids)).checked := by
  rw [s.compile_eq, Controller.actionsCommand, s.batch_do, s.expand_eq]
  rfl

theorem planOf_actionIds (s : Situation) {text : String} (whole : ';' ∉ text.toList) :
    planOf s (" ".intercalate (actionIds text)) =
      (actionIds text).foldl (s.enter false []) .empty := by
  have spoken := spoken_of_actionIds whole
  obtain ⟨front, nothing⟩ := cut_of_not_mem (Word.not_mem_phrase spoken)
  simp only [planOf, front, nothing, Situation.commandsOf_blank, Word.words_phrase spoken]
  rfl

/-- A request for actions carries out the ids in its text as actions, one after the other, up to the
first semicolon among them. What is behind that is carried out as commands; so without a semicolon it
is the actions and nothing else. -/
theorem request_carries_out (c : Controller) (route : Route) (body text : String) (s : State)
    (asked : route.actionsText? body = some text) :
    let p := planOf (c.situation s) (" ".intercalate (actionIds text))
    reply c (route.demand body) s =
        (if actionIds text = [] then
          (⟨200, .json (Response.failure .nothingToDo).toValue⟩, s)
        else
          (⟨200, .json (c.executePlan 0 p.checked s).1.toValue⟩, (c.executePlan 0 p.checked s).2)) ∧
      (';' ∉ text.toList →
        p = (actionIds text).foldl ((c.situation s).enter false []) .empty) := by
  intro p
  refine ⟨?_, planOf_actionIds (c.situation s)⟩
  rw [demand_of_actionsText? asked]
  simp only [reply, Controller.runActions, List.isEmpty_iff]
  split
  · rfl
  · have compiled : c.compile false (Controller.actionsCommand (actionIds text)) s = p.checked :=
      compile_actions (c.situation s) (actionIds text)
    simp only [Controller.execute, compiled]

theorem request_carries_out_evening :
    let bulb : Device := ⟨"bulb", Device.virtualKind, [], [Attr.on], false, []⟩
    let c : Controller := { Controller.ofBulb bulb with
      topology := { (Controller.ofBulb bulb).topology with
        actions := ⟨[("evening", ["set lamp on"])]⟩ } }
    let s := State.start c.topology ⟨0, 0⟩
    let p := planOf (c.situation s) (" ".intercalate (actionIds "evening, night"))
    reply c (Route.actionsBody.demand "evening, night") s =
        (⟨200, .json (c.executePlan 0 p.checked s).1.toValue⟩, (c.executePlan 0 p.checked s).2) ∧
      p = { setters := [.state "lamp" true], errors := [.unknownAction "night"] } := by
  intro bulb c s p
  obtain ⟨answered, actions⟩ :=
    request_carries_out c .actionsBody "evening, night" "evening, night" s rfl
  rw [if_neg (by decide +kernel)] at answered
  refine ⟨answered, (actions (by decide)).trans ?_⟩
  decide +kernel

/-- None of the ids is that of an action, but the words behind the semicolon switch the lamp on. -/
theorem request_carries_out_command :
    let c := Controller.ofBulb ⟨"bulb", Device.virtualKind, [], [Attr.on], false, []⟩
    let s := State.start c.topology ⟨0, 0⟩
    let r : Request := ⟨"POST", "/do", "none;set lamp on"⟩
    let ids := actionIds "none;set lamp on"
    let actions := ids.foldl ((c.situation s).enter false []) .empty
    Controller.ofConfig .utc (.ofBulb [("setters", .list [.text Attr.on])]) = .ok c ∧
      r.demand = .actions ids ∧
      actions = { errors := [.unknownAction "none;set", .unknownAction "lamp",
        .unknownAction "on"] } ∧
      (c.executePlan 0 actions.checked s).2.house.known? "lamp" Attr.state = none ∧
      c.compile false (Controller.actionsCommand ids) s =
        { setters := [.state "lamp" true], errors := [.unknownAction "none"] } ∧
      (answer c r s).2.house.known? "lamp" Attr.state = some (.bool true) := by
  intro c s r ids actions
  exact ⟨rfl, by decide +kernel⟩

end Http

end HomeControl
