import HomeControl.Proofs.Command.Emitted
import HomeControl.Proofs.Command.Macro
/-!
The part of a plan that is for some of its nodes. Every word behind the targets of a command is read in
the same way whatever the nodes are, and means something for each node by itself; so the part for some
nodes is the plan that the same words make for those nodes.
-/

namespace HomeControl

open Text

/-- What a plan asks of some nodes, whatever it says is wrong. -/
structure Plan.PartFor (part whole : Plan) (among : String → Bool) : Prop where
  getters : part.getters = whole.getters.filter (among ·.node)
  setters : part.setters = whole.setters.filter (among ·.node)
  faders : part.faders = whole.faders.filter (among ·.node)
  timed : part.timed = whole.timed.filter (among ·.setter.node)

namespace Plan

variable {among : String → Bool} {p p' q q' : Plan}

theorem partFor_empty : empty.PartFor empty among :=
  ⟨rfl, rfl, rfl, rfl⟩

theorem partFor_failure (e : PlanError) : (failure e).PartFor (failure e) among :=
  ⟨rfl, rfl, rfl, rfl⟩

theorem PartFor.reported (h : p.PartFor q among) (es es' : List PlanError) :
    { p with errors := es }.PartFor { q with errors := es' } among :=
  ⟨h.getters, h.setters, h.faders, h.timed⟩

theorem PartFor.in_checked (h : p.PartFor q among) : p.PartFor q.checked among := by
  unfold Plan.checked
  split
  · exact h.reported _ _
  · exact h

theorem PartFor.checked (h : p.PartFor q among) : p.checked.PartFor q.checked among := by
  have inside := h.in_checked
  rw [Plan.checked]
  split
  · exact inside.reported _ _
  · exact inside

theorem PartFor.merge (h : p.PartFor p' among) (h' : q.PartFor q' among) :
    (p.merge q).PartFor (p'.merge q') among where
  getters := by simp only [Plan.merge, List.filter_append, h.getters, h'.getters]
  setters := by simp only [Plan.merge, List.filter_append, h.setters, h'.setters]
  faders := by simp only [Plan.merge, List.filter_append, h.faders, h'.faders]
  timed := by simp only [Plan.merge, List.filter_append, h.timed, h'.timed]

theorem PartFor.empty_of_nobody (h : p.PartFor q among) (nobody : p.PartFor q' fun _ => false) :
    empty.PartFor q among where
  getters := by rw [← h.getters, nobody.getters, List.filter_false]; rfl
  setters := by rw [← h.setters, nobody.setters, List.filter_false]; rfl
  faders := by rw [← h.faders, nobody.faders, List.filter_false]; rfl
  timed := by rw [← h.timed, nobody.timed, List.filter_false]; rfl

theorem PartFor.merged {α : Type} {plan plan' : α → Plan}
    (each : ∀ x, (plan x).PartFor (plan' x) among) (xs : List α) (h : p.PartFor q among) :
    (Plan.merged plan p xs).PartFor (Plan.merged plan' q xs) among := by
  induction xs generalizing p q with
  | nil => exact h
  | cons x rest ih => exact ih (h.merge (each x))

/-- All that a plan asks is asked of one node. -/
structure On (p : Plan) (node : String) : Prop where
  getters : ∀ g ∈ p.getters, g.node = node
  setters : ∀ w ∈ p.setters, w.node = node
  faders : ∀ f ∈ p.faders, f.node = node
  timed : ∀ t ∈ p.timed, t.setter.node = node

theorem On.own {node : String} (h : p.On node) (asked : among node = true) :
    p.PartFor p among where
  getters := (List.filter_eq_self.mpr fun g inside => by rw [h.getters g inside, asked]).symm
  setters := (List.filter_eq_self.mpr fun w inside => by rw [h.setters w inside, asked]).symm
  faders := (List.filter_eq_self.mpr fun f inside => by rw [h.faders f inside, asked]).symm
  timed := (List.filter_eq_self.mpr fun t inside => by rw [h.timed t inside, asked]).symm

theorem On.other {node : String} (h : p.On node) (apart : among node = false) :
    empty.PartFor p among where
  getters := (List.filter_eq_nil_iff.mpr fun g inside => by simp [h.getters g inside, apart]).symm
  setters := (List.filter_eq_nil_iff.mpr fun w inside => by simp [h.setters w inside, apart]).symm
  faders := (List.filter_eq_nil_iff.mpr fun f inside => by simp [h.faders f inside, apart]).symm
  timed := (List.filter_eq_nil_iff.mpr fun t inside => by simp [h.timed t inside, apart]).symm

theorem partFor_merged {one : Setter → Plan} (each : ∀ w, (one w).On w.node) (ws : List Setter)
    (h : p.PartFor q among) :
    (merged one p (ws.filter (among ·.node))).PartFor (merged one q ws) among := by
  induction ws generalizing p q with
  | nil => exact h
  | cons w rest ih =>
    cases asked : among w.node with
    | true =>
      rw [List.filter_cons_of_pos (p := fun w : Setter => among w.node) asked]
      exact ih (h.merge ((each w).own asked))
    | false =>
      rw [List.filter_cons_of_neg (p := fun w : Setter => among w.node) (by simp [asked]),
        ← p.merge_empty]
      exact ih (h.merge ((each w).other asked))

end Plan

theorem filter_flatMap_key {α β : Type} {f : α → List β} {id : α → String} {key : β → String}
    (own : ∀ x, ∀ y ∈ f x, key y = id x) (among : String → Bool) (xs : List α) :
    (xs.flatMap f).filter (fun y => among (key y)) =
      (xs.filter fun x => among (id x)).flatMap f := by
  induction xs with
  | nil => rfl
  | cons x rest ih =>
    rw [List.flatMap_cons, List.filter_append, ih]
    cases asked : among (id x) with
    | true =>
      rw [List.filter_cons_of_pos (p := fun x => among (id x)) asked, List.flatMap_cons]
      congr 1
      refine List.filter_eq_self.mpr fun y inside => ?_
      rw [own x y inside, asked]
    | false =>
      rw [List.filter_cons_of_neg (p := fun x => among (id x)) (by simp [asked])]
      suffices none : (f x).filter (fun y => among (key y)) = [] by rw [none, List.nil_append]
      refine List.filter_eq_nil_iff.mpr fun y inside => ?_
      simp [own x y inside, asked]

namespace Situation

namespace Draft

theorem foldl_append_setters (ds : List Draft) (d : Draft) :
    (ds.foldl append d).setters = d.setters ++ ds.flatMap (·.setters) := by
  induction ds generalizing d with
  | nil => exact (List.append_nil _).symm
  | cons x rest ih =>
    rw [List.foldl_cons, ih, List.flatMap_cons, ← List.append_assoc]
    rfl

structure Own (f : Bool → Node → Draft) : Prop where
  node : ∀ single n, ∀ w ∈ (f single n).setters, w.node = n.id
  alone : ∀ single n, (f single n).setters = (f true n).setters

theorem Own.ofNodes_setters {f : Bool → Node → Draft} (own : Own f) (nodes : List Node) :
    (ofNodes nodes f).setters = nodes.flatMap fun n => (f true n).setters := by
  rw [ofNodes, foldl_append_setters, List.flatMap_map]
  exact List.flatMap_congr fun n _ => own.alone _ n

theorem Own.part {f : Bool → Node → Draft} (own : Own f) (among : String → Bool)
    (nodes : List Node) :
    (ofNodes (nodes.filter (among ·.id)) f).setters =
      (ofNodes nodes f).setters.filter (among ·.node) := by
  rw [own.ofNodes_setters, own.ofNodes_setters, filter_flatMap_key (own.node true)]

end Draft

theorem switchNode_own (capability word : String) : Draft.Own (switchNode capability word) where
  node := by
    intro single n
    unfold switchNode
    split
    · refine List.forall_mem_singleton.mpr ?_
      unfold switchSetter
      split
      · rfl
      · split
        · rfl
        · rfl
    · exact List.forall_mem_nil _
  alone := by
    intro single n
    unfold switchNode
    split
    · rfl
    · rfl

theorem colorNode_own (color : Color) (last : Bool) : Draft.Own (colorNode color last) where
  node := by
    intro single n
    unfold colorNode
    split
    · refine List.forall_mem_cons.mpr ⟨rfl, ?_⟩
      split
      · exact List.forall_mem_singleton.mpr rfl
      · exact List.forall_mem_nil _
    · exact List.forall_mem_nil _
  alone := by
    intro single n
    unfold colorNode
    split
    · rfl
    · rfl

theorem brightnessNode_own (percent : Nat) : Draft.Own (brightnessNode percent) where
  node := by
    intro single n
    have switched : ∀ (b : Bool) (on : Bool), ∀ w ∈ if b then [Setter.state n.id on] else [],
        w.node = n.id := by
      intro b on
      split
      · exact List.forall_mem_singleton.mpr rfl
      · exact List.forall_mem_nil _
    unfold brightnessNode
    split
    · refine List.forall_mem_cons.mpr ⟨rfl, List.forall_mem_append.mpr ⟨?_, ?_⟩⟩
      · exact switched _ _
      · exact switched _ _
    · split
      · exact List.forall_mem_nil _
      · split
        · exact List.forall_mem_singleton.mpr rfl
        · split
          · exact List.forall_mem_singleton.mpr rfl
          · exact List.forall_mem_nil _
  alone := by
    intro single n
    unfold brightnessNode
    split
    · rfl
    · split
      · rfl
      · split
        · rfl
        · split
          · rfl
          · rfl

section Parts

variable (s : Situation) (among : String → Bool) (nodes : List Node) (words : List String)

theorem readSwitch_part :
    (readSwitch (nodes.filter (among ·.id)) words).1.setters =
        (readSwitch nodes words).1.setters.filter (among ·.node) ∧
      (readSwitch (nodes.filter (among ·.id)) words).2 = (readSwitch nodes words).2 := by
  unfold readSwitch
  split
  · exact ⟨rfl, rfl⟩
  · split
    · exact ⟨(switchNode_own _ _).part among nodes, rfl⟩
    · exact ⟨rfl, rfl⟩

theorem readColor_part :
    (s.readColor (nodes.filter (among ·.id)) words).1.setters =
        (s.readColor nodes words).1.setters.filter (among ·.node) ∧
      (s.readColor (nodes.filter (among ·.id)) words).2 = (s.readColor nodes words).2 := by
  unfold readColor
  split
  · exact ⟨rfl, rfl⟩
  · split
    · exact ⟨(colorNode_own _ _).part among nodes, rfl⟩
    · exact ⟨rfl, rfl⟩

theorem readBrightness_part :
    (readBrightness (nodes.filter (among ·.id)) words).1.setters =
        (readBrightness nodes words).1.setters.filter (among ·.node) ∧
      (readBrightness (nodes.filter (among ·.id)) words).2 = (readBrightness nodes words).2 := by
  unfold readBrightness
  split
  · exact ⟨rfl, rfl⟩
  · split
    · exact ⟨rfl, rfl⟩
    · split
      · exact ⟨(brightnessNode_own _).part among nodes, rfl⟩
      · exact ⟨rfl, rfl⟩
      · exact ⟨rfl, rfl⟩
      · exact ⟨rfl, rfl⟩

/-- How a command is read does not depend on its nodes, and each node gets its own setters. -/
theorem readParts_part :
    (s.readParts (nodes.filter (among ·.id)) words).1.setters =
        (s.readParts nodes words).1.setters.filter (among ·.node) ∧
      (s.readParts (nodes.filter (among ·.id)) words).2 = (s.readParts nodes words).2 := by
  obtain ⟨switched, words'⟩ := readSwitch_part among nodes words
  obtain ⟨colored, words''⟩ := s.readColor_part among nodes (readSwitch nodes words).2
  obtain ⟨lit, left⟩ := readBrightness_part among nodes (s.readColor nodes (readSwitch nodes words).2).2
  simp only [readParts, Draft.append, words', words'', List.filter_append, switched, colored, lit,
    left, and_self]

end Parts

section Times

variable (s : Situation) (among : String → Bool) (ws : List Setter)

theorem later_part (due : Int) :
    (later (ws.filter (among ·.node)) due).PartFor (later ws due) among :=
  ⟨rfl, rfl, rfl, by simp only [later, List.filter_map]; rfl⟩

theorem previous_node {w back : Setter} (h : s.previous w = .ok back) : back.node = w.node := by
  by_cases flip : w.attr = Attr.flip
  · unfold previous at h
    rw [if_pos flip] at h
    cases h
    rfl
  · rw [s.previous_eq flip] at h
    split at h
    · cases h
      rfl
    · cases h

def undoing (due : Int) (w : Setter) : Plan :=
  match s.previous w with
  | .ok back => { timed := [⟨back, due⟩] }
  | .error e => .failure e

theorem undoing_on (due : Int) (w : Setter) : (s.undoing due w).On w.node := by
  unfold undoing
  split
  · rename_i back found
    exact ⟨List.forall_mem_nil _, List.forall_mem_nil _, List.forall_mem_nil _,
      List.forall_mem_singleton.mpr (s.previous_node found)⟩
  · exact ⟨List.forall_mem_nil _, List.forall_mem_nil _, List.forall_mem_nil _,
      List.forall_mem_nil _⟩

theorem restore_eq (due : Int) :
    s.restore ws due = { Plan.merged (s.undoing due) .empty ws with setters := ws } := by
  have step : s.restoreOne due = fun p w => p.merge (s.undoing due w) := by
    funext p w
    unfold restoreOne undoing
    cases s.previous w with
    | ok back => cases asked : p.aggregate <;> simp [Plan.merge, Plan.aggregateClash, asked]
    | error e => exact p.note_eq_merge e
  rw [restore, step]
  rfl

theorem restore_part (due : Int) :
    (s.restore (ws.filter (among ·.node)) due).PartFor (s.restore ws due) among := by
  have backs := Plan.partFor_merged (s.undoing_on due) ws (Plan.partFor_empty : Plan.empty.PartFor .empty among)
  rw [restore_eq, restore_eq]
  exact ⟨backs.getters, rfl, backs.faders, backs.timed⟩

theorem transitionOne_on (d : Duration) (w : Setter) : (s.transitionOne d w).On w.node := by
  have now : Plan.On { setters := [w] } w.node :=
    ⟨List.forall_mem_nil _, List.forall_mem_singleton.mpr rfl, List.forall_mem_nil _,
      List.forall_mem_nil _⟩
  unfold transitionOne
  split
  · split
    · exact now
    · exact ⟨List.forall_mem_nil _, List.forall_mem_nil _, List.forall_mem_singleton.mpr rfl,
        List.forall_mem_nil _⟩
  · exact now

theorem transition_part (d : Duration) :
    (s.transition (ws.filter (among ·.node)) d).PartFor (s.transition ws d) among := by
  rw [transition, transition, List.foldl_map, List.foldl_map]
  exact Plan.partFor_merged (s.transitionOne_on d) ws Plan.partFor_empty

theorem modify_part (keyword word : String) :
    (s.modify keyword word (ws.filter (among ·.node))).PartFor (s.modify keyword word ws) among := by
  unfold modify
  split
  · cases s.timeAt word with
    | ok due => exact later_part among ws due
    | error e => exact Plan.partFor_failure e
  · split
    · cases s.timeIn word with
      | ok due => exact later_part among ws due
      | error e => exact Plan.partFor_failure e
    · split
      · cases s.timeAt word with
        | ok due => exact s.restore_part among ws due
        | error e => exact Plan.partFor_failure e
      · split
        · cases s.timeIn word with
          | ok due => exact s.restore_part among ws due
          | error e => exact Plan.partFor_failure e
        · cases duration word with
          | ok d => exact s.transition_part among ws d
          | error e => exact Plan.partFor_failure e

theorem readModifier_part (words : List String) :
    (s.readModifier (ws.filter (among ·.node)) words).PartFor (s.readModifier ws words) among := by
  unfold readModifier
  split
  · split
    · split
      · exact (s.modify_part among ws _ _).reported _ _
      · exact Plan.partFor_failure _
    · exact ⟨rfl, rfl, rfl, rfl⟩
  · exact ⟨rfl, rfl, rfl, rfl⟩

end Times

inductive NodeVerb where
  | set
  | fade
  | get
  deriving DecidableEq, Repr

namespace NodeVerb

def word : NodeVerb → String
  | set => "set"
  | fade => "fade"
  | get => "get"

/-- Whether a group is read with the nodes of strict timers; readings always are. -/
def reach (timed : Bool) : NodeVerb → Bool
  | get => true
  | _ => timed

end NodeVerb

def fadeNodes (s : Situation) (nodes : List Node) (words : List String) : Plan :=
  let (attr, words) := skip [Attr.brightness, Attr.color] words
  let (_, words) := skip ["from"] words
  let (start, words) := s.readFadeEnd attr words
  let (_, words) := skip ["to"] words
  let (goal, words) := s.readFadeEnd attr words
  let (_, words) := skip ["for", "over"] words
  let (d, words) := readFadeDuration words
  let plan := fadePlan nodes (pair? start goal) d
  { plan with errors := plan.errors ++ leftover words }

def getNodes (nodes : List Node) (attrs : List String) : Plan :=
  Plan.merged (getAttr nodes) .empty attrs

def tell (s : Situation) (verb : NodeVerb) (nodes : List Node) (words : List String) : Plan :=
  match verb with
  | .set => s.setNodes nodes words
  | .fade => s.fadeNodes nodes words
  | .get => getNodes nodes words

section Verbs

variable (s : Situation) (among : String → Bool) (nodes : List Node) (words : List String)

theorem setNodes_part :
    (s.setNodes (nodes.filter (among ·.id)) words).PartFor (s.setNodes nodes words) among := by
  obtain ⟨own, left⟩ := s.readParts_part among nodes words
  rw [setNodes_eq, setNodes_eq]
  -- Whether an unknown word ends the command is the same for the part.
  generalize s.readParts nodes words = whole at own left ⊢
  generalize s.readParts (nodes.filter (among ·.id)) words = part at own left ⊢
  obtain ⟨draft, time⟩ := whole
  obtain ⟨draft', time'⟩ := part
  simp only at own left
  subst left
  cases time' with
  | none => exact ⟨rfl, own, rfl, rfl⟩
  | some time =>
    simp only [own]
    exact (s.readModifier_part among draft.setters time).reported _ _

theorem filter_map_id {β : Type} {can : Node → Bool} {make : Node → β} {key : β → String}
    (own : ∀ n, key (make n) = n.id) :
    ((nodes.filter (among ·.id)).filter can).map make =
      ((nodes.filter can).map make).filter (fun x => among (key x)) := by
  rw [List.filter_map, List.filter_filter, List.filter_filter]
  congr 1
  refine List.filter_congr fun n _ => ?_
  simp [own, Bool.and_comm]

theorem fadePlan_part (values : Option FadeValues) (d : Except PlanError Duration) :
    (fadePlan (nodes.filter (among ·.id)) values d).PartFor (fadePlan nodes values d) among := by
  unfold fadePlan
  split
  · exact ⟨rfl, rfl, rfl, rfl⟩
  · exact Plan.partFor_failure _
  · exact ⟨rfl, rfl, filter_map_id among nodes fun _ => rfl, rfl⟩

theorem fadeNodes_part :
    (s.fadeNodes (nodes.filter (among ·.id)) words).PartFor (s.fadeNodes nodes words) among :=
  (fadePlan_part among nodes _ _).reported _ _

theorem getAttr_part (attr : String) :
    (getAttr (nodes.filter (among ·.id)) attr).PartFor (getAttr nodes attr) among :=
  ⟨filter_map_id among nodes fun _ => rfl, rfl, rfl, rfl⟩

theorem getNodes_part :
    (getNodes (nodes.filter (among ·.id)) words).PartFor (getNodes nodes words) among :=
  Plan.partFor_empty.merged (getAttr_part among nodes) words

/-- What a verb means for nodes, it means for each of them. -/
theorem tell_part (verb : NodeVerb) :
    (s.tell verb (nodes.filter (among ·.id)) words).PartFor (s.tell verb nodes words) among := by
  cases verb with
  | set => exact s.setNodes_part among nodes words
  | fade => exact s.fadeNodes_part among nodes words
  | get => exact getNodes_part among nodes words

end Verbs

end Situation

end HomeControl
