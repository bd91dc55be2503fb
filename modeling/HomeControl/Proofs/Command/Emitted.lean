import HomeControl.Proofs.Schedule.Fade
import HomeControl.Proofs.Schedule.Sound
/-!
The setters that commands mean, now or for later. Each switches a node, sets its brightness or its
color, or puts back what is known of one of these; what holds of those setters holds of all setters
of a plan.
-/

namespace HomeControl

def Attr.Settable (attr : String) : Prop :=
  attr = Attr.state ∨ attr = Attr.brightness ∨ attr = Attr.color

instance Attr.decidableSettable (attr : String) : Decidable (Attr.Settable attr) :=
  inferInstanceAs (Decidable (attr = Attr.state ∨ attr = Attr.brightness ∨ attr = Attr.color))

theorem Attr.Settable.ne {attr other : String} (h : Attr.Settable attr)
    (apart : ¬ Attr.Settable other) : attr ≠ other :=
  fun same => apart (same ▸ h)

theorem Attr.Settable.ne_flip {attr : String} (h : Attr.Settable attr) : attr ≠ Attr.flip :=
  h.ne (by decide)

structure Value.Covers (R : String → Value → Prop) : Prop where
  state : ∀ on, R Attr.state (.bool on)
  brightness : ∀ n : Nat, R Attr.brightness (.int n)
  color : ∀ c : Color, R Attr.color c.toValue

/-- Setters as commands make them: a flip, or a settable attribute with a value that has a
property. -/
def Setter.Emitted (R : String → Value → Prop) (w : Setter) : Prop :=
  w = .flip w.node ∨ Attr.Settable w.attr ∧ ∃ v, w.value = some v ∧ R w.attr v

theorem Value.Covers.restValue? {R : String → Value → Prop} (covers : Value.Covers R)
    {attr : String} {v : Value} (h : Attr.restValue? attr = some v) : R attr v := by
  unfold Attr.restValue? at h
  split at h
  · rename_i same
    cases h
    exact same ▸ covers.state false
  · split at h
    · rename_i same
      cases h
      exact same ▸ covers.brightness 0
    · split at h
      · rename_i same
        cases h
        exact same ▸ covers.color Color.black
      · cases h

namespace Plan

variable {Q : Setter → Prop}

theorem carries_of_now {p : Plan} (now : ∀ w ∈ p.setters, Q w) (later : p.timed = []) :
    p.Carries Q := by
  refine ⟨now, ?_⟩
  rw [later]
  exact fun _ h => absurd h List.not_mem_nil

theorem carries_of_nil {p : Plan} (now : p.setters = []) (later : p.timed = []) :
    p.Carries Q := by
  refine carries_of_now ?_ later
  rw [now]
  exact List.forall_mem_nil Q

theorem carries_empty : Plan.empty.Carries Q := carries_of_nil rfl rfl

theorem carries_failure (e : PlanError) : (Plan.failure e).Carries Q := carries_of_nil rfl rfl

theorem carries_merge {p q : Plan} (hp : p.Carries Q) (hq : q.Carries Q) :
    (p.merge q).Carries Q := by
  refine ⟨?_, ?_⟩
  · intro w h
    rcases List.mem_append.mp h with first | second
    · exact hp.1 w first
    · exact hq.1 w second
  · intro t h
    rcases List.mem_append.mp h with first | second
    · exact hp.2 t first
    · exact hq.2 t second

end Plan

namespace Situation

/-- A property of the setters that single words mean, which is passed on to those that put back what
was there. -/
structure Speaks (s : Situation) (Q : Setter → Prop) : Prop where
  state : ∀ node on, Q (.state node on)
  flip : ∀ node, Q (.flip node)
  brightness : ∀ node percent, Q (.brightness node percent)
  color : ∀ node c, Q (.color node c)
  previous : ∀ w back, Q w → s.previous w = .ok back → Q back

variable {s : Situation} {Q : Setter → Prop}

theorem ofNodes_carries {nodes : List Node} {f : Bool → Node → Draft}
    (each : ∀ single n, ∀ w ∈ (f single n).setters, Q w) :
    ∀ w ∈ (Draft.ofNodes nodes f).setters, Q w := by
  refine List.foldlRecOn (motive := fun d : Draft => ∀ w ∈ d.setters, Q w) _ _
    (List.forall_mem_nil Q) ?_
  intro d carried x inside w among
  obtain ⟨n, -, rfl⟩ := List.mem_map.mp inside
  rcases List.mem_append.mp among with before | new
  · exact carried w before
  · exact each _ n w new

theorem ofNodes_errors {R : PlanError → Prop} {nodes : List Node} {f : Bool → Node → Draft}
    (each : ∀ single n, ∀ e ∈ (f single n).errors, R e) :
    ∀ e ∈ (Draft.ofNodes nodes f).errors, R e := by
  refine List.foldlRecOn (motive := fun d : Draft => ∀ e ∈ d.errors, R e) _ _
    (List.forall_mem_nil R) ?_
  intro d told x inside e among
  obtain ⟨n, -, rfl⟩ := List.mem_map.mp inside
  rcases List.mem_append.mp among with before | new
  · exact told e before
  · exact each _ n e new

theorem switchNode_carries (k : s.Speaks Q) (capability word : String) (single : Bool) (n : Node) :
    ∀ w ∈ (switchNode capability word single n).setters, Q w := by
  unfold switchNode
  split
  · refine List.forall_mem_singleton.mpr ?_
    unfold switchSetter
    split
    · exact k.state _ _
    · split
      · exact k.state _ _
      · exact k.flip _
  · exact List.forall_mem_nil Q

theorem colorNode_carries (k : s.Speaks Q) (color : Color) (last single : Bool) (n : Node) :
    ∀ w ∈ (colorNode color last single n).setters, Q w := by
  intro w inside
  unfold colorNode at inside
  split at inside
  · rcases List.mem_cons.mp inside with rfl | more
    · exact k.color _ _
    · split at more
      · exact List.forall_mem_singleton.mpr (k.state _ _) w more
      · exact List.forall_mem_nil Q w more
  · exact List.forall_mem_nil Q w inside

theorem brightnessNode_carries (k : s.Speaks Q) (percent : Nat) (single : Bool) (n : Node) :
    ∀ w ∈ (brightnessNode percent single n).setters, Q w := by
  intro w inside
  unfold brightnessNode at inside
  split at inside
  · rcases List.mem_cons.mp inside with rfl | more
    · exact k.brightness _ _
    · rcases List.mem_append.mp more with on | off
      · split at on
        · exact List.forall_mem_singleton.mpr (k.state _ _) w on
        · exact List.forall_mem_nil Q w on
      · split at off
        · exact List.forall_mem_singleton.mpr (k.state _ _) w off
        · exact List.forall_mem_nil Q w off
  · split at inside
    · exact List.forall_mem_nil Q w inside
    · split at inside
      · exact List.forall_mem_singleton.mpr (k.state _ _) w inside
      · split at inside
        · exact List.forall_mem_singleton.mpr (k.state _ _) w inside
        · exact List.forall_mem_nil Q w inside

theorem readSwitch_carries (k : s.Speaks Q) (nodes : List Node) (words : List String) :
    ∀ w ∈ (readSwitch nodes words).1.setters, Q w := by
  unfold readSwitch
  split
  · exact List.forall_mem_nil Q
  · split
    · exact ofNodes_carries (switchNode_carries k _ _)
    · exact List.forall_mem_nil Q

theorem readColor_carries (k : s.Speaks Q) (nodes : List Node) (words : List String) :
    ∀ w ∈ (s.readColor nodes words).1.setters, Q w := by
  unfold readColor
  split
  · exact List.forall_mem_nil Q
  · split
    · exact ofNodes_carries (colorNode_carries k _ _)
    · exact List.forall_mem_nil Q

theorem readBrightness_carries (k : s.Speaks Q) (nodes : List Node) (words : List String) :
    ∀ w ∈ (readBrightness nodes words).1.setters, Q w := by
  unfold readBrightness
  split
  · exact List.forall_mem_nil Q
  · split
    · exact List.forall_mem_nil Q
    · split
      · exact ofNodes_carries (brightnessNode_carries k _)
      · exact List.forall_mem_nil Q
      · exact List.forall_mem_nil Q
      · exact List.forall_mem_nil Q

theorem later_carries {ws : List Setter} (h : ∀ w ∈ ws, Q w) (due : Int) :
    (later ws due).Carries Q := by
  refine ⟨List.forall_mem_nil Q, ?_⟩
  intro t inside
  obtain ⟨w, among, rfl⟩ := List.mem_map.mp inside
  exact h w among

theorem restore_carries (k : s.Speaks Q) {ws : List Setter} (h : ∀ w ∈ ws, Q w) (due : Int) :
    (s.restore ws due).Carries Q := by
  have backs : (ws.foldl (s.restoreOne due) .empty).Carries Q := by
    refine List.foldlRecOn (motive := Plan.Carries Q) _ _ Plan.carries_empty ?_
    intro p carried w inside
    unfold restoreOne
    split
    · rename_i back found
      refine ⟨carried.1, ?_⟩
      intro t among
      rcases List.mem_append.mp among with before | new
      · exact carried.2 t before
      · rw [List.mem_singleton.mp new]
        exact k.previous w back (h w inside) found
    · exact carried
  exact ⟨h, backs.2⟩

theorem transition_carries {ws : List Setter} (h : ∀ w ∈ ws, Q w) (d : Duration) :
    (s.transition ws d).Carries Q := by
  have each : ∀ p ∈ ws.map (s.transitionOne d), p.Carries Q := by
    intro p inside
    obtain ⟨w, among, rfl⟩ := List.mem_map.mp inside
    have now : Plan.Carries Q { setters := [w] } :=
      Plan.carries_of_now (List.forall_mem_singleton.mpr (h w among)) rfl
    unfold transitionOne
    split
    · split
      · exact now
      · exact Plan.carries_of_nil rfl rfl
    · exact now
  refine List.foldlRecOn (motive := Plan.Carries Q) _ _ Plan.carries_empty ?_
  intro p carried x inside
  exact Plan.carries_merge carried (each x inside)

theorem modify_carries (k : s.Speaks Q) (keyword word : String) {ws : List Setter}
    (h : ∀ w ∈ ws, Q w) : (s.modify keyword word ws).Carries Q := by
  unfold modify
  split
  · cases s.timeAt word with
    | ok due => exact later_carries h due
    | error e => exact Plan.carries_failure e
  · split
    · cases s.timeIn word with
      | ok due => exact later_carries h due
      | error e => exact Plan.carries_failure e
    · split
      · cases s.timeAt word with
        | ok due => exact restore_carries k h due
        | error e => exact Plan.carries_failure e
      · split
        · cases s.timeIn word with
          | ok due => exact restore_carries k h due
          | error e => exact Plan.carries_failure e
        · cases duration word with
          | ok d => exact transition_carries h d
          | error e => exact Plan.carries_failure e

theorem readModifier_carries (k : s.Speaks Q) {ws : List Setter} (h : ∀ w ∈ ws, Q w)
    (words : List String) : (s.readModifier ws words).Carries Q := by
  have now : ∀ errors, Plan.Carries Q { setters := ws, errors := errors } :=
    fun _ => Plan.carries_of_now h rfl
  unfold readModifier
  split
  · split
    · split
      · exact modify_carries k _ _ h
      · exact Plan.carries_failure _
    · exact now _
  · exact now _

def readParts (s : Situation) (nodes : List Node) (words : List String) :
    Draft × Option (List String) :=
  let switched := readSwitch nodes words
  let colored := s.readColor nodes switched.2
  let lit := readBrightness nodes colored.2
  ((switched.1.append colored.1).append lit.1, lit.2)

theorem setNodes_eq (s : Situation) (nodes : List Node) (words : List String) :
    s.setNodes nodes words =
      match s.readParts nodes words with
      | (draft, none) => { setters := draft.setters, errors := draft.errors }
      | (draft, some words) =>
        { s.readModifier draft.setters words with
          errors := draft.errors ++ (s.readModifier draft.setters words).errors } := by
  unfold setNodes readParts
  cases readSwitch nodes words with
  | mk switched words =>
    cases colored : s.readColor nodes words with
    | mk tint words =>
      cases lit : readBrightness nodes words with
      | mk light words =>
        simp only [colored, lit]
        cases words <;> rfl

theorem readParts_carries (k : s.Speaks Q) (nodes : List Node) (words : List String) :
    ∀ w ∈ (s.readParts nodes words).1.setters, Q w := by
  intro w inside
  rcases List.mem_append.mp inside with first | lit
  · rcases List.mem_append.mp first with switched | colored
    · exact readSwitch_carries k nodes words w switched
    · exact readColor_carries k nodes _ w colored
  · exact readBrightness_carries k nodes _ w lit

theorem set_carries (k : s.Speaks Q) (timed : Bool) (words : List String) :
    (s.set timed words).Carries Q := by
  unfold set
  split
  · exact Plan.carries_failure _
  · rename_i nodes words _ _
    have spoken := readParts_carries k nodes words
    rw [setNodes_eq]
    split
    · rename_i draft parts
      rw [parts] at spoken
      exact Plan.carries_of_now spoken rfl
    · rename_i draft time parts
      rw [parts] at spoken
      exact readModifier_carries k spoken time

theorem status_carries (words : List String) : (s.status words).Carries Q := by
  unfold status
  split
  · exact Plan.carries_of_nil rfl rfl
  · refine List.foldlRecOn (motive := Plan.Carries Q) _ _ Plan.carries_empty ?_
    intro p h word _
    unfold statusOf
    split
    · exact h
    · exact h

theorem get_carries (words : List String) : (s.get words).Carries Q := by
  have attrs : ∀ nodes (attrs : List String),
      (attrs.foldl (fun plan attr => plan.merge (getAttr nodes attr)) Plan.empty).Carries Q := by
    intro nodes attrs
    refine List.foldlRecOn (motive := Plan.Carries Q) _ _ Plan.carries_empty ?_
    intro p h attr _
    exact Plan.carries_merge h (Plan.carries_of_nil rfl rfl)
  unfold get
  split
  split
  simp only
  split
  · exact Plan.carries_of_nil rfl rfl
  · exact attrs _ _

theorem fadePlan_carries (nodes : List Node) (values : Option FadeValues)
    (d : Except PlanError Duration) : (fadePlan nodes values d).Carries Q := by
  unfold fadePlan
  split
  · exact Plan.carries_of_nil rfl rfl
  · exact Plan.carries_failure _
  · exact Plan.carries_of_nil rfl rfl

theorem fade_carries (timed : Bool) (words : List String) : (s.fade timed words).Carries Q := by
  unfold fade
  split
  · exact Plan.carries_failure _
  · exact fadePlan_carries _ _ _

theorem command_carries (k : s.Speaks Q) (timed : Bool) {expand : List String → Plan}
    (nested : ∀ ids, (expand ids).Carries Q) (text : String) :
    (s.command timed expand text).Carries Q := by
  unfold command
  split
  · exact Plan.carries_failure _
  · exact status_carries _
  · exact nested _
  · exact get_carries _
  · exact set_carries k timed _
  · exact fade_carries timed _
  · exact Plan.carries_failure _

theorem batch_carries (k : s.Speaks Q) (timed : Bool) {expand : List String → Plan}
    (nested : ∀ ids, (expand ids).Carries Q) (text : String) :
    (s.batch timed expand text).Carries Q := by
  unfold batch
  split
  · exact Plan.carries_failure _
  · refine List.foldlRecOn (motive := Plan.Carries Q) _ _ Plan.carries_empty ?_
    intro p h one _
    exact Plan.carries_merge h (command_carries k timed nested one)

theorem expand_carries (k : s.Speaks Q) (timed : Bool) (chain ids : List String) :
    (s.expand timed chain ids).Carries Q := by
  induction chain, ids using expand.induct s with
  | case1 chain ids ih =>
    rw [expand]
    refine List.foldlRecOn (motive := Plan.Carries Q) _ _ Plan.carries_empty ?_
    intro p h id _
    split
    · exact h
    · rename_i fresh
      split
      · exact h
      · rename_i commands found
        refine List.foldlRecOn (motive := Plan.Carries Q) _ _ h ?_
        intro q hq text _
        exact Plan.carries_merge hq (batch_carries k timed (ih id fresh commands found) text)

theorem compile_carries (k : s.Speaks Q) (timed : Bool) (text : String) :
    (s.compile timed text).Carries Q := by
  have whole := batch_carries k timed (expand_carries k timed []) text
  simp only [compile]
  split
  · exact whole
  · exact whole

theorem previous_flip (s : Situation) (node : String) :
    s.previous (.flip node) = .ok (.flip node) := rfl

theorem previous_eq (s : Situation) {w : Setter} (other : w.attr ≠ Attr.flip) :
    s.previous w =
      match ((s.known w.node w.attr).filter (!·.isNull)).or (Attr.restValue? w.attr) with
      | some v => .ok ⟨w.node, w.attr, some v⟩
      | none => .error (.noRestoreValue w.node w.attr) := by
  unfold previous
  rw [if_neg other]
  cases s.known w.node w.attr with
  | none => rfl
  | some v => cases v <;> rfl

theorem speaks_emitted {R : String → Value → Prop} (covers : Value.Covers R)
    (known : ∀ node attr v, Attr.Settable attr → s.known node attr = some v → v ≠ .null →
      R attr v) : s.Speaks (Setter.Emitted R) where
  state _ on := Or.inr ⟨Or.inl rfl, _, rfl, covers.state on⟩
  flip _ := Or.inl rfl
  brightness _ percent := Or.inr ⟨Or.inr (Or.inl rfl), _, rfl, covers.brightness percent⟩
  color _ c := Or.inr ⟨Or.inr (Or.inr rfl), _, rfl, covers.color c⟩
  previous := by
    intro w back emitted found
    rcases emitted with flip | ⟨settable, -⟩
    · rw [flip, previous_flip] at found
      cases found
      exact Or.inl rfl
    · rw [s.previous_eq settable.ne_flip] at found
      split at found
      · rename_i v value
        cases found
        refine Or.inr ⟨settable, v, rfl, ?_⟩
        rcases Option.or_eq_some_iff.mp value with before | ⟨-, rest⟩
        · obtain ⟨before, solid⟩ := Option.filter_eq_some_iff.mp before
          refine known w.node w.attr v settable before ?_
          rintro rfl
          cases solid
        · exact covers.restValue? rest
      · cases found

end Situation

theorem ActiveFader.emitted {R : String → Value → Prop} (covers : Value.Covers R)
    (f : ActiveFader) (now : Int) : (f.setter (f.valueAt now)).Emitted R := by
  have shows := f.shows_valueAt now
  refine Or.inr ?_
  simp only [ActiveFader.setter, FaderSpec.attr]
  cases ends : f.spec.values with
  | color start goal =>
    rw [ends] at shows
    obtain ⟨c, value⟩ := shows
    exact ⟨Or.inr (Or.inr rfl), _, rfl, value ▸ covers.color c⟩
  | brightness start goal =>
    rw [ends] at shows
    obtain ⟨n, value⟩ := shows
    exact ⟨Or.inr (Or.inl rfl), _, rfl, value ▸ covers.brightness n.toNat⟩

def Schedule.Emitted (R : String → Value → Prop) (t : Schedule) : Prop :=
  ∀ key x, t.singles.get? key = some x → x.setter.Emitted R

namespace Controller

/-- What is kept of a house by readings, and by settings such as commands make them, is kept by
runs. -/
theorem emitted_keeps (c : Controller) {R : String → Value → Prop} (covers : Value.Covers R)
    {H : House → Prop}
    (known : ∀ h, H h → ∀ node attr v, Attr.Settable attr → h.known? node attr = some v →
      v ≠ .null → R attr v)
    (get : ∀ h, H h → ∀ node attr depth, H (h.get c.topology node attr depth).2)
    (set : ∀ h, H h → ∀ w depth, w.Emitted R → H (h.set c.topology w depth).2) :
    Keeps c (Setter.Emitted R) fun s => H s.house ∧ s.schedule.Emitted R where
  granted timed text s h :=
    Situation.compile_carries (Situation.speaks_emitted covers (known s.house h.1)) timed text
  faded f now := f.emitted covers now
  read depth g s h := ⟨get s.house h.1 g.node g.attr depth, h.2⟩
  set depth w s emitted h := ⟨set s.house h.1 w depth emitted, h.2⟩
  addFader _ _ _ h := h
  addSingle timed s emitted h := by
    refine ⟨h.1, ?_⟩
    intro key x found
    simp only [Schedule.addSingle, Keyed.get?_insert] at found
    split at found
    · cases found
      exact emitted
    · exact h.2 key x found
  cancel key s h := ⟨h.1, fun other x found => h.2 other x (Schedule.get?_of_erase found)⟩
  takeDue key now s shot after taken h := by
    obtain ⟨there, -, rfl⟩ := Schedule.takeDue?_eq_some taken
    exact ⟨h.2 key shot there, h.1, fun other x found => h.2 other x (Schedule.get?_of_erase found)⟩
  noteApplied key generation v s h := by
    obtain ⟨faders, same⟩ := s.schedule.noteApplied_frame key generation v
    rw [same]
    exact h
  dropFader key generation s h := by
    obtain ⟨faders, same⟩ := s.schedule.dropFader_frame key generation
    rw [same]
    exact h
  look _ h := h
  clock _ _ h := h

theorem run_emitted (c : Controller) {R : String → Value → Prop} (covers : Value.Covers R)
    {H : House → Prop}
    (known : ∀ h, H h → ∀ node attr v, Attr.Settable attr → h.known? node attr = some v →
      v ≠ .null → R attr v)
    (get : ∀ h, H h → ∀ node attr depth, H (h.get c.topology node attr depth).2)
    (set : ∀ h, H h → ∀ w depth, w.Emitted R → H (h.set c.topology w depth).2)
    (started : Instant) (start : H (House.start c.topology)) (acts : List Act)
    (asked : ∀ a ∈ acts, a.Carries (Setter.Emitted R)) :
    H (c.run acts (.start c.topology started)).house := by
  have fresh : (State.start c.topology started).schedule.Emitted R := by
    intro key x found
    cases found
  exact (run_keeps (c.emitted_keeps covers known get set) acts _ asked ⟨start, fresh⟩).1

end Controller

end HomeControl
