import HomeControl.Proofs.Command.Emitted
import HomeControl.Proofs.Command.Expansion
/-!
What single commands complain about. Only the expansion of actions speaks of actions.
-/

namespace HomeControl

def PlanError.isAboutActions : PlanError → Bool
  | unknownAction _ => true
  | actionCycle _ => true
  | _ => false

def PlanError.isAboutNodes : PlanError → Bool
  | noSetter _ _ _ _ => true
  | noColor _ _ _ => true
  | noBrightness _ _ => true
  | _ => false

def PlanError.isAboutTimes : PlanError → Bool
  | invalidDuration _ => true
  | invalidTime _ _ => true
  | _ => false

def PlanError.Other (errors : List PlanError) : Prop :=
  ∀ e ∈ errors, e.isAboutActions = false

namespace PlanError

theorem other_nil : Other [] := List.forall_mem_nil _

theorem other_one {e : PlanError} (h : e.isAboutActions = false) : Other [e] :=
  List.forall_mem_singleton.mpr h

theorem other_append {xs ys : List PlanError} (hx : Other xs) (hy : Other ys) : Other (xs ++ ys) :=
  List.forall_mem_append.mpr ⟨hx, hy⟩

theorem other_nodes {errors : List PlanError} (h : ∀ e ∈ errors, e.isAboutNodes = true) :
    Other errors := by
  intro e told
  have node := h e told
  cases e <;> first | rfl | cases node

theorem other_time {e : PlanError} (h : e.isAboutTimes = true) : e.isAboutActions = false := by
  cases e <;> first | rfl | cases h

theorem other_clash (a b : Option Aggregate) : Other (Plan.aggregateClash a b) := by
  intro e inside
  obtain ⟨x, y, rfl⟩ := Plan.clash_of_mem inside
  rfl

end PlanError

open PlanError

theorem Plan.other_merge {p q : Plan} (hp : Other p.errors) (hq : Other q.errors) :
    Other (p.merge q).errors :=
  other_append (other_append hp hq) (other_clash _ _)

namespace Situation

variable (s : Situation)

theorem leftover_other (words : List String) : Other (leftover words) := by
  unfold leftover
  split
  · exact other_nil
  · exact other_one rfl

theorem refusal_errors {e : PlanError} (h : e.isAboutNodes = true) (single : Bool) :
    ∀ e' ∈ (Draft.refusal single e).errors, e'.isAboutNodes = true := by
  unfold Draft.refusal
  cases single with
  | true => exact List.forall_mem_singleton.mpr h
  | false => exact List.forall_mem_nil _

theorem readSwitch_errors (nodes : List Node) (words : List String) :
    ∀ e ∈ (readSwitch nodes words).1.errors, e.isAboutNodes = true := by
  unfold readSwitch
  split
  · exact List.forall_mem_nil _
  · split
    · refine ofNodes_errors fun single n => ?_
      unfold switchNode
      split
      · exact List.forall_mem_nil _
      · exact refusal_errors rfl single
    · exact List.forall_mem_nil _

theorem readColor_errors (nodes : List Node) (words : List String) :
    ∀ e ∈ (s.readColor nodes words).1.errors, e.isAboutNodes = true := by
  unfold readColor
  split
  · exact List.forall_mem_nil _
  · split
    · refine ofNodes_errors fun single n => ?_
      unfold colorNode
      split
      · exact List.forall_mem_nil _
      · exact refusal_errors rfl single
    · exact List.forall_mem_nil _

theorem brightnessNode_errors (percent : Nat) (single : Bool) (n : Node) :
    ∀ e ∈ (brightnessNode percent single n).errors, e.isAboutNodes = true := by
  unfold brightnessNode
  split
  · exact List.forall_mem_nil _
  · split
    · exact refusal_errors rfl single
    · split
      · exact List.forall_mem_nil _
      · split
        · exact List.forall_mem_nil _
        · exact refusal_errors rfl single

theorem readBrightness_other (nodes : List Node) (words : List String) :
    Other (readBrightness nodes words).1.errors := by
  unfold readBrightness
  split
  · exact other_nil
  · split
    · exact other_nil
    · split
      · exact other_nodes (ofNodes_errors (brightnessNode_errors _))
      · exact other_nil
      · exact other_one rfl
      · exact other_one rfl

theorem readParts_other (nodes : List Node) (words : List String) :
    Other (s.readParts nodes words).1.errors :=
  other_append (other_append (other_nodes (readSwitch_errors nodes words))
    (other_nodes (s.readColor_errors nodes _))) (readBrightness_other nodes _)

theorem duration_error {word : String} {e : PlanError} (h : duration word = .error e) :
    e.isAboutTimes = true := by
  unfold duration at h
  split at h
  · cases h
  · cases h
    rfl

theorem timeAt_error {word : String} {e : PlanError} (h : s.timeAt word = .error e) :
    e.isAboutTimes = true := by
  unfold timeAt at h
  split at h
  · cases h
  · cases h
    rfl

theorem timeIn_error {word : String} {e : PlanError} (h : s.timeIn word = .error e) :
    e.isAboutTimes = true := by
  unfold timeIn at h
  cases d : duration word with
  | ok d' =>
    rw [d] at h
    cases h
  | error e' =>
    rw [d] at h
    cases h
    exact duration_error d

theorem previous_error {w : Setter} {e : PlanError} (h : s.previous w = .error e) :
    e = .noRestoreValue w.node w.attr := by
  by_cases flips : w.attr = Attr.flip
  · unfold previous at h
    rw [if_pos flips] at h
    cases h
  · rw [s.previous_eq flips] at h
    split at h
    · cases h
    · cases h
      rfl

theorem restore_errors (ws : List Setter) (due : Int) :
    ∀ e ∈ (s.restore ws due).errors, ∃ node attr, e = .noRestoreValue node attr := by
  refine List.foldlRecOn (motive := fun p : Plan =>
    ∀ e ∈ p.errors, ∃ node attr, e = .noRestoreValue node attr) _ _ (List.forall_mem_nil _) ?_
  intro p told w _
  unfold restoreOne
  split
  · exact told
  · rename_i e failed
    refine List.forall_mem_append.mpr ⟨told, List.forall_mem_singleton.mpr ?_⟩
    exact ⟨_, _, s.previous_error failed⟩

/-- A fade needs no value to start from, so nothing is wrong with a transition. -/
theorem transition_errors (ws : List Setter) (d : Duration) : (s.transition ws d).errors = [] := by
  have each : ∀ w, (s.transitionOne d w).errors = [] ∧ (s.transitionOne d w).aggregate = none := by
    intro w
    unfold transitionOne
    split
    · split
      · exact ⟨rfl, rfl⟩
      · exact ⟨rfl, rfl⟩
    · exact ⟨rfl, rfl⟩
  have all : (s.transition ws d).errors = [] ∧ (s.transition ws d).aggregate = none := by
    refine List.foldlRecOn (motive := fun p : Plan => p.errors = [] ∧ p.aggregate = none) _ _
      ⟨rfl, rfl⟩ ?_
    intro p clean x inside
    obtain ⟨w, -, rfl⟩ := List.mem_map.mp inside
    simp [Plan.merge, clean, each w, Plan.aggregateClash]
  exact all.1

theorem restore_other (ws : List Setter) (due : Int) : Other (s.restore ws due).errors := by
  intro e told
  obtain ⟨node, attr, rfl⟩ := s.restore_errors ws due e told
  rfl

theorem transition_other (ws : List Setter) (d : Duration) :
    Other (s.transition ws d).errors := by
  rw [s.transition_errors]
  exact other_nil

theorem modify_other (keyword word : String) (ws : List Setter) :
    Other (s.modify keyword word ws).errors := by
  unfold modify
  split
  · cases time : s.timeAt word with
    | ok due => exact other_nil
    | error e => exact other_one (other_time (s.timeAt_error time))
  · split
    · cases time : s.timeIn word with
      | ok due => exact other_nil
      | error e => exact other_one (other_time (s.timeIn_error time))
    · split
      · cases time : s.timeAt word with
        | ok due => exact s.restore_other ws due
        | error e => exact other_one (other_time (s.timeAt_error time))
      · split
        · cases time : s.timeIn word with
          | ok due => exact s.restore_other ws due
          | error e => exact other_one (other_time (s.timeIn_error time))
        · cases time : duration word with
          | ok d => exact s.transition_other ws d
          | error e => exact other_one (other_time (duration_error time))

theorem missing_other (keyword : String) : (missing keyword).isAboutActions = false := by
  unfold missing
  split <;> rfl

theorem readModifier_other (ws : List Setter) (words : List String) :
    Other (s.readModifier ws words).errors := by
  unfold readModifier
  split
  · split
    · split
      · exact other_append (s.modify_other _ _ ws) (leftover_other _)
      · exact other_one (missing_other _)
    · exact leftover_other (_ :: _)
  · exact other_nil

theorem set_other (timed : Bool) (words : List String) : Other (s.set timed words).errors := by
  unfold set
  split
  · exact other_one rfl
  · rename_i nodes words _ _
    have others := s.readParts_other nodes words
    rw [setNodes_eq]
    split
    · rename_i draft parts
      rw [parts] at others
      exact others
    · rename_i draft time parts
      rw [parts] at others
      exact other_append others (s.readModifier_other draft.setters time)

theorem status_other (words : List String) : Other (s.status words).errors := by
  unfold status
  split
  · exact other_nil
  · refine List.foldlRecOn (motive := fun p : Plan => Other p.errors) _ _ other_nil ?_
    intro p others word _
    unfold statusOf
    split
    · exact other_append others (other_one rfl)
    · exact others

theorem getAttr_other (nodes : List Node) (attr : String) : Other (getAttr nodes attr).errors := by
  unfold getAttr
  dsimp only
  split
  · split
    · exact other_nil
    · exact other_one rfl
  · exact other_nil

theorem get_other (words : List String) : Other (s.get words).errors := by
  have attrs : ∀ nodes (attrs : List String),
      Other (attrs.foldl (fun plan attr => plan.merge (getAttr nodes attr)) Plan.empty).errors := by
    intro nodes attrs
    refine List.foldlRecOn (motive := fun p : Plan => Other p.errors) _ _ other_nil ?_
    intro p others attr _
    exact Plan.other_merge others (getAttr_other nodes attr)
  unfold get
  split
  split
  simp only
  split
  · exact other_nil
  · exact attrs _ _

theorem readFadeDuration_other {words : List String} {e : PlanError}
    (h : (readFadeDuration words).1 = .error e) : e.isAboutActions = false := by
  unfold readFadeDuration at h
  split at h
  · cases h
    rfl
  · split at h
    · dsimp only at h
      split at h
      · cases h
        rfl
      · cases h
    · rename_i e' failed
      cases h
      exact other_time (duration_error failed)

theorem fadePlan_other (nodes : List Node) (values : Option FadeValues)
    {d : Except PlanError Duration} (h : ∀ e, d = .error e → e.isAboutActions = false) :
    Other (fadePlan nodes values d).errors := by
  unfold fadePlan
  split
  · cases d with
    | ok d => exact other_one rfl
    | error e => exact other_append (other_one rfl) (other_one (h e rfl))
  · exact other_one (h _ rfl)
  · unfold fadersOf unsupported
    dsimp only
    split
    · split
      · exact other_nil
      · refine other_one ?_
        split <;> rfl
    · exact other_nil

theorem fade_other (timed : Bool) (words : List String) : Other (s.fade timed words).errors := by
  unfold fade
  split
  · exact other_one rfl
  · refine other_append (fadePlan_other _ _ ?_) (leftover_other _)
    intro e failed
    exact readFadeDuration_other failed

theorem plain_other (timed : Bool) (command : String) :
    Other (s.plain timed command).errors := by
  unfold plain Situation.command
  split
  · exact other_one rfl
  · exact s.status_other _
  · exact other_nil
  · exact s.get_other _
  · exact s.set_other timed _
  · exact s.fade_other timed _
  · exact other_one rfl

end Situation

end HomeControl
