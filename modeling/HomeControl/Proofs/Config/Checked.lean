import HomeControl.Config.Check
import Mathlib.Data.List.Nodup
/-!
What holds of checked configurations: ids are not repeated, what entries refer to is there, each color
is defined in one way, and the timers can be made.
-/

namespace HomeControl

namespace ConfigError

theorem orElse_eq_ok {α : Type} {errors : List ConfigError} {x y : α} :
    orElse errors x = .ok y ↔ errors = [] ∧ x = y := by
  unfold orElse
  match errors with
  | [] => simp [ofList?]
  | [_] => simp [ofList?]
  | _ :: _ :: _ => simp [ofList?]

theorem orElse_eq_error {α : Type} {errors : List ConfigError} {x : α} {e : ConfigError} :
    orElse errors x = .error e ↔ ofList? errors = some e := by
  unfold orElse
  cases ofList? errors <;> simp

mutual

def leaves : ConfigError → List ConfigError
  | multiple errors => allLeaves errors
  | e => [e]

def allLeaves : List ConfigError → List ConfigError
  | [] => []
  | e :: rest => leaves e ++ allLeaves rest

end

theorem leaves_of_orElse {α : Type} {errors : List ConfigError} {x : α} {e : ConfigError}
    (failed : orElse errors x = .error e) : leaves e = allLeaves errors := by
  unfold orElse at failed
  match errors with
  | [] => cases failed
  | [_] =>
    cases failed
    exact (List.append_nil _).symm
  | _ :: _ :: _ =>
    cases failed
    rfl

theorem mem_allLeaves {x : ConfigError} {errors : List ConfigError} :
    x ∈ allLeaves errors ↔ ∃ e ∈ errors, x ∈ leaves e := by
  induction errors with
  | nil => simp [allLeaves]
  | cons e rest ih => simp [allLeaves, ih]

end ConfigError

def ColorConfig.own? (c : ColorConfig) : Option Color :=
  c.rgb.or (c.hex.bind Color.ofHex?)

/-- Whether every color is given by its own entry, or else by another name that is there. -/
def ColorTable.Defined (colors : List ColorConfig) : Prop :=
  ∀ c ∈ colors, (c.sameAs = none ∧ c.own?.isSome = true) ∨
    ∃ name ∈ colors.map (·.id), c.sameAs = some name ∧ c.own? = none

namespace Config

theorem once_of_duplicates {kind : Section} {seen ids : List String}
    (clean : duplicates kind seen ids = []) : ids.Nodup ∧ ∀ id ∈ ids, id ∉ seen := by
  induction ids generalizing seen with
  | nil => exact ⟨List.nodup_nil, List.forall_mem_nil _⟩
  | cons id rest ih =>
    unfold duplicates at clean
    split at clean
    · cases clean
    · rename_i unseen
      obtain ⟨once, fresh⟩ := ih clean
      refine ⟨List.nodup_cons.mpr ⟨fun again => fresh id again List.mem_cons_self, once⟩, ?_⟩
      refine List.forall_mem_cons.mpr ⟨fun before => unseen (List.contains_iff_mem.mpr before), ?_⟩
      exact fun x inside before => fresh x inside (List.mem_cons_of_mem _ before)

theorem known_of_dangling {kind targetKind : Section} {id : String} {known targets : List String}
    (clean : dangling kind id targetKind known targets = []) : ∀ x ∈ targets, x ∈ known := by
  intro x inside
  by_contra missing
  have left : x ∈ targets.filter (!known.contains ·) :=
    List.mem_filter.mpr ⟨inside, by simpa using missing⟩
  rw [List.map_eq_nil_iff.mp clean] at left
  exact absurd left List.not_mem_nil

theorem own_of_colorErrors {c : Config} {x : ColorConfig} (clean : c.colorErrors x = []) :
    (x.sameAs = none ∧ x.own?.isSome = true) ∨
      ∃ name ∈ c.colors.map (·.id), x.sameAs = some name ∧ x.own? = none := by
  obtain ⟨id, rgb, hex, sameAs⟩ := x
  simp only [colorErrors, List.append_eq_nil_iff] at clean
  obtain ⟨⟨ways, digits⟩, named⟩ := clean
  have one : [rgb.isSome, hex.isSome, sameAs.isSome].count true = 1 := by
    by_contra several
    rw [if_neg several] at ways
    cases ways
  cases sameAs with
  | some name =>
    refine Or.inr ⟨name, known_of_dangling named name List.mem_cons_self, rfl, ?_⟩
    cases rgb <;> cases hex <;> simp [ColorConfig.own?] at one ⊢
  | none =>
    refine Or.inl ⟨rfl, ?_⟩
    cases rgb with
    | some color => rfl
    | none =>
      cases hex with
      | none => simp at one
      | some text =>
        simp only [ite_eq_left_iff, reduceCtorEq, imp_false, not_not] at digits
        exact digits

/-- What the checks of a configuration are for. -/
structure Checked (c : Config) : Prop where
  nodes : (c.nodes.map (·.id)).Nodup
  groups : (c.groups.map (·.id)).Nodup
  colors : (c.colors.map (·.id)).Nodup
  shown : ∀ n ∈ c.nodes, n.device ∈ c.devices.map (·.id)
  members : ∀ g ∈ c.groups, ∀ x ∈ g.nodes, x ∈ c.nodes.map (·.id)
  defined : ColorTable.Defined c.colors
  timers : ∃ timers, c.timerDefs = .ok timers

theorem checked_of_check {c : Config} (accepted : c.check = .ok c) : c.Checked := by
  have clean := (ConfigError.orElse_eq_ok.mp accepted).1
  simp only [errors, List.append_eq_nil_iff, List.flatMap_eq_nil_iff] at clean
  obtain ⟨⟨⟨⟨⟨⟨⟨⟨⟨-, nodes⟩, groups⟩, colors⟩, -⟩, shown⟩, members⟩, defined⟩, -⟩, timers⟩ := clean
  refine ⟨(once_of_duplicates nodes).1, (once_of_duplicates groups).1,
    (once_of_duplicates colors).1, fun n inside => ?_, fun g inside => ?_,
    fun x inside => own_of_colorErrors (defined x inside), ?_⟩
  · exact known_of_dangling (List.append_eq_nil_iff.mp (shown n inside)).1 _ List.mem_cons_self
  · exact known_of_dangling (List.append_eq_nil_iff.mp (members g inside)).1
  · cases made : c.timerDefs with
    | ok timers => exact ⟨timers, rfl⟩
    | error e =>
      rw [made] at timers
      cases timers

end Config

end HomeControl
