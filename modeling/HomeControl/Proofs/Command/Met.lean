import HomeControl.Proofs.Command.Cycle
import HomeControl.Proofs.Command.Wording
/-!
The commands that are met in a text: those of the text itself, and those of the texts of actions that
it asks for, where no action is inside itself. All that a plan does comes from one of them.
-/

namespace HomeControl

structure Plan.View {α : Type} (view : Plan → List α) : Prop where
  empty : view .empty = []
  failure : ∀ e, view (.failure e) = []
  note : ∀ p e, view (p.note e) = view p
  merge : ∀ p q, view (p.merge q) = view p ++ view q

namespace Plan

theorem view_setters : View (·.setters) := ⟨rfl, fun _ => rfl, fun _ _ => rfl, fun _ _ => rfl⟩

theorem view_faders : View (·.faders) := ⟨rfl, fun _ => rfl, fun _ _ => rfl, fun _ _ => rfl⟩

theorem view_timed : View (·.timed) := ⟨rfl, fun _ => rfl, fun _ _ => rfl, fun _ _ => rfl⟩

end Plan

/-- The commands, but for those about actions, that are met in a text inside some actions. -/
inductive Met (actions : Keyed String (List String)) : List String → String → String → Prop
  | here {stack : List String} {text one : String} (inside : one ∈ Situation.commandsOf text)
      (other : Situation.actionsOf? one = none) : Met actions stack text one
  | inAction {stack texts : List String} {text one id inner : String} (asked : id ∈ callees text)
      (fresh : id ∉ stack) (found : actions.get? id = some texts) (among : inner ∈ texts)
      (met : Met actions (id :: stack) inner one) : Met actions stack text one

theorem mem_callees {text id : String} :
    id ∈ callees text ↔
      ∃ c ∈ Situation.commandsOf text, ∃ ids, Situation.actionsOf? c = some ids ∧ id ∈ ids := by
  rw [callees, List.mem_flatMap]
  refine exists_congr fun c => and_congr_right fun _ => ?_
  cases Situation.actionsOf? c <;> simp

namespace Situation

theorem whole_of_met {actions : Keyed String (List String)} {stack : List String}
    {text one : String} (h : Met actions stack text one) : ';' ∉ one.toList := by
  induction h with
  | here inside _ => exact whole_of_commandsOf inside
  | inAction _ _ _ _ _ ih => exact ih

variable {α : Type} {view : Plan → List α} (v : Plan.View view) (s : Situation) (timed : Bool)

include v

theorem mem_merges {β : Type} {plan : β → Plan} {xs : List β} {p : Plan} {y : α} :
    y ∈ view (xs.foldl (fun p x => p.merge (plan x)) p) ↔
      y ∈ view p ∨ ∃ x ∈ xs, y ∈ view (plan x) := by
  induction xs generalizing p with
  | nil => simp
  | cons x rest ih => simp [ih, v.merge, or_assoc]

theorem mem_view_batch {expand : List String → Plan} {text : String} {y : α} :
    y ∈ view (s.batch timed expand text) ↔
      ∃ c ∈ commandsOf text, y ∈ view (s.command timed expand c) := by
  unfold batch
  split
  · rename_i none
    simp [none, v.failure]
  · rw [mem_merges v, v.empty]
    simp

theorem mem_view_expand {stack ids : List String} {y : α} :
    y ∈ view (s.expand timed stack ids) ↔
      ∃ id ∈ ids, id ∉ stack ∧ ∃ texts, s.topology.actions.get? id = some texts ∧
        ∃ text ∈ texts, y ∈ view (s.batch timed (s.expand timed (id :: stack)) text) := by
  rw [expand]
  induction ids using List.reverseRecOn with
  | nil => simp [v.empty]
  | append_singleton front id ih =>
    rw [List.foldl_concat]
    simp only [List.mem_append, List.mem_singleton, or_and_right, exists_or, exists_eq_left, ← ih]
    split
    · rename_i inside
      simp [v.note, inside]
    · rename_i fresh
      split
      · rename_i missing
        simp [v.note, missing]
      · rename_i texts found
        rw [mem_merges v]
        simp [fresh, found]

def MetIn (stack ids : List String) (one : String) : Prop :=
  ∃ id ∈ ids, id ∉ stack ∧ ∃ texts, s.topology.actions.get? id = some texts ∧
    ∃ text ∈ texts, Met s.topology.actions (id :: stack) text one

theorem met_of_batch {stack : List String} {y : α}
    (nested : ∀ ids, y ∈ view (s.expand timed stack ids) →
      ∃ one, s.MetIn stack ids one ∧ y ∈ view (s.plain timed one))
    {text : String} (done : y ∈ view (s.batch timed (s.expand timed stack) text)) :
    ∃ one, Met s.topology.actions stack text one ∧ y ∈ view (s.plain timed one) := by
  obtain ⟨c, inside, done⟩ := (mem_view_batch v s timed).mp done
  rw [command_eq] at done
  split at done
  · rename_i ids asks
    obtain ⟨one, ⟨id, asked, fresh, texts, found, inner, among, met⟩, plain⟩ := nested ids done
    have asked := mem_callees.mpr ⟨c, inside, ids, asks, asked⟩
    exact ⟨one, .inAction asked fresh found among met, plain⟩
  · rename_i other
    exact ⟨c, .here inside other, done⟩

theorem met_of_expand {stack ids : List String} {y : α}
    (done : y ∈ view (s.expand timed stack ids)) :
    ∃ one, s.MetIn stack ids one ∧ y ∈ view (s.plain timed one) := by
  -- With each action on the stack fewer are left that can be expanded.
  induction stack, ids using expand.induct s with
  | case1 stack ids ih =>
    obtain ⟨id, asked, fresh, texts, found, text, among, done⟩ := (mem_view_expand v s timed).mp done
    obtain ⟨one, met, plain⟩ := met_of_batch v s timed (fun more => ih id fresh texts found more) done
    exact ⟨one, ⟨id, asked, fresh, texts, found, text, among, met⟩, plain⟩

theorem mem_view_met {stack : List String} {text : String} {y : α} :
    y ∈ view (s.batch timed (s.expand timed stack) text) ↔
      ∃ one, Met s.topology.actions stack text one ∧ y ∈ view (s.plain timed one) := by
  constructor
  · exact met_of_batch v s timed fun ids => met_of_expand v s timed
  · rintro ⟨one, met, plain⟩
    induction met with
    | here inside other =>
      refine (mem_view_batch v s timed).mpr ⟨_, inside, ?_⟩
      rw [command_eq, other]
      exact plain
    | inAction asked fresh found among met ih =>
      obtain ⟨c, inside, ids, asks, asked⟩ := mem_callees.mp asked
      refine (mem_view_batch v s timed).mpr ⟨c, inside, ?_⟩
      rw [command_eq, asks]
      exact (mem_view_expand v s timed).mpr ⟨_, asked, fresh, _, found, _, among, ih plain⟩

theorem mem_view_compile {text : String} {y : α} :
    y ∈ view (s.compile timed text) ↔
      ∃ one, Met s.topology.actions [] text one ∧ y ∈ view (s.plain timed one) := by
  rw [← mem_view_met v]
  simp only [compile]
  split
  · rw [v.note]
  · rfl

end Situation

end HomeControl
