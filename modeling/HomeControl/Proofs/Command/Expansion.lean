import HomeControl.Command.Compile
import Mathlib.Data.Finset.Card
import Mathlib.Logic.Function.Iterate
/-!
Texts taken apart step by step, with a stack of the actions that are being expanded. Every chore comes
to an end, whatever is to be done after it, and leaves the stack as it was; the plans of the single
commands are the parts of the plan of the whole.
-/

namespace HomeControl

/-- Whether a plan is made up of parts, in their order: all that they do, the first aggregate, and
their errors. Other errors are only about aggregates that differ. -/
structure Plan.Gathers (p : Plan) (parts : List Plan) : Prop where
  getters : p.getters = parts.flatMap (·.getters)
  setters : p.setters = parts.flatMap (·.setters)
  faders : p.faders = parts.flatMap (·.faders)
  timed : p.timed = parts.flatMap (·.timed)
  aggregate : p.aggregate = parts.findSome? (·.aggregate)
  told : (parts.flatMap (·.errors)).Sublist p.errors
  clashes : ∀ e ∈ p.errors, e ∈ parts.flatMap (·.errors) ∨ ∃ a b, e = .conflictingAggregates a b

namespace Plan

theorem gathers_empty : Plan.empty.Gathers [] where
  getters := rfl
  setters := rfl
  faders := rfl
  timed := rfl
  aggregate := rfl
  told := List.Sublist.refl _
  clashes := List.forall_mem_nil _

theorem gathers_self (p : Plan) : p.Gathers [p] where
  getters := (List.flatMap_singleton ..).symm
  setters := (List.flatMap_singleton ..).symm
  faders := (List.flatMap_singleton ..).symm
  timed := (List.flatMap_singleton ..).symm
  aggregate := by cases h : p.aggregate <;> simp [h]
  told := by rw [List.flatMap_singleton]
  clashes e inside := Or.inl (by rwa [List.flatMap_singleton])

theorem clash_of_mem {a b : Option Aggregate} {e : PlanError} (h : e ∈ aggregateClash a b) :
    ∃ x y, e = .conflictingAggregates x y := by
  unfold aggregateClash at h
  split at h
  · split at h
    · exact absurd h List.not_mem_nil
    · exact ⟨_, _, List.mem_singleton.mp h⟩
  · exact absurd h List.not_mem_nil

theorem gathers_merge {p q : Plan} {ps qs : List Plan} (hp : p.Gathers ps) (hq : q.Gathers qs) :
    (p.merge q).Gathers (ps ++ qs) where
  getters := by rw [List.flatMap_append, ← hp.getters, ← hq.getters]; rfl
  setters := by rw [List.flatMap_append, ← hp.setters, ← hq.setters]; rfl
  faders := by rw [List.flatMap_append, ← hp.faders, ← hq.faders]; rfl
  timed := by rw [List.flatMap_append, ← hp.timed, ← hq.timed]; rfl
  aggregate := by rw [List.findSome?_append, ← hp.aggregate, ← hq.aggregate]; rfl
  told := by
    rw [List.flatMap_append]
    exact (hp.told.append hq.told).trans (List.sublist_append_left _ _)
  clashes := by
    intro e inside
    rw [List.flatMap_append, List.mem_append]
    rcases List.mem_append.mp inside with both | clash
    · rcases List.mem_append.mp both with first | second
      · exact (hp.clashes e first).imp_left Or.inl
      · exact (hq.clashes e second).imp_left Or.inr
    · exact Or.inr (clash_of_mem clash)

theorem empty_merge (p : Plan) : empty.merge p = p := by
  unfold merge empty aggregateClash
  simp

theorem note_eq_merge (p : Plan) (e : PlanError) : p.note e = p.merge (.failure e) := by
  have same : p.aggregate.or none = p.aggregate := Option.or_none
  have quiet : aggregateClash p.aggregate none = [] := by cases p.aggregate <;> rfl
  simp only [note, merge, failure, List.append_nil, same, quiet]

theorem gathers_note {p : Plan} {ps : List Plan} (h : p.Gathers ps) (e : PlanError) :
    (p.note e).Gathers (ps ++ [.failure e]) := by
  rw [note_eq_merge]
  exact gathers_merge h (gathers_self _)

end Plan

/-- Something that is left to do: the commands of a text, one command, one action, or to leave the
action that was expanded last. -/
inductive Chore where
  | text (text : String)
  | command (text : String)
  | action (id : String)
  | leave
  deriving DecidableEq, Repr

/-- The actions that are being expanded, the innermost first, what is left to do, and the plans of
what was done. -/
structure Expansion where
  stack : List String
  todo : List Chore
  parts : List Plan

namespace Situation

def actionsOf? (command : String) : Option (List String) :=
  match Text.words command with
  | "do" :: ids => some ids
  | _ => none

variable (s : Situation) (timed : Bool)

def plain (command : String) : Plan :=
  s.command timed (fun _ => .empty) command

theorem command_eq (expand : List String → Plan) (command : String) :
    s.command timed expand command =
      match actionsOf? command with
      | some ids => expand ids
      | none => s.plain timed command := by
  unfold plain Situation.command actionsOf?
  split <;> simp_all

def advance (e : Expansion) : Expansion :=
  match e.todo with
  | [] => e
  | .text text :: rest =>
    match commandsOf text with
    | [] => ⟨e.stack, rest, e.parts ++ [.failure .emptyCommand]⟩
    | commands => ⟨e.stack, commands.map .command ++ rest, e.parts⟩
  | .command command :: rest =>
    match actionsOf? command with
    | some ids => ⟨e.stack, ids.map .action ++ rest, e.parts⟩
    | none => ⟨e.stack, rest, e.parts ++ [s.plain timed command]⟩
  | .action id :: rest =>
    if id ∈ e.stack then ⟨e.stack, rest, e.parts ++ [.failure (.actionCycle id)]⟩
    else
      match s.topology.actions.get? id with
      | none => ⟨e.stack, rest, e.parts ++ [.failure (.unknownAction id)]⟩
      | some commands => ⟨id :: e.stack, commands.map .text ++ .leave :: rest, e.parts⟩
  | .leave :: rest => ⟨e.stack.tail, rest, e.parts⟩

/-- Some chores come to an end after some steps, whatever is left to do then and was done before. The
stack is as it was, and the parts are new. -/
def Ends (stack : List String) (chores : List Chore) (parts : List Plan) : Prop :=
  ∃ n, ∀ rest before, (s.advance timed)^[n] ⟨stack, chores ++ rest, before⟩ =
    ⟨stack, rest, before ++ parts⟩

variable {s timed} {stack : List String}

theorem ends_nil : s.Ends timed stack [] [] :=
  ⟨0, fun rest before => by simp⟩

theorem ends_append {xs ys : List Chore} {ps qs : List Plan} (hx : s.Ends timed stack xs ps)
    (hy : s.Ends timed stack ys qs) : s.Ends timed stack (xs ++ ys) (ps ++ qs) := by
  obtain ⟨m, first⟩ := hx
  obtain ⟨n, second⟩ := hy
  refine ⟨n + m, ?_⟩
  intro rest before
  rw [Function.iterate_add_apply, List.append_assoc, first, second, List.append_assoc]

theorem ends_of_part {c : Chore} {p : Plan}
    (turns : ∀ rest before, s.advance timed ⟨stack, c :: rest, before⟩ =
      ⟨stack, rest, before ++ [p]⟩) : s.Ends timed stack [c] [p] :=
  ⟨1, turns⟩

theorem ends_of_chores {c : Chore} {xs : List Chore} {parts : List Plan}
    (turns : ∀ rest before, s.advance timed ⟨stack, c :: rest, before⟩ =
      ⟨stack, xs ++ rest, before⟩)
    (hx : s.Ends timed stack xs parts) : s.Ends timed stack [c] parts := by
  obtain ⟨n, done⟩ := hx
  refine ⟨n + 1, ?_⟩
  intro rest before
  rw [Function.iterate_succ_apply, List.singleton_append, turns, done]

theorem ends_action {id : String} {commands : List String} {parts : List Plan}
    (fresh : id ∉ stack) (found : s.topology.actions.get? id = some commands)
    (inside : s.Ends timed (id :: stack) (commands.map .text) parts) :
    s.Ends timed stack [.action id] parts := by
  obtain ⟨n, done⟩ := inside
  -- One step to enter, the steps inside, and one step to leave.
  refine ⟨1 + (n + 1), ?_⟩
  intro rest before
  have enters : s.advance timed ⟨stack, .action id :: rest, before⟩ =
      ⟨id :: stack, commands.map .text ++ .leave :: rest, before⟩ := by
    simp only [advance, if_neg fresh, found]
  rw [Function.iterate_add_apply, Function.iterate_one, Function.iterate_succ_apply,
    List.singleton_append, enters, done]
  rfl

/-- Chores that come to an end, and a plan that is made up of what they give. -/
def Compiles (s : Situation) (timed : Bool) (stack : List String) (chores : List Chore) (p : Plan) :
    Prop :=
  ∃ parts, s.Ends timed stack chores parts ∧ p.Gathers parts

theorem compiles_empty : s.Compiles timed stack [] .empty :=
  ⟨[], ends_nil, Plan.gathers_empty⟩

theorem gathers_merges {α : Type} (chore : α → Chore) {plan : α → Plan} (xs : List α)
    (each : ∀ x ∈ xs, s.Compiles timed stack [chore x] (plan x)) {p : Plan} {ps : List Plan}
    (start : p.Gathers ps) :
    ∃ qs, s.Ends timed stack (xs.map chore) qs ∧
      (xs.foldl (fun p x => p.merge (plan x)) p).Gathers (ps ++ qs) := by
  induction xs generalizing p ps with
  | nil => exact ⟨[], ends_nil, by simpa using start⟩
  | cons x rest ih =>
    obtain ⟨first, done, gathers⟩ := each x List.mem_cons_self
    obtain ⟨others, left, whole⟩ := ih (fun y inside => each y (List.mem_cons_of_mem _ inside))
      (Plan.gathers_merge start gathers)
    exact ⟨first ++ others, ends_append done left, List.append_assoc .. ▸ whole⟩

theorem command_compiles {expand : List String → Plan}
    (nested : ∀ ids, s.Compiles timed stack (ids.map .action) (expand ids)) (command : String) :
    s.Compiles timed stack [.command command] (s.command timed expand command) := by
  rw [command_eq]
  cases asked : actionsOf? command with
  | some ids =>
    obtain ⟨parts, done, gathers⟩ := nested ids
    refine ⟨parts, ends_of_chores ?_ done, gathers⟩
    intro rest before
    simp only [advance, asked]
  | none =>
    refine ⟨[s.plain timed command], ends_of_part ?_, Plan.gathers_self _⟩
    intro rest before
    simp only [advance, asked]

theorem batch_compiles {expand : List String → Plan}
    (nested : ∀ ids, s.Compiles timed stack (ids.map .action) (expand ids)) (text : String) :
    s.Compiles timed stack [.text text] (s.batch timed expand text) := by
  unfold batch
  split
  · rename_i none
    refine ⟨[.failure .emptyCommand], ends_of_part ?_, Plan.gathers_self _⟩
    intro rest before
    simp only [advance, none]
  · rename_i commands some
    obtain ⟨parts, done, gathers⟩ := gathers_merges .command (commandsOf text)
      (fun c _ => command_compiles nested c) Plan.gathers_empty
    refine ⟨parts, ends_of_chores ?_ done, gathers⟩
    intro rest before
    simp only [advance]

theorem compiles_note {id : String} {e : PlanError} {before : List Chore} {p : Plan}
    (turns : ∀ rest parts, s.advance timed ⟨stack, .action id :: rest, parts⟩ =
      ⟨stack, rest, parts ++ [.failure e]⟩)
    (start : s.Compiles timed stack before p) :
    s.Compiles timed stack (before ++ [.action id]) (p.note e) := by
  obtain ⟨parts, done, gathers⟩ := start
  exact ⟨parts ++ [.failure e], ends_append done (ends_of_part turns), Plan.gathers_note gathers e⟩

theorem actions_compile {step : Plan → String → Plan} (ids : List String)
    (each : ∀ id before p, s.Compiles timed stack before p →
      s.Compiles timed stack (before ++ [.action id]) (step p id)) :
    s.Compiles timed stack (ids.map .action) (ids.foldl step .empty) := by
  induction ids using List.reverseRecOn with
  | nil => exact compiles_empty
  | append_singleton front id ih =>
    rw [List.map_append, List.foldl_append]
    exact each id _ _ ih

theorem expand_compiles (stack ids : List String) :
    s.Compiles timed stack (ids.map .action) (s.expand timed stack ids) := by
  -- With each action on the stack fewer are left that can be expanded.
  induction stack, ids using expand.induct s with
  | case1 stack ids ih =>
    rw [expand]
    refine actions_compile ids ?_
    intro id before p start
    split
    · rename_i inside
      refine compiles_note ?_ start
      intro rest parts
      simp only [advance, if_pos inside]
    · rename_i fresh
      split
      · rename_i missing
        refine compiles_note ?_ start
        intro rest parts
        simp only [advance, if_neg fresh, missing]
      · rename_i commands found
        obtain ⟨parts, done, gathers⟩ := start
        obtain ⟨inner, inside, whole⟩ := gathers_merges .text commands
          (fun text _ => batch_compiles (ih id fresh commands found) text) gathers
        exact ⟨parts ++ inner, ends_append done (ends_action fresh found inside), whole⟩

variable (s timed)

structure Nested (stack : List String) : Prop where
  once : stack.Nodup
  known : ∀ id ∈ stack, id ∈ s.topology.actions.keys

theorem advance_nested {e : Expansion} (h : s.Nested e.stack) :
    s.Nested (s.advance timed e).stack := by
  unfold advance
  split
  · exact h
  · split <;> exact h
  · split <;> exact h
  · split
    · exact h
    · rename_i id _ _ fresh
      split
      · exact h
      · rename_i found
        exact ⟨List.nodup_cons.mpr ⟨fresh, h.once⟩,
          List.forall_mem_cons.mpr ⟨Keyed.mem_keys_of_get? found, h.known⟩⟩
  · exact ⟨h.once.tail, fun id inside => h.known id (List.mem_of_mem_tail inside)⟩

theorem iterate_nested {e : Expansion} (h : s.Nested e.stack) (n : Nat) :
    s.Nested ((s.advance timed)^[n] e).stack := by
  induction n generalizing e with
  | zero => exact h
  | succ n ih => exact ih (s.advance_nested timed h)

theorem nested_length {stack : List String} (h : s.Nested stack) :
    stack.length ≤ s.topology.actions.keys.toFinset.card := by
  rw [← List.toFinset_card_of_nodup h.once]
  refine Finset.card_le_card ?_
  intro id inside
  exact List.mem_toFinset.mpr (h.known id (List.mem_toFinset.mp inside))

theorem advance_adds (e : Expansion) : e.parts <+: (s.advance timed e).parts := by
  unfold advance
  split
  · exact List.prefix_rfl
  · split
    · exact List.prefix_append _ _
    · exact List.prefix_rfl
  · split
    · exact List.prefix_rfl
    · exact List.prefix_append _ _
  · split
    · exact List.prefix_append _ _
    · split
      · exact List.prefix_append _ _
      · exact List.prefix_rfl
  · exact List.prefix_rfl

theorem iterate_adds (n : Nat) (e : Expansion) : e.parts <+: ((s.advance timed)^[n] e).parts := by
  induction n generalizing e with
  | zero => exact List.prefix_rfl
  | succ n ih => exact (s.advance_adds timed e).trans (ih _)

theorem iterate_idle (n : Nat) {e : Expansion} (h : e.todo = []) : (s.advance timed)^[n] e = e := by
  have idle : s.advance timed e = e := by
    unfold advance
    rw [h]
  exact Function.iterate_fixed idle n

theorem parts_of_course {start : Expansion} {n : Nat} {stack : List String} {all : List Plan}
    (ends : (s.advance timed)^[n] start = ⟨stack, [], all⟩) (m : Nat) :
    ((s.advance timed)^[m] start).parts <+: all := by
  rcases Nat.le_total m n with early | late
  · have later := s.iterate_adds timed (n - m) ((s.advance timed)^[m] start)
    rw [← Function.iterate_add_apply, Nat.sub_add_cancel early, ends] at later
    exact later
  · rw [← Nat.sub_add_cancel late, Function.iterate_add_apply, ends,
      s.iterate_idle timed _ (e := ⟨stack, [], all⟩) rfl]

theorem compile_compiles (text : String) :
    ∃ parts, s.Ends timed [] [.text text] parts ∧
      ((s.compile timed text).Gathers parts ∨
        (s.compile timed text).Gathers (parts ++ [.failure .nothingToDo])) := by
  obtain ⟨parts, ends, gathers⟩ := batch_compiles (expand_compiles []) text
  refine ⟨parts, ends, ?_⟩
  simp only [compile]
  split
  · right
    exact Plan.gathers_note gathers _
  · exact Or.inl gathers

end Situation

end HomeControl
