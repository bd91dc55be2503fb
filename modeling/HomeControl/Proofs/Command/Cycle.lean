import HomeControl.Proofs.Command.Errors
import Mathlib.Data.List.Chain
/-!
When actions call themselves. An error tells of it exactly if there is a chain of expansions that gets
to an action it came through before. Nothing else in the plan suffers from it.
-/

namespace HomeControl

open PlanError

namespace Plan

variable {e : PlanError}

theorem mem_merge (p q : Plan) (h : e.isAboutActions = true) :
    e ∈ (p.merge q).errors ↔ e ∈ p.errors ∨ e ∈ q.errors := by
  have apart : e ∉ aggregateClash p.aggregate q.aggregate := by
    intro inside
    rw [other_clash _ _ e inside] at h
    cases h
  simp only [merge, List.mem_append, apart, or_false]

theorem mem_foldl {α : Type} {step : Plan → α → Plan} (Adds : α → Prop)
    (each : ∀ p x, e ∈ (step p x).errors ↔ e ∈ p.errors ∨ Adds x) (xs : List α) (p : Plan) :
    e ∈ (xs.foldl step p).errors ↔ e ∈ p.errors ∨ ∃ x ∈ xs, Adds x := by
  induction xs generalizing p with
  | nil => simp
  | cons x rest ih => simp [ih, each, or_assoc]

end Plan

def callees (text : String) : List String :=
  (Situation.commandsOf text).flatMap fun c => (Situation.actionsOf? c).getD []

/-- An action one of whose texts asks for another one. -/
def Calls (actions : Keyed String (List String)) (a b : String) : Prop :=
  ∃ commands, actions.get? a = some commands ∧ ∃ text ∈ commands, b ∈ callees text

/-- A chain of expansions, the outermost first, from one of some ids to an id that is expanded
already, be it in the chain or on the stack. -/
structure Reenters (actions : Keyed String (List String)) (stack ids : List String) (id : String)
    (chain : List String) : Prop where
  begins : ∃ first ∈ ids, (chain ++ [id]).head? = some first
  calls : (chain ++ [id]).IsChain (Calls actions)
  once : chain.Nodup
  fresh : ∀ a ∈ chain, a ∉ stack
  again : id ∈ chain ∨ id ∈ stack

theorem reenters_nil {actions : Keyed String (List String)} {stack ids : List String}
    {id : String} : Reenters actions stack ids id [] ↔ id ∈ ids ∧ id ∈ stack := by
  constructor
  · rintro ⟨⟨first, inside, same⟩, -, -, -, again⟩
    cases same
    exact ⟨inside, again.resolve_left List.not_mem_nil⟩
  · rintro ⟨inside, again⟩
    exact ⟨⟨id, inside, rfl⟩, List.IsChain.singleton _, List.nodup_nil, List.forall_mem_nil _,
      Or.inr again⟩

theorem reenters_cons {actions : Keyed String (List String)} {stack ids : List String}
    {id a : String} {chain : List String} :
    Reenters actions stack ids id (a :: chain) ↔
      a ∈ ids ∧ a ∉ stack ∧ ∃ commands, actions.get? a = some commands ∧
        ∃ text ∈ commands, Reenters actions (a :: stack) (callees text) id chain := by
  constructor
  · rintro ⟨⟨first, inside, same⟩, calls, once, fresh, again⟩
    cases same
    obtain ⟨next, calls⟩ := List.isChain_cons.mp calls
    obtain ⟨apart, once⟩ := List.nodup_cons.mp once
    obtain ⟨y, head⟩ : ∃ y, (chain ++ [id]).head? = some y := by cases chain <;> exact ⟨_, rfl⟩
    obtain ⟨commands, found, text, among, called⟩ := next y head
    refine ⟨inside, fresh a List.mem_cons_self, commands, found, text, among,
      ⟨y, called, head⟩, calls, once, ?_, ?_⟩
    · intro b member
      refine List.not_mem_cons_of_ne_of_not_mem ?_ (fresh b (List.mem_cons_of_mem _ member))
      rintro rfl
      exact apart member
    · simpa only [List.mem_cons, or_assoc, or_left_comm] using again
  · rintro ⟨inside, apart, commands, found, text, among, ⟨y, called, head⟩, calls, once, fresh, again⟩
    refine ⟨⟨a, inside, rfl⟩, List.isChain_cons.mpr ⟨?_, calls⟩, ?_, ?_, ?_⟩
    · intro z next
      cases head.symm.trans next
      exact ⟨commands, found, text, among, called⟩
    · exact List.nodup_cons.mpr ⟨fun member => fresh a member List.mem_cons_self, once⟩
    · exact List.forall_mem_cons.mpr
        ⟨apart, fun b member => List.not_mem_of_not_mem_cons (fresh b member)⟩
    · simpa only [List.mem_cons, or_assoc, or_left_comm] using again

theorem reenters_callees {actions : Keyed String (List String)} {stack : List String}
    {text id : String} {chain : List String} :
    Reenters actions stack (callees text) id chain ↔
      ∃ c ∈ Situation.commandsOf text, ∃ ids, Situation.actionsOf? c = some ids ∧
        Reenters actions stack ids id chain := by
  constructor
  · rintro ⟨⟨first, inside, head⟩, calls, once, fresh, again⟩
    obtain ⟨c, among, member⟩ := List.mem_flatMap.mp inside
    cases asked : Situation.actionsOf? c with
    | none =>
      rw [asked] at member
      exact absurd member List.not_mem_nil
    | some ids =>
      rw [asked] at member
      exact ⟨c, among, ids, asked, ⟨first, member, head⟩, calls, once, fresh, again⟩
  · rintro ⟨c, among, ids, asked, ⟨first, member, head⟩, calls, once, fresh, again⟩
    refine ⟨⟨first, ?_, head⟩, calls, once, fresh, again⟩
    exact List.mem_flatMap.mpr ⟨c, among, by rw [asked]; exact member⟩

namespace Situation

variable (s : Situation) (timed : Bool)

theorem mem_command {expand : List String → Plan} {e : PlanError} (h : e.isAboutActions = true)
    (command : String) :
    e ∈ (s.command timed expand command).errors ↔
      ∃ ids, actionsOf? command = some ids ∧ e ∈ (expand ids).errors := by
  rw [command_eq]
  cases actionsOf? command with
  | some ids => simp
  | none =>
    have apart : e ∉ (s.plain timed command).errors := by
      intro inside
      rw [s.plain_other timed command e inside] at h
      cases h
    simp [apart]

theorem mem_batch {expand : List String → Plan} {e : PlanError} (h : e.isAboutActions = true)
    (text : String) :
    e ∈ (s.batch timed expand text).errors ↔
      ∃ c ∈ commandsOf text, ∃ ids, actionsOf? c = some ids ∧ e ∈ (expand ids).errors := by
  have whole := Plan.mem_foldl
    (fun c => ∃ ids, actionsOf? c = some ids ∧ e ∈ (expand ids).errors)
    (fun p c => (p.mem_merge _ h).trans (or_congr_right (s.mem_command timed h c)))
    (commandsOf text) .empty
  unfold batch
  split
  · rename_i none
    rw [none]
    have apart : e ≠ .emptyCommand := by
      rintro rfl
      cases h
    simpa [Plan.failure] using apart
  · rw [whole]
    simp [Plan.empty]

/-- Where an error about actions comes from if an action is expanded. -/
def Blames (e : PlanError) (stack : List String) (id : String) : Prop :=
  id ∈ stack ∧ e = .actionCycle id ∨
    id ∉ stack ∧ s.topology.actions.get? id = none ∧ e = .unknownAction id ∨
    id ∉ stack ∧ ∃ commands, s.topology.actions.get? id = some commands ∧
      ∃ text ∈ commands, e ∈ (s.batch timed (s.expand timed (id :: stack)) text).errors

theorem mem_expand {e : PlanError} (h : e.isAboutActions = true) (stack ids : List String) :
    e ∈ (s.expand timed stack ids).errors ↔ ∃ id ∈ ids, s.Blames timed e stack id := by
  have noted : ∀ (p : Plan) x, e ∈ (p.note x).errors ↔ e ∈ p.errors ∨ e = x := by
    intro p x
    simp [Plan.note]
  rw [expand, Plan.mem_foldl (s.Blames timed e stack)]
  · simp [Plan.empty]
  · intro p id
    unfold Blames
    split
    · rename_i inside
      simp [noted, inside]
    · rename_i fresh
      split
      · rename_i missing
        simp [noted, fresh, missing]
      · rename_i commands found
        rw [Plan.mem_foldl (fun text => e ∈ (s.batch timed (s.expand timed (id :: stack)) text).errors)
          (fun p text => p.mem_merge _ h)]
        simp [fresh, found]

theorem cycle_in_expand (id : String) (stack ids : List String) :
    .actionCycle id ∈ (s.expand timed stack ids).errors ↔
      ∃ chain, Reenters s.topology.actions stack ids id chain := by
  -- The first action of a chain goes to the stack, and the rest is a chain from what it calls.
  induction stack, ids using expand.induct s with
  | case1 stack ids ih =>
    rw [s.mem_expand timed rfl]
    constructor
    · rintro ⟨a, inside, ⟨again, same⟩ | ⟨-, -, same⟩ | ⟨fresh, commands, found, text, among, told⟩⟩
      · cases same
        exact ⟨[], reenters_nil.mpr ⟨inside, again⟩⟩
      · cases same
      · obtain ⟨c, one, more, asked, told⟩ := (s.mem_batch timed rfl text).mp told
        obtain ⟨chain, reenters⟩ := (ih a fresh commands found more).mp told
        exact ⟨a :: chain, reenters_cons.mpr ⟨inside, fresh, commands, found, text, among,
          reenters_callees.mpr ⟨c, one, more, asked, reenters⟩⟩⟩
    · rintro ⟨chain, reenters⟩
      cases chain with
      | nil =>
        obtain ⟨inside, again⟩ := reenters_nil.mp reenters
        exact ⟨id, inside, Or.inl ⟨again, rfl⟩⟩
      | cons a chain =>
        obtain ⟨inside, fresh, commands, found, text, among, reenters⟩ := reenters_cons.mp reenters
        obtain ⟨c, one, more, asked, reenters⟩ := reenters_callees.mp reenters
        refine ⟨a, inside, Or.inr (Or.inr ⟨fresh, commands, found, text, among, ?_⟩)⟩
        exact (s.mem_batch timed rfl text).mpr
          ⟨c, one, more, asked, (ih a fresh commands found more).mpr ⟨chain, reenters⟩⟩

theorem cycle_in_compile (id : String) (text : String) :
    .actionCycle id ∈ (s.compile timed text).errors ↔
      ∃ chain, Reenters s.topology.actions [] (callees text) id chain := by
  have batch : .actionCycle id ∈ (s.batch timed (s.expand timed []) text).errors ↔
      ∃ chain, Reenters s.topology.actions [] (callees text) id chain := by
    rw [s.mem_batch timed (by rfl)]
    simp only [s.cycle_in_expand timed, reenters_callees]
    constructor
    · rintro ⟨c, one, ids, asked, chain, reenters⟩
      exact ⟨chain, c, one, ids, asked, reenters⟩
    · rintro ⟨chain, c, one, ids, asked, reenters⟩
      exact ⟨c, one, ids, asked, chain, reenters⟩
  rw [← batch]
  simp only [compile]
  split
  · simp [Plan.note]
  · rfl

/-- The expansion of a text comes to an end with an empty stack, and its parts make up the plan; a plan
that would do nothing and has no errors gets one. In its course every command comes to an end too: it
leaves the stack as it was, and its own plan is made up of parts that stay. The stack never holds more
than all the actions that there are. An error tells of an action that is expanded within itself
exactly if a chain of expansions, none of them twice, leads from the text to an action of the chain. -/
theorem expansion_ends (text : String) :
    let course := fun n => (s.advance timed)^[n] ⟨[], [.text text], []⟩
    let p := s.compile timed text
    (∃ n all, course n = ⟨[], [], all⟩ ∧
      (p.Gathers all ∨ p.Gathers (all ++ [.failure .nothingToDo])) ∧
      ∀ m stack command rest before, course m = ⟨stack, .command command :: rest, before⟩ →
        ∃ k parts, course (m + k) = ⟨stack, rest, before ++ parts⟩ ∧
          (s.command timed (s.expand timed stack) command).Gathers parts ∧
          before ++ parts <+: all) ∧
    (∀ n, (course n).stack.length ≤ s.topology.actions.keys.toFinset.card) ∧
    ∀ id, .actionCycle id ∈ p.errors ↔
      ∃ chain, chain.Nodup ∧ id ∈ chain ∧ (chain ++ [id]).IsChain (Calls s.topology.actions) ∧
        ∃ first ∈ callees text, (chain ++ [id]).head? = some first := by
  intro course p
  refine ⟨?_, ?_, ?_⟩
  · obtain ⟨all, ⟨n, ends⟩, gathers⟩ := s.compile_compiles timed text
    have final : course n = ⟨[], [], all⟩ := ends [] []
    refine ⟨n, all, final, gathers, ?_⟩
    intro m stack command rest before reached
    obtain ⟨parts, ⟨k, done⟩, own⟩ := command_compiles (expand_compiles stack) command
    have later : course (m + k) = ⟨stack, rest, before ++ parts⟩ := by
      have after := done rest before
      rw [List.singleton_append, ← reached] at after
      rw [← after, ← Function.iterate_add_apply, Nat.add_comm]
    have stays : (course (m + k)).parts <+: all := s.parts_of_course timed final (m + k)
    rw [later] at stays
    exact ⟨k, parts, later, own, stays⟩
  · intro n
    have start : s.Nested [] := ⟨List.nodup_nil, List.forall_mem_nil _⟩
    exact s.nested_length (s.iterate_nested timed (e := ⟨[], [.text text], []⟩) start n)
  · intro id
    rw [s.cycle_in_compile timed id text]
    constructor
    · rintro ⟨chain, begins, calls, once, -, again⟩
      exact ⟨chain, once, again.resolve_right List.not_mem_nil, calls, begins⟩
    · rintro ⟨chain, once, again, calls, begins⟩
      exact ⟨chain, begins, calls, once, fun _ _ => List.not_mem_nil, Or.inl again⟩

/-- Two actions that ask for each other. What else they ask for is in the plan. -/
example :
    let c := Controller.ofBulb ⟨"bulb", Device.virtualKind, [], [Attr.on], false, []⟩
    let s : Situation := { c.situation (.start c.topology ⟨0, 0⟩) with
      topology := { c.topology with
        actions := ⟨[("evening", ["do night", "set lamp on"]), ("night", ["do evening"])]⟩ } }
    s.compile false "do evening" =
      { setters := [.state "lamp" true], errors := [.actionCycle "evening"] } := by
  decide +kernel

end Situation

end HomeControl
