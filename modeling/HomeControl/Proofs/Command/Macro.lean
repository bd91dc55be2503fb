import HomeControl.Proofs.Command.Cycle
import HomeControl.Proofs.Command.Wording
import HomeControl.Proofs.House.Configured
import Mathlib.Logic.Relation
/-!
An action means its text. Merging plans is associative but for the wording of what it says about
different aggregates, and an expansion looks at its stack only for actions that it comes to; so an
action that does not come back to itself does what its commands do as one text.
-/

namespace HomeControl

open Text

namespace Plan

/-- Two plans that do the same, and have errors or both have none. -/
structure Alike (p q : Plan) : Prop where
  getters : p.getters = q.getters
  setters : p.setters = q.setters
  faders : p.faders = q.faders
  timed : p.timed = q.timed
  aggregate : p.aggregate = q.aggregate
  clean : p.errors = [] ↔ q.errors = []

theorem Alike.refl (p : Plan) : p.Alike p :=
  ⟨rfl, rfl, rfl, rfl, rfl, Iff.rfl⟩

theorem Alike.symm {p q : Plan} (h : p.Alike q) : q.Alike p :=
  ⟨h.getters.symm, h.setters.symm, h.faders.symm, h.timed.symm, h.aggregate.symm, h.clean.symm⟩

theorem Alike.trans {p q r : Plan} (h : p.Alike q) (h' : q.Alike r) : p.Alike r :=
  ⟨h.getters.trans h'.getters, h.setters.trans h'.setters, h.faders.trans h'.faders,
    h.timed.trans h'.timed, h.aggregate.trans h'.aggregate, h.clean.trans h'.clean⟩

theorem aggregateClash_eq_nil (a b : Option Aggregate) :
    aggregateClash a b = [] ↔ ∀ x ∈ a, ∀ y ∈ b, x = y := by
  cases a <;> cases b <;> simp [aggregateClash]

theorem merge_clean (p q : Plan) :
    (p.merge q).errors = [] ↔
      p.errors = [] ∧ q.errors = [] ∧ ∀ x ∈ p.aggregate, ∀ y ∈ q.aggregate, x = y := by
  simp only [merge, List.append_eq_nil_iff, aggregateClash_eq_nil, and_assoc]

theorem Alike.merge {p p' q q' : Plan} (h : p.Alike p') (h' : q.Alike q') :
    (p.merge q).Alike (p'.merge q') where
  getters := by simp only [Plan.merge, h.getters, h'.getters]
  setters := by simp only [Plan.merge, h.setters, h'.setters]
  faders := by simp only [Plan.merge, h.faders, h'.faders]
  timed := by simp only [Plan.merge, h.timed, h'.timed]
  aggregate := by simp only [Plan.merge, h.aggregate, h'.aggregate]
  clean := by rw [merge_clean, merge_clean, h.clean, h'.clean, h.aggregate, h'.aggregate]

theorem merge_assoc (p q r : Plan) : ((p.merge q).merge r).Alike (p.merge (q.merge r)) where
  getters := List.append_assoc ..
  setters := List.append_assoc ..
  faders := List.append_assoc ..
  timed := List.append_assoc ..
  aggregate := Option.or_assoc ..
  clean := by
    simp only [merge_clean]
    simp only [merge]
    cases p.aggregate <;> cases q.aggregate <;> cases r.aggregate <;> simp <;> grind

theorem merge_empty (p : Plan) : p.merge empty = p := by
  have same : p.aggregate.or none = p.aggregate := Option.or_none
  have quiet : aggregateClash p.aggregate none = [] := by cases p.aggregate <;> rfl
  simp only [merge, empty, List.append_nil, same, quiet]

def checked (p : Plan) : Plan :=
  if p.hasNoActions && p.errors.isEmpty then p.note .nothingToDo else p

theorem Alike.checked {p q : Plan} (h : p.Alike q) : p.checked.Alike q.checked := by
  have idle : p.hasNoActions = q.hasNoActions := by
    simp only [hasNoActions, h.getters, h.setters, h.faders, h.timed]
  have clean : p.errors.isEmpty = q.errors.isEmpty := by
    rw [Bool.eq_iff_iff, List.isEmpty_iff, List.isEmpty_iff]
    exact h.clean
  simp only [Plan.checked, idle, clean]
  split
  · refine ⟨h.getters, h.setters, h.faders, h.timed, h.aggregate, ?_⟩
    simp [note]
  · exact h

section Merged

variable {α β : Type} (plan : α → Plan)

def merged (p : Plan) (xs : List α) : Plan :=
  xs.foldl (fun p x => p.merge (plan x)) p

theorem merged_cons (p : Plan) (x : α) (xs : List α) :
    merged plan p (x :: xs) = merged plan (p.merge (plan x)) xs := rfl

theorem merged_alike (p : Plan) (xs : List α) :
    (merged plan p xs).Alike (p.merge (merged plan empty xs)) := by
  induction xs generalizing p with
  | nil => simpa only [merged, List.foldl_nil, merge_empty] using Alike.refl p
  | cons x rest ih =>
    have whole : (merged plan p (x :: rest)).Alike
        (p.merge ((plan x).merge (merged plan empty rest))) :=
      (ih (p.merge (plan x))).trans (merge_assoc p (plan x) _)
    have apart : (merged plan empty (x :: rest)).Alike
        ((plan x).merge (merged plan empty rest)) := by
      rw [merged_cons, empty_merge]
      exact ih (plan x)
    exact whole.trans ((Alike.refl p).merge apart.symm)

theorem merged_flatMap (group : β → List α) (ys : List β) {p q : Plan} (h : p.Alike q) :
    (merged (fun y => merged plan empty (group y)) p ys).Alike
      (merged plan q (ys.flatMap group)) := by
  induction ys generalizing p q with
  | nil => exact h
  | cons y rest ih =>
    have first : (p.merge (merged plan empty (group y))).Alike (merged plan q (group y)) :=
      (h.merge (Alike.refl _)).trans (merged_alike plan q (group y)).symm
    have split : merged plan q ((y :: rest).flatMap group) =
        merged plan (merged plan q (group y)) (rest.flatMap group) := by
      rw [List.flatMap_cons]
      exact List.foldl_append
    rw [merged_cons, split]
    exact ih first

end Merged

end Plan

theorem Calls.mem {actions : Keyed String (List String)} {a b : String} {texts ids : List String}
    (h : Calls actions a b) (found : actions.get? a = some texts)
    (all : texts.flatMap callees = ids) : b ∈ ids := by
  obtain ⟨texts', found', text, among, asked⟩ := h
  rw [found] at found'
  cases found'
  rw [← all]
  exact List.mem_flatMap.mpr ⟨text, among, asked⟩

namespace Situation

variable (s : Situation) (timed : Bool)

def enter (stack : List String) (p : Plan) (id : String) : Plan :=
  if id ∈ stack then p.note (.actionCycle id)
  else
    match s.topology.actions.get? id with
    | none => p.note (.unknownAction id)
    | some texts => Plan.merged (s.batch timed (s.expand timed (id :: stack))) p texts

theorem expand_eq (stack ids : List String) :
    s.expand timed stack ids = ids.foldl (s.enter timed stack) .empty := by
  rw [expand]
  congr 1
  funext p id
  unfold enter
  by_cases inside : id ∈ stack
  · rw [dif_pos inside, if_pos inside]
  · rw [dif_neg inside, if_neg inside]
    split
    · rename_i missing
      rw [missing]
    · rename_i texts found
      rw [found]
      rfl

theorem batch_congr {f g : List String → Plan} {text : String}
    (h : ∀ command ∈ commandsOf text, ∀ ids, actionsOf? command = some ids → f ids = g ids) :
    s.batch timed f text = s.batch timed g text := by
  have each : ∀ (p : Plan), ∀ c ∈ commandsOf text,
      p.merge (s.command timed f c) = p.merge (s.command timed g c) := by
    intro p c inside
    rw [command_eq, command_eq]
    cases asked : actionsOf? c with
    | none => rfl
    | some ids => simp only [h c inside ids asked]
  unfold batch
  split
  · rfl
  · exact List.foldl_ext _ _ _ each

/-- An expansion looks at its stack only for actions that it can come to. -/
theorem expand_congr (stack ids other : List String)
    (same : ∀ id, (∃ first ∈ ids, Relation.ReflTransGen (Calls s.topology.actions) first id) →
      (id ∈ stack ↔ id ∈ other)) :
    s.expand timed stack ids = s.expand timed other ids := by
  induction stack, ids using expand.induct s generalizing other with
  | case1 stack ids ih =>
    rw [expand_eq, expand_eq]
    refine List.foldl_ext _ _ _ ?_
    intro p id inside
    have here : id ∈ stack ↔ id ∈ other := same id ⟨id, inside, Relation.ReflTransGen.refl⟩
    unfold enter
    by_cases again : id ∈ stack
    · rw [if_pos again, if_pos (here.mp again)]
    · rw [if_neg again, if_neg fun there => again (here.mpr there)]
      cases found : s.topology.actions.get? id with
      | none => rfl
      | some texts =>
        refine List.foldl_ext _ _ _ ?_
        intro q text among
        congr 1
        refine s.batch_congr timed ?_
        intro c one more asked
        refine ih id again texts found more (id :: other) ?_
        rintro b ⟨first, member, leads⟩
        have called : Calls s.topology.actions id first := by
          refine ⟨texts, found, text, among, ?_⟩
          exact List.mem_flatMap.mpr ⟨c, one, by rw [asked]; exact member⟩
        have there := same b ⟨id, inside, Relation.ReflTransGen.head called leads⟩
        rw [List.mem_cons, List.mem_cons, there]

theorem batch_eq_merged (expand : List String → Plan) {text : String} (some : commandsOf text ≠ []) :
    s.batch timed expand text = Plan.merged (s.command timed expand) .empty (commandsOf text) := by
  unfold batch
  split
  · rename_i none
    exact absurd none some
  · rfl

theorem compile_eq (text : String) :
    s.compile timed text = (s.batch timed (s.expand timed []) text).checked := rfl

/-- Only what stands in front of the first semicolon are actions. -/
theorem batch_do (expand : List String → Plan) (line : String) :
    s.batch timed expand ("do " ++ line) =
      Plan.merged (s.command timed expand) (expand (words (ahead line)))
        (commandsOf (behind line)) := by
  rw [s.batch_eq_merged timed expand (by simp [commandsOf_do]), commandsOf_do, Plan.merged_cons,
    Plan.empty_merge, command_trim, command_do]

/-- An action that its own texts do not come back to is carried out as the text of all of them: it does
the same, and is wrong only where this is. -/
theorem action_means_its_text {id : String} {texts : List String}
    (found : s.topology.actions.get? id = some texts) (spoken : Word.Spoken id) (some : texts ≠ [])
    (each : ∀ text ∈ texts, commandsOf text ≠ [])
    (once : ¬ Relation.TransGen (Calls s.topology.actions) id id) :
    (s.compile timed ("do " ++ id)).Alike (s.compile timed (";".intercalate texts)) := by
  -- Nothing that the texts ask for is the action itself, so it need not be on the stack.
  have inside : ∀ (p : Plan), ∀ text ∈ texts,
      p.merge (s.batch timed (s.expand timed [id]) text) =
        p.merge (Plan.merged (s.command timed (s.expand timed [])) .empty (commandsOf text)) := by
    intro p text among
    rw [← s.batch_eq_merged timed _ (each text among)]
    congr 1
    refine s.batch_congr timed ?_
    intro c one ids asked
    refine s.expand_congr timed [id] ids [] ?_
    rintro b ⟨first, member, leads⟩
    have called : Calls s.topology.actions id first :=
      ⟨texts, found, text, among, List.mem_flatMap.mpr ⟨c, one, by rw [asked]; exact member⟩⟩
    simp only [List.mem_singleton, List.not_mem_nil, iff_false]
    rintro rfl
    exact once (Relation.TransGen.head' called leads)
  have action : s.batch timed (s.expand timed []) ("do " ++ id) =
      Plan.merged (fun text => Plan.merged (s.command timed (s.expand timed [])) .empty
        (commandsOf text)) .empty texts := by
    have whole : ';' ∉ id.toList := fun inside => (spoken.2 _ inside).2 rfl
    obtain ⟨front, nothing⟩ := cut_of_not_mem whole
    rw [s.batch_do timed, front, nothing, spoken.words, commandsOf_blank, expand_eq]
    simp only [Plan.merged, List.foldl_cons, List.foldl_nil, enter, List.not_mem_nil, if_false, found]
    exact List.foldl_ext _ _ _ inside
  have text : s.batch timed (s.expand timed []) (";".intercalate texts) =
      Plan.merged (s.command timed (s.expand timed [])) .empty (texts.flatMap commandsOf) := by
    have nonblank : commandsOf (";".intercalate texts) ≠ [] := by
      obtain ⟨first, rest, rfl⟩ := List.exists_cons_of_ne_nil some
      rw [commandsOf_intercalate, List.flatMap_cons]
      simp [each first List.mem_cons_self]
    rw [s.batch_eq_merged timed _ nonblank, commandsOf_intercalate]
  rw [compile_eq, compile_eq, action, text]
  exact (Plan.merged_flatMap _ commandsOf texts (Plan.Alike.refl _)).checked

theorem action_means_its_text_evening :
    let bulb : Device := ⟨"bulb", Device.virtualKind, [Attr.state], [Attr.on, Attr.off], false, []⟩
    let t : Topology := { (Controller.ofBulb bulb).topology with
      actions := ⟨[("evening", ["set lamp on", "do night; get lamp"]), ("night", ["set lamp off"])]⟩ }
    let s : Situation := ⟨t, (Place.mk .utc none).resolver, ⟨0, 0⟩, fun _ _ => none⟩
    ¬ Relation.TransGen (Calls t.actions) "evening" "evening" ∧
      (s.compile false ("do " ++ "evening")).Alike
        (s.compile false (";".intercalate ["set lamp on", "do night; get lamp"])) := by
  intro bulb t s
  have once : ¬ Relation.TransGen (Calls t.actions) "evening" "evening" := by
    intro round
    obtain ⟨a, first, leads⟩ := Relation.TransGen.head'_iff.mp round
    have night : a ∈ ["night"] := first.mem rfl (by decide +kernel)
    cases List.mem_singleton.mp night
    rcases Relation.ReflTransGen.cases_head leads with same | ⟨b, further, -⟩
    · exact absurd same (by decide)
    · exact absurd (further.mem rfl (by decide +kernel)) List.not_mem_nil
  exact ⟨once, s.action_means_its_text false (by decide) (by decide) (by decide) (by decide +kernel)
    once⟩

/-- The id without a character is no word, so nothing is left of a command that asks for it. -/
theorem nameless_action_is_not_its_text :
    let bulb : Device := ⟨"bulb", Device.virtualKind, [], [Attr.on], false, []⟩
    let t : Topology := { (Controller.ofBulb bulb).topology with
      actions := ⟨[("", ["set lamp on"])]⟩ }
    let s : Situation := ⟨t, (Place.mk .utc none).resolver, ⟨0, 0⟩, fun _ _ => none⟩
    Topology.ofConfig { Config.ofBulb [("setters", .list [.text Attr.on])] with
        actions := [⟨some "", none, none, .one "set lamp on"⟩] } = .ok t ∧
      t.actions.get? "" = some ["set lamp on"] ∧
      (∀ c ∈ "".toList, isBlank c = false ∧ c ≠ ';') ∧
      commandsOf "set lamp on" ≠ [] ∧
      ¬ Relation.TransGen (Calls t.actions) "" "" ∧
      ¬ (s.compile false ("do " ++ "")).Alike (s.compile false (";".intercalate ["set lamp on"])) := by
  intro bulb t s
  refine ⟨rfl, by decide, by simp, by decide +kernel, ?_, ?_⟩
  · intro round
    obtain ⟨a, first, -⟩ := Relation.TransGen.head'_iff.mp round
    exact absurd (first.mem rfl (by decide +kernel)) List.not_mem_nil
  · intro alike
    have nothing : (s.compile false ("do " ++ "")).setters = [] := by decide +kernel
    have switched : (s.compile false (";".intercalate ["set lamp on"])).setters =
        [.state "lamp" true] := by decide +kernel
    have same := alike.setters
    rw [nothing, switched] at same
    cases same

end Situation

end HomeControl
