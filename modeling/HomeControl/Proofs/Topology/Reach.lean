import HomeControl.Proofs.Table
import HomeControl.Topology
import Mathlib.Logic.Relation
/-!
Groups inside groups as a graph. A group has the nodes of all groups that are reached from it, and an
error tells of it exactly if it is reached from itself. A listing walks along all paths without
repetition, so a walk is first made into such a path.
-/

namespace HomeControl.Group

open Relation

def Contains (groups : List GroupConfig) (a b : String) : Prop :=
  ∃ g ∈ groups, g.id = a ∧ b ∈ g.groups

def Through (groups : List GroupConfig) (path : List String) (a b : String) : Prop :=
  Contains groups a b ∧ b ∉ path

/-- The nodes of some groups in post-order: for each group that is known those of its sub-groups, in
order, and then its own. -/
inductive PostOrder (groups : List GroupConfig) : List String → List String → Prop
  | nil : PostOrder groups [] []
  | unknown {sub : String} {rest later : List String} :
      sub ∉ groups.map (·.id) → PostOrder groups rest later → PostOrder groups (sub :: rest) later
  | known {g : GroupConfig} {rest inner later : List String} :
      g ∈ groups → PostOrder groups g.groups inner → PostOrder groups rest later →
        PostOrder groups (g.id :: rest) (inner ++ g.nodes ++ later)

section Walks

variable {groups : List GroupConfig} {path : List String} {a b : String}

/-- A walk can be cut down to what comes after its last visit to where it starts. -/
theorem through_start (h : ReflTransGen (Through groups path) a b) :
    ReflTransGen (Through groups (a :: path)) a b := by
  induction h with
  | refl => exact .refl
  | @tail b c _ step ih =>
    obtain ⟨inside, fresh⟩ := step
    by_cases back : c = a
    · exact back ▸ .refl
    · exact ih.tail ⟨inside, List.not_mem_cons_of_ne_of_not_mem back fresh⟩

theorem through_of_cons {p : String} (h : ReflTransGen (Through groups (p :: path)) a b) :
    ReflTransGen (Through groups path) a b :=
  h.lift id fun _ _ step => ⟨step.1, List.not_mem_of_not_mem_cons step.2⟩

theorem known_of_walk (h : ReflTransGen (Through groups path) a b) (known : ∃ g ∈ groups, g.id = b) :
    ∃ g ∈ groups, g.id = a := by
  rcases h.cases_head with rfl | ⟨_, ⟨⟨g, inside, same, -⟩, -⟩, -⟩
  · exact known
  · exact ⟨g, inside, same⟩

theorem through_self : ReflTransGen (Through groups [a]) a b ↔ ReflTransGen (Contains groups) a b :=
  ⟨fun h => h.lift id fun _ _ step => step.1, fun h =>
    through_start (h.lift id fun _ _ step => ⟨step, List.not_mem_nil⟩)⟩

end Walks

section Table

variable {groups : List GroupConfig} (unique : (groups.map (·.id)).Nodup)

include unique

theorem get?_table {id : String} {g : GroupConfig} :
    (table groups).get? id = some g ↔ g ∈ groups ∧ g.id = id :=
  Keyed.get?_ofList_map unique

theorem contains_iff {g : GroupConfig} (inside : g ∈ groups) {b : String} :
    Contains groups g.id b ↔ b ∈ g.groups := by
  constructor
  · rintro ⟨x, among, same, member⟩
    have equal := (get?_table unique).mpr ⟨among, same⟩
    rw [(get?_table unique).mpr ⟨inside, rfl⟩] at equal
    cases equal
    exact member
  · exact fun member => ⟨g, inside, rfl, member⟩

theorem mem_listing {x : String} {path : List String} {g : GroupConfig} (inside : g ∈ groups) :
    x ∈ listing (table groups) path g ↔
      ∃ h ∈ groups, x ∈ h.nodes ∧ ReflTransGen (Through groups path) g.id h.id := by
  induction path, g using listing.induct (table groups) with
  | case1 path g ih =>
    rw [listing, List.mem_append, List.mem_flatMap]
    constructor
    · rintro (⟨sub, among, member⟩ | own)
      · split at member
        · exact absurd member List.not_mem_nil
        · rename_i fresh
          split at member
          · rename_i inner found
            obtain ⟨known, rfl⟩ := (get?_table unique).mp found
            obtain ⟨h, there, has, walk⟩ := (ih inner.id fresh inner found known).mp member
            exact ⟨h, there, has,
              .head ⟨(contains_iff unique inside).mpr among, fresh⟩ (through_of_cons walk)⟩
          · exact absurd member List.not_mem_nil
      · exact ⟨g, inside, own, .refl⟩
    · rintro ⟨h, there, has, walk⟩
      rcases ReflTransGen.cases_head walk with same | ⟨sub, ⟨step, fresh⟩, walk⟩
      · have equal := (get?_table unique).mpr ⟨there, same.symm⟩
        rw [(get?_table unique).mpr ⟨inside, rfl⟩] at equal
        cases equal
        exact Or.inr has
      · refine Or.inl ⟨sub, (contains_iff unique inside).mp step, ?_⟩
        obtain ⟨inner, known, rfl⟩ := known_of_walk walk ⟨h, there, rfl⟩
        have found := (get?_table unique).mpr ⟨known, rfl⟩
        rw [dif_neg fresh]
        split
        · rename_i other found'
          rw [found] at found'
          cases found'
          exact (ih inner.id fresh inner found known).mpr ⟨h, there, has, through_start walk⟩
        · rename_i none
          rw [found] at none
          cases none

theorem mem_members {x : String} {g : GroupConfig} (inside : g ∈ groups) :
    x ∈ members (table groups) g ↔
      ∃ h ∈ groups, x ∈ h.nodes ∧ ReflTransGen (Contains groups) g.id h.id := by
  simp only [members, List.mem_eraseDups, mem_listing unique inside, through_self]

theorem cycle_of_circles {x : String} {path : List String} {g : GroupConfig} (inside : g ∈ groups)
    (led : ∀ p ∈ path, ReflTransGen (Contains groups) p g.id)
    (met : x ∈ circles (table groups) path g) : TransGen (Contains groups) x x := by
  induction path, g using circles.induct (table groups) with
  | case1 path g ih =>
    rw [circles, List.mem_flatMap] at met
    obtain ⟨sub, among, member⟩ := met
    have step := (contains_iff unique inside).mpr among
    split at member
    · rename_i again
      rw [List.mem_singleton.mp member]
      exact TransGen.tail' (led sub again) step
    · rename_i fresh
      split at member
      · rename_i inner found
        obtain ⟨known, rfl⟩ := (get?_table unique).mp found
        refine ih inner.id fresh inner found known ?_ member
        exact List.forall_mem_cons.mpr ⟨.refl, fun p before => (led p before).tail step⟩
      · exact absurd member List.not_mem_nil

theorem circles_of_walk {x : String} {path : List String} {g : GroupConfig} (inside : g ∈ groups)
    (on : x ∈ path) {h : String} (walk : ReflTransGen (Through groups path) g.id h)
    (back : Contains groups h x) : x ∈ circles (table groups) path g := by
  induction path, g using circles.induct (table groups) with
  | case1 path g ih =>
    rw [circles, List.mem_flatMap]
    rcases ReflTransGen.cases_head walk with rfl | ⟨sub, ⟨step, fresh⟩, walk⟩
    · exact ⟨x, (contains_iff unique inside).mp back, by simp [on]⟩
    · refine ⟨sub, (contains_iff unique inside).mp step, ?_⟩
      obtain ⟨last, there, same, -⟩ := id back
      obtain ⟨inner, known, rfl⟩ := known_of_walk walk ⟨last, there, same⟩
      have found := (get?_table unique).mpr ⟨known, rfl⟩
      rw [dif_neg fresh]
      split
      · rename_i other found'
        rw [found] at found'
        cases found'
        exact ih inner.id fresh inner found known (List.mem_cons_of_mem _ on) (through_start walk)
      · rename_i none
        rw [found] at none
        cases none

theorem circles_iff {x : String} :
    (∃ g ∈ groups, x ∈ circles (table groups) [g.id] g) ↔ TransGen (Contains groups) x x := by
  constructor
  · rintro ⟨g, inside, met⟩
    exact cycle_of_circles unique inside (List.forall_mem_singleton.mpr .refl) met
  · intro cycle
    obtain ⟨h, walk, back⟩ := TransGen.tail'_iff.mp cycle
    obtain ⟨first, ⟨g, inside, rfl, -⟩, -⟩ := TransGen.head'_iff.mp cycle
    exact ⟨g, inside, circles_of_walk unique inside List.mem_cons_self (through_self.mpr walk) back⟩

theorem postOrder_unique {subs l l' : List String} (h : PostOrder groups subs l)
    (h' : PostOrder groups subs l') : l = l' := by
  induction h generalizing l' with
  | nil =>
    cases h'
    rfl
  | unknown missing _ ih =>
    cases h' with
    | unknown _ later => exact ih later
    | known inside _ _ => exact absurd (List.mem_map_of_mem inside) missing
  | @known g _ _ _ inside _ _ first second =>
    generalize same : g.id = id at h'
    cases h' with
    | unknown missing _ => exact absurd (List.mem_map_of_mem inside) (same ▸ missing)
    | @known x _ _ _ among inner later =>
      have equal := (get?_table unique).mpr ⟨among, rfl⟩
      rw [(get?_table unique).mpr ⟨inside, same⟩] at equal
      cases equal
      rw [first inner, second later]

/-- Where no group is reached from itself, a listing meets nothing of its path. -/
theorem listing_postOrder (acyclic : ∀ a, ¬ TransGen (Contains groups) a a) {path : List String}
    {g : GroupConfig} (inside : g ∈ groups)
    (led : ∀ p ∈ path, ReflTransGen (Contains groups) p g.id) :
    ∃ inner, PostOrder groups g.groups inner ∧ listing (table groups) path g = inner ++ g.nodes := by
  induction path, g using listing.induct (table groups) with
  | case1 path g ih =>
    rw [listing]
    refine ⟨_, ?_, rfl⟩
    -- The sub-groups one after the other, each of them inside `g`.
    have within : ∀ sub ∈ g.groups, Contains groups g.id sub :=
      fun sub among => (contains_iff unique inside).mpr among
    generalize g.groups = subs at within
    induction subs with
    | nil => exact .nil
    | cons sub rest later =>
      obtain ⟨step, within⟩ := List.forall_mem_cons.mp within
      have later := later within
      have fresh : sub ∉ path := fun again => acyclic sub (TransGen.tail' (led sub again) step)
      rw [List.flatMap_cons, dif_neg fresh]
      split
      · rename_i inner found
        obtain ⟨known, rfl⟩ := (get?_table unique).mp found
        obtain ⟨first, order, equal⟩ := ih inner.id fresh inner found known
          (List.forall_mem_cons.mpr ⟨.refl, fun p before => (led p before).tail step⟩)
        rw [equal]
        exact .known known order later
      · rename_i missing
        refine .unknown (fun known => ?_) later
        obtain ⟨inner, known, same⟩ := List.mem_map.mp known
        rw [(get?_table unique).mpr ⟨known, same⟩] at missing
        cases missing

theorem keys_flatten : (flatten groups).1.keys = groups.map (·.id) := by
  rw [flatten, Keyed.keys_ofList (by rw [List.map_map]; exact unique), List.map_map]
  rfl

theorem get?_flatten {g : GroupConfig} (inside : g ∈ groups) :
    (flatten groups).1.get? g.id = some (members (table groups) g) := by
  refine (Keyed.mem_entries_iff (by rw [keys_flatten unique]; exact unique)).mp ?_
  rw [flatten, Keyed.entries_ofList (by rw [List.map_map]; exact unique)]
  exact List.mem_map.mpr ⟨g, inside, rfl⟩

theorem members_postOrder (acyclic : ∀ a, ¬ TransGen (Contains groups) a a) {g : GroupConfig}
    (inside : g ∈ groups) :
    ∃ order, (∀ l, PostOrder groups [g.id] l ↔ l = order) ∧
      members (table groups) g = order.eraseDups := by
  obtain ⟨inner, order, equal⟩ := listing_postOrder unique acyclic inside
    (List.forall_mem_singleton.mpr .refl)
  have whole : PostOrder groups [g.id] (inner ++ g.nodes ++ []) := .known inside order .nil
  rw [List.append_nil] at whole
  refine ⟨inner ++ g.nodes, fun l => ⟨fun h => postOrder_unique unique h whole, ?_⟩, ?_⟩
  · rintro rfl
    exact whole
  · rw [members, equal]

theorem mem_errors {e : ConfigError} :
    e ∈ (flatten groups).2 ↔ ∃ id, e = .cyclicGroup id ∧ TransGen (Contains groups) id id := by
  simp only [flatten, List.mem_map, List.mem_eraseDups, List.mem_flatMap, circles_iff unique]
  constructor
  · rintro ⟨id, cycle, rfl⟩
    exact ⟨id, rfl, cycle⟩
  · rintro ⟨id, rfl, cycle⟩
    exact ⟨id, cycle, rfl⟩

omit unique in
theorem nodup_errors : (flatten groups).2.Nodup :=
  List.Nodup.map (fun _ _ same => ConfigError.cyclicGroup.inj same) (nodup_eraseDups _)

/-- Flattening is reachability: each group has the nodes of all known groups that are reached from
it, each once, and the errors are the groups that are reached from themselves. Without such a group
the nodes stand as the groups are met in post-order. -/
theorem flatten_is_reachability :
    (flatten groups).1.keys = groups.map (·.id) ∧
      (∀ g ∈ groups, ∃ members, (flatten groups).1.get? g.id = some members ∧ members.Nodup ∧
        (∀ x, x ∈ members ↔
          ∃ h ∈ groups, x ∈ h.nodes ∧ ReflTransGen (Contains groups) g.id h.id) ∧
        ((∀ a, ¬ TransGen (Contains groups) a a) →
          ∃ order, (∀ l, PostOrder groups [g.id] l ↔ l = order) ∧ members = order.eraseDups)) ∧
      (flatten groups).2.Nodup ∧
      ∀ e, e ∈ (flatten groups).2 ↔
        ∃ id, e = .cyclicGroup id ∧ TransGen (Contains groups) id id := by
  refine ⟨keys_flatten unique, fun g inside => ?_, nodup_errors, fun e => mem_errors unique⟩
  exact ⟨_, get?_flatten unique inside, nodup_eraseDups _, fun x => mem_members unique inside,
    fun acyclic => members_postOrder unique acyclic inside⟩

end Table

def looped : List GroupConfig :=
  [⟨"up", ["lamp"], ["down", "cellar"]⟩, ⟨"down", ["door", "lamp"], ["up"]⟩,
    ⟨"house", ["fan"], ["up", "down"]⟩]

theorem flatten_is_reachability_looped :
    (looped.map (·.id)).Nodup ∧
      (flatten looped).1.get? "house" = some ["door", "lamp", "fan"] ∧
      (flatten looped).2 = [.cyclicGroup "up", .cyclicGroup "down"] ∧
      TransGen (Contains looped) "up" "up" ∧ ¬ TransGen (Contains looped) "house" "house" := by
  have unique : (looped.map (·.id)).Nodup := by decide
  obtain ⟨-, -, -, reported⟩ := flatten_is_reachability unique
  have errors : (flatten looped).2 = [.cyclicGroup "up", .cyclicGroup "down"] := by with_unfolding_all rfl
  refine ⟨unique, by decide +kernel, errors, ?_, fun cycle => ?_⟩
  · obtain ⟨id, same, cycle⟩ := (reported (.cyclicGroup "up")).mp (by rw [errors]; simp)
    cases same
    exact cycle
  · have listed := (reported (.cyclicGroup "house")).mpr ⟨"house", rfl, cycle⟩
    rw [errors] at listed
    simp at listed

end HomeControl.Group
