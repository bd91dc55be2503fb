import HomeControl.Proofs.Config.Checked
import HomeControl.Proofs.Table
import HomeControl.Topology
import Mathlib.Logic.Relation
/-!
Colors that are other names of colors. A color has at most one color that it names, so its chain of
names ends at a color or runs into a circle.
-/

namespace HomeControl.ColorTable

open Relation

def Alias (colors : List ColorConfig) (a b : String) : Prop :=
  ∃ c ∈ colors, c.id = a ∧ c.sameAs = some b

/-- Whether a chain of names comes to a color that is given by its own entry. -/
def Comes (colors : List ColorConfig) (a : String) (color : Color) : Prop :=
  ∃ c ∈ colors, ReflTransGen (Alias colors) a c.id ∧ c.own? = some color

/-- Whether a chain of names runs into a circle, from which it may start or to which it may lead. -/
def Circles (colors : List ColorConfig) (a : String) : Prop :=
  ∃ b, ReflTransGen (Alias colors) a b ∧ TransGen (Alias colors) b b

def table (colors : List ColorConfig) : Keyed String ColorConfig :=
  .ofList (colors.map fun c => (c.id, c))

section Chains

variable {colors : List ColorConfig} (unique : (colors.map (·.id)).Nodup)

include unique

theorem get?_table {id : String} {c : ColorConfig} :
    (table colors).get? id = some c ↔ c ∈ colors ∧ c.id = id :=
  Keyed.get?_ofList_map unique

theorem keys_table : (table colors).keys = colors.map (·.id) := by
  rw [table, Keyed.keys_ofList (by rw [List.map_map]; exact unique), List.map_map]
  rfl

theorem alias_iff {c : ColorConfig} (inside : c ∈ colors) {b : String} :
    Alias colors c.id b ↔ c.sameAs = some b := by
  refine ⟨fun ⟨x, among, same, named⟩ => ?_, fun named => ⟨c, inside, rfl, named⟩⟩
  rw [List.inj_on_of_nodup_map unique among inside same] at named
  exact named

theorem alias_unique : Relator.RightUnique (Alias colors) := by
  rintro a b b' ⟨c, inside, rfl, named⟩ other
  exact Option.some.inj (named.symm.trans ((alias_iff unique inside).mp other))

theorem cycle_walk {a b : String} (cycle : TransGen (Alias colors) a a)
    (walk : ReflTransGen (Alias colors) a b) : TransGen (Alias colors) b b := by
  induction walk with
  | refl => exact cycle
  | tail _ step ih =>
    obtain ⟨next, first, back⟩ := TransGen.head'_iff.mp ih
    rw [alias_unique unique first step] at back
    exact TransGen.tail' back step

theorem not_alias_of_own (defined : Defined colors) {c : ColorConfig} (inside : c ∈ colors)
    {color : Color} (own : c.own? = some color) (next : String) : ¬Alias colors c.id next := by
  intro step
  have named := (alias_iff unique inside).mp step
  rcases defined c inside with ⟨nameless, -⟩ | ⟨-, -, -, other⟩
  · rw [nameless] at named
    cases named
  · rw [other] at own
    cases own

theorem comes_unique (defined : Defined colors) {a : String} {color other : Color}
    (comes : Comes colors a color) (again : Comes colors a other) : color = other := by
  obtain ⟨c, inside, walk, own⟩ := comes
  obtain ⟨d, among, walk', own'⟩ := again
  have same : c.id = d.id := by
    rcases ReflTransGen.total_of_right_unique (alias_unique unique) walk walk' with on | on
    · exact (ReflTransGen.cases_head on).resolve_right fun ⟨next, step, _⟩ =>
        not_alias_of_own unique defined inside own next step
    · exact ((ReflTransGen.cases_head on).resolve_right fun ⟨next, step, _⟩ =>
        not_alias_of_own unique defined among own' next step).symm
  rw [List.inj_on_of_nodup_map unique inside among same, own'] at own
  exact (Option.some.inj own).symm

theorem not_circles_of_comes (defined : Defined colors) {a : String} {color : Color}
    (comes : Comes colors a color) : ¬Circles colors a := by
  rintro ⟨b, walk, cycle⟩
  obtain ⟨c, inside, comes, own⟩ := comes
  have around : TransGen (Alias colors) c.id c.id := by
    rcases ReflTransGen.total_of_right_unique (alias_unique unique) comes walk with on | back
    · rcases ReflTransGen.cases_head on with same | ⟨next, step, -⟩
      · rwa [same]
      · exact absurd step (not_alias_of_own unique defined inside own next)
    · exact cycle_walk unique cycle back
  obtain ⟨next, step, -⟩ := TransGen.head'_iff.mp around
  exact not_alias_of_own unique defined inside own next step

omit unique in
theorem follow_own {path : List String} {c : ColorConfig} {color : Color}
    (own : c.own? = some color) : follow (table colors) path c = .color color := by
  unfold ColorConfig.own? at own
  rw [follow]
  split
  · rename_i found
    rw [own] at found
    cases found
    rfl
  · rename_i none
    rw [own] at none
    cases none

theorem follow_name {path : List String} {c next : ColorConfig} (other : c.own? = none)
    (named : c.sameAs = some next.id) (inside : next ∈ colors) :
    follow (table colors) path c =
      if next.id ∈ path then .circle else follow (table colors) (next.id :: path) next := by
  unfold ColorConfig.own? at other
  have found : (table colors).get? next.id = some next := (get?_table unique).mpr ⟨inside, rfl⟩
  rw [follow, other]
  simp only [named]
  split
  · rfl
  · split
    · rename_i missing
      rw [found] at missing
      cases missing
    · rename_i x there
      rw [found] at there
      cases there
      rfl

/-- A chain of names is followed to the color it comes to, or into a circle. -/
theorem follow_ends (defined : Defined colors) {path : List String} {c : ColorConfig}
    (inside : c ∈ colors) (led : ∀ p ∈ path, ReflTransGen (Alias colors) p c.id) :
    (∃ color, follow (table colors) path c = .color color ∧ Comes colors c.id color) ∨
      follow (table colors) path c = .circle ∧ Circles colors c.id := by
  rcases defined c inside with ⟨-, own⟩ | ⟨name, known, named, other⟩
  · obtain ⟨color, own⟩ := Option.isSome_iff_exists.mp own
    exact Or.inl ⟨color, follow_own own, c, inside, .refl, own⟩
  · obtain ⟨next, among, rfl⟩ := List.mem_map.mp known
    have step : Alias colors c.id next.id := ⟨c, inside, rfl, named⟩
    rw [follow_name unique other named among]
    by_cases again : next.id ∈ path
    · rw [if_pos again]
      exact Or.inr ⟨rfl, next.id, .single step, TransGen.tail' (led next.id again) step⟩
    · rw [if_neg again]
      have ledNext : ∀ p ∈ next.id :: path, ReflTransGen (Alias colors) p next.id :=
        List.forall_mem_cons.mpr ⟨.refl, fun p before => (led p before).tail step⟩
      refine (follow_ends defined among ledNext).imp ?_ (And.imp_right ?_)
      · rintro ⟨color, found, last, there, walk, own⟩
        exact ⟨color, found, last, there, .head step walk, own⟩
      · rintro ⟨b, walk, cycle⟩
        exact ⟨b, .head step walk, cycle⟩
  termination_by ((table colors).unvisited path).length
  decreasing_by exact Keyed.unvisited_cons_lt again ((get?_table unique).mpr ⟨among, rfl⟩)

theorem search_ends (defined : Defined colors) {c : ColorConfig} (inside : c ∈ colors) :
    (∃ color, follow (table colors) [c.id] c = .color color ∧ Comes colors c.id color) ∨
      follow (table colors) [c.id] c = .circle ∧ Circles colors c.id :=
  follow_ends unique defined inside (List.forall_mem_singleton.mpr .refl)

theorem follow_eq_color_iff (defined : Defined colors) {c : ColorConfig} (inside : c ∈ colors)
    (color : Color) : follow (table colors) [c.id] c = .color color ↔ Comes colors c.id color := by
  rcases search_ends unique defined inside with ⟨end', found, comes⟩ | ⟨found, circles⟩
  · rw [found, End.color.injEq]
    exact ⟨fun same => same ▸ comes, comes_unique unique defined comes⟩
  · exact iff_of_false (by rw [found]; nofun) fun comes =>
      not_circles_of_comes unique defined comes circles

theorem follow_eq_circle_iff (defined : Defined colors) {c : ColorConfig} (inside : c ∈ colors) :
    follow (table colors) [c.id] c = .circle ↔ Circles colors c.id := by
  rcases search_ends unique defined inside with ⟨color, found, comes⟩ | ⟨found, circles⟩
  · exact iff_of_false (by rw [found]; nofun) (not_circles_of_comes unique defined comes)
  · exact iff_of_true found circles

theorem circles_iff_not_comes (defined : Defined colors) {c : ColorConfig} (inside : c ∈ colors) :
    Circles colors c.id ↔ ∀ color, ¬Comes colors c.id color := by
  rcases search_ends unique defined inside with ⟨color, -, comes⟩ | ⟨-, circles⟩
  · exact iff_of_false (not_circles_of_comes unique defined comes) fun none => none color comes
  · exact iff_of_true circles fun color comes => not_circles_of_comes unique defined comes circles

def endErrors (colors : List ColorConfig) : List ConfigError :=
  colors.flatMap fun c => errorsOf c (follow (table colors) [c.id] c)

def endEntries (colors : List ColorConfig) : List (String × Color) :=
  colors.flatMap fun c => entryOf c (follow (table colors) [c.id] c)

omit unique in
theorem ofConfig_eq :
    ofConfig colors = ConfigError.orElse (endErrors colors) (.ofList (endEntries colors)) := by
  unfold ofConfig endErrors endEntries
  simp only [List.flatMap_map]
  rfl

/-- The errors name the colors whose names run into a circle, each once and in order. -/
theorem exists_circling (defined : Defined colors) :
    ∃ circling : List ColorConfig, circling.Sublist colors ∧
      (∀ c ∈ colors, c ∈ circling ↔ Circles colors c.id) ∧
      endErrors colors = circling.map fun c => .cyclicColor c.id := by
  refine ⟨colors.filter fun c => follow (table colors) [c.id] c = .circle, List.filter_sublist,
    fun c inside => ?_, ?_⟩
  · rw [List.mem_filter, decide_eq_true_eq, follow_eq_circle_iff unique defined inside]
    exact and_iff_right inside
  · rw [← List.filterMap_eq_map, List.filterMap_filter, List.filterMap_eq_flatMap_toList]
    refine List.flatMap_congr fun c inside => ?_
    rcases search_ends unique defined inside with
      ⟨color, found, -⟩ | ⟨found, -⟩ <;> simp [found, errorsOf]

theorem ofConfig_ok_iff_circles (defined : Defined colors) :
    (∃ t, ofConfig colors = .ok t) ↔ ∀ c ∈ colors, ¬Circles colors c.id := by
  obtain ⟨circling, within, circles, errors⟩ := exists_circling unique defined
  rw [ofConfig_eq]
  simp only [ConfigError.orElse_eq_ok, exists_and_left, exists_eq', and_true]
  rw [errors, List.map_eq_nil_iff, List.eq_nil_iff_forall_not_mem]
  constructor
  · exact fun none c inside around => none c ((circles c inside).mpr around)
  · exact fun none c there => none c (within.subset there) ((circles c (within.subset there)).mp there)

theorem ofConfig_ok_iff (defined : Defined colors) :
    (∃ t, ofConfig colors = .ok t) ↔ ∀ a, ¬ TransGen (Alias colors) a a := by
  rw [ofConfig_ok_iff_circles unique defined]
  constructor
  · intro none a cycle
    obtain ⟨b, ⟨c, inside, rfl, -⟩, -⟩ := TransGen.head'_iff.mp cycle
    exact none c inside ⟨c.id, .refl, cycle⟩
  · rintro acyclic c - ⟨b, -, cycle⟩
    exact acyclic b cycle

theorem leaf_of_ofConfig (defined : Defined colors) {e x : ConfigError}
    (failed : ofConfig colors = .error e) (leaf : x ∈ e.leaves) : ∃ id, x = .cyclicColor id := by
  obtain ⟨circling, -, -, errors⟩ := exists_circling unique defined
  rw [ofConfig_eq, errors] at failed
  rw [ConfigError.leaves_of_orElse failed] at leaf
  obtain ⟨e, reported, leaf⟩ := ConfigError.mem_allLeaves.mp leaf
  obtain ⟨c, -, rfl⟩ := List.mem_map.mp reported
  exact ⟨c.id, List.mem_singleton.mp leaf⟩

theorem table_of_ofConfig (defined : Defined colors) {t : Keyed String Color}
    (made : ofConfig colors = .ok t) :
    t.keys = colors.map (·.id) ∧
      ∀ c ∈ colors, ∀ color, t.get? c.id = some color ↔ Comes colors c.id color := by
  have none := (ofConfig_ok_iff_circles unique defined).mp ⟨t, made⟩
  rw [ofConfig_eq] at made
  obtain ⟨-, rfl⟩ := ConfigError.orElse_eq_ok.mp made
  have keys : (endEntries colors).map (·.1) = colors.map (·.id) := by
    rw [endEntries, List.map_flatMap, List.map_eq_flatMap]
    refine List.flatMap_congr fun c inside => ?_
    rcases search_ends unique defined inside with ⟨color, found, -⟩ | ⟨-, circles⟩
    · simp [found, entryOf]
    · exact absurd circles (none c inside)
  have once : ((endEntries colors).map (·.1)).Nodup := by
    rw [keys]
    exact unique
  refine ⟨(Keyed.keys_ofList once).trans keys, fun c inside color => ?_⟩
  rw [← Keyed.mem_entries_iff (by rw [Keyed.keys_ofList once]; exact once),
    Keyed.entries_ofList once, endEntries, List.mem_flatMap,
    ← follow_eq_color_iff unique defined inside]
  constructor
  · rintro ⟨d, among, entry⟩
    cases found : follow (table colors) [d.id] d with
    | color x =>
      rw [found, entryOf, List.mem_singleton, Prod.mk.injEq] at entry
      rw [List.inj_on_of_nodup_map unique inside among entry.1, found, entry.2]
    | _ =>
      rw [found] at entry
      cases entry
  · intro found
    exact ⟨c, inside, by rw [found]; exact List.mem_singleton_self _⟩

theorem get?_ofConfig (defined : Defined colors) {t : Keyed String Color}
    (made : ofConfig colors = .ok t) {c : ColorConfig} (inside : c ∈ colors) :
    (t.get? c.id).isSome = true := by
  rcases search_ends unique defined inside with ⟨color, -, comes⟩ | ⟨-, circles⟩
  · rw [((table_of_ofConfig unique defined made).2 c inside color).mpr comes]
    rfl
  · exact absurd circles ((ofConfig_ok_iff_circles unique defined).mp ⟨t, made⟩ c inside)

end Chains

/-- The search for what a color is, and how often it goes on to another name. -/
inductive Walks (t : Keyed String ColorConfig) : List String → ColorConfig → Nat → End → Prop
  | color {path : List String} {c : ColorConfig} {color : Color} (own : c.own? = some color) :
    Walks t path c 0 (.color color)
  | undefined {path : List String} {c : ColorConfig} (other : c.own? = none)
    (nameless : c.sameAs = none) : Walks t path c 0 .undefined
  | circle {path : List String} {c : ColorConfig} {name : String} (other : c.own? = none)
    (named : c.sameAs = some name) (again : name ∈ path) : Walks t path c 0 .circle
  | unknown {path : List String} {c : ColorConfig} {name : String} (other : c.own? = none)
    (named : c.sameAs = some name) (fresh : name ∉ path) (absent : t.get? name = none) :
    Walks t path c 0 (.unknown name)
  | on {path : List String} {c next : ColorConfig} {name : String} {turns : Nat} {e : End}
    (other : c.own? = none) (named : c.sameAs = some name) (fresh : name ∉ path)
    (found : t.get? name = some next) (later : Walks t (name :: path) next turns e) :
    Walks t path c (turns + 1) e

/-- Every turn takes a name that was not passed before. -/
theorem follow_walks (t : Keyed String ColorConfig) (path : List String) (c : ColorConfig) :
    ∃ turns ≤ (t.unvisited path).length, Walks t path c turns (follow t path c) := by
  fun_induction follow t path c with
  | case1 path c color own => exact ⟨0, Nat.zero_le _, .color own⟩
  | case2 path c other nameless => exact ⟨0, Nat.zero_le _, .undefined other nameless⟩
  | case3 path c other name named again => exact ⟨0, Nat.zero_le _, .circle other named again⟩
  | case4 path c other name named fresh absent =>
    exact ⟨0, Nat.zero_le _, .unknown other named fresh absent⟩
  | case5 path c other name named fresh next found ih =>
    obtain ⟨turns, few, later⟩ := ih
    exact ⟨turns + 1, Nat.lt_of_le_of_lt few (Keyed.unvisited_cons_lt fresh found),
      .on other named fresh found later⟩

theorem follow_walks_few {colors : List ColorConfig} (unique : (colors.map (·.id)).Nodup)
    {c : ColorConfig} (inside : c ∈ colors) :
    ∃ turns < colors.length,
      Walks (table colors) [c.id] c turns (follow (table colors) [c.id] c) := by
  obtain ⟨turns, few, walks⟩ := follow_walks (table colors) [c.id] c
  have found : (table colors).get? c.id = some c := (get?_table unique).mpr ⟨inside, rfl⟩
  have fewer : ((table colors).unvisited [c.id]).length < colors.length := by
    calc ((table colors).unvisited [c.id]).length
      _ < ((table colors).unvisited []).length :=
        Keyed.unvisited_cons_lt List.not_mem_nil found
      _ ≤ (table colors).keys.length := List.length_filter_le ..
      _ = colors.length := by rw [keys_table unique, List.length_map]
  exact ⟨turns, Nat.lt_of_le_of_lt few fewer, walks⟩

/-- Names of colors come to the ends of their chains, however long these are. Looking a color up takes
fewer turns than there are colors. It fails if a chain comes to no color of its own, and then the colors
whose chains run into a circle are reported, each once, on the circle or before it. Otherwise the table
has the ids of the configuration, each with the color that its chain comes to. -/
theorem names_come_to_colors {c : Config} (unique : (c.colors.map (·.id)).Nodup)
    (checked : ∀ x ∈ c.colors, c.colorErrors x = []) :
    (∀ x ∈ c.colors, ∃ turns < c.colors.length,
      Walks (table c.colors) [x.id] x turns (follow (table c.colors) [x.id] x)) ∧
    ((∃ e, ofConfig c.colors = .error e) ↔
      ∃ x ∈ c.colors, ∀ color, ¬Comes c.colors x.id color) ∧
    (∃ circling : List ColorConfig, circling.Sublist c.colors ∧
      (∀ x ∈ c.colors, x ∈ circling ↔ Circles c.colors x.id) ∧
      ∀ e, ofConfig c.colors = .error e ↔
        ConfigError.ofList? (circling.map fun x => .cyclicColor x.id) = some e) ∧
    ∀ t, ofConfig c.colors = .ok t →
      t.keys = c.colors.map (·.id) ∧
      ∀ x ∈ c.colors, ∀ color, t.get? x.id = some color ↔ Comes c.colors x.id color := by
  have defined : Defined c.colors := fun x inside => Config.own_of_colorErrors (checked x inside)
  refine ⟨fun x inside => follow_walks_few unique inside, ?_, ?_,
    fun t made => table_of_ofConfig unique defined made⟩
  · have fails : (∃ e, ofConfig c.colors = .error e) ↔ ¬∃ t, ofConfig c.colors = .ok t := by
      cases ofConfig c.colors <;> simp
    rw [fails, ofConfig_ok_iff_circles unique defined]
    push Not
    exact exists_congr fun x => and_congr_right (circles_iff_not_comes unique defined)
  · obtain ⟨circling, within, circles, errors⟩ := exists_circling unique defined
    refine ⟨circling, within, circles, fun e => ?_⟩
    rw [ofConfig_eq, errors]
    exact ConfigError.orElse_eq_error

theorem names_come_to_colors_tail :
    let dawn : ColorConfig := ⟨"dawn", none, none, some "dusk"⟩
    let dusk : ColorConfig := ⟨"dusk", none, none, some "dawn"⟩
    let evening : ColorConfig := ⟨"evening", none, none, some "dusk"⟩
    let red : ColorConfig := ⟨"red", some ⟨255, 0, 0⟩, none, none⟩
    let c : Config := { colors := [dawn, dusk, evening, red] }
    (c.colors.map (·.id)).Nodup ∧ (∀ x ∈ c.colors, c.colorErrors x = []) ∧
      (∃ e, ofConfig c.colors = .error e) ∧
      ∃ circling : List ColorConfig, circling.Sublist c.colors ∧ evening ∈ circling ∧ red ∉ circling ∧
        ∀ e, ofConfig c.colors = .error e ↔
          ConfigError.ofList? (circling.map fun x => .cyclicColor x.id) = some e := by
  intro dawn dusk evening red c
  have unique : (c.colors.map (·.id)).Nodup := by decide
  have checked : ∀ x ∈ c.colors, c.colorErrors x = [] := by decide +kernel
  have defined : Defined c.colors := fun x inside => Config.own_of_colorErrors (checked x inside)
  obtain ⟨-, fails, ⟨circling, within, circles, reported⟩, -⟩ := names_come_to_colors unique checked
  have there : Alias c.colors "dusk" "dawn" := ⟨dusk, by simp [c], rfl, rfl⟩
  have back : Alias c.colors "dawn" "dusk" := ⟨dawn, by simp [c], rfl, rfl⟩
  have around : Circles c.colors "evening" :=
    ⟨"dusk", .single ⟨evening, by simp [c], rfl, rfl⟩, .tail (.single there) back⟩
  have ends : Comes c.colors "red" ⟨255, 0, 0⟩ := ⟨red, by simp [c], .refl, rfl⟩
  refine ⟨unique, checked, fails.mpr ⟨evening, by simp [c], fun color comes => ?_⟩, circling, within,
    (circles evening (by simp [c])).mpr around, fun inside => ?_, reported⟩
  · exact not_circles_of_comes unique defined comes around
  · exact not_circles_of_comes unique defined ends ((circles red (by simp [c])).mp inside)

end HomeControl.ColorTable
