import HomeControl.Proofs.Table
import HomeControl.Proofs.Value.Fields
import HomeControl.Response
import Mathlib.Data.List.Induction
import Mathlib.Data.List.Nodup
/-!
Sums over readings. Every number that was read counts in the sum of its attribute, once and in order of
the nodes, and every other value but null has an error of its own. So has every attribute that comes
to no number.
-/

namespace HomeControl

theorem Value.filterMap_field {β : Type} {fields : List (String × Value)}
    (once : (fields.map (·.1)).Nodup) (f : Value → Option β) (key : String) :
    fields.filterMap (fun e => if e.1 = key then f e.2 else none) =
      ((fields.lookup key).bind f).toList := by
  induction fields with
  | nil => rfl
  | cons e rest ih =>
    obtain ⟨k, v⟩ := e
    obtain ⟨fresh, once⟩ := List.nodup_cons.mp once
    rw [List.filterMap_cons, ih once, Keyed.lookup_cons]
    by_cases same : k = key
    · subst same
      rw [if_pos rfl, if_pos rfl, Keyed.lookup_of_fresh fresh]
      cases h : f v <;> simp [h]
    · rw [if_neg same, if_neg same]

namespace Readings

def value? (t : Readings) (node attr : String) : Option Value :=
  (t.get? node).bind (·.lookup attr)

def Has (t : Readings) (attr : String) : Prop :=
  ∃ node v, t.value? node attr = some v

structure Sound (t : Readings) : Prop where
  once : t.keys.Nodup
  ordered : ∀ node fields, t.get? node = some fields → Value.Ordered fields

theorem value?_add (t : Readings) (r : Reading) (node attr : String) :
    (t.add r).value? node attr =
      if r.node = node ∧ r.attr = attr then some r.value else t.value? node attr := by
  unfold value? add
  rw [Keyed.get?_insert]
  by_cases own : r.node = node
  · subst own
    rw [if_pos rfl, Option.bind_some, Value.lookup_putField]
    cases t.get? r.node <;> simp
  · rw [if_neg own, if_neg fun both => own both.1]

theorem ofList_concat (readings : List Reading) (r : Reading) :
    ofList (readings ++ [r]) = (ofList readings).add r :=
  List.foldl_concat ..

theorem value?_ofList {readings : List Reading}
    (once : (readings.map fun r => (r.node, r.attr)).Nodup) {node attr : String} {v : Value} :
    (ofList readings).value? node attr = some v ↔ ⟨node, attr, v⟩ ∈ readings := by
  induction readings using List.reverseRecOn with
  | nil => simp [ofList, value?, Keyed.get?_empty]
  | append_singleton rest r ih =>
    rw [List.map_append, List.nodup_append] at once
    obtain ⟨once, -, apart⟩ := once
    rw [ofList_concat, value?_add, List.mem_append, List.mem_singleton]
    by_cases own : r.node = node ∧ r.attr = attr
    · obtain ⟨rfl, rfl⟩ := own
      have fresh : ⟨r.node, r.attr, v⟩ ∉ rest := fun inside =>
        apart _ (List.mem_map_of_mem inside) _ List.mem_cons_self rfl
      rw [if_pos ⟨rfl, rfl⟩, or_iff_right fresh]
      exact ⟨fun same => by cases same; rfl, fun same => by rw [← same]⟩
    · rw [if_neg own, ih once, or_iff_left fun same => own (by rw [← same]; exact ⟨rfl, rfl⟩)]

theorem Sound.add {t : Readings} (sound : t.Sound) (r : Reading) : (t.add r).Sound := by
  refine ⟨Keyed.nodup_insert sound.once _ _, fun node fields found => ?_⟩
  rw [Readings.add, Keyed.get?_insert] at found
  split at found
  · cases found
    cases before : t.get? r.node with
    | none => exact Value.ordered_nil.putField _ _
    | some fields => exact (sound.ordered _ _ before).putField _ _
  · exact sound.ordered node fields found

theorem sound_ofList (readings : List Reading) : (ofList readings).Sound :=
  List.foldlRecOn readings add ⟨List.nodup_nil, fun _ _ found => by cases found⟩
    fun _ sound r _ => sound.add r

section Sound

variable {t : Readings} (sound : t.Sound)

include sound

theorem get?_of_mem {node : String} {fields : List (String × Value)}
    (inside : (node, fields) ∈ t.entries) : t.get? node = some fields :=
  (Keyed.mem_entries_iff sound.once).mp inside

theorem mem_toList (r : Reading) : r ∈ t.toList ↔ t.value? r.node r.attr = some r.value := by
  simp only [toList, List.mem_flatMap, List.mem_map, value?, Option.bind_eq_some_iff]
  constructor
  · rintro ⟨⟨node, fields⟩, inside, ⟨attr, v⟩, field, rfl⟩
    have found := get?_of_mem sound inside
    exact ⟨fields, found, Keyed.lookup_of_mem (sound.ordered node fields found).once field⟩
  · rintro ⟨fields, found, read⟩
    exact ⟨(r.node, fields), Keyed.mem_entries_of_get? found, (r.attr, r.value),
      Keyed.mem_entries_of_get? (t := ⟨fields⟩) read, rfl⟩

theorem toList_once : (t.toList.map fun r => (r.node, r.attr)).Nodup := by
  rw [toList, List.map_flatMap, List.nodup_flatMap]
  constructor
  · rintro ⟨node, fields⟩ inside
    have once := (sound.ordered node fields (get?_of_mem sound inside)).once
    have pairs := once.map (Prod.mk_right_injective node)
    rw [List.map_map] at pairs ⊢
    exact pairs
  · refine (List.pairwise_map.mp sound.once).imp fun {a b} apart => ?_
    simp only [Function.onFun, List.disjoint_left, List.map_map, List.mem_map]
    rintro - ⟨x, -, rfl⟩ ⟨y, -, same⟩
    exact apart (Prod.mk.inj same).1.symm

theorem numbers_eq (attr : String) :
    t.numbers attr = t.keys.filterMap fun node => (t.value? node attr).bind Value.number? := by
  rw [numbers, toList, List.filterMap_flatMap, Keyed.keys, List.filterMap_map,
    List.filterMap_eq_flatMap_toList]
  refine List.flatMap_congr fun e inside => ?_
  have found : t.get? e.1 = some e.2 := get?_of_mem sound inside
  simp only [Function.comp_apply, value?, found, Option.bind_some, List.filterMap_map]
  exact Value.filterMap_field (sound.ordered _ _ found).once Value.number? attr

theorem mem_attrs (attr : String) : attr ∈ t.attrs ↔ t.Has attr := by
  simp only [attrs, List.mem_eraseDups, List.mem_map, mem_toList sound, Has]
  constructor
  · rintro ⟨r, read, rfl⟩
    exact ⟨r.node, r.value, read⟩
  · rintro ⟨node, v, read⟩
    exact ⟨⟨node, attr, v⟩, read, rfl⟩

theorem numbers_eq_nil_iff (attr : String) :
    t.numbers attr = [] ↔ ∀ node v, t.value? node attr = some v → v.number? = none := by
  simp only [numbers, List.filterMap_eq_nil_iff, mem_toList sound]
  constructor
  · intro none node v read
    have own := none ⟨node, attr, v⟩ read
    rwa [if_pos rfl] at own
  · intro none r read
    split
    · rename_i own
      exact none r.node r.value (own ▸ read)
    · rfl

end Sound

theorem isFinite_of_abs_le {x : Float} (h : x.abs ≤ wholeLimit) : x.isFinite = true := by
  have below : (Float.Model.pack x.toModel.unpack.abs).unpack.le wholeLimit.toModel.unpack = true :=
    of_decide_eq_true h
  change x.toModel.unpack.isFinite = true
  cases shape : x.toModel.unpack with
  | notANumber =>
    rw [shape] at below
    exact absurd below (by decide +kernel)
  | infinity s =>
    rw [shape] at below
    change (Float.Model.pack (.infinity .positive)).unpack.le _ = true at below
    exact absurd below (by decide +kernel)
  | zero s => rfl
  | finite s m e pos => rfl

theorem ofNumber?_eq_none_iff (x : Float) : ofNumber? x = none ↔ x.isFinite = false := by
  unfold ofNumber?
  split
  · rename_i whole
    rw [Bool.and_eq_true, decide_eq_true_eq] at whole
    simp [isFinite_of_abs_le whole.2]
  · split
    · rename_i finite
      simp [finite]
    · rename_i infinite
      simp [infinite]

theorem ofNumber?_ne_null (x : Float) : ofNumber? x ≠ some .null := by
  unfold ofNumber?
  split
  · nofun
  · split <;> nofun

theorem total?_eq_none_iff (t : Readings) (how : Aggregate) (attr : String) :
    t.total? how attr = none ↔
      t.numbers attr = [] ∨ ∃ x, how.apply (t.numbers attr) = some x ∧ x.isFinite = false := by
  unfold total?
  cases t.numbers attr with
  | nil => simp [Aggregate.apply]
  | cons x rest => simp [Aggregate.apply, ofNumber?_eq_none_iff]

theorem getD_total?_eq_null_iff (t : Readings) (how : Aggregate) (attr : String) :
    (t.total? how attr).getD .null = .null ↔ t.total? how attr = none := by
  cases found : t.total? how attr with
  | none => simp
  | some v =>
    obtain ⟨x, -, number⟩ := Option.bind_eq_some_iff.mp found
    simp only [Option.getD_some, reduceCtorEq, iff_false]
    rintro rfl
    exact ofNumber?_ne_null x number

theorem totalKey_injective (how : Aggregate) : Function.Injective (totalKey how) := by
  intro a b same
  simpa [totalKey, String.append_assoc] using same

theorem lookup_totals (t : Readings) (how : Aggregate) :
    ∃ fields, t.totals how = .record fields ∧ Value.Ordered fields ∧
      ∀ key v, fields.lookup key = some v ↔
        ∃ attr ∈ t.attrs, totalKey how attr = key ∧ (t.total? how attr).getD .null = v := by
  have once : ((t.attrs.map fun attr =>
      (totalKey how attr, (t.total? how attr).getD .null)).map (·.1)).Nodup := by
    rw [List.map_map]
    exact (nodup_eraseDups _).map (totalKey_injective how)
  obtain ⟨fields, made, ordered, same⟩ := Value.exists_ofFields once
  refine ⟨fields, made, ordered, fun key v => ?_⟩
  rw [same]
  constructor
  · intro found
    obtain ⟨attr, inside, own⟩ := List.mem_map.mp (Keyed.mem_entries_of_get? (t := ⟨_⟩) found)
    exact ⟨attr, inside, (Prod.mk.inj own).1, (Prod.mk.inj own).2⟩
  · rintro ⟨attr, inside, rfl, rfl⟩
    exact Keyed.lookup_of_mem once (List.mem_map.mpr ⟨attr, inside, rfl⟩)

/-- Sums account for every reading. There is one result for each attribute that was read, made of all
its numbers in order of the nodes; it is null if there are none, or if they come to nothing finite. The
errors are one for each value that is neither a number nor null, and then one for each null result. -/
theorem totals_account_for_readings {t : Readings} (sound : t.Sound) (how : Aggregate) :
    ∃ (fields : List (String × Value)) (strange : List Reading) (lacking : List String),
      t.totals how = .record fields ∧
      (t.totalErrors how).map (·.message) =
        (strange.map fun r => "Value " ++ r.value.json ++ " of \"" ++ r.node ++ "." ++ r.attr ++
          "\" is not a number") ++
        lacking.map (fun attr => "No numeric values for \"" ++ attr ++ "\"") ∧
      (fields.map (·.1)).Nodup ∧
      (∀ key, key ∈ fields.map (·.1) ↔ ∃ attr, t.Has attr ∧ key = attr ++ "_" ++ how.name) ∧
      (∀ a b, a ++ "_" ++ how.name = b ++ "_" ++ how.name → a = b) ∧
      (∀ attr, t.Has attr →
        let numbers := t.keys.filterMap fun node => (t.value? node attr).bind Value.number?
        let result := ((how.apply numbers).bind ofNumber?).getD .null
        fields.lookup (attr ++ "_" ++ how.name) = some result ∧
        (result = .null ↔ (∀ node v, t.value? node attr = some v → v.number? = none) ∨
          ∃ x, how.apply numbers = some x ∧ x.isFinite = false) ∧
        (attr ∈ lacking ↔ result = .null)) ∧
      (strange.map fun r => (r.node, r.attr)).Nodup ∧
      (∀ r, r ∈ strange ↔
        t.value? r.node r.attr = some r.value ∧ r.value ≠ .null ∧ r.value.number? = none) ∧
      lacking.Nodup ∧ ∀ attr ∈ lacking, t.Has attr := by
  obtain ⟨fields, made, ordered, found⟩ := lookup_totals t how
  refine ⟨fields, t.toList.filter fun r => !r.value.isNull && r.value.number?.isNone,
    t.attrs.filter fun attr => (t.total? how attr).isNone, made, ?_, ordered.once, fun key => ?_,
    totalKey_injective how, fun attr has => ?_, ?_, fun r => ?_, ?_, fun attr inside => ?_⟩
  · simp only [totalErrors, strangers, List.map_append, List.map_map]
    rfl
  · constructor
    · intro inside
      obtain ⟨e, field, rfl⟩ := List.mem_map.mp inside
      obtain ⟨attr, read, same, -⟩ := (found _ _).mp (Keyed.lookup_of_mem ordered.once field)
      exact ⟨attr, (mem_attrs sound attr).mp read, same.symm⟩
    · rintro ⟨attr, has, rfl⟩
      exact Keyed.mem_keys_of_lookup ((found _ _).mpr ⟨attr, (mem_attrs sound attr).mpr has, rfl, rfl⟩)
  · intro numbers result
    have all : t.numbers attr = numbers := numbers_eq sound attr
    have own : (t.total? how attr).getD .null = result := by
      unfold total?
      rw [all]
    have null := (t.getD_total?_eq_null_iff how attr).trans (t.total?_eq_none_iff how attr)
    rw [numbers_eq_nil_iff sound, all, own] at null
    have read := (mem_attrs sound attr).mpr has
    refine ⟨(found _ _).mpr ⟨attr, read, rfl, own⟩, null, ?_⟩
    rw [List.mem_filter, Option.isNone_iff_eq_none, ← getD_total?_eq_null_iff, own]
    exact and_iff_right read
  · exact (toList_once sound).sublist (List.filter_sublist.map _)
  · rw [List.mem_filter, mem_toList sound, Bool.and_eq_true, Option.isNone_iff_eq_none]
    refine and_congr_right fun _ => and_congr_left fun _ => ?_
    cases r.value <;> simp [Value.isNull]
  · exact (nodup_eraseDups _).filter _
  · exact (mem_attrs sound attr).mp (List.mem_of_mem_filter inside)

/-- Two numbers of one attribute, and a text, a truth and a null that do not count. -/
theorem totals_account_for_readings_meters :
    let t := ofList [⟨"hall", "power", .int 3⟩, ⟨"cellar", "power", .text "n/a"⟩,
      ⟨"hall", "state", .bool true⟩, ⟨"attic", "power", .float 1.5⟩, ⟨"cellar", "level", .null⟩]
    t.Sound ∧ ∃ (fields : List (String × Value)) (strange : List Reading) (lacking : List String),
      t.totals .sum = .record fields ∧
      (t.totalErrors .sum).map (·.message) =
        (strange.map fun r => "Value " ++ r.value.json ++ " of \"" ++ r.node ++ "." ++ r.attr ++
          "\" is not a number") ++
        lacking.map (fun attr => "No numeric values for \"" ++ attr ++ "\"") ∧
      fields.lookup "power_sum" = some ((ofNumber? (-0.0 + 3.0 + 1.5)).getD .null) ∧
      fields.lookup "power_sum" ≠ some .null ∧ "power" ∉ lacking ∧
      fields.lookup "level_sum" = some .null ∧ "level" ∈ lacking ∧
      ⟨"cellar", "power", .text "n/a"⟩ ∈ strange ∧ ⟨"cellar", "level", .null⟩ ∉ strange := by
  intro t
  have sound : t.Sound := sound_ofList _
  obtain ⟨fields, strange, lacking, made, errors, -, -, -, each, -, values, -, -⟩ :=
    totals_account_for_readings sound .sum
  obtain ⟨power, powerNull, powerLacks⟩ := each "power" ⟨"hall", .int 3, by decide⟩
  obtain ⟨level, levelNull, levelLacks⟩ := each "level" ⟨"cellar", .null, by decide⟩
  have numbers : (t.keys.filterMap fun node => (t.value? node "power").bind Value.number?) =
      [3.0, 1.5] := by decide +kernel
  have none : (t.keys.filterMap fun node => (t.value? node "level").bind Value.number?) = [] := by
    decide +kernel
  rw [numbers] at power powerNull powerLacks
  rw [none] at level levelLacks
  have something : ¬((ofNumber? (-0.0 + 3.0 + 1.5)).getD .null = .null) := by
    intro null
    rcases powerNull.mp null with nothing | ⟨x, sum, infinite⟩
    · exact absurd (nothing "hall" (.int 3) (by decide)) (by decide)
    · obtain rfl := Option.some.inj sum
      exact absurd infinite (by decide +kernel)
  refine ⟨sound, fields, strange, lacking, made, errors, power, ?_, ?_, level, levelLacks.mpr rfl,
    (values _).mpr (by decide +kernel), fun inside => ((values _).mp inside).2.1 rfl⟩
  · rw [show fields.lookup "power_sum" = _ from power]
    exact fun same => something (Option.some.inj same)
  · exact fun lacks => something (powerLacks.mp lacks)

end Readings

end HomeControl
