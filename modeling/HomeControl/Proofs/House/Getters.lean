import HomeControl.Proofs.House.Failures
import HomeControl.Proofs.Totals
/-!
Plans that read. Every attribute of a node that is asked for is read once, however often it is asked
for, and every reading is either among the results or has its error.
-/

namespace HomeControl

namespace Readings

theorem ofList_filled (readings : List Reading) {node : String} {fields : List (String × Value)}
    (found : (ofList readings).get? node = some fields) : fields ≠ [] := by
  induction readings using List.reverseRecOn with
  | nil => cases found
  | append_singleton rest r ih =>
    rw [ofList_concat, add, Keyed.get?_insert] at found
    split at found
    · cases found
      intro empty
      have there := Value.lookup_putField r.attr r.attr r.value (((ofList rest).get? r.node).getD [])
      rw [empty, if_pos rfl] at there
      cases there
    · exact ih found

theorem lookup_toValue {t : Readings} (sound : t.Sound) :
    ∃ nodes, t.toValue = .record nodes ∧ Value.Ordered nodes ∧
      ∀ node, nodes.lookup node = (t.get? node).map .record := by
  have keys : (t.entries.map fun e => (e.1, Value.record e.2)).map (·.1) = t.keys := by
    rw [List.map_map]
    rfl
  obtain ⟨nodes, made, ordered, same⟩ :=
    Value.exists_ofFields (by rw [keys]; exact sound.once)
  refine ⟨nodes, made, ordered, fun node => ?_⟩
  rw [same]
  exact Keyed.lookup_map (fun _ fields => Value.record fields) t.entries node

end Readings

def Plan.withoutGetters (p : Plan) : Plan :=
  { p with getters := [], aggregate := none, errors := [] }

namespace State

variable (t : Topology) (depth : Nat)

inductive Calls : State → List (Getter × Except NodeError Value) → State → Prop
  | done (s : State) : Calls s [] s
  | call (s : State) (g : Getter) {answers : List (Getter × Except NodeError Value)} {after : State}
    (later : Calls (s.read t depth g).2 answers after) :
    Calls s ((g, (s.read t depth g).1) :: answers) after

theorem readAll_calls (gs : List Getter) (s : State) :
    let all := s |> readAll t depth gs
    Calls t depth s all.1 all.2 ∧ all.1.map (·.1) = gs := by
  induction gs generalizing s with
  | nil => exact ⟨.done s, rfl⟩
  | cons g rest ih =>
    obtain ⟨later, same⟩ := ih (s.read t depth g).2
    exact ⟨.call s g later, congrArg (g :: ·) same⟩

theorem mem_readingsOf (answers : List (Getter × Except NodeError Value)) (r : Reading) :
    r ∈ readingsOf answers ↔ (⟨r.node, r.attr⟩, .ok r.value) ∈ answers := by
  simp only [readingsOf, List.mem_filterMap]
  constructor
  · rintro ⟨⟨g, answer⟩, inside, own⟩
    cases answer with
    | error e => cases own
    | ok v =>
      cases own
      exact inside
  · intro inside
    exact ⟨_, inside, rfl⟩

theorem readingsOf_once {answers : List (Getter × Except NodeError Value)}
    (once : (answers.map (·.1)).Nodup) :
    ((readingsOf answers).map fun r => (r.node, r.attr)).Nodup := by
  have apart : answers.Pairwise fun a b => a.1 ≠ b.1 := List.pairwise_map.mp once
  refine List.pairwise_map.mpr (List.pairwise_filterMap.mpr (apart.imp ?_))
  rintro ⟨g, answer⟩ ⟨g', answer'⟩ differ r own r' own' same
  cases answer <;> cases own
  cases answer' <;> cases own'
  exact differ (by cases g; cases g'; simpa using same)

theorem lookup_results {answers : List (Getter × Except NodeError Value)}
    (once : (answers.map (·.1)).Nodup) :
    ∃ nodes, (results none (goodReadings answers)).1 = .record nodes ∧
      (nodes.map (·.1)).Nodup ∧
      (∀ node v, nodes.lookup node = some v →
        ∃ fields, v = .record fields ∧ fields ≠ [] ∧ (fields.map (·.1)).Nodup) ∧
      ∀ node attr v,
        (∃ fields, nodes.lookup node = some (.record fields) ∧ fields.lookup attr = some v) ↔
          (⟨node, attr⟩, .ok v) ∈ answers := by
  have sound := Readings.sound_ofList (readingsOf answers)
  obtain ⟨nodes, made, ordered, found⟩ := Readings.lookup_toValue sound
  refine ⟨nodes, made, ordered.once, fun node v there => ?_, fun node attr v => ?_⟩
  · rw [found] at there
    obtain ⟨fields, read, rfl⟩ := Option.map_eq_some_iff.mp there
    exact ⟨fields, rfl, Readings.ofList_filled _ read, (sound.ordered _ _ read).once⟩
  · rw [← mem_readingsOf answers ⟨node, attr, v⟩, ← Readings.value?_ofList (readingsOf_once once)]
    simp only [Readings.value?, found, Option.map_eq_some_iff, Option.bind_eq_some_iff]
    constructor
    · rintro ⟨_, ⟨fields, read, same⟩, there⟩
      cases same
      exact ⟨_, read, there⟩
    · rintro ⟨fields, read, there⟩
      exact ⟨fields, ⟨fields, read, rfl⟩, there⟩

/-- A plan is carried out as its calls that read, and then as what is left of it. -/
theorem execute_after_calls (p : Plan) (s : State) :
    let all := s |> readAll t depth p.getters.eraseDups
    let left := all.2.execute t depth p.withoutGetters
    (s.execute t depth p).2 = left.2 ∧
      (s.execute t depth p).1.errors =
        p.errors.map .plan ++ (all.1.filterMap fun a => errorIn? a.2).map .node ++
          (s.sumErrors t depth p).map .reading ++ left.1.errors := by
  intro all left
  refine ⟨rfl, ?_⟩
  rw [← failedReadings_eq_filterMap]
  rfl

/-- Every attribute of a node that a plan reads is read by one call, in order of its first mention, and
all else is done after these calls. Without sums, the values of the calls that succeed are the results,
and those that fail have an error each. Mentioning an attribute again changes nothing. -/
theorem getters_are_called_once (p : Plan) (s : State) :
    ∃ answers after, Calls t depth s answers after ∧
      (answers.map (·.1)).Nodup ∧ (∀ g, g ∈ answers.map (·.1) ↔ g ∈ p.getters) ∧
      (answers.map (·.1)).Pairwise (fun a b => p.getters.idxOf a < p.getters.idxOf b) ∧
      (s.execute t depth p).2 = (after.execute t depth p.withoutGetters).2 ∧
      (p.aggregate = none →
        (s.execute t depth p).1.errors =
          p.errors.map .plan ++ (answers.filterMap fun a => errorIn? a.2).map .node ++
            (after.execute t depth p.withoutGetters).1.errors ∧
        (p.getters = [] → (s.execute t depth p).1.results = none) ∧
        (p.getters ≠ [] → ∃ nodes, (s.execute t depth p).1.results = some (.record nodes) ∧
          (nodes.map (·.1)).Nodup ∧
          (∀ node v, nodes.lookup node = some v →
            ∃ fields, v = .record fields ∧ fields ≠ [] ∧ (fields.map (·.1)).Nodup) ∧
          ∀ node attr v,
            (∃ fields, nodes.lookup node = some (.record fields) ∧ fields.lookup attr = some v) ↔
              (⟨node, attr⟩, .ok v) ∈ answers)) ∧
      s.execute t depth { p with getters := p.getters.eraseDups } = s.execute t depth p := by
  obtain ⟨calls, called⟩ := readAll_calls t depth p.getters.eraseDups s
  obtain ⟨state, errors⟩ := execute_after_calls t depth p s
  have once := nodup_eraseDups p.getters
  refine ⟨_, _, calls, ?_, ?_, ?_, state, fun plain => ⟨?_, fun none => ?_, fun some => ?_⟩, ?_⟩
  · rwa [called]
  · intro g
    rw [called, List.mem_eraseDups]
  · rw [called]
    exact eraseDups_in_order p.getters
  · rw [errors, sumErrors, plain]
    simp [results]
  · have empty : p.getters.isEmpty = true := by rw [none]; rfl
    simp [execute, empty]
  · have filled : p.getters.isEmpty = false := by simpa using some
    have distinct : ((s |> readAll t depth p.getters.eraseDups).1.map (·.1)).Nodup := by rwa [called]
    obtain ⟨nodes, made, rest⟩ := lookup_results distinct
    refine ⟨nodes, ?_, rest⟩
    rw [← made]
    simp [execute, filled, plain]
  · have again : p.getters.eraseDups.eraseDups = p.getters.eraseDups := eraseDups_of_nodup once
    have empty : p.getters.eraseDups.isEmpty = p.getters.isEmpty := by
      cases p.getters <;> simp [List.eraseDups_cons]
    simp only [execute, again, empty]

theorem getters_are_called_once_pump :
    let bulb : Device := ⟨"bulb", Device.virtualKind, [Attr.state], [Attr.on], false, []⟩
    let motor : Device := ⟨"motor", Device.virtualKind, ["power"], [], true, []⟩
    let t : Topology := ⟨⟨[("bulb", bulb), ("motor", motor)]⟩,
      ⟨[("lamp", ⟨"lamp", bulb, none, none, []⟩), ("pump", ⟨"pump", motor, none, none, []⟩)]⟩,
      .empty, [], .empty, .empty, []⟩
    let p : Plan :=
      { getters := [⟨"lamp", Attr.state⟩, ⟨"pump", "power"⟩, ⟨"lamp", Attr.state⟩,
          ⟨"pump", Attr.online⟩, ⟨"pump", "power"⟩] }
    let s := State.start t ⟨0, 0⟩
    p.aggregate = none ∧ p.getters ≠ [] ∧ (s.execute t 0 p).1.errors.length = 1 ∧
      ∃ answers after, Calls t 0 s answers after ∧ answers.length = 3 ∧
        ∃ nodes, (s.execute t 0 p).1.results = some (.record nodes) ∧
          ∀ node attr v,
            (∃ fields, nodes.lookup node = some (.record fields) ∧ fields.lookup attr = some v) ↔
              (⟨node, attr⟩, .ok v) ∈ answers := by
  intro bulb motor t p s
  have filled : p.getters ≠ [] := by decide
  obtain ⟨answers, after, calls, once, same, -, -, plain, -⟩ := getters_are_called_once t 0 p s
  obtain ⟨-, -, results⟩ := plain rfl
  obtain ⟨nodes, made, -, -, values⟩ := results filled
  have all : (answers.map (·.1)).Perm p.getters.eraseDups :=
    (List.perm_ext_iff_of_nodup once (nodup_eraseDups _)).mpr fun g =>
      (same g).trans List.mem_eraseDups.symm
  have three : answers.length = 3 := by
    rw [← List.length_map (·.1), all.length_eq]
    decide +kernel
  exact ⟨rfl, filled, by decide +kernel, answers, after, calls, three, nodes, made, values⟩

end State

end HomeControl
