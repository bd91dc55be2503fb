import HomeControl.Proofs.Config.Checked
import HomeControl.Proofs.Table
import Mathlib.Data.List.Forall2
/-!
Timers and the entries that they are made of. The entries of one id make up one timer, with the
events of all of them in order, which is strict if one of them is.
-/

namespace HomeControl

theorem exists_of_forall₂ {α β : Type} {related : α → β → Prop} {xs : List α} {ys : List β}
    (each : List.Forall₂ related xs ys) {x : α} (inside : x ∈ xs) : ∃ y ∈ ys, related x y := by
  induction each with
  | nil => exact absurd inside List.not_mem_nil
  | cons first _ ih =>
    rcases List.mem_cons.mp inside with rfl | later
    · exact ⟨_, List.mem_cons_self, first⟩
    · obtain ⟨y, among, found⟩ := ih later
      exact ⟨y, List.mem_cons_of_mem _ among, found⟩

namespace TimerDef

def Read (written : String × String) (read : TimeSpec × String) : Prop :=
  TimeSpec.parse written.1 = .ok read.1 ∧ written.2 = read.2

/-- What some entries of one id add up to. -/
structure Merges (entries : List TimerConfig) (t : TimerDef) : Prop where
  node : ∀ e ∈ entries, e.node = t.node
  strict : t.strict = entries.any (·.strict)
  events : List.Forall₂ Read (entries.flatMap (·.events)) t.events

theorem addEvents_clean {id : String} {events : List (String × String)} {t : TimerDef}
    {errors : List ConfigError} (clean : (events.foldl (addEvent id) (t, errors)).2 = []) :
    errors = [] ∧ ∃ read, List.Forall₂ Read events read ∧
      (events.foldl (addEvent id) (t, errors)).1 = { t with events := t.events ++ read } := by
  induction events generalizing t errors with
  | nil => exact ⟨clean, [], .nil, by rw [List.append_nil]; rfl⟩
  | cons event rest ih =>
    rw [List.foldl_cons] at clean ⊢
    cases parsed : TimeSpec.parse event.1 with
    | ok spec =>
      have added : addEvent id (t, errors) event =
          ({ t with events := t.events ++ [(spec, event.2)] }, errors) := by
        simp only [addEvent, parsed]
      rw [added] at clean ⊢
      obtain ⟨none, read, each, made⟩ := ih clean
      refine ⟨none, (spec, event.2) :: read, .cons ⟨parsed, rfl⟩ each, made.trans ?_⟩
      rw [List.append_assoc, List.singleton_append]
    | error e =>
      have refused : addEvent id (t, errors) event =
          (t, errors ++ [.invalidValue ("timers." ++ id) e.message]) := by
        simp only [addEvent, parsed]
      rw [refused] at clean
      exact absurd (ih clean).1 (List.append_ne_nil_of_right_ne_nil _ (List.cons_ne_nil _ _))

structure Made (entries : List TimerConfig) (p : Progress) : Prop where
  once : p.timers.keys.Nodup
  ids : p.timers.keys = (entries.map (·.id)).eraseDups
  timer : ∀ id t, p.timers.get? id = some t →
    t.id = id ∧ t.Merges (entries.filter (·.id = id))

theorem Merges.nothing {entries : List TimerConfig} {e : TimerConfig} (own : entries = []) :
    (⟨e.id, e.node, false, []⟩ : TimerDef).Merges entries := by
  subst own
  exact ⟨List.forall_mem_nil _, rfl, .nil⟩

theorem Merges.concat {entries : List TimerConfig} {t : TimerDef} (h : t.Merges entries)
    {e : TimerConfig} (node : t.node = e.node) {read : List (TimeSpec × String)}
    (each : List.Forall₂ Read e.events read) :
    ({ t with strict := t.strict || e.strict, events := t.events ++ read } : TimerDef).Merges
      (entries ++ [e]) where
  node x inside := by
    rcases List.mem_append.mp inside with before | last
    · exact h.node x before
    · rw [List.mem_singleton.mp last]
      exact node.symm
  strict := by simp [h.strict]
  events := by
    rw [List.flatMap_append, List.flatMap_singleton]
    exact List.rel_append h.events each

theorem Made.start {front : List TimerConfig} {p : Progress} (made : Made front p)
    {e : TimerConfig} {t : TimerDef}
    (start : t = (p.timers.get? e.id).getD ⟨e.id, e.node, e.strict, []⟩) :
    t.id = e.id ∧ ∃ strict, ({ t with strict := strict } : TimerDef).Merges
        (front.filter (·.id = e.id)) ∧ (t.strict || e.strict) = (strict || e.strict) := by
  cases found : p.timers.get? e.id with
  | some u =>
    rw [found, Option.getD_some] at start
    subst start
    obtain ⟨id, merges⟩ := made.timer e.id t found
    exact ⟨id, t.strict, merges, rfl⟩
  | none =>
    rw [found, Option.getD_none] at start
    subst start
    have absent : e.id ∉ front.map (·.id) := by
      rw [← List.mem_eraseDups, ← made.ids]
      intro known
      obtain ⟨x, inside, own⟩ := List.mem_map.mp known
      simpa [own] using List.lookup_eq_none_iff.mp found x inside
    refine ⟨rfl, false, Merges.nothing ?_, by simp⟩
    refine List.filter_eq_nil_iff.mpr fun x inside own => absent ?_
    exact List.mem_map.mpr ⟨x, inside, of_decide_eq_true own⟩

theorem addEntry_made {front : List TimerConfig} {p : Progress} {e : TimerConfig}
    (before : p.errors = [] → Made front p) (clean : (addEntry p e).errors = []) :
    Made (front ++ [e]) (addEntry p e) := by
  simp only [addEntry] at clean ⊢
  generalize start : (p.timers.get? e.id).getD ⟨e.id, e.node, e.strict, []⟩ = t at clean ⊢
  by_cases node : t.node = e.node
  · rw [if_pos node] at clean ⊢
    obtain ⟨none, read, each, summed⟩ := addEvents_clean clean
    have made := before none
    obtain ⟨id, strict, merges, same⟩ := made.start start.symm
    rw [summed]
    refine ⟨Keyed.nodup_insert made.once _ _, ?_, ?_⟩
    · simp only [Keyed.keys, Keyed.insert, Keyed.keys_put, List.map_append, List.map_singleton]
      rw [show p.timers.entries.map (·.1) = _ from made.ids, eraseDups_concat]
    · intro other u found
      rw [Keyed.get?_insert] at found
      by_cases own : e.id = other
      · subst own
        rw [if_pos rfl] at found
        cases found
        refine ⟨id, ?_⟩
        rw [List.filter_append, List.filter_singleton, same]
        simpa using merges.concat node each
      · rw [if_neg own] at found
        obtain ⟨id, merges⟩ := made.timer other u found
        refine ⟨id, ?_⟩
        rw [List.filter_append, List.filter_singleton]
        simpa [own] using merges
  · rw [if_neg node] at clean
    exact absurd clean (List.append_ne_nil_of_right_ne_nil _ (List.cons_ne_nil _ _))

theorem addEntries_made {entries : List TimerConfig}
    (clean : (entries.foldl addEntry ⟨.empty, []⟩).errors = []) :
    Made entries (entries.foldl addEntry ⟨.empty, []⟩) := by
  induction entries using List.reverseRecOn with
  | nil => exact ⟨List.nodup_nil, rfl, nofun⟩
  | append_singleton front e ih =>
    rw [List.foldl_append] at clean ⊢
    exact addEntry_made ih clean

/-- The timers of accepted entries: each id once, in order of first appearance, and under each the
sum of its entries. -/
theorem merges_ofEntries {entries : List TimerConfig} {timers : List TimerDef}
    (accepted : ofEntries entries = .ok timers) :
    timers.map (·.id) = (entries.map (·.id)).eraseDups ∧
      ∀ t ∈ timers, t.Merges (entries.filter (·.id = t.id)) := by
  obtain ⟨clean, rfl⟩ := ConfigError.orElse_eq_ok.mp accepted
  have made := addEntries_made clean
  have under : ∀ x ∈ (entries.foldl addEntry ⟨.empty, []⟩).timers.entries,
      x.2.id = x.1 ∧ x.2.Merges (entries.filter (·.id = x.1)) := fun x inside =>
    made.timer x.1 x.2 ((Keyed.mem_entries_iff made.once).mp inside)
  refine ⟨?_, fun t inside => ?_⟩
  · rw [← made.ids, Keyed.values, Keyed.keys, List.map_map]
    exact List.map_congr_left fun x inside => (under x inside).1
  · obtain ⟨x, there, rfl⟩ := List.mem_map.mp inside
    rw [(under x there).1]
    exact (under x there).2

end TimerDef

end HomeControl
