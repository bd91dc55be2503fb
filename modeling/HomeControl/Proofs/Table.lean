import HomeControl.Keyed
import Mathlib.Data.List.Induction
import Mathlib.Data.List.Nodup
/-!
Lists without their repetitions, and tables seen through their entries. What stands in a list stands
once in the list without repetitions, in order of first appearance. While no key of a table stands
twice, an entry is what its key gives, and inserting and erasing keep it so.
-/

namespace HomeControl

section

variable {α : Type} [DecidableEq α]

theorem eraseDups_of_nodup {xs : List α} (once : xs.Nodup) : xs.eraseDups = xs := by
  induction xs with
  | nil => rfl
  | cons x rest ih =>
    obtain ⟨fresh, once⟩ := List.nodup_cons.mp once
    have others : rest.filter (fun y => !y == x) = rest := by
      refine List.filter_eq_self.mpr fun y inside => ?_
      simpa using fun same : y = x => fresh (same ▸ inside)
    rw [List.eraseDups_cons, others, ih once]

theorem eraseDups_concat (xs : List α) (x : α) :
    (xs ++ [x]).eraseDups = if x ∈ xs.eraseDups then xs.eraseDups else xs.eraseDups ++ [x] := by
  rw [List.eraseDups_append]
  by_cases known : x ∈ xs
  · simp [List.removeAll, known]
  · have single : [x].eraseDups = [x] := rfl
    simp [List.removeAll, known, single]

theorem eraseDups_in_order (xs : List α) :
    xs.eraseDups.Pairwise fun a b => xs.idxOf a < xs.idxOf b := by
  induction xs using List.reverseRecOn with
  | nil => exact List.Pairwise.nil
  | append_singleton xs x ih =>
    have before : xs.eraseDups.Pairwise fun a b => (xs ++ [x]).idxOf a < (xs ++ [x]).idxOf b := by
      refine List.Pairwise.imp_of_mem (fun {a b} insideA insideB earlier => ?_) ih
      rwa [List.idxOf_append_of_mem (List.mem_eraseDups.mp insideA),
        List.idxOf_append_of_mem (List.mem_eraseDups.mp insideB)]
    rw [eraseDups_concat]
    split
    · exact before
    · rename_i fresh
      refine List.pairwise_append.mpr ⟨before, List.pairwise_singleton _ _, fun a inside b last => ?_⟩
      obtain rfl := List.mem_singleton.mp last
      have known : a ∈ xs := List.mem_eraseDups.mp inside
      have unknown : b ∉ xs := fun again => fresh (List.mem_eraseDups.mpr again)
      rw [List.idxOf_append_of_mem known, List.idxOf_append_of_notMem unknown]
      exact Nat.lt_add_right _ (List.idxOf_lt_length_of_mem known)

theorem nodup_eraseDups (xs : List α) : xs.eraseDups.Nodup := by
  refine (eraseDups_in_order xs).imp fun {a b} earlier same => ?_
  rw [same] at earlier
  exact Nat.lt_irrefl _ earlier

end

namespace Keyed

variable {κ ν : Type} [DecidableEq κ]

theorem get?_empty (key : κ) : (empty : Keyed κ ν).get? key = none := rfl

theorem keys_put (key : κ) (value : ν) (l : List (κ × ν)) :
    (put key value l).map (·.1) =
      if key ∈ l.map (·.1) then l.map (·.1) else l.map (·.1) ++ [key] := by
  induction l with
  | nil => simp [put]
  | cons e rest ih =>
    obtain ⟨k, v⟩ := e
    by_cases hk : k = key
    · simp [put, hk]
    · have hk' : key ≠ k := fun h => hk h.symm
      simp only [put, hk, if_false, List.map_cons, ih, List.mem_cons, hk', false_or]
      split <;> rfl

theorem put_of_fresh {key : κ} {value : ν} {l : List (κ × ν)} (fresh : key ∉ l.map (·.1)) :
    put key value l = l ++ [(key, value)] := by
  induction l with
  | nil => rfl
  | cons e rest ih =>
    obtain ⟨k, v⟩ := e
    rw [List.map_cons, List.mem_cons, not_or] at fresh
    rw [put, if_neg (Ne.symm fresh.1), ih fresh.2, List.cons_append]

theorem entries_foldl_insert {l : List (κ × ν)} {t : Keyed κ ν}
    (nodup : ((t.entries ++ l).map (·.1)).Nodup) :
    (l.foldl (fun t e => t.insert e.1 e.2) t).entries = t.entries ++ l := by
  induction l generalizing t with
  | nil => simp
  | cons e rest ih =>
    have fresh : e.1 ∉ t.entries.map (·.1) := by
      rw [List.map_append, List.nodup_append] at nodup
      exact fun inside => nodup.2.2 e.1 inside e.1 List.mem_cons_self rfl
    have next : (t.insert e.1 e.2).entries = t.entries ++ [e] := put_of_fresh fresh
    have whole : (t.insert e.1 e.2).entries ++ rest = t.entries ++ e :: rest := by
      rw [next, List.append_assoc, List.singleton_append]
    rw [List.foldl_cons, ih (by rw [whole]; exact nodup), whole]

theorem entries_ofList {l : List (κ × ν)} (nodup : (l.map (·.1)).Nodup) :
    (ofList l).entries = l :=
  entries_foldl_insert nodup

theorem keys_ofList {l : List (κ × ν)} (nodup : (l.map (·.1)).Nodup) :
    (ofList l).keys = l.map (·.1) := by
  rw [keys, entries_ofList nodup]

theorem nodup_insert {t : Keyed κ ν} (nodup : t.keys.Nodup) (key : κ) (value : ν) :
    (t.insert key value).keys.Nodup := by
  simp only [keys, insert, keys_put]
  split
  · exact nodup
  · rename_i absent
    exact List.nodup_append.mpr ⟨nodup, by simp, by
      intro k hk k' hk' same
      exact absent (List.mem_singleton.mp hk' ▸ same ▸ hk)⟩

theorem nodup_erase {t : Keyed κ ν} (nodup : t.keys.Nodup) (key : κ) :
    (t.erase key).keys.Nodup :=
  nodup.sublist (List.filter_sublist.map _)

theorem get?_modify (t : Keyed κ ν) (key other : κ) (f : ν → ν) :
    (t.modify key f).get? other = if key = other then (t.get? other).map f else t.get? other := by
  unfold modify
  split
  · rename_i v found
    rw [get?_insert]
    by_cases same : key = other
    · rw [if_pos same, if_pos same, ← same, found, Option.map_some]
    · rw [if_neg same, if_neg same]
  · rename_i absent
    by_cases same : key = other
    · rw [if_pos same, ← same, absent, Option.map_none]
    · rw [if_neg same]

theorem keys_modify (t : Keyed κ ν) (key : κ) (f : ν → ν) : (t.modify key f).keys = t.keys := by
  unfold modify
  split
  · rename_i found
    exact (keys_put ..).trans (if_pos (mem_keys_of_get? found))
  · rfl

theorem mem_entries_of_get? {t : Keyed κ ν} {key : κ} {v : ν} (h : t.get? key = some v) :
    (key, v) ∈ t.entries := by
  obtain ⟨before, after, split, _⟩ := List.lookup_eq_some_iff.mp h
  rw [split]
  exact List.mem_append_right _ List.mem_cons_self

theorem lookup_of_mem {key : κ} {v : ν} :
    {l : List (κ × ν)} → (l.map (·.1)).Nodup → (key, v) ∈ l → l.lookup key = some v
  | (k, w) :: rest, nodup, h => by
    obtain ⟨fresh, nodup⟩ := List.nodup_cons.mp nodup
    rw [lookup_cons]
    rcases List.mem_cons.mp h with same | later
    · cases same
      rw [if_pos rfl]
    · have hk : k ≠ key := by
        intro same
        exact fresh (List.mem_map.mpr ⟨_, later, same.symm⟩)
      rw [if_neg hk]
      exact lookup_of_mem nodup later

theorem lookup_of_fresh {key : κ} {l : List (κ × ν)} (fresh : key ∉ l.map (·.1)) :
    l.lookup key = none :=
  Option.eq_none_iff_forall_ne_some.mpr fun _ found => fresh (mem_keys_of_lookup found)

theorem lookup_map {μ : Type} (f : κ → ν → μ) (l : List (κ × ν)) (key : κ) :
    (l.map fun e => (e.1, f e.1 e.2)).lookup key = (l.lookup key).map (f key) := by
  induction l with
  | nil => rfl
  | cons e rest ih =>
    obtain ⟨k, v⟩ := e
    rw [List.map_cons, lookup_cons, lookup_cons, ih]
    split
    · rename_i same
      subst same
      rfl
    · rfl

theorem mem_entries_iff {t : Keyed κ ν} (nodup : t.keys.Nodup) {key : κ} {v : ν} :
    (key, v) ∈ t.entries ↔ t.get? key = some v :=
  ⟨lookup_of_mem nodup, mem_entries_of_get?⟩

theorem isSome_foldl {α σ : Type} (view : σ → Keyed κ ν) {step : σ → α → σ} {key : α → κ}
    {xs : List α} (inserts : ∀ x ∈ xs, ∀ s, ∃ v, view (step s x) = (view s).insert (key x) v) {k : κ}
    (s : σ) (there : k ∈ xs.map key ∨ ((view s).get? k).isSome = true) :
    ((view (xs.foldl step s)).get? k).isSome = true := by
  induction xs generalizing s with
  | nil => exact there.resolve_left List.not_mem_nil
  | cons x rest ih =>
    obtain ⟨now, later⟩ := List.forall_mem_cons.mp inserts
    refine ih later (step s x) ?_
    obtain ⟨v, inserted⟩ := now s
    rw [inserted, get?_insert]
    by_cases own : key x = k
    · rw [if_pos own]
      exact Or.inr rfl
    · rw [if_neg own]
      exact there.imp_left fun among => (List.mem_cons.mp among).resolve_left (Ne.symm own)

theorem get?_ofList_map {α : Type} {key : α → κ} {xs : List α} (unique : (xs.map key).Nodup)
    {k : κ} {x : α} : (ofList (xs.map fun x => (key x, x))).get? k = some x ↔ x ∈ xs ∧ key x = k := by
  have keys : (xs.map fun x => (key x, x)).map (·.1) = xs.map key := by
    rw [List.map_map]
    rfl
  have once : ((xs.map fun x => (key x, x)).map (·.1)).Nodup := by
    rw [keys]
    exact unique
  have nodup : (ofList (xs.map fun x => (key x, x))).keys.Nodup := by
    rw [keys_ofList once]
    exact once
  rw [← mem_entries_iff nodup, entries_ofList once, List.mem_map]
  constructor
  · rintro ⟨y, inside, same⟩
    cases same
    exact ⟨inside, rfl⟩
  · rintro ⟨inside, rfl⟩
    exact ⟨x, inside, rfl⟩

end Keyed

end HomeControl
