/-!
Tables in order of first insertion. A key stands at most once; a later value for it takes the
place of the earlier one.
-/

namespace HomeControl

structure Keyed (κ ν : Type) where
  entries : List (κ × ν)
  deriving DecidableEq, Repr

namespace Keyed

variable {κ ν μ : Type} [DecidableEq κ]

def empty : Keyed κ ν := ⟨[]⟩

instance : Inhabited (Keyed κ ν) := ⟨empty⟩

def put (key : κ) (value : ν) : List (κ × ν) → List (κ × ν)
  | [] => [(key, value)]
  | (k, v) :: rest => if k = key then (key, value) :: rest else (k, v) :: put key value rest

def get? (t : Keyed κ ν) (key : κ) : Option ν :=
  t.entries.lookup key

def contains (t : Keyed κ ν) (key : κ) : Bool :=
  (t.get? key).isSome

def insert (t : Keyed κ ν) (key : κ) (value : ν) : Keyed κ ν :=
  ⟨put key value t.entries⟩

def erase (t : Keyed κ ν) (key : κ) : Keyed κ ν :=
  ⟨t.entries.filter fun e => !decide (e.1 = key)⟩

def modify (t : Keyed κ ν) (key : κ) (f : ν → ν) : Keyed κ ν :=
  match t.get? key with
  | some v => t.insert key (f v)
  | none => t

def keys (t : Keyed κ ν) : List κ :=
  t.entries.map (·.1)

def values (t : Keyed κ ν) : List ν :=
  t.entries.map (·.2)

def isEmpty (t : Keyed κ ν) : Bool :=
  t.entries.isEmpty

def ofList (entries : List (κ × ν)) : Keyed κ ν :=
  entries.foldl (fun t e => t.insert e.1 e.2) empty

theorem lookup_cons (key other : κ) (value : ν) (l : List (κ × ν)) :
    ((key, value) :: l).lookup other = if key = other then some value else l.lookup other := by
  by_cases h : key = other
  · simp [h]
  · rw [List.lookup_cons, beq_eq_false_iff_ne.mpr (Ne.symm h), if_neg h]

theorem lookup_put (key other : κ) (value : ν) (l : List (κ × ν)) :
    (put key value l).lookup other = if key = other then some value else l.lookup other := by
  induction l with
  | nil => simp [put, lookup_cons]
  | cons e rest ih =>
    obtain ⟨k, v⟩ := e
    by_cases hk : k = key
    · subst hk
      by_cases ho : k = other <;> simp [put, lookup_cons, ho]
    · by_cases ho : k = other
      · subst ho
        simp [put, hk, Ne.symm hk]
      · simp [put, lookup_cons, hk, ho, ih]

theorem get?_insert (t : Keyed κ ν) (key other : κ) (value : ν) :
    (t.insert key value).get? other = if key = other then some value else t.get? other :=
  lookup_put key other value t.entries

theorem lookup_filter_ne (key other : κ) (l : List (κ × ν)) :
    (l.filter fun e => !decide (e.1 = key)).lookup other =
      if key = other then none else l.lookup other := by
  induction l with
  | nil => simp
  | cons e rest ih =>
    obtain ⟨k, v⟩ := e
    by_cases hk : k = key
    · subst hk
      rw [List.filter_cons_of_neg (by simp), ih]
      by_cases ho : k = other <;> simp [lookup_cons, ho]
    · by_cases ho : k = other
      · subst ho
        simp [hk, Ne.symm hk]
      · simp [lookup_cons, hk, ho, ih]

theorem get?_erase (t : Keyed κ ν) (key other : κ) :
    (t.erase key).get? other = if key = other then none else t.get? other :=
  lookup_filter_ne key other t.entries

theorem mem_keys_of_lookup {key : κ} {v : ν} :
    {l : List (κ × ν)} → l.lookup key = some v → key ∈ l.map (·.1)
  | (k, w) :: rest, h => by
    by_cases hk : k = key
    · simp [hk]
    · rw [lookup_cons, if_neg hk] at h
      exact List.mem_cons_of_mem _ (mem_keys_of_lookup h)

theorem mem_keys_of_get? {t : Keyed κ ν} {key : κ} {v : ν} (h : t.get? key = some v) :
    key ∈ t.keys :=
  mem_keys_of_lookup h

def unvisited (t : Keyed κ ν) (path : List κ) : List κ :=
  t.keys.filter fun k => !decide (k ∈ path)

/-- A walk that never returns to a key of its path comes to an end. -/
theorem unvisited_cons_lt {t : Keyed κ ν} {path : List κ} {key : κ} {v : ν} (fresh : key ∉ path)
    (found : t.get? key = some v) :
    (t.unvisited (key :: path)).length < (t.unvisited path).length := by
  have hsub : t.unvisited (key :: path) =
      (t.unvisited path).filter fun k => !decide (k = key) := by
    simp only [unvisited, List.filter_filter]
    apply List.filter_congr
    intro x _
    by_cases hx : x = key <;> simp [hx]
  rw [hsub]
  apply List.length_filter_lt_length_iff_exists.mpr
  exact ⟨key, by simp [unvisited, mem_keys_of_get? found, fresh], by simp⟩

end Keyed

end HomeControl
