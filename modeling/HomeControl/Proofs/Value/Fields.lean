import HomeControl.Proofs.Table
import HomeControl.Value
import Mathlib.Data.String.Basic
/-!
Records field by field. Their fields are in order of the keys, none of which stands twice, and a field
that is put into a record is found under its key.
-/

namespace HomeControl.Value

def Ordered (fields : List (String × Value)) : Prop :=
  (fields.map (·.1)).Pairwise (· < ·)

theorem ordered_nil : Ordered [] :=
  List.Pairwise.nil

theorem Ordered.once {fields : List (String × Value)} (h : Ordered fields) :
    (fields.map (·.1)).Nodup :=
  h.imp ne_of_lt

theorem lookup_putField (key other : String) (v : Value) (l : List (String × Value)) :
    (putField key v l).lookup other = if key = other then some v else l.lookup other := by
  induction l with
  | nil => simp [putField, Keyed.lookup_cons]
  | cons e rest ih =>
    obtain ⟨k, w⟩ := e
    simp only [putField]
    split
    · exact Keyed.lookup_cons key other v _
    · split
      · rename_i same
        subst same
        by_cases ho : key = other <;> simp [Keyed.lookup_cons, ho]
      · rename_i differs
        simp only [Keyed.lookup_cons, ih]
        by_cases ho : key = other
        · subst ho
          simp [Ne.symm differs]
        · simp [ho]

theorem keys_putField {key other : String} {v : Value} {l : List (String × Value)}
    (inside : other ∈ (putField key v l).map (·.1)) : other = key ∨ other ∈ l.map (·.1) := by
  induction l with
  | nil => exact Or.inl (List.mem_singleton.mp inside)
  | cons e rest ih =>
    obtain ⟨k, w⟩ := e
    simp only [putField] at inside
    split at inside
    · exact List.mem_cons.mp inside
    · split at inside
      · exact (List.mem_cons.mp inside).imp_right (List.mem_cons_of_mem _)
      · rcases List.mem_cons.mp inside with rfl | later
        · exact Or.inr List.mem_cons_self
        · exact (ih later).imp_right (List.mem_cons_of_mem _)

theorem Ordered.putField {l : List (String × Value)} (h : Ordered l) (key : String) (v : Value) :
    Ordered (putField key v l) := by
  induction l with
  | nil => exact List.pairwise_singleton _ _
  | cons e rest ih =>
    obtain ⟨k, w⟩ := e
    obtain ⟨first, others⟩ := List.pairwise_cons.mp h
    simp only [Value.putField]
    split
    · rename_i before
      refine List.pairwise_cons.mpr ⟨List.forall_mem_cons.mpr ⟨before, ?_⟩, h⟩
      exact fun other inside => before.trans (first other inside)
    · split
      · rename_i same
        subst same
        exact h
      · rename_i after differs
        refine List.pairwise_cons.mpr ⟨fun other inside => ?_, ih others⟩
        rcases keys_putField inside with rfl | later
        · exact lt_of_le_of_ne (not_lt.mp after) (Ne.symm differs)
        · exact first other later

theorem ordered_foldl (fields : List (String × Value)) {l : List (String × Value)} (h : Ordered l) :
    Ordered (fields.foldl (fun acc e => putField e.1 e.2 acc) l) := by
  induction fields generalizing l with
  | nil => exact h
  | cons e rest ih => exact ih (h.putField e.1 e.2)

theorem lookup_foldl {fields : List (String × Value)} (once : (fields.map (·.1)).Nodup)
    (l : List (String × Value)) (key : String) :
    (fields.foldl (fun acc e => putField e.1 e.2 acc) l).lookup key =
      (fields.lookup key).or (l.lookup key) := by
  induction fields generalizing l with
  | nil => rfl
  | cons e rest ih =>
    obtain ⟨k, v⟩ := e
    obtain ⟨fresh, once⟩ := List.nodup_cons.mp once
    rw [List.foldl_cons, ih once, lookup_putField, Keyed.lookup_cons]
    by_cases same : k = key
    · subst same
      rw [if_pos rfl, if_pos rfl, Keyed.lookup_of_fresh fresh, Option.none_or, Option.some_or]
    · rw [if_neg same, if_neg same]

theorem exists_ofFields {fields : List (String × Value)} (once : (fields.map (·.1)).Nodup) :
    ∃ placed, ofFields fields = .record placed ∧ Ordered placed ∧
      ∀ key, placed.lookup key = fields.lookup key :=
  ⟨_, rfl, ordered_foldl fields ordered_nil, fun key =>
    (lookup_foldl once [] key).trans (Option.or_none ..)⟩

end HomeControl.Value
