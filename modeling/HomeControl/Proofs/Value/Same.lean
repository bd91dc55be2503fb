import HomeControl.Value
import Mathlib
/-!
Equality of values as the program tests it. Values that are equal in this way are equal to the same
values. A float that is no number is not even equal to itself, so identical values are counted in where
that matters.
-/

namespace HomeControl.Value

/-- Equal floats are identical or the two zeros, and no float is told from them by only one. -/
theorem float_congr {x y : Float} (h : (x == y) = true) (z : Float) : (x == z) = (y == z) := by
  have equal : ∀ a b : Float, (a == b) = a.toModel.unpack.beq b.toModel.unpack := fun _ _ => rfl
  rw [equal, Float.Model.UnpackedFloat.beq_iff_ne_notANumber_and_eq] at h
  rw [equal, equal, Bool.eq_iff_iff, Float.Model.UnpackedFloat.beq_iff_ne_notANumber_and_eq,
    Float.Model.UnpackedFloat.beq_iff_ne_notANumber_and_eq]
  grind

mutual

theorem same_congr {a b : Value} (h : a.same b = true) (c : Value) : a.same c = b.same c := by
  cases a with
  | list items =>
    cases b with
    | list others =>
      cases c with
      | list more =>
        simp only [same] at h ⊢
        exact sameItems_congr h more
      | _ => rfl
    | _ => cases h
  | record fields =>
    cases b with
    | record others =>
      cases c with
      | record more =>
        simp only [same] at h ⊢
        exact sameFields_congr h more
      | _ => rfl
    | _ => cases h
  | float x =>
    cases b with
    | float y =>
      cases c with
      | float z =>
        simp only [same] at h ⊢
        exact float_congr h z
      | _ => rfl
    | _ => cases h
  | text s =>
    cases b with
    | text s' =>
      simp only [same, beq_iff_eq] at h
      rw [h]
    | _ => cases h
  | int n =>
    cases b with
    | int n' =>
      simp only [same, beq_iff_eq] at h
      rw [h]
    | _ => cases h
  | bool on =>
    cases b with
    | bool on' =>
      simp only [same, beq_iff_eq] at h
      rw [h]
    | _ => cases h
  | null =>
    cases b with
    | null => rfl
    | _ => cases h
termination_by structural a

theorem sameItems_congr {as bs : List Value} (h : sameItems as bs = true) (cs : List Value) :
    sameItems as cs = sameItems bs cs := by
  cases as with
  | nil =>
    cases bs with
    | nil => rfl
    | cons b bs => cases h
  | cons a as =>
    cases bs with
    | nil => cases h
    | cons b bs =>
      cases cs with
      | nil => rfl
      | cons c cs =>
        simp only [sameItems, Bool.and_eq_true] at h ⊢
        rw [same_congr h.1 c, sameItems_congr h.2 cs]
termination_by structural as

theorem sameFields_congr {as bs : List (String × Value)} (h : sameFields as bs = true)
    (cs : List (String × Value)) : sameFields as cs = sameFields bs cs := by
  cases as with
  | nil =>
    cases bs with
    | nil => rfl
    | cons other bs => cases h
  | cons field as =>
    obtain ⟨key, a⟩ := field
    cases bs with
    | nil => cases h
    | cons other bs =>
      cases cs with
      | nil => rfl
      | cons more cs =>
        simp only [sameFields, Bool.and_eq_true, beq_iff_eq] at h ⊢
        rw [h.1.1, same_congr h.1.2 more.2, sameFields_congr h.2 cs]
termination_by structural as

end

def Agrees (a b : Value) : Prop :=
  a = b ∨ a.same b = true

theorem Agrees.same_eq {a b : Value} (h : a.Agrees b) (c : Value) : a.same c = b.same c := by
  rcases h with rfl | h
  · rfl
  · exact same_congr h c

end HomeControl.Value
