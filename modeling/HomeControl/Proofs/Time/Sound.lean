import HomeControl.Proofs.Text
import HomeControl.Time.Spec
/-!
Times as they are read. Whatever the text of a time, a leap second ends a minute, and an offset from a
sun event is no longer than a day.
-/

namespace HomeControl

open Text

structure TimeOfDay.Sound (t : TimeOfDay) : Prop where
  within : t.seconds < 86400
  short : t.nanos < 2000000000
  leap : 1000000000 ≤ t.nanos → t.seconds % 60 = 59

namespace TimeOfDay

theorem ofParts?_sound {t : TimeOfDay} {hour minute second : Nat}
    (h : ofParts? hour minute second = some t) :
    t.Sound ∧ t.nanos % 1000000000 = 0 := by
  unfold ofParts? at h
  split at h
  · rename_i parts
    simp only [Bool.and_eq_true, decide_eq_true_eq] at parts
    split at h
    · cases h
      exact ⟨⟨by simp only; omega, by simp only; omega, fun _ => by simp only; omega⟩,
        Nat.mod_self 1000000000⟩
    · cases h
      exact ⟨⟨by simp only; omega, by simp only; omega, nofun⟩, Nat.zero_mod 1000000000⟩
  · cases h

end TimeOfDay

structure Instant.Sound (i : Instant) : Prop where
  short : i.nanos < 2000000000
  leap : 1000000000 ≤ i.nanos → i.seconds % 60 = 59

namespace TimeSpec

theorem digits?_eq_some {least most : Nat} {cs ds rest : List Char}
    (h : digits? least most cs = some (ds, rest)) :
    ds.length ≤ most ∧ ∀ c ∈ ds, c.isDigit = true := by
  unfold digits? at h
  simp only at h
  split at h
  · cases h
  · cases h
    refine ⟨?_, List.all_eq_true.mp List.all_takeWhile⟩
    exact Nat.le_trans (List.takeWhile_prefix _).length_le (List.length_take_le most cs)

theorem fraction?_lt {cs rest : List Char} {n : Nat} (h : fraction? cs = some (n, rest)) :
    n < 1000000000 := by
  unfold fraction? at h
  split at h
  · obtain ⟨⟨ds, more⟩, cut, same⟩ := Option.bind_eq_some_iff.mp h
    obtain ⟨short, digits⟩ := digits?_eq_some cut
    have small : digitsValue ds < 10 ^ ds.length := scriptValue_ascii digits ▸ scriptValue_lt ds
    cases same
    calc digitsValue ds * 10 ^ (9 - ds.length)
        < 10 ^ ds.length * 10 ^ (9 - ds.length) :=
          Nat.mul_lt_mul_of_pos_right small (Nat.pow_pos (by decide))
      _ = 1000000000 := by rw [← Nat.pow_add, Nat.add_sub_cancel' short]
  · cases h
    decide

theorem offset?_minutes {cs rest : List Char} {offset : Int}
    (h : offset? cs = some (offset, rest)) : offset % 60 = 0 := by
  unfold offset? at h
  split at h
  · cases h
  · split at h
    · cases h
      rfl
    · split at h
      · obtain ⟨⟨hours, cs₁⟩, -, h⟩ := Option.bind_eq_some_iff.mp h
        obtain ⟨cs₂, -, h⟩ := Option.bind_eq_some_iff.mp h
        obtain ⟨⟨minutes, cs₃⟩, -, h⟩ := Option.bind_eq_some_iff.mp h
        simp only at h
        split at h
        · cases h
          split <;> omega
        · cases h
      · cases h

theorem dated?_eq_some {cs : List Char} {i : Instant} (h : dated? cs = some i) :
    ∃ hour minute second date time behind nanos last offset rest,
      TimeOfDay.ofParts? hour minute second = some time ∧
        fraction? behind = some (nanos, last) ∧ offset? last = some (offset, rest) ∧
        i = LocalTime.instant ⟨date, ⟨time.seconds, time.nanos + nanos⟩⟩ offset := by
  unfold dated? at h
  obtain ⟨⟨year, cs₁⟩, -, h⟩ := Option.bind_eq_some_iff.mp h
  obtain ⟨cs₂, -, h⟩ := Option.bind_eq_some_iff.mp h
  obtain ⟨⟨month, cs₃⟩, -, h⟩ := Option.bind_eq_some_iff.mp h
  obtain ⟨cs₄, -, h⟩ := Option.bind_eq_some_iff.mp h
  obtain ⟨⟨day, cs₅⟩, -, h⟩ := Option.bind_eq_some_iff.mp h
  simp only at h
  -- The rest is the same behind each of the marks that may stand between date and time.
  split at h
  all_goals
    obtain ⟨cs₆, -, h⟩ := Option.bind_eq_some_iff.mp h
    obtain ⟨⟨hour, cs₇⟩, -, h⟩ := Option.bind_eq_some_iff.mp h
    obtain ⟨cs₈, -, h⟩ := Option.bind_eq_some_iff.mp h
    obtain ⟨⟨minute, cs₉⟩, -, h⟩ := Option.bind_eq_some_iff.mp h
    obtain ⟨cs₁₀, -, h⟩ := Option.bind_eq_some_iff.mp h
    obtain ⟨⟨second, cs₁₁⟩, -, h⟩ := Option.bind_eq_some_iff.mp h
    obtain ⟨⟨nanos, cs₁₂⟩, part, h⟩ := Option.bind_eq_some_iff.mp h
    obtain ⟨⟨offset, cs₁₃⟩, ahead, h⟩ := Option.bind_eq_some_iff.mp h
    split at h
    · obtain ⟨date, -, h⟩ := Option.bind_eq_some_iff.mp h
      obtain ⟨time, shown, h⟩ := Option.bind_eq_some_iff.mp h
      exact ⟨hour, minute, second, date, time, _, nanos, _, offset, _, shown, part, ahead,
        (Option.some.inj h).symm⟩
    · cases h

theorem dated?_sound {cs : List Char} {i : Instant} (h : dated? cs = some i) : i.Sound := by
  obtain ⟨hour, minute, second, date, time, behind, nanos, last, offset, rest, shown, part, ahead,
    rfl⟩ := dated?_eq_some h
  obtain ⟨⟨within, short, leap⟩, full⟩ := TimeOfDay.ofParts?_sound shown
  have small := fraction?_lt part
  have minutes := offset?_minutes ahead
  refine ⟨?_, fun long => ?_⟩
  · simp only [LocalTime.instant]
    omega
  · simp only [LocalTime.instant, LocalTime.seconds] at long ⊢
    have last := leap (by omega)
    omega

theorem ofMillis_sound (ms : Int) : (Instant.ofMillis ms).Sound where
  short := by
    simp only [Instant.ofMillis]
    omega
  leap long := by
    simp only [Instant.ofMillis] at long
    omega

theorem epoch?_sound {cs : List Char} {i : Instant} (h : epoch? cs = some i) : i.Sound := by
  unfold epoch? at h
  simp only [Option.ite_none_right_eq_some, Option.some.injEq] at h
  rw [← h.2]
  exact ofMillis_sound _

theorem clock?_sound {cs : List Char} {t : TimeOfDay} (h : clock? cs = some t) :
    t.Sound ∧ t.nanos % 1000000000 = 0 := by
  unfold clock? at h
  obtain ⟨⟨hour, cs₁⟩, -, h⟩ := Option.bind_eq_some_iff.mp h
  obtain ⟨cs₂, -, h⟩ := Option.bind_eq_some_iff.mp h
  obtain ⟨⟨minute, cs₃⟩, -, h⟩ := Option.bind_eq_some_iff.mp h
  simp only at h
  split at h
  · exact TimeOfDay.ofParts?_sound h
  · obtain ⟨cs₄, -, h⟩ := Option.bind_eq_some_iff.mp h
    obtain ⟨⟨second, cs₅⟩, -, h⟩ := Option.bind_eq_some_iff.mp h
    simp only at h
    split at h
    · exact TimeOfDay.ofParts?_sound h
    · cases h

/-- What is read of a time: leap seconds end minutes, and offsets are no longer than a day. -/
def Sound : TimeSpec → Prop
  | clock time => time.Sound ∧ time.nanos % 1000000000 = 0
  | solar _ offset => offset.natAbs ≤ offsetLimit
  | absolute instant => instant.Sound

theorem solar?_sound {cs : List Char} {spec : TimeSpec} (h : solar? cs = some spec) :
    spec.Sound := by
  unfold solar? at h
  split at h
  · obtain ⟨event, -, rfl⟩ := Option.map_eq_some_iff.mp h
    exact Nat.zero_le _
  · obtain ⟨d, -, h⟩ := Option.bind_eq_some_iff.mp h
    obtain ⟨event, -, h⟩ := Option.bind_eq_some_iff.mp h
    split at h
    · rename_i short
      cases h
      change Int.natAbs _ ≤ offsetLimit
      split
      · rwa [Int.natAbs_neg, Int.natAbs_natCast]
      · rwa [Int.natAbs_natCast]
    · cases h

theorem parse?_sound {s : String} {spec : TimeSpec} (h : parse? s = some spec) : spec.Sound := by
  unfold parse? ofChars? at h
  split at h
  · obtain ⟨i, read, rfl⟩ := Option.map_eq_some_iff.mp h
    exact epoch?_sound read
  · split at h
    · rename_i instant _ read
      cases h
      exact dated?_sound read
    · rename_i time _ read
      cases h
      exact clock?_sound read
    · exact solar?_sound h

end TimeSpec

end HomeControl
