import HomeControl.Proofs.Time.Texts
/-!
Written times. The text of a time is read back as that time, but for two things that a text does not
say: the part of a second of an offset is left out, and a year that does not have four digits is
written in a way that is not read.
-/

namespace HomeControl

open Text

def Instant.year (i : Instant) : Int :=
  (i.dateAt 0).civil.year

namespace TimeSpec

theorem ofChars?_dated {i : Instant} (sound : i.Sound) (near : 0 ≤ i.year ∧ i.year ≤ 9999) :
    ofChars? (datedText i).toList = some (absolute i) := by
  have letter :
      ¬ (10 ≤ (datedText i).toList.length && (datedText i).toList.all Char.isDigit) = true := by
    rw [toList_datedText]
    simp
  rw [ofChars?, if_neg letter, dated?_text sound near.1 near.2]

theorem solar?_unnamed {sign : Char} (signed : isSign sign = true) (rest : List Char) :
    solar? (sign :: rest) = none := by
  have cut : cutAt? isSign (sign :: rest) = some ([], sign, rest) := if_pos signed
  have nameless : SunEvent.ofName? (String.ofList []) = none := by decide +kernel
  rw [solar?, cut]
  simp only [nameless, Option.bind_eq_bind, Option.bind_none, Option.bind_fun_none]

theorem ofChars?_signed {sign : Char} (signed : isSign sign = true) (rest : List Char) :
    ofChars? (sign :: rest) = none := by
  have other : sign.isDigit = false ∧ isBlank sign = false := by
    rcases Bool.or_eq_true_iff.mp signed with plus | minus
    · rw [beq_iff_eq.mp plus]
      decide
    · rw [beq_iff_eq.mp minus]
      decide
  rw [ofChars?_other (by rintro c ⟨⟩; exact other), solar?_unnamed signed]

theorem yearText_signed {year : Int} (far : ¬ (0 ≤ year ∧ year ≤ 9999)) :
    ∃ sign rest, isSign sign = true ∧ (Date.yearText year).toList = sign :: rest := by
  unfold Date.yearText
  rw [if_neg (by simpa using far), String.toList_append]
  split
  · exact ⟨'-', _, rfl, rfl⟩
  · exact ⟨'+', _, rfl, rfl⟩

theorem ofChars?_far {i : Instant} (far : ¬ (0 ≤ i.year ∧ i.year ≤ 9999)) :
    ofChars? (datedText i).toList = none := by
  obtain ⟨sign, rest, signed, year⟩ := yearText_signed far
  unfold Instant.year at year
  rw [toList_datedText, Date.text]
  simp only [String.toList_append, year, List.cons_append]
  exact ofChars?_signed signed _

theorem letters_of_all {cs : List Char} (h : cs.all (fun c => !isBlank c) = true) :
    ∀ c ∈ cs, isBlank c = false := by
  simpa using h

theorem letters_padded (width n : Nat) : ∀ c ∈ (padded width n).toList, isBlank c = false :=
  fun c inside => isBlank_digit (isDigit_padded width n c inside)

theorem letters_clockText (t : TimeOfDay) : ∀ c ∈ t.clockText.toList, isBlank c = false := by
  rw [← List.append_nil t.clockText.toList, TimeOfDay.toList_clockText]
  simp only [List.forall_mem_append, List.forall_mem_cons]
  exact ⟨letters_padded _ _, by decide, letters_padded _ _, by decide, letters_padded _ _,
    List.forall_mem_nil _⟩

theorem letters_dateText (d : Date) : ∀ c ∈ d.text.toList, isBlank c = false := by
  have year : ∀ c ∈ (Date.yearText d.civil.year).toList, isBlank c = false := by
    unfold Date.yearText
    split
    · exact letters_padded _ _
    · rw [String.toList_append]
      refine List.forall_mem_append.mpr ⟨?_, letters_padded _ _⟩
      split <;> exact letters_of_all (by decide)
  simp only [Date.text, String.toList_append, List.forall_mem_append]
  have dash : ∀ c ∈ "-".toList, isBlank c = false := letters_of_all (by decide)
  exact ⟨⟨⟨⟨year, dash⟩, letters_padded _ _⟩, dash⟩, letters_padded _ _⟩

theorem letters_fractionText (nanos : Nat) :
    ∀ c ∈ (fractionText nanos).toList, isBlank c = false := by
  have behind : ∀ width n, ∀ c ∈ ("." ++ padded width n).toList, isBlank c = false := by
    intro width n
    rw [String.toList_append]
    exact List.forall_mem_append.mpr ⟨letters_of_all (by decide), letters_padded width n⟩
  unfold fractionText
  split
  · exact List.forall_mem_nil _
  · split
    · exact behind 3 _
    · split
      · exact behind 6 _
      · exact behind 9 _

theorem letters_text (spec : TimeSpec) : ∀ c ∈ spec.text.toList, isBlank c = false := by
  cases spec with
  | clock time => exact letters_clockText time
  | solar event offset =>
    have name : ∀ c ∈ event.name.toList, isBlank c = false :=
      fun c inside => (name_letters event c inside).2.2
    by_cases shifted : offset = 0
    · subst shifted
      exact name
    · rw [toList_solarText event shifted]
      simp only [List.forall_mem_append, List.forall_mem_cons]
      refine ⟨name, by split <;> rfl, fun c inside => ?_, by decide, List.forall_mem_nil _⟩
      exact isBlank_digit (isDigit_toDigits _ c inside)
  | absolute i =>
    change ∀ c ∈ (datedText i).toList, isBlank c = false
    rw [toList_datedText]
    simp only [List.forall_mem_append, List.forall_mem_cons]
    exact ⟨letters_dateText _, by decide, letters_clockText _, letters_fractionText _, by decide,
      letters_of_all (by decide)⟩

theorem parse?_text (spec : TimeSpec) : parse? spec.text = ofChars? spec.text.toList := by
  rw [parse?, trimChars_letters (letters_text spec)]

def kept? : TimeSpec → Option TimeSpec
  | clock time => some (clock time)
  | solar event offset => some (solar event (wholeSeconds offset))
  | absolute i => if 0 ≤ i.year ∧ i.year ≤ 9999 then some (absolute i) else none

/-- Offsets in whole seconds, and years of four digits. -/
def IsPlain : TimeSpec → Prop
  | clock _ => True
  | solar _ offset => offset % Duration.nanosPerSecond = 0
  | absolute i => 0 ≤ i.year ∧ i.year ≤ 9999

theorem kept?_eq_self_iff (spec : TimeSpec) : spec.kept? = some spec ↔ spec.IsPlain := by
  cases spec with
  | clock time => exact iff_of_true rfl trivial
  | solar event offset =>
    have parts := Int.tmod_add_tdiv_mul offset Duration.nanosPerSecond
    have full : offset.tmod Duration.nanosPerSecond = 0 ↔ offset % Duration.nanosPerSecond = 0 := by
      rw [← Int.dvd_iff_tmod_eq_zero, ← Int.dvd_iff_emod_eq_zero]
    simp only [kept?, wholeSeconds, IsPlain, Option.some.injEq, solar.injEq, true_and, ← full]
    omega
  | absolute i => simp [kept?, IsPlain]

/-- The text of a time that was read is read again, but for years that do not have four digits. It
means the same time, but for the part of a second of an offset. -/
theorem written_times_read_back {s : String} {spec : TimeSpec} (h : parse? s = some spec) :
    parse? spec.text = spec.kept? ∧ (parse? spec.text = some spec ↔ spec.IsPlain) := by
  have sound := parse?_sound h
  suffices read : parse? spec.text = spec.kept? from ⟨read, read ▸ spec.kept?_eq_self_iff⟩
  rw [parse?_text]
  cases spec with
  | clock time => exact ofChars?_clock sound.1 sound.2
  | solar event offset => exact ofChars?_solar event sound
  | absolute i =>
    by_cases near : 0 ≤ i.year ∧ i.year ≤ 9999
    · rw [kept?, if_pos near]
      exact ofChars?_dated sound near
    · rw [kept?, if_neg near]
      exact ofChars?_far near

theorem written_times_read_back_early :
    parse? "Sunset-1h30m" = some (solar .sunset (-5400000000000)) ∧
      text (solar .sunset (-5400000000000)) = "sunset-5400s" ∧
      parse? "sunset-5400s" = some (solar .sunset (-5400000000000)) := by
  have read : parse? "Sunset-1h30m" = some (solar .sunset (-5400000000000)) := by decide +kernel
  have plain : IsPlain (solar .sunset (-5400000000000)) := by
    unfold IsPlain
    decide
  have written : text (solar .sunset (-5400000000000)) = "sunset-5400s" := by decide +kernel
  exact ⟨read, written, written ▸ (written_times_read_back read).2.mpr plain⟩

/-- Half a second is not written, and the year ten thousand is not read. -/
theorem written_times_are_not_read_back :
    (parse? "sunset+500ms" = some (solar .sunset 500000000) ∧
        parse? (text (solar .sunset 500000000)) = some (solar .sunset 0)) ∧
      parse? "253402300800000" = some (absolute ⟨253402300800, 0⟩) ∧
        parse? (text (absolute ⟨253402300800, 0⟩)) = none := by
  refine ⟨⟨?_, ?_⟩, ?_, ?_⟩ <;> decide +kernel

end TimeSpec

end HomeControl
