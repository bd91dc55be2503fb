import HomeControl.Calendar.Date
import Mathlib.Tactic.ByContra
/-!
Days and their dates. The year of a day in its era is computed by leaving out the leap days before it;
it is the year because that count never falls, and is right on the first and the last day of each year.
-/

namespace HomeControl.Date

def yearStart (year : Int) : Int :=
  365 * year + year / 4 - year / 100

def plainDays (ofEra : Int) : Int :=
  ofEra - ofEra / 1460 + ofEra / 36524 - ofEra / 146096

theorem plainDays_mono {a b : Int} (h : a ≤ b) : plainDays a ≤ plainDays b := by
  unfold plainDays
  omega

theorem plainDays_yearStart : ∀ year : Nat, year < 400 →
    365 * year ≤ plainDays (yearStart year) ∧
      (0 < year → plainDays (yearStart year - 1) < 365 * year) := by
  decide +kernel

theorem yearStart_succ : ∀ year : Nat, year < 399 →
    yearStart (year + 1) = yearStart year + if isLeap (year + 1) then 366 else 365 := by
  decide +kernel

def monthOf (ofYear : Nat) : Nat :=
  (5 * ofYear + 2) / 153

def fromMarch (month : Nat) : Nat :=
  if month < 10 then month + 3 else month - 9

/-- Each day of a year is a day of a month. Only the last one needs a leap year. -/
theorem month_table : ∀ ofYear : Nat, ofYear < 366 →
    let m := fromMarch (monthOf ofYear)
    let day := ofYear + 1 - (153 * monthOf ofYear + 2) / 5
    1 ≤ m ∧ m ≤ 12 ∧ 1 ≤ day ∧ (m + 9) % 12 = monthOf ofYear ∧
      (153 * monthOf ofYear + 2) / 5 ≤ ofYear ∧
      (day ≤ monthLength 1 m ∨ ofYear = 365 ∧ m = 2 ∧ day = 29) := by
  decide +kernel

theorem year_of_era (ofEra : Int) (low : 0 ≤ ofEra) (high : ofEra < 146097) :
    ∃ year : Nat, plainDays ofEra / 365 = year ∧ year < 400 ∧ yearStart year ≤ ofEra ∧
      (ofEra < yearStart year + 365 ∨
        ofEra = yearStart year + 365 ∧ isLeap (year + 1) = true) := by
  have bottom : 0 ≤ plainDays ofEra := plainDays_mono low
  have top : plainDays ofEra ≤ plainDays 146096 := plainDays_mono (by omega)
  have most : plainDays 146096 = 145999 := by decide
  obtain ⟨year, same⟩ := Int.eq_ofNat_of_zero_le (show 0 ≤ plainDays ofEra / 365 by omega)
  have inside : year < 400 := by omega
  obtain ⟨first, before⟩ := plainDays_yearStart year inside
  have begun : yearStart year ≤ ofEra := by
    by_contra early
    have some : 0 < year := by
      refine Nat.pos_of_ne_zero ?_
      rintro rfl
      exact early low
    have less := before some
    have less' := plainDays_mono (show ofEra ≤ yearStart year - 1 by omega)
    omega
  refine ⟨year, same, inside, begun, ?_⟩
  by_cases last : year < 399
  · have next := yearStart_succ year last
    have more := (plainDays_yearStart (year + 1) (by omega)).1
    have ended : ofEra < yearStart (year + 1) := by
      by_contra late
      have least := plainDays_mono (Int.not_lt.mp late)
      push_cast at more
      omega
    rw [next] at ended
    by_cases leap : isLeap (year + 1) = true
    · rw [if_pos leap] at ended
      by_cases full : ofEra < yearStart year + 365
      · exact Or.inl full
      · exact Or.inr ⟨by omega, leap⟩
    · rw [if_neg leap] at ended
      exact Or.inl ended
  · obtain rfl : year = 399 := by omega
    have start : yearStart (399 : Nat) = 145731 := by decide
    rw [start]
    by_cases full : ofEra < 145731 + 365
    · exact Or.inl full
    · exact Or.inr ⟨by omega, by decide⟩

theorem isLeap_of_era (era year : Int) : isLeap (era * 400 + year) = isLeap year := by
  have four : (era * 400 + year) % 4 = year % 4 := by omega
  have hundred : (era * 400 + year) % 100 = year % 100 := by omega
  have whole : (era * 400 + year) % 400 = year % 400 := by omega
  rw [isLeap, isLeap, four, hundred, whole]

theorem monthLength_le (year : Int) (month : Nat) : monthLength 1 month ≤ monthLength year month := by
  unfold monthLength
  split
  · cases isLeap year <;> decide
  · exact Nat.le_refl _

theorem civil_eq {era : Int} {year ofYear : Nat} (low : 0 ≤ yearStart year + ofYear)
    (high : yearStart year + ofYear < 146097)
    (same : plainDays (yearStart year + ofYear) / 365 = year) :
    civil ⟨era * 146097 + (yearStart year + ofYear) - 719468⟩ =
      ⟨era * 400 + year + (if fromMarch (monthOf ofYear) ≤ 2 then 1 else 0),
        fromMarch (monthOf ofYear), ofYear + 1 - (153 * monthOf ofYear + 2) / 5⟩ := by
  have shifted : era * 146097 + (yearStart year + ofYear) - 719468 + 719468 =
      era * 146097 + (yearStart year + ofYear) := by omega
  have whole : (era * 146097 + (yearStart year + ofYear)) / 146097 = era := by omega
  have part : (era * 146097 + (yearStart year + ofYear)) % 146097 = yearStart year + ofYear := by
    omega
  have rest : yearStart year + ofYear - (365 * (year : Int) + year / 4 - year / 100) = ofYear := by
    unfold yearStart
    omega
  have month : (5 * (ofYear : Int) + 2) / 153 = (monthOf ofYear : Nat) := by
    unfold monthOf
    omega
  have named : (if ((monthOf ofYear : Nat) : Int) < 10 then ((monthOf ofYear : Nat) : Int) + 3
      else ((monthOf ofYear : Nat) : Int) - 9) = (fromMarch (monthOf ofYear) : Nat) := by
    unfold fromMarch
    split <;> split <;> omega
  unfold plainDays at same
  simp only [civil, shifted, whole, part, same, rest, month, named, Civil.mk.injEq, Int.toNat_natCast,
    true_and]
  have first : ((fromMarch (monthOf ofYear) : Nat) : Int) ≤ 2 ↔ fromMarch (monthOf ofYear) ≤ 2 := by
    omega
  exact ⟨by simp only [first], by omega⟩

theorem ofCivil_eq (era : Int) {year : Nat} (inside : year < 400) (m day : Nat) :
    ofCivil ⟨era * 400 + year + (if m ≤ 2 then 1 else 0), m, day⟩ =
      ⟨era * 146097 + (yearStart year + ((153 * (((m + 9) % 12 : Nat) : Int) + 2) / 5 + day - 1)) -
        719468⟩ := by
  have shifted : (if m ≤ 2 then era * 400 + year + (if m ≤ 2 then 1 else 0) - 1
      else era * 400 + year + (if m ≤ 2 then 1 else 0)) = era * 400 + year := by
    split <;> omega
  have whole : (era * 400 + year) / 400 = era := by omega
  have part : (era * 400 + year) % 400 = year := by omega
  simp only [ofCivil, shifted, whole, part, yearStart]
  congr 1
  push_cast
  omega

theorem ofCivil?_civil (d : Date) : ofCivil? d.civil = some d := by
  obtain ⟨era, year, ofYear, rfl, low, high, same, bound, within⟩ :
      ∃ (era : Int) (year ofYear : Nat),
        d = ⟨era * 146097 + (yearStart year + ofYear) - 719468⟩ ∧
          0 ≤ yearStart year + ofYear ∧ yearStart year + ofYear < 146097 ∧
          plainDays (yearStart year + ofYear) / 365 = year ∧ year < 400 ∧
          (ofYear < 365 ∨ ofYear = 365 ∧ isLeap (year + 1) = true) := by
    obtain ⟨day⟩ := d
    obtain ⟨year, same, bound, begun, within⟩ :=
      year_of_era ((day + 719468) % 146097) (by omega) (by omega)
    obtain ⟨ofYear, rest⟩ := Int.eq_ofNat_of_zero_le (Int.sub_nonneg.mpr begun)
    have part : yearStart year + ofYear = (day + 719468) % 146097 := by omega
    refine ⟨(day + 719468) / 146097, year, ofYear, ?_, ?_, ?_, ?_, bound, ?_⟩
    · rw [part]
      congr 1
      omega
    · omega
    · omega
    · rw [part, same]
    · rcases within with short | ⟨full, leap⟩
      · exact Or.inl (by omega)
      · exact Or.inr ⟨by omega, leap⟩
  obtain ⟨least, most, first, march, before, fits⟩ := month_table ofYear (by omega)
  have inside : ofYear + 1 - (153 * monthOf ofYear + 2) / 5 ≤
      monthLength (era * 400 + year + (if fromMarch (monthOf ofYear) ≤ 2 then 1 else 0))
        (fromMarch (monthOf ofYear)) := by
    rcases fits with short | ⟨full, february, last⟩
    · exact Nat.le_trans short (monthLength_le _ _)
    · rcases within with other | ⟨-, leap⟩
      · omega
      · rw [february, last, if_pos (Nat.le_refl 2), Int.add_assoc, monthLength, isLeap_of_era, leap]
        decide
  rw [civil_eq low high same, ofCivil?, ofCivil_eq era bound]
  simp only [least, most, first, inside, decide_true, Bool.and_self, if_true, march]
  congr 2
  omega

end HomeControl.Date
