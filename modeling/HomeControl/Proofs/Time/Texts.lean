import HomeControl.Proofs.Calendar.Civil
import HomeControl.Proofs.Time.Seconds
import HomeControl.Proofs.Time.Sound
/-!
Texts of times, part by part: what is written is read as what it was written for.
-/

namespace HomeControl

open Text

namespace TimeSpec

section Numbers

variable {least most : Nat} {ds rest : List Char}

theorem takeWhile_digits (digits : ∀ c ∈ ds, c.isDigit = true)
    (stop : ∀ c ∈ rest.head?, c.isDigit = false) : (ds ++ rest).takeWhile Char.isDigit = ds := by
  rw [List.takeWhile_append_of_pos digits]
  cases rest with
  | nil => simp
  | cons c more => simp [stop c rfl]

theorem take_digits (digits : ∀ c ∈ ds, c.isDigit = true) (fits : ds.length ≤ most)
    (stop : ds.length = most ∨ ∀ c ∈ rest.head?, c.isDigit = false) :
    ((ds ++ rest).take most).takeWhile Char.isDigit = ds := by
  rw [List.take_append, List.take_of_length_le fits]
  refine takeWhile_digits digits ?_
  rcases stop with full | stop
  · simp [full]
  · intro c first
    rw [List.head?_take] at first
    split at first
    · cases first
    · exact stop c first

theorem digits?_append (digits : ∀ c ∈ ds, c.isDigit = true) (enough : least ≤ ds.length)
    (fits : ds.length ≤ most)
    (stop : ds.length = most ∨ ∀ c ∈ rest.head?, c.isDigit = false) :
    digits? least most (ds ++ rest) = some (ds, rest) := by
  rw [digits?, take_digits digits fits stop]
  simp [Nat.not_lt.mpr enough]

theorem digits?_short (digits : ∀ c ∈ ds, c.isDigit = true) (short : ds.length < least)
    (fits : ds.length ≤ most) (stop : ∀ c ∈ rest.head?, c.isDigit = false) :
    digits? least most (ds ++ rest) = none := by
  rw [digits?, take_digits digits fits (Or.inr stop)]
  simp [short]

theorem number?_padded (width n : Nat) (some : 0 < width) (fits : n < 10 ^ width)
    (rest : List Char) :
    number? width width ((padded width n).toList ++ rest) = Option.some (n, rest) := by
  have length := length_padded some fits
  rw [number?, digits?_append (isDigit_padded width n) length.ge length.le (Or.inl length)]
  simp only [Option.map_some, digitsValue_padded]

end Numbers

theorem fraction?_digits {ds rest : List Char} (digits : ∀ c ∈ ds, c.isDigit = true)
    (enough : 1 ≤ ds.length) (fits : ds.length ≤ 9) :
    fraction? ('.' :: (ds ++ '+' :: rest)) =
      some (digitsValue ds * Nat.pow 10 (9 - ds.length), '+' :: rest) := by
  have stop : ∀ c ∈ ('+' :: rest).head?, c.isDigit = false := by
    rintro c ⟨⟩
    rfl
  simp only [fraction?, digits?_append digits enough fits (Or.inr stop)]
  rfl

theorem fraction?_text {nanos : Nat} (part : nanos < 1000000000) (rest : List Char) :
    fraction? ((fractionText nanos).toList ++ '+' :: rest) = some (nanos, '+' :: rest) := by
  have read : ∀ width n : Nat, 0 < width → width ≤ 9 → n < 10 ^ width →
      n * Nat.pow 10 (9 - width) = nanos →
      fraction? (("." ++ padded width n).toList ++ '+' :: rest) = some (nanos, '+' :: rest) := by
    intro width n some wide fits exact
    have length := length_padded some fits
    have cut := @fraction?_digits _ rest (isDigit_padded width n) (by omega) (by omega)
    rw [length, digitsValue_padded, exact] at cut
    rw [String.toList_append]
    exact cut
  unfold fractionText
  split
  · rename_i none
    subst none
    rfl
  · split
    · exact read 3 _ (by decide) (by decide) (by omega) (by simp only [Nat.pow_eq]; omega)
    · split
      · exact read 6 _ (by decide) (by decide) (by omega) (by simp only [Nat.pow_eq]; omega)
      · exact read 9 _ (by decide) (by decide) (by omega) (by simp)

end TimeSpec

namespace TimeOfDay

variable {t : TimeOfDay}

theorem ofParts?_shown (sound : t.Sound) :
    ofParts? (t.seconds / 3600) (t.seconds / 60 % 60) (t.seconds % 60 + t.nanos / 1000000000) =
      some ⟨t.seconds, t.nanos / 1000000000 * 1000000000⟩ := by
  obtain ⟨within, short, leap⟩ := sound
  unfold ofParts?
  rw [if_pos (by simp only [Bool.and_eq_true, decide_eq_true_eq]; omega)]
  split
  · congr 2 <;> omega
  · congr 2 <;> omega

theorem toList_clockText (t : TimeOfDay) (rest : List Char) :
    t.clockText.toList ++ rest =
      (padded 2 (t.seconds / 3600)).toList ++ ':' :: ((padded 2 (t.seconds / 60 % 60)).toList ++
        ':' :: ((padded 2 (t.seconds % 60 + t.nanos / 1000000000)).toList ++ rest)) := by
  simp [clockText, String.toList_append]

end TimeOfDay

theorem Date.civil_bounds (d : Date) :
    1 ≤ d.civil.month ∧ d.civil.month ≤ 12 ∧ 1 ≤ d.civil.day ∧ d.civil.day ≤ 31 := by
  have read := d.ofCivil?_civil
  unfold ofCivil? at read
  split at read
  · rename_i parts
    simp only [Bool.and_eq_true, decide_eq_true_eq] at parts
    have most : monthLength d.civil.year d.civil.month ≤ 31 := by
      unfold monthLength
      repeat' split
      all_goals decide
    omega
  · cases read

theorem Date.toList_text {d : Date} (low : 0 ≤ d.civil.year) (high : d.civil.year ≤ 9999)
    (rest : List Char) :
    d.text.toList ++ rest =
      (padded 4 d.civil.year.toNat).toList ++ '-' :: ((padded 2 d.civil.month).toList ++
        '-' :: ((padded 2 d.civil.day).toList ++ rest)) := by
  simp [Date.text, Date.yearText, low, high, String.toList_append]

def Instant.timeOfDay (i : Instant) : TimeOfDay :=
  ⟨(i.seconds % 86400).toNat, i.nanos⟩

theorem Instant.Sound.timeOfDay {i : Instant} (h : i.Sound) : i.timeOfDay.Sound where
  within := by simp only [Instant.timeOfDay]; omega
  short := h.short
  leap long := by
    have last := h.leap long
    simp only [Instant.timeOfDay]
    omega

namespace TimeSpec

theorem toList_datedText (i : Instant) :
    (datedText i).toList = (i.dateAt 0).text.toList ++ 'T' :: (i.timeOfDay.clockText.toList ++
      ((fractionText (i.nanos % 1000000000)).toList ++ '+' :: "00:00".toList)) := by
  simp [datedText, Instant.timeOfDay, String.toList_append]

theorem bind_of_some {α β : Type} {x : Option α} {a : α} (f : α → Option β) (h : x = some a) :
    (x >>= f) = f a := by
  rw [h]
  rfl

theorem mark?_cons (c : Char) (rest : List Char) : mark? c (c :: rest) = some rest :=
  if_pos rfl

theorem dated?_eq {cs cs₁ cs₂ cs₃ cs₄ cs₅ cs₆ cs₇ : List Char}
    {year month day hour minute second nanos : Nat} {offset : Int}
    (hyear : number? 4 4 cs = some (year, '-' :: cs₁))
    (hmonth : number? 2 2 cs₁ = some (month, '-' :: cs₂))
    (hday : number? 2 2 cs₂ = some (day, 'T' :: cs₃))
    (hhour : number? 2 2 cs₃ = some (hour, ':' :: cs₄))
    (hminute : number? 2 2 cs₄ = some (minute, ':' :: cs₅))
    (hsecond : number? 2 2 cs₅ = some (second, cs₆)) (hnanos : fraction? cs₆ = some (nanos, cs₇))
    (hoffset : offset? cs₇ = some (offset, [])) :
    dated? cs = (Date.ofCivil? ⟨year, month, day⟩).bind fun date =>
      (TimeOfDay.ofParts? hour minute second).bind fun time =>
        some (LocalTime.instant ⟨date, ⟨time.seconds, time.nanos + nanos⟩⟩ offset) := by
  unfold dated?
  refine (bind_of_some _ hyear).trans ((bind_of_some _ (mark?_cons _ _)).trans ?_)
  refine (bind_of_some _ hmonth).trans ((bind_of_some _ (mark?_cons _ _)).trans ?_)
  refine (bind_of_some _ hday).trans ?_
  refine (bind_of_some _ hhour).trans ((bind_of_some _ (mark?_cons _ _)).trans ?_)
  refine (bind_of_some _ hminute).trans ((bind_of_some _ (mark?_cons _ _)).trans ?_)
  refine (bind_of_some _ hsecond).trans ((bind_of_some _ hnanos).trans ?_)
  exact (bind_of_some _ hoffset).trans rfl

theorem instant_parts (i : Instant) :
    LocalTime.instant ⟨i.dateAt 0, ⟨i.timeOfDay.seconds,
      i.timeOfDay.nanos / 1000000000 * 1000000000 + i.nanos % 1000000000⟩⟩ 0 = i := by
  obtain ⟨seconds, nanos⟩ := i
  simp only [LocalTime.instant, LocalTime.seconds, Instant.dateAt, Instant.timeOfDay,
    Instant.mk.injEq]
  omega

theorem dated?_text {i : Instant} (sound : i.Sound) (low : 0 ≤ (i.dateAt 0).civil.year)
    (high : (i.dateAt 0).civil.year ≤ 9999) : dated? (datedText i).toList = some i := by
  obtain ⟨-, months, -, days⟩ := (i.dateAt 0).civil_bounds
  have time := sound.timeOfDay
  obtain ⟨within, short, -⟩ := time
  have year := number?_padded 4 (i.dateAt 0).civil.year.toNat (by decide) (by omega)
  have month := number?_padded 2 (i.dateAt 0).civil.month (by decide) (by omega)
  have day := number?_padded 2 (i.dateAt 0).civil.day (by decide) (by omega)
  have hour := number?_padded 2 (i.timeOfDay.seconds / 3600) (by decide) (by omega)
  have minute := number?_padded 2 (i.timeOfDay.seconds / 60 % 60) (by decide) (by omega)
  have second := number?_padded 2 (i.timeOfDay.seconds % 60 + i.timeOfDay.nanos / 1000000000)
    (by decide) (by omega)
  have part := fraction?_text (show i.nanos % 1000000000 < 1000000000 by omega)
  have zero : offset? ('+' :: "00:00".toList) = some (0, []) := rfl
  have civil : Date.ofCivil? ⟨(i.dateAt 0).civil.year.toNat, (i.dateAt 0).civil.month,
      (i.dateAt 0).civil.day⟩ = some (i.dateAt 0) := by
    rw [Int.toNat_of_nonneg low]
    exact (i.dateAt 0).ofCivil?_civil
  rw [toList_datedText, Date.toList_text low high, TimeOfDay.toList_clockText,
    dated?_eq (year _) (month _) (day _) (hour _) (minute _) (second _) (part _) zero, civil,
    TimeOfDay.ofParts?_shown sound.timeOfDay]
  exact congrArg some (instant_parts i)

theorem dropBlank_letter {cs : List Char} (letter : ∀ c ∈ cs.head?, isBlank c = false) :
    dropBlank cs = cs := by
  cases cs with
  | nil => rfl
  | cons c rest => rw [dropBlank, List.dropWhile_cons, letter c rfl, if_neg Bool.false_ne_true]

theorem trimChars_letters {cs : List Char} (letters : ∀ c ∈ cs, isBlank c = false) :
    trimChars cs = cs := by
  rw [trimChars, dropBlank_letter fun c first => letters c (List.mem_of_mem_head? first),
    dropBlank_letter fun c last => letters c (List.mem_reverse.mp (List.mem_of_mem_head? last)),
    List.reverse_reverse]

theorem clockPart?_padded (n : Nat) (fits : n < 100) (rest : List Char) :
    clockPart? ((padded 2 n).toList ++ rest) = some (n, rest) := by
  have length : (padded 2 n).toList.length = 2 := length_padded (by decide) fits
  have digits := isDigit_padded 2 n
  have letter : ∀ c ∈ ((padded 2 n).toList ++ rest).head?, isBlank c = false := by
    intro c first
    rw [List.head?_append_of_ne_nil _ (List.ne_nil_of_length_pos (by omega))] at first
    exact isBlank_digit (digits c (List.mem_of_mem_head? first))
  rw [clockPart?, dropBlank_letter letter, number?,
    digits?_append digits (by omega) length.le (Or.inl length)]
  simp only [Option.map_some, digitsValue_padded]

theorem clock?_eq {cs cs₁ cs₂ : List Char} {hour minute second : Nat}
    (hhour : clockPart? cs = some (hour, ':' :: cs₁))
    (hminute : clockPart? cs₁ = some (minute, ':' :: cs₂))
    (hsecond : clockPart? cs₂ = some (second, [])) :
    clock? cs = TimeOfDay.ofParts? hour minute second := by
  unfold clock?
  refine (bind_of_some _ hhour).trans ((bind_of_some _ (mark?_cons _ _)).trans ?_)
  refine (bind_of_some _ hminute).trans ?_
  refine (if_neg Bool.false_ne_true).trans ((bind_of_some _ (mark?_cons _ _)).trans ?_)
  exact (bind_of_some _ hsecond).trans rfl

theorem clock?_text {t : TimeOfDay} (sound : t.Sound) (full : t.nanos % 1000000000 = 0) :
    clock? t.clockText.toList = some t := by
  have within := sound.within
  have short := sound.short
  have hour := clockPart?_padded (t.seconds / 3600) (by omega)
  have minute := clockPart?_padded (t.seconds / 60 % 60) (by omega)
  have second := clockPart?_padded (t.seconds % 60 + t.nanos / 1000000000) (by omega)
  rw [← List.append_nil t.clockText.toList, TimeOfDay.toList_clockText,
    clock?_eq (hour _) (minute _) (second _), TimeOfDay.ofParts?_shown sound]
  congr 2
  omega

theorem dated?_of_year {cs : List Char} (none : digits? 4 4 cs = Option.none) :
    dated? cs = Option.none := by
  unfold dated?
  rw [number?, none]
  rfl

theorem dated?_clockText {t : TimeOfDay} (within : t.seconds < 86400) :
    dated? t.clockText.toList = none := by
  have length : (padded 2 (t.seconds / 3600)).toList.length = 2 :=
    length_padded (by decide) (by omega)
  rw [← List.append_nil t.clockText.toList, TimeOfDay.toList_clockText]
  refine dated?_of_year (digits?_short (isDigit_padded 2 _) (by omega) (by omega) ?_)
  rintro c ⟨⟩
  rfl

theorem ofChars?_clock {t : TimeOfDay} (sound : t.Sound) (full : t.nanos % 1000000000 = 0) :
    ofChars? t.clockText.toList = some (clock t) := by
  have letter :
      ¬ (10 ≤ t.clockText.toList.length && t.clockText.toList.all Char.isDigit) = true := by
    rw [← List.append_nil t.clockText.toList, TimeOfDay.toList_clockText]
    simp
  rw [ofChars?, if_neg letter, dated?_clockText sound.within, clock?_text sound full]

theorem ofChars?_other {cs : List Char}
    (other : ∀ c ∈ cs.head?, c.isDigit = false ∧ isBlank c = false) : ofChars? cs = solar? cs := by
  have none : ∀ least most, 0 < least → digits? least most cs = Option.none := by
    intro least most some
    exact @digits?_short least most [] cs (List.forall_mem_nil _) some (Nat.zero_le most)
      fun c first => (other c first).1
  have undated : dated? cs = Option.none := dated?_of_year (none 4 4 (by decide))
  have timeless : clock? cs = Option.none := by
    unfold clock? clockPart?
    rw [dropBlank_letter fun c first => (other c first).2, number?, none 1 2 (by decide)]
    rfl
  have letter : ¬ (10 ≤ cs.length && cs.all Char.isDigit) = true := by
    cases cs with
    | nil => decide
    | cons c rest => simp [(other c rfl).1]
  rw [ofChars?, if_neg letter, undated, timeless]

theorem name_letters (event : SunEvent) : ∀ c ∈ event.name.toList,
    isSign c = false ∧ c.isDigit = false ∧ isBlank c = false := by
  have plain :
      event.name.toList.all (fun c => !isSign c && !c.isDigit && !isBlank c) = true := by
    cases event <;> decide
  simpa [and_assoc] using plain

theorem ofName?_name (event : SunEvent) : SunEvent.ofName? event.name = some event := by
  cases event <;> decide +kernel

theorem solar?_name (event : SunEvent) : solar? event.name.toList = some (solar event 0) := by
  rw [solar?, cutAt?_none fun c inside => (name_letters event c inside).1, String.ofList_toList]
  simp only [ofName?_name, Option.map_some]

theorem solar?_offset (event : SunEvent) {sign : Char} (signed : isSign sign = true)
    {size : List Char} (letters : ∀ c ∈ size, isBlank c = false) {d : Duration}
    (read : Duration.ofChars? size = some d) (limit : d.nanos ≤ offsetLimit) :
    solar? (event.name.toList ++ sign :: size) =
      some (solar event (if sign = '-' then -(d.nanos : Int) else d.nanos)) := by
  have cut : cutAt? isSign (event.name.toList ++ sign :: size) =
      some (event.name.toList, sign, size) :=
    cutAt?_append (fun c inside => (name_letters event c inside).1) signed _
  rw [solar?, cut]
  simp only [trimChars_letters letters, read, Option.bind_eq_bind, Option.bind_some,
    String.ofList_toList, ofName?_name, if_pos limit]

theorem ofChars?_name (event : SunEvent) (rest : List Char) :
    ofChars? (event.name.toList ++ rest) = solar? (event.name.toList ++ rest) := by
  have some : event.name.toList ≠ [] := by cases event <;> decide
  refine ofChars?_other fun c first => ?_
  rw [List.head?_append_of_ne_nil _ some] at first
  exact (name_letters event c (List.mem_of_mem_head? first)).2

theorem toList_solarText (event : SunEvent) {offset : Int} (shifted : offset ≠ 0) :
    (text (solar event offset)).toList = event.name.toList ++ (if offset < 0 then '-' else '+') ::
      (Nat.toDigits 10 (offset.natAbs / Duration.nanosPerSecond) ++ ['s']) := by
  have sign : (if offset < 0 then "-" else "+").toList = [if offset < 0 then '-' else '+'] := by
    split <;> rfl
  have seconds : (toString (offset.natAbs / Duration.nanosPerSecond)).toList =
      Nat.toDigits 10 (offset.natAbs / Duration.nanosPerSecond) := Nat.toList_repr
  have unit : "s".toList = ['s'] := rfl
  simp only [text, if_neg shifted, String.toList_append, sign, seconds, unit, List.append_assoc,
    List.cons_append, List.nil_append]

def wholeSeconds (offset : Int) : Int :=
  offset.tdiv Duration.nanosPerSecond * Duration.nanosPerSecond

theorem wholeSeconds_eq (offset : Int) : wholeSeconds offset =
    if offset < 0 then
      -((offset.natAbs / Duration.nanosPerSecond * Duration.nanosPerSecond : Nat) : Int)
    else (offset.natAbs / Duration.nanosPerSecond * Duration.nanosPerSecond : Nat) := by
  unfold wholeSeconds
  rcases offset.eq_nat_or_neg with ⟨m, rfl | rfl⟩
  · rw [if_neg (Int.not_lt.mpr (Int.natCast_nonneg m)), ← Int.ofNat_tdiv, Int.natAbs_natCast,
      Int.natCast_mul]
  · rw [Int.neg_tdiv, ← Int.ofNat_tdiv, Int.natAbs_neg, Int.natAbs_natCast, Int.natCast_mul,
      Int.neg_mul]
    split
    · rfl
    · have none : m = 0 := by omega
      simp [none]

theorem ofChars?_solar (event : SunEvent) {offset : Int} (short : offset.natAbs ≤ offsetLimit) :
    ofChars? (text (solar event offset)).toList = some (solar event (wholeSeconds offset)) := by
  by_cases shifted : offset = 0
  · subst shifted
    have name : text (solar event 0) = event.name := rfl
    rw [name, ← List.append_nil event.name.toList, ofChars?_name, List.append_nil, solar?_name]
    rfl
  · have seconds : offset.natAbs / Duration.nanosPerSecond ≤ 86400 := by
      simp only [offsetLimit, Duration.nanosPerSecond] at short ⊢
      omega
    have digits : ∀ c ∈ Nat.toDigits 10 (offset.natAbs / Duration.nanosPerSecond) ++ ['s'],
        isBlank c = false := by
      refine List.forall_mem_append.mpr ⟨fun c inside => ?_, ?_⟩
      · exact isBlank_digit (isDigit_toDigits _ c inside)
      · exact List.forall_mem_singleton.mpr (by decide)
    have nanos : (Duration.ofSeconds (offset.natAbs / Duration.nanosPerSecond)).nanos =
        offset.natAbs / Duration.nanosPerSecond * Duration.nanosPerSecond := by
      simp only [Duration.ofSeconds, Duration.ofParts, Nat.add_zero]
    have limit : (Duration.ofSeconds (offset.natAbs / Duration.nanosPerSecond)).nanos ≤ offsetLimit :=
      nanos ▸ Nat.le_trans (Nat.div_mul_le_self _ _) short
    have read := Duration.ofChars?_toDigits (n := offset.natAbs / Duration.nanosPerSecond) (by omega)
    rw [toList_solarText event shifted, ofChars?_name,
      solar?_offset event (by split <;> rfl) digits read limit, wholeSeconds_eq, nanos]
    by_cases early : offset < 0
    · simp only [if_pos early, if_true]
    · simp only [if_neg early]
      rfl

end TimeSpec

end HomeControl
