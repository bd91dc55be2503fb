import HomeControl.Duration
import HomeControl.Proofs.Decimal.Whole
import HomeControl.Proofs.Text
/-!
Durations in whole seconds. A number in digits with the letter for seconds behind it is read as that
number of seconds, up to 2 ^ 53.
-/

namespace HomeControl.Duration

open Decimal

theorem roundEven_mul (n : Nat) {d : Nat} (some : 0 < d) : roundEven (n * d) d = n := by
  rw [roundEven, Nat.mul_div_cancel n some, Nat.mul_mod_left]
  exact if_pos some

theorem ofFloat?_whole {x : Float} {n : Nat} (h : IsWhole x n) (bound : n ≤ maxU64) :
    ofFloat? x = some (ofSeconds n) := by
  obtain ⟨k, normal, rfl⟩ := h
  have fraction : shifted (-(k : Int)) (n * 2 ^ k * nanosPerSecond) 1 =
      (n * nanosPerSecond * 2 ^ k, 2 ^ k) := by
    have up : (-(k : Int)).toNat = 0 := by omega
    have down : (- -(k : Int)).toNat = k := by omega
    rw [shifted, up, down]
    exact Prod.ext (by simp only [Nat.pow_eq]; ring) (by simp)
  have exact : roundEven (n * nanosPerSecond * 2 ^ k) (2 ^ k) = n * nanosPerSecond :=
    roundEven_mul _ (Nat.two_pow_pos k)
  have seconds : n * nanosPerSecond / nanosPerSecond = n := Nat.mul_div_cancel n (by decide)
  have small : ¬ 64 < -(k : Int) := by omega
  rw [ofFloat?, normal.ofFloat?_float]
  simp only [Option.bind_eq_bind, Option.bind_some, Bool.false_and, Bool.false_eq_true, if_false,
    if_neg small, fraction, exact, seconds, if_pos bound, ofSeconds, ofParts, Nat.add_zero]

end HomeControl.Duration

namespace HomeControl.Text

theorem cutAt?_none {p : Char → Bool} {cs : List Char} (none : ∀ c ∈ cs, p c = false) :
    cutAt? p cs = Option.none := by
  induction cs with
  | nil => rfl
  | cons c rest ih =>
    obtain ⟨first, others⟩ := List.forall_mem_cons.mp none
    simp only [cutAt?, first, Bool.false_eq_true, if_false, ih others, Option.map_none]

theorem cutAt?_append {p : Char → Bool} {front : List Char} (before : ∀ c ∈ front, p c = false)
    {sep : Char} (here : p sep = true) (back : List Char) :
    cutAt? p (front ++ sep :: back) = some (front, sep, back) := by
  induction front with
  | nil => exact if_pos here
  | cons c rest ih =>
    obtain ⟨first, others⟩ := List.forall_mem_cons.mp before
    simp only [List.cons_append, cutAt?, first, Bool.false_eq_true, if_false, ih others,
      Option.map_some]

theorem toLower_digit {c : Char} (h : c.isDigit = true) : c.toLower = c := by
  have range := Char.isDigit_iff_toNat.mp h
  simp only [Char.reduceToNat] at range
  unfold Char.toLower
  split
  · rename_i upper
    have low : 65 ≤ c.toNat := UInt32.le_iff_toNat_le.mp upper.1
    omega
  · rfl

theorem sameLetters_digit {c : Char} (digit : c.isDigit = true) (rest : List Char) {word : String}
    {first : Char} (begins : word.toLower.toList.head? = some first)
    (letter : first.isDigit = false) : sameLetters (String.ofList (c :: rest)) word = false := by
  refine beq_eq_false_iff_ne.mpr fun same => ?_
  rw [← same, String.toLower, String.toList_map, String.toList_ofList, List.map_cons,
    toLower_digit digit] at begins
  cases begins
  rw [digit] at letter
  cases letter

end HomeControl.Text

namespace HomeControl.Duration

open Text Decimal

section Seconds

variable {c : Char} {ds : List Char}

theorem parts?_plain {cs : List Char}
    (plain : ∀ d ∈ cs, (d == 'e' || d == 'E') = false ∧ (d == '.') = false) :
    Decimal.parts? cs =
      if cs.isEmpty || !cs.all Char.isDigit then none else some ⟨cs, [], 0⟩ := by
  have power : cutAt? (fun c => c == 'e' || c == 'E') cs = none :=
    cutAt?_none fun d inside => (plain d inside).1
  have point : cutAt? (· == '.') cs = none := cutAt?_none fun d inside => (plain d inside).2
  simp only [Decimal.parts?, power, point, List.append_nil, Option.map_some]

theorem plain_digit {d : Char} (digit : d.isDigit = true) :
    (d == 'e' || d == 'E') = false ∧ (d == '.') = false := by
  constructor
  · simp only [Bool.or_eq_false_iff, beq_eq_false_iff_ne]
    constructor <;> rintro rfl <;> cases digit
  · refine beq_eq_false_iff_ne.mpr ?_
    rintro rfl
    cases digit

variable (digits : ∀ d ∈ c :: ds, d.isDigit = true)

include digits

theorem unsigned?_digits : Decimal.unsigned? (c :: ds) = some ⟨digitsValue (c :: ds), 0⟩ := by
  have all : (c :: ds).all Char.isDigit = true := List.all_eq_true.mpr digits
  rw [Decimal.unsigned?, parts?_plain fun d inside => plain_digit (digits d inside), all]
  simp

theorem unsigned?_seconds : Decimal.unsigned? (c :: ds ++ ['s']) = none := by
  have plain : ∀ d ∈ c :: ds ++ ['s'], (d == 'e' || d == 'E') = false ∧ (d == '.') = false := by
    refine List.forall_mem_append.mpr ⟨fun d inside => plain_digit (digits d inside), ?_⟩
    exact List.forall_mem_singleton.mpr (by decide)
  have unit : (c :: ds ++ ['s']).all Char.isDigit = false := by simp
  rw [Decimal.unsigned?, parts?_plain plain, unit]
  simp

theorem float?_seconds : Decimal.float? (c :: ds ++ ['s']) = none := by
  have digit := digits c List.mem_cons_self
  have unsigned := unsigned?_seconds digits
  have named : ∀ word : String, ∀ first, word.toLower.toList.head? = some first →
      first.isDigit = false → sameLetters (String.ofList (c :: ds ++ ['s'])) word = false :=
    fun _ _ begins letter => sameLetters_digit digit _ begins letter
  have inf := named "inf" 'i' (by decide +kernel) rfl
  have infinity := named "infinity" 'i' (by decide +kernel) rfl
  have nan := named "nan" 'n' (by decide +kernel) rfl
  unfold Decimal.float?
  split
  rename_i negative body sign
  split at sign
  · rename_i rest same
    cases same
    cases digit
  · rename_i rest same
    cases same
    cases digit
  · cases sign
    simp only [inf, infinity, nan, unsigned, Bool.or_self, Bool.false_eq_true, if_false,
      Option.map_none]

theorem unitsTotal?_seconds : unitsTotal? 0 (c :: ds ++ ['s']) =
    some (0 + nearest (digitsValue (c :: ds)) 0 * 1) := by
  have digit := digits c List.mem_cons_self
  have numeral : ∀ d ∈ ds, isNumeral d = true := by
    intro d inside
    rw [isNumeral, digits d (List.mem_cons_of_mem c inside)]
    rfl
  have front : (ds ++ ['s']).takeWhile isNumeral = ds := by
    rw [List.takeWhile_append_of_pos numeral]
    exact List.append_nil ds
  have back : (ds ++ ['s']).dropWhile isNumeral = ['s'] := by
    rw [List.dropWhile_append_of_pos numeral]
    rfl
  have unit : unitScale? (String.ofList (['s'].takeWhile Char.isAlpha)) = some 1 := rfl
  have first : isNumeral c = true := by
    rw [isNumeral, digit]
    rfl
  rw [List.cons_append, unitsTotal?, if_pos first]
  simp only [front, back, unsigned?_digits digits, unit]
  exact unitsTotal?.eq_1 _

theorem ofChars?_seconds (small : digitsValue (c :: ds) < 2 ^ 53) :
    ofChars? (c :: ds ++ ['s']) = some (ofSeconds (digitsValue (c :: ds))) := by
  have colon : (c :: ds ++ ['s']).contains ':' = false := by
    refine Bool.eq_false_iff.mpr fun inside => ?_
    rcases List.mem_append.mp (List.contains_iff_mem.mp inside) with front | last
    · cases digits ':' front
    · cases List.mem_singleton.mp last
  have some : (c :: ds ++ ['s']).isEmpty = false := rfl
  simp only [ofChars?, float?_seconds digits, some, colon, unitsTotal?_seconds digits,
    Bool.false_eq_true, if_false, Option.bind_some]
  rcases Nat.eq_zero_or_pos (digitsValue (c :: ds)) with zero | positive
  · rw [zero]
    decide +kernel
  · have whole := isWhole_nearest positive small
    rw [whole.mul_one, whole.zero_add]
    exact ofFloat?_whole whole (by simp only [maxU64, bitRange, Nat.pow_eq]; omega)

omit digits

theorem ofChars?_toDigits {n : Nat} (small : n < 2 ^ 53) :
    ofChars? (Nat.toDigits 10 n ++ ['s']) = some (ofSeconds n) := by
  obtain ⟨c, ds, same⟩ := List.exists_cons_of_ne_nil (@Nat.toDigits_ne_nil n 10)
  have digits := isDigit_toDigits n
  have value := digitsValue_toDigits n
  rw [same] at digits value
  have read := ofChars?_seconds digits (by rwa [value])
  rwa [value, ← same] at read

end Seconds

end HomeControl.Duration
