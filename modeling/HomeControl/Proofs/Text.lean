import HomeControl.Command.Word
import Mathlib.Data.List.Basic
import Mathlib.Data.List.Induction
import Mathlib.Data.Nat.Digits.Defs
/-!
Texts cut at a separator: what the pieces are, and how they go together again. Numbers in digits: a
text of ASCII digits means a number in one way only, as digits of any script do, and a number that
is written in digits is read back.
-/

namespace HomeControl.Text

theorem pieces_append {sep : Char} {mark : String} (h : mark.toList = [sep]) (x y : String) :
    pieces sep (x ++ mark ++ y) = pieces sep x ++ pieces sep y := by
  simp [pieces, h, List.splitOn_append_cons_self]

theorem mem_splitOnP {α : Type} {p : α → Bool} {xs piece : List α} (h : piece ∈ xs.splitOnP p) :
    ∀ x ∈ piece, p x = false ∧ x ∈ xs := by
  induction xs generalizing piece with
  | nil =>
    rw [List.splitOnP_nil, List.mem_singleton] at h
    subst h
    exact List.forall_mem_nil _
  | cons y rest ih =>
    have later : ∀ q ∈ rest.splitOnP p, ∀ x ∈ q, p x = false ∧ x ∈ y :: rest := by
      intro q inside x among
      obtain ⟨apart, there⟩ := ih inside x among
      exact ⟨apart, List.mem_cons_of_mem y there⟩
    rw [List.splitOnP_cons_eq_if_modifyHead] at h
    split at h
    · rcases List.mem_cons.mp h with rfl | more
      · exact List.forall_mem_nil _
      · exact later piece more
    · rename_i letter
      obtain ⟨first, others, pieces⟩ := List.exists_cons_of_ne_nil (List.splitOnP_ne_nil p rest)
      rw [pieces] at h later
      rcases List.mem_cons.mp h with rfl | more
      · intro x among
        rcases List.mem_cons.mp among with rfl | tail
        · exact ⟨Bool.eq_false_iff.mpr letter, List.mem_cons_self⟩
        · exact later first List.mem_cons_self x tail
      · exact later piece (List.mem_cons_of_mem first more)

theorem pieces_of_not_mem {sep : Char} {text : String} (h : sep ∉ text.toList) :
    pieces sep text = [text] := by
  simp [pieces, List.splitOn_eq_singleton h]

theorem pieces_ne_nil (sep : Char) (text : String) : pieces sep text ≠ [] := by
  rw [pieces, ne_eq, List.map_eq_nil_iff]
  exact List.splitOnP_ne_nil _ _

theorem not_mem_of_mem_pieces {sep : Char} {text piece : String} (h : piece ∈ pieces sep text) :
    sep ∉ piece.toList := by
  obtain ⟨letters, cut, rfl⟩ := List.mem_map.mp h
  intro inside
  rw [String.toList_ofList] at inside
  have apart := (mem_splitOnP cut sep inside).1
  simp at apart

theorem pieces_intercalate {sep : Char} {mark : String} (h : mark.toList = [sep])
    {texts : List String} (filled : texts ≠ []) (apart : ∀ text ∈ texts, sep ∉ text.toList) :
    pieces sep (mark.intercalate texts) = texts := by
  rw [pieces, String.toList_intercalate, h, List.splitOn_intercalate]
  · simp
  · intro letters inside
    obtain ⟨text, there, rfl⟩ := List.mem_map.mp inside
    exact apart text there
  · simpa using filled

theorem intercalate_pieces {sep : Char} {mark : String} (h : mark.toList = [sep]) (text : String) :
    mark.intercalate (pieces sep text) = text := by
  rw [← String.toList_inj, String.toList_intercalate, h, pieces, List.map_map]
  simp [Function.comp_def, List.intercalate_splitOn]

theorem isBlank_digit {c : Char} (h : c.isDigit = true) : isBlank c = false := by
  have range := Char.isDigit_iff_toNat.mp h
  simp only [Char.reduceToNat] at range
  simp only [isBlank, blankRanges, List.any_cons, List.any_nil, Bool.or_false, Bool.or_eq_false_iff,
    Bool.and_eq_false_iff, decide_eq_false_iff_not]
  omega

theorem digitsValue_eq (cs : List Char) : digitsValue cs = Nat.ofDigitChars 10 cs 0 := rfl

theorem digitsValue_toDigits (n : Nat) : digitsValue (Nat.toDigits 10 n) = n :=
  Nat.ofDigitChars_ten_toDigits

theorem isDigit_toDigits (n : Nat) : ∀ c ∈ Nat.toDigits 10 n, c.isDigit = true :=
  fun _ inside => Nat.isDigit_of_mem_toDigits (by decide) (by decide) inside

theorem digitsValue_replicate_zero (k : Nat) (cs : List Char) :
    digitsValue (List.replicate k '0' ++ cs) = digitsValue cs := by
  rw [digitsValue_eq, digitsValue_eq, Nat.ofDigitChars_append, Nat.ofDigitChars_replicate_zero]
  rfl

theorem natUpTo?_unsigned (bound : Nat) {cs : List Char} (unsigned : cs.head? ≠ some '+') :
    natUpTo? bound cs =
      if cs.isEmpty || !cs.all Char.isDigit then none
      else if digitsValue cs ≤ bound then some (digitsValue cs) else none := by
  unfold natUpTo?
  split
  · exact absurd rfl unsigned
  · rfl

theorem natUpTo?_digits (bound : Nat) {cs : List Char} (some : cs ≠ [])
    (digits : ∀ c ∈ cs, c.isDigit = true) :
    natUpTo? bound cs =
      if digitsValue cs ≤ bound then Option.some (digitsValue cs) else none := by
  have unsigned : cs.head? ≠ Option.some '+' := by
    intro plus
    cases digits '+' (List.mem_of_mem_head? plus)
  have all : cs.all Char.isDigit = true := List.all_eq_true.mpr digits
  rw [natUpTo?_unsigned bound unsigned, List.isEmpty_eq_false_iff.mpr some, all]
  rfl

section Padded

variable {width n : Nat}

theorem toList_padded (width n : Nat) : (padded width n).toList =
    List.replicate (width - (Nat.toDigits 10 n).length) '0' ++ Nat.toDigits 10 n := by
  rw [padded, String.toList_ofList]

theorem isDigit_padded (width n : Nat) : ∀ c ∈ (padded width n).toList, c.isDigit = true := by
  intro c inside
  rw [toList_padded] at inside
  rcases List.mem_append.mp inside with zero | digit
  · rw [List.eq_of_mem_replicate zero]
    rfl
  · exact isDigit_toDigits n c digit

theorem digitsValue_padded (width n : Nat) : digitsValue (padded width n).toList = n := by
  rw [toList_padded, digitsValue_replicate_zero, digitsValue_toDigits]

theorem length_padded (some : 0 < width) (fits : n < 10 ^ width) :
    (padded width n).toList.length = width := by
  have short := Nat.toDigits_length 10 n width some fits
  rw [toList_padded, List.length_append, List.length_replicate]
  omega

end Padded

theorem scriptDigit?_ascii {c : Char} (h : c.isDigit = true) :
    scriptDigit? c = some (digitValue c) := by
  have range := Char.isDigit_iff_toNat.mp h
  have first : (0x30 ≤ c.toNat && c.toNat < 0x30 + 10) = true := by
    simp only [Char.reduceToNat] at range
    simp only [Bool.and_eq_true, decide_eq_true_eq]
    omega
  obtain ⟨others, zeros⟩ : ∃ others, digitZeros = 0x30 :: others := ⟨_, rfl⟩
  rw [scriptDigit?, zeros, List.find?_cons, first]
  rfl

theorem scriptDigit?_lt {c : Char} {d : Nat} (h : scriptDigit? c = some d) : d < 10 := by
  obtain ⟨start, found, rfl⟩ := Option.map_eq_some_iff.mp h
  have within := List.find?_some found
  simp only [Bool.and_eq_true, decide_eq_true_eq] at within
  omega

def scriptValue (cs : List Char) : Nat :=
  cs.foldl (fun n c => 10 * n + (scriptDigit? c).getD 0) 0

theorem scriptValue_concat (cs : List Char) (c : Char) :
    scriptValue (cs ++ [c]) = 10 * scriptValue cs + (scriptDigit? c).getD 0 :=
  List.foldl_concat ..

theorem scriptValue_ascii {cs : List Char} (digits : ∀ c ∈ cs, c.isDigit = true) :
    scriptValue cs = digitsValue cs := by
  induction cs using List.reverseRecOn with
  | nil => rfl
  | append_singleton front c ih =>
    obtain ⟨before, last⟩ := List.forall_mem_append.mp digits
    rw [scriptValue_concat, ih before, scriptDigit?_ascii (last c (List.mem_singleton.mpr rfl)),
      digitsValue, digitsValue, List.foldl_concat]
    rfl

theorem scriptValue_lt (cs : List Char) : scriptValue cs < 10 ^ cs.length := by
  induction cs using List.reverseRecOn with
  | nil => exact Nat.one_pos
  | append_singleton front c ih =>
    have digit : (scriptDigit? c).getD 0 < 10 := by
      cases found : scriptDigit? c with
      | none => exact Nat.succ_pos 9
      | some d => exact scriptDigit?_lt found
    rw [scriptValue_concat, List.length_append, List.length_singleton, Nat.pow_succ]
    omega

end HomeControl.Text
