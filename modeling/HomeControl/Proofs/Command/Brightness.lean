import HomeControl.Proofs.Command.Grammar
import HomeControl.Proofs.Text
/-!
Brightnesses in digits. Whether a word may be a brightness is asked of its spelling, and its number is
read from it afterwards; the two do not always agree. Numbers in ASCII digits, with no zeros in front,
are understood as what they are. Others are told as out of range, whatever their number is, or passed
over.
-/

namespace HomeControl

open Text

namespace Word

def value (word : String) : Nat :=
  scriptValue (percentBody word)

/-- One or two ASCII digits, a hundred, or zeros. -/
def isPlain (word : String) : Bool :=
  (percentBody word).all Char.isDigit &&
    ((percentBody word).length ≤ 2 || percentBody word == "100".toList ||
      (percentBody word).all (· == '0'))

variable {word : String}

theorem number_iff : isNumber word = true ↔
    percentBody word ≠ [] ∧ ∀ c ∈ percentBody word, isScriptDigit c = true := by
  simp [isNumber]

theorem isPercent_iff (number : isNumber word = true) : isPercent word = true ↔
    (percentBody word).length ≤ 2 ∨ percentBody word = "100".toList ∨
      ∀ c ∈ percentBody word, c = '0' := by
  obtain ⟨some, digits⟩ := number_iff.mp number
  have whole : (percentBody word).all isScriptDigit = true := List.all_eq_true.mpr digits
  have positive : 0 < (percentBody word).length := List.length_pos_of_ne_nil some
  simp [isPercent, whole, positive, List.isEmpty_eq_false_iff.mpr some, or_assoc]

theorem isPlain_iff (number : isNumber word = true) : isPlain word = true ↔
    isPercent word = true ∧ ∀ c ∈ percentBody word, c.isDigit = true := by
  rw [isPercent_iff number]
  simp [isPlain, and_comm, or_assoc]

theorem percent_digits (h : isPercent word = true) (number : isNumber word = true)
    (long : 2 < (percentBody word).length) : isPlain word = true := by
  refine (isPlain_iff number).mpr ⟨h, ?_⟩
  rcases (isPercent_iff number).mp h with short | hundred | zeros
  · omega
  · simp [hundred]
  · intro c inside
    rw [zeros c inside]
    rfl

theorem value_plain (number : isNumber word = true) (plain : isPlain word = true) :
    value word = digitsValue (percentBody word) ∧ value word ≤ 100 := by
  obtain ⟨percent, digits⟩ := (isPlain_iff number).mp plain
  have same : value word = digitsValue (percentBody word) := scriptValue_ascii digits
  refine ⟨same, ?_⟩
  rcases (isPercent_iff number).mp percent with short | hundred | zeros
  · have small : value word < 10 ^ (percentBody word).length := scriptValue_lt _
    have least : 10 ^ (percentBody word).length ≤ 10 ^ 2 := Nat.pow_le_pow_right (by decide) short
    omega
  · rw [same, hundred]
    decide
  · rw [same, List.eq_replicate_of_mem zeros, ← List.append_nil (List.replicate _ _),
      digitsValue_replicate_zero]
    decide

theorem long_of_large (large : 100 < value word) : 2 < (percentBody word).length := by
  by_contra short
  have bound : value word < 10 ^ (percentBody word).length := scriptValue_lt _
  have least : 10 ^ (percentBody word).length ≤ 10 ^ 2 :=
    Nat.pow_le_pow_right (by decide) (by omega)
  omega

theorem dropWhile_digits {cs : List Char} (digits : ∀ c ∈ cs, isScriptDigit c = true) :
    cs.dropWhile (· == '%') = cs := by
  cases cs with
  | nil => rfl
  | cons c rest =>
    have other : (c == '%') = false := by
      refine beq_eq_false_iff_ne.mpr ?_
      rintro rfl
      exact absurd (digits '%' List.mem_cons_self) (by decide)
    rw [List.dropWhile_cons, other]
    rfl

theorem percent?_number (number : isNumber word = true) :
    percent? word = (natUpTo? 255 (percentBody word)).map fun n => (min n 100).toUInt8 := by
  have digits := (number_iff.mp number).2
  suffices body : (word.toList.reverse.dropWhile (· == '%')).reverse = percentBody word by
    rw [percent?, body]
  unfold percentBody at digits ⊢
  split at digits
  · rename_i rest ends
    have still : rest.dropWhile (· == '%') = rest :=
      dropWhile_digits fun c inside => digits c (List.mem_reverse.mpr inside)
    rw [ends, List.dropWhile_cons, if_pos (beq_self_eq_true '%'), still]
  · have still : word.toList.reverse.dropWhile (· == '%') = word.toList.reverse :=
      dropWhile_digits fun c inside => digits c (List.mem_reverse.mp inside)
    rw [still, List.reverse_reverse]

theorem percent?_plain (number : isNumber word = true) (plain : isPlain word = true) :
    percent? word = some (value word).toUInt8 := by
  obtain ⟨same, small⟩ := value_plain number plain
  have digits := ((isPlain_iff number).mp plain).2
  rw [percent?_number number, natUpTo?_digits 255 (number_iff.mp number).1 digits, ← same,
    if_pos (by omega), Option.map_some, Nat.min_eq_left small]

theorem toNat_toUInt8 {n : Nat} (small : n ≤ 100) : n.toUInt8.toNat = n := by
  simp only [Nat.toUInt8, UInt8.toNat_ofNat']
  omega

theorem percent?_other (number : isNumber word = true)
    (other : ¬ ∀ c ∈ percentBody word, c.isDigit = true) : percent? word = none := by
  have digits := (number_iff.mp number).2
  have unsigned : (percentBody word).head? ≠ some '+' := by
    intro plus
    exact absurd (digits '+' (List.mem_of_mem_head? plus)) (by decide)
  have some : (percentBody word).all Char.isDigit = false := by
    rw [Bool.eq_false_iff]
    exact fun all => other (List.all_eq_true.mp all)
  rw [percent?_number number, natUpTo?_unsigned 255 unsigned, some]
  simp

theorem isFlip_number (number : isNumber word = true) : isFlip word = false :=
  contains_number (by decide +kernel) number

theorem isTimeKeyword_number (number : isNumber word = true) : isTimeKeyword word = false :=
  contains_number (by decide +kernel) number

end Word

namespace Situation

variable {s : Situation} {timed : Bool} {text word : String} {n : Node}

theorem brightnessWord_number (number : Word.isNumber word = true) :
    brightnessWord word =
      if Word.isPlain word then .percent (Word.value word)
      else if (Word.percentBody word).length ≤ 2 then .ignored
      else .outOfRange := by
  have shape := Word.isPlain_iff number
  unfold brightnessWord
  by_cases percent : Word.isPercent word = true
  · rw [if_pos percent]
    by_cases digits : ∀ c ∈ Word.percentBody word, c.isDigit = true
    · have plain := shape.mpr ⟨percent, digits⟩
      have small := (Word.value_plain number plain).2
      simp only [if_pos plain, Word.percent?_plain number plain, Word.toNat_toUInt8 small]
    · have strange : ¬ Word.isPlain word = true := fun plain => digits (shape.mp plain).2
      have short : (Word.percentBody word).length ≤ 2 := by
        by_contra long
        exact strange (Word.percent_digits percent number (by omega))
      rw [if_neg strange, if_pos short, Word.percent?_other number digits]
  · have strange : ¬ Word.isPlain word = true := fun plain => percent (shape.mp plain).1
    have long : ¬ (Word.percentBody word).length ≤ 2 :=
      fun short => percent ((Word.isPercent_iff number).mpr (Or.inl short))
    rw [if_neg percent, if_pos number, if_neg strange, if_neg long]

theorem readBrightness_number (number : Word.isNumber word = true) (nodes : List Node)
    (rest : List String) :
    readBrightness nodes (word :: rest) =
      if Word.isPlain word then (.ofNodes nodes (brightnessNode (Word.value word)), some rest)
      else if (Word.percentBody word).length ≤ 2 then (.empty, some rest)
      else (⟨[], [.brightnessRange]⟩, some rest) := by
  simp only [readBrightness, Word.isTimeKeyword_number number, brightnessWord_number number,
    Bool.false_eq_true, if_false]
  by_cases plain : Word.isPlain word = true
  · rw [if_pos plain, if_pos plain]
  · rw [if_neg plain, if_neg plain]
    by_cases short : (Word.percentBody word).length ≤ 2
    · rw [if_pos short, if_pos short]
    · rw [if_neg short, if_neg short]

theorem readParts_number (number : Word.isNumber word = true) (plain : s.isColor word = false)
    (nodes : List Node) (rest : List String) :
    s.readParts nodes (word :: rest) = readBrightness nodes (word :: rest) := by
  have switched : readSwitch nodes (word :: rest) = (.empty, word :: rest) := by
    simp only [readSwitch, switchCapability?, Word.isOn_number number, Word.isOff_number number,
      Word.isFlip_number number]
    rfl
  have colored : s.readColor nodes (word :: rest) = (.empty, word :: rest) := by
    rw [isColor, Option.isSome_eq_false_iff, Option.isNone_iff_eq_none] at plain
    simp only [readColor, plain]
  simp only [readParts, switched, colored]
  rfl

def extremes (n : Node) (percent : Nat) : List Setter :=
  (if percent = 100 && n.hasSet Attr.on then [.state n.id true] else []) ++
    if percent = 0 && n.hasSet Attr.off then [.state n.id false] else []

theorem ofNodes_brightness (lit : n.hasSet Attr.brightness = true) (percent : Nat) :
    Draft.ofNodes [n] (brightnessNode percent) =
      .ofSetters (.brightness n.id percent :: extremes n percent) := by
  simp [Draft.ofNodes, brightnessNode, lit, extremes, Draft.append, Draft.empty, Draft.ofSetters]

section Behind

variable (said : s.SetCommand timed text [n.id] [word])
  (own : s.topology.resolve timed n.id = [n]) (lit : n.hasSet Attr.brightness = true)
  (plain : s.isColor word = false) (number : Word.isNumber word = true)

include plain number lit in
theorem readParts_lit (rest : List String) :
    s.readParts [n] (word :: rest) =
      if Word.isPlain word then
        (.ofSetters (.brightness n.id (Word.value word) :: extremes n (Word.value word)), some rest)
      else if (Word.percentBody word).length ≤ 2 then (.empty, some rest)
      else (⟨[], [.brightnessRange]⟩, some rest) := by
  rw [readParts_number number plain, readBrightness_number number, ofNodes_brightness lit]

include said own lit plain number

theorem compile_number :
    s.compile timed text =
      if Word.isPlain word then
        .ofSetters (.brightness n.id (Word.value word) :: extremes n (Word.value word))
      else if (Word.percentBody word).length ≤ 2 then .failure .nothingToDo
      else .failure .brightnessRange := by
  have node : uniqueNodes ([n.id].flatMap (s.topology.resolve timed)) = [n] := by
    simp [own, uniqueNodes]
  rw [said.compile_eq, node, setNodes_eq, readParts_lit lit plain number]
  by_cases clear : Word.isPlain word = true
  · simp only [if_pos clear]
    rfl
  · simp only [if_neg clear]
    by_cases short : (Word.percentBody word).length ≤ 2
    · simp only [if_pos short]
      rfl
    · simp only [if_neg short]
      rfl

/-- Behind a node a number sets its brightness if it is plain. Else it is out of range, whatever it is,
or with no more than two digits it is passed over. So all numbers beyond a hundred are told as such,
and those up to a hundred set the brightness just if they are plain. -/
theorem number_is_brightness :
    s.compile timed text =
        (if Word.isPlain word then
          .ofSetters (.brightness n.id (Word.value word) :: extremes n (Word.value word))
        else if (Word.percentBody word).length ≤ 2 then .failure .nothingToDo
        else .failure .brightnessRange) ∧
      ((Word.value word ≤ 100 ∧
            .brightness n.id (Word.value word) ∈ (s.compile timed text).setters ∨
          100 < Word.value word ∧ .brightnessRange ∈ (s.compile timed text).errors) ↔
        (Word.value word ≤ 100 → Word.isPlain word = true)) ∧
      ∀ rest, s.readParts [n] (word :: rest) = (.empty, some rest) ↔
        Word.isPlain word = false ∧ (Word.percentBody word).length ≤ 2 := by
  have exact := compile_number said own lit plain number
  have parts := readParts_lit lit plain number
  rw [exact]
  by_cases clear : Word.isPlain word = true
  · have small := (Word.value_plain number clear).2
    simp only [parts, if_pos clear]
    refine ⟨trivial, iff_of_true (Or.inl ⟨small, List.mem_cons_self⟩) fun _ => clear,
      fun rest => ?_⟩
    simp [clear, Draft.ofSetters, Draft.empty]
  · have strange := Bool.eq_false_iff.mpr clear
    simp only [parts, strange]
    by_cases short : (Word.percentBody word).length ≤ 2
    · have small : ¬ 100 < Word.value word := fun large => by
        have long := Word.long_of_large large
        omega
      simp only [if_pos short]
      refine ⟨trivial, iff_of_false ?_ ?_, fun rest => by simp [short]⟩
      · rintro (⟨-, set⟩ | ⟨large, -⟩)
        · cases set
        · exact small large
      · intro all
        cases all (by omega)
    · simp only [if_neg short]
      refine ⟨trivial, ?_, fun rest => by simp [short, Draft.empty]⟩
      constructor
      · rintro (⟨-, set⟩ | ⟨large, -⟩) low
        · cases set
        · omega
      · intro all
        refine Or.inr ⟨?_, List.mem_singleton.mpr rfl⟩
        by_contra low
        cases all (by omega)

end Behind

theorem number_is_brightness_seven :
    let bulb : Device := ⟨"bulb", Device.virtualKind, [], [Attr.on, Attr.brightness], false, []⟩
    let s : Situation :=
      ⟨(Controller.ofBulb bulb).topology, (Place.mk .utc none).resolver, ⟨0, 0⟩, fun _ _ => none⟩
    let lamp : Node := ⟨"lamp", bulb, none, none, []⟩
    s.SetCommand false "set lamp 7%" ["lamp"] ["7%"] ∧
      s.topology.resolve false "lamp" = [lamp] ∧ lamp.hasSet Attr.brightness = true ∧
      s.isColor "7%" = false ∧ Word.isNumber "7%" = true ∧
      s.compile false "set lamp 7%" = .ofSetters [.brightness "lamp" 7] := by
  intro bulb s lamp
  have said : s.SetCommand false "set lamp 7%" ["lamp"] ["7%"] :=
    ⟨by decide +kernel, by decide, by decide, by decide⟩
  have own : s.topology.resolve false lamp.id = [lamp] := by decide
  have plain : s.isColor "7%" = false := by decide +kernel
  have number : Word.isNumber "7%" = true := by decide +kernel
  obtain ⟨set, -, -⟩ := number_is_brightness said own (by decide) plain number
  refine ⟨said, own, by decide, plain, number, set.trans ?_⟩
  decide +kernel

/-- Seven with zeros in front is told as out of range, and an Arabic seven is passed over. -/
theorem seven_is_out_of_range :
    let bulb : Device := ⟨"bulb", Device.virtualKind, [], [Attr.on, Attr.brightness], false, []⟩
    let s : Situation :=
      ⟨(Controller.ofBulb bulb).topology, (Place.mk .utc none).resolver, ⟨0, 0⟩, fun _ _ => none⟩
    (∀ word ∈ ["007", "٧"], s.isColor word = false ∧ Word.isNumber word = true ∧
        Word.value word = 7 ∧ s.topology.resolve false word = []) ∧
      s.compile false "set lamp 007" = .failure .brightnessRange ∧
      s.compile false "set lamp ٧" = .failure .nothingToDo ∧
      s.compile false "set lamp on ٧" = .ofSetters [.state "lamp" true] := by
  intro bulb s
  refine ⟨by decide +kernel, by decide +kernel, by decide +kernel, by decide +kernel⟩

end Situation

end HomeControl
