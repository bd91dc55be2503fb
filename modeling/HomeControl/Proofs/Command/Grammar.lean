import HomeControl.Proofs.Command.Errors
import HomeControl.Proofs.Command.Members
/-!
The grammar of `set`. Behind its targets come a switch, a color, a brightness and a time, in this order,
and each may be left out. Words can be of several kinds: `on` is a switch and a brightness, six digits
are a number and a color, and a color may have the name of a switch. A word is taken by the first kind
that it fits and is not read again; even so all words of the grammar are accepted, and no others.
-/

namespace HomeControl

open Text

/-- Words of some kinds in their order, each of which may be left out, and a last part. -/
inductive Phrase (last : List String → Prop) : List (String → Bool) → List String → Prop
  | last {words} : last words → Phrase last [] words
  | skip {kind kinds words} : Phrase last kinds words → Phrase last (kind :: kinds) words
  | take {kind kinds word words} :
    kind word = true → Phrase last kinds words → Phrase last (kind :: kinds) (word :: words)

def afterOne (kind : String → Bool) : List String → List String
  | [] => []
  | word :: rest => if kind word then rest else word :: rest

section Phrases

variable {last : List String → Prop} {kind : String → Bool} {kinds : List (String → Bool)}

/-- A phrase is still one without its first word, unless that begins the last part. -/
theorem Phrase.tail {word : String} {rest : List String} (h : Phrase last kinds (word :: rest))
    (apart : ¬ last (word :: rest)) : Phrase last kinds rest := by
  generalize same : word :: rest = words at h
  induction h with
  | last ends =>
    subst same
    exact absurd ends apart
  | skip _ ih => exact .skip (ih same)
  | take _ more _ =>
    cases same
    exact .skip more

theorem phrase_cons_iff (apart : ∀ word rest, kind word = true → ¬ last (word :: rest))
    (words : List String) :
    Phrase last (kind :: kinds) words ↔ Phrase last kinds (afterOne kind words) := by
  constructor
  · intro h
    cases h with
    | skip h =>
      cases words with
      | nil => exact h
      | cons word rest =>
        by_cases fits : kind word = true
        · rw [afterOne, if_pos fits]
          -- The word may have been left for a later kind; without it the rest is still a phrase.
          exact h.tail (apart word rest fits)
        · rw [afterOne, if_neg fits]
          exact h
    | take fits h =>
      rw [afterOne, if_pos fits]
      exact h
  · intro h
    cases words with
    | nil => exact .skip h
    | cons word rest =>
      by_cases fits : kind word = true
      · rw [afterOne, if_pos fits] at h
        exact .take fits h
      · rw [afterOne, if_neg fits] at h
        exact .skip h

theorem phrase_nil_iff (words : List String) : Phrase last [] words ↔ last words := by
  constructor
  · intro h
    cases h with
    | last ends => exact ends
  · exact .last

end Phrases

namespace Word

def isSwitch (word : String) : Bool :=
  isOn word || isOff word || isFlip word

def isLight (word : String) : Bool :=
  isPercent word || isOn word || isOff word

theorem isTimeKeyword_iff (word : String) :
    isTimeKeyword word = true ↔ word ∈ ["at", "in", "until", "for", "over"] := by
  rw [isTimeKeyword, List.contains_iff_mem]

theorem of_isTimeKeyword {P : String → Prop}
    (each : ∀ w ∈ ["at", "in", "until", "for", "over"], P w) {word : String}
    (h : isTimeKeyword word = true) : P word :=
  each word ((isTimeKeyword_iff word).mp h)

theorem isSwitch_keyword {word : String} (h : isTimeKeyword word = true) : isSwitch word = false :=
  of_isTimeKeyword (P := fun w => isSwitch w = false) (by decide +kernel) h

theorem isLight_keyword {word : String} (h : isTimeKeyword word = true) : isLight word = false :=
  of_isTimeKeyword (P := fun w => isLight w = false) (by decide +kernel) h

theorem toList_percentBody (word : String) :
    ∃ rest, word.toList = percentBody word ++ rest := by
  unfold percentBody
  split
  · rename_i rest ends
    exact ⟨['%'], by rw [← List.reverse_reverse word.toList, ends, List.reverse_cons]⟩
  · exact ⟨[], (List.append_nil _).symm⟩

theorem head_number {word : String} (h : isNumber word = true) :
    ∃ c ∈ word.toList.head?, isScriptDigit c = true := by
  obtain ⟨rest, whole⟩ := toList_percentBody word
  unfold isNumber at h
  cases body : percentBody word with
  | nil =>
    rw [body] at h
    cases h
  | cons c more =>
    rw [body] at h whole
    simp only [List.all_cons, Bool.and_eq_true] at h
    refine ⟨c, ?_, h.2.1⟩
    rw [whole]
    rfl

theorem startsWith_number {start word : String} {c : Char} (first : start.toList.head? = some c)
    (letter : isScriptDigit c = false) (h : isNumber word = true) : startsWith start word = false := by
  obtain ⟨d, begins, digit⟩ := head_number h
  refine Bool.eq_false_iff.mpr fun starts => ?_
  obtain ⟨rest, whole⟩ := List.isPrefixOf_iff_prefix.mp starts
  rw [← whole, List.head?_append, first] at begins
  cases begins
  exact absurd digit (by simp [letter])

theorem contains_number {words : List String} (none : ∀ w ∈ words, isNumber w = false)
    {word : String} (h : isNumber word = true) : words.contains word = false := by
  refine Bool.eq_false_iff.mpr fun inside => ?_
  have letters := none word (List.contains_iff_mem.mp inside)
  rw [h] at letters
  cases letters

theorem isOn_number {word : String} (h : isNumber word = true) : isOn word = false := by
  unfold isOn
  rw [contains_number (by decide +kernel) h, startsWith_number (c := 'm') rfl (by decide) h]
  rfl

theorem isOff_number {word : String} (h : isNumber word = true) : isOff word = false := by
  unfold isOff
  rw [contains_number (by decide +kernel) h, startsWith_number (c := 'm') rfl (by decide) h]
  rfl

end Word

/-- The errors of words that do not make a phrase, and of times that cannot be understood. -/
def PlanError.isAboutGrammar : PlanError → Bool
  | brightnessRange => true
  | unknownArgument _ => true
  | remaining _ => true
  | missingDuration => true
  | invalidDuration _ => true
  | missingTime _ => true
  | invalidTime _ _ => true
  | _ => false

def PlanError.Grammatical (errors : List PlanError) : Prop :=
  ∀ e ∈ errors, e.isAboutGrammar = false

namespace PlanError

theorem grammatical_nil : Grammatical [] := List.forall_mem_nil _

theorem grammatical_one_iff (e : PlanError) : Grammatical [e] ↔ e.isAboutGrammar = false :=
  List.forall_mem_singleton

theorem grammatical_append_iff (xs ys : List PlanError) :
    Grammatical (xs ++ ys) ↔ Grammatical xs ∧ Grammatical ys :=
  List.forall_mem_append

theorem grammatical_nodes {errors : List PlanError} (h : ∀ e ∈ errors, e.isAboutNodes = true) :
    Grammatical errors := by
  intro e told
  have node := h e told
  cases e <;> first | rfl | cases node

theorem isAboutGrammar_time {e : PlanError} (h : e.isAboutTimes = true) :
    e.isAboutGrammar = true := by
  cases e <;> first | rfl | cases h

end PlanError

open PlanError

namespace Situation

variable (s : Situation)

def isColor (word : String) : Bool :=
  (ColorTable.find? s.topology.colors word).isSome

/-- No time, a point in time, or a span of time. -/
inductive TimeWords : List String → Prop
  | none : TimeWords []
  | point {keyword word spec instant} :
    keyword ∈ ["at", "until"] → TimeSpec.parse word = .ok spec →
      s.resolver.nextAfter spec s.now = .ok instant → TimeWords [keyword, word]
  | span {keyword word d} :
    keyword ∈ ["in", "for", "over"] → Duration.parse? word = some d → TimeWords [keyword, word]

/-- The words that may stand behind the targets of `set`. -/
def SetWords (words : List String) : Prop :=
  Phrase s.TimeWords [Word.isSwitch, s.isColor, Word.isLight] words

variable {s}

theorem TimeWords.keyword {word : String} {rest : List String} (h : s.TimeWords (word :: rest)) :
    Word.isTimeKeyword word = true := by
  rw [Word.isTimeKeyword_iff]
  cases h with
  | point among => revert word; decide
  | span among => revert word; decide

theorem TimeWords.apart {kind : String → Bool}
    (other : ∀ word, Word.isTimeKeyword word = true → kind word = false) (word : String)
    (rest : List String) (fits : kind word = true) : ¬ s.TimeWords (word :: rest) := by
  intro time
  rw [other word time.keyword] at fits
  cases fits

theorem isColor_keyword (plain : ∀ id ∈ s.topology.colors.keys, Word.isTimeKeyword id = false)
    {word : String} (h : Word.isTimeKeyword word = true) : s.isColor word = false := by
  have unwritten : (Color.ofHex? word).or (Color.ofLiteral? word) = none :=
    Word.of_isTimeKeyword (P := fun w => (Color.ofHex? w).or (Color.ofLiteral? w) = none)
      (by decide +kernel) h
  have unnamed : s.topology.colors.get? word = none := by
    refine Option.eq_none_iff_forall_ne_some.mpr fun color found => ?_
    have other := plain word (Keyed.mem_keys_of_get? found)
    rw [h] at other
    cases other
  unfold isColor ColorTable.find?
  rw [unnamed, unwritten]
  rfl

variable (s)

theorem timeAt_iff (word : String) :
    (∃ due, s.timeAt word = .ok due) ↔
      ∃ spec instant, TimeSpec.parse word = .ok spec ∧
        s.resolver.nextAfter spec s.now = .ok instant := by
  unfold timeAt
  cases read : TimeSpec.parse word with
  | error e => simp [Except.bind]
  | ok spec =>
    cases found : s.resolver.nextAfter spec s.now with
    | error e => simp [Except.bind, found]
    | ok instant => simp [Except.bind, found]

theorem duration_iff (word : String) :
    (∃ d, duration word = .ok d) ↔ ∃ d, Duration.parse? word = some d := by
  unfold duration
  cases Duration.parse? word with
  | none => simp
  | some d => simp

theorem timeIn_iff (word : String) :
    (∃ due, s.timeIn word = .ok due) ↔ ∃ d, Duration.parse? word = some d := by
  rw [← duration_iff]
  unfold timeIn
  cases duration word with
  | error e => simp [Except.map]
  | ok d => simp [Except.map]

theorem restore_grammatical (ws : List Setter) (due : Int) :
    Grammatical (s.restore ws due).errors := by
  intro e told
  obtain ⟨node, attr, rfl⟩ := s.restore_errors ws due e told
  rfl

theorem grammatical_map_iff {α : Type} {time : Except PlanError α} {plan : α → Plan}
    (good : ∀ x, Grammatical (plan x).errors) (bad : ∀ e, time = .error e → e.isAboutTimes = true) :
    Grammatical (match time.map plan with
      | .ok plan => plan
      | .error e => .failure e).errors ↔ ∃ x, time = .ok x := by
  cases time with
  | ok x => exact iff_of_true (good x) ⟨x, rfl⟩
  | error e =>
    refine iff_of_false ?_ nofun
    intro told
    have grammar := (grammatical_one_iff e).mp told
    rw [isAboutGrammar_time (bad e rfl)] at grammar
    cases grammar

theorem timeWords_point_iff {keyword : String} (among : keyword ∈ ["at", "until"]) (word : String) :
    s.TimeWords [keyword, word] ↔ ∃ due, s.timeAt word = .ok due := by
  rw [s.timeAt_iff]
  constructor
  · intro h
    cases h with
    | point _ read found => exact ⟨_, _, read, found⟩
    | span other => exact absurd other (by revert keyword; decide)
  · rintro ⟨spec, instant, read, found⟩
    exact .point among read found

theorem timeWords_span_iff {keyword : String} (among : keyword ∈ ["in", "for", "over"])
    (word : String) :
    s.TimeWords [keyword, word] ↔ ∃ d, Duration.parse? word = some d := by
  constructor
  · intro h
    cases h with
    | point other => exact absurd other (by revert keyword; decide)
    | span _ read => exact ⟨_, read⟩
  · rintro ⟨d, read⟩
    exact .span among read

theorem modify_grammatical_iff {keyword : String} (h : Word.isTimeKeyword keyword = true)
    (word : String) (ws : List Setter) :
    Grammatical (s.modify keyword word ws).errors ↔ s.TimeWords [keyword, word] := by
  have known := (Word.isTimeKeyword_iff keyword).mp h
  simp only [List.mem_cons, List.not_mem_nil, or_false] at known
  rcases known with rfl | rfl | rfl | rfl | rfl
  · rw [s.timeWords_point_iff (by decide)]
    exact grammatical_map_iff (fun _ => grammatical_nil) fun _ => s.timeAt_error
  · rw [s.timeWords_span_iff (by decide), ← s.timeIn_iff]
    exact grammatical_map_iff (fun _ => grammatical_nil) fun _ => s.timeIn_error
  · rw [s.timeWords_point_iff (by decide)]
    exact grammatical_map_iff (s.restore_grammatical ws) fun _ => s.timeAt_error
  · rw [s.timeWords_span_iff (by decide), ← s.timeIn_iff]
    exact grammatical_map_iff (s.restore_grammatical ws) fun _ => s.timeIn_error
  · rw [s.timeWords_span_iff (by decide), ← duration_iff]
    refine grammatical_map_iff (fun d => ?_) fun _ => duration_error
    rw [s.transition_errors]
    exact grammatical_nil

theorem leftover_grammatical_iff (words : List String) :
    Grammatical (leftover words) ↔ words = [] := by
  cases words with
  | nil => exact iff_of_true grammatical_nil rfl
  | cons word rest =>
    refine iff_of_false ?_ (List.cons_ne_nil _ _)
    intro told
    cases (grammatical_one_iff _).mp told

theorem readModifier_grammatical_iff (ws : List Setter) (words : List String) :
    Grammatical (s.readModifier ws words).errors ↔ s.TimeWords words := by
  unfold readModifier
  split
  · rename_i keyword rest
    split
    · rename_i known
      split
      · rename_i word more
        rw [grammatical_append_iff, s.modify_grammatical_iff known, leftover_grammatical_iff]
        constructor
        · rintro ⟨time, rfl⟩
          exact time
        · intro time
          cases time with
          | point among read found => exact ⟨.point among read found, rfl⟩
          | span among read => exact ⟨.span among read, rfl⟩
      · refine iff_of_false ?_ nofun
        intro told
        have other := (grammatical_one_iff _).mp told
        unfold missing at other
        split at other
        · cases other
        · cases other
    · rename_i other
      refine iff_of_false ?_ fun time => other time.keyword
      rw [leftover_grammatical_iff]
      exact List.cons_ne_nil _ _
  · exact iff_of_true grammatical_nil .none

theorem readSwitch_left (nodes : List Node) (words : List String) :
    (readSwitch nodes words).2 = afterOne Word.isSwitch words := by
  unfold readSwitch
  split
  · rfl
  · rename_i word rest
    have known : (switchCapability? word).isSome = Word.isSwitch word := by
      unfold switchCapability? Word.isSwitch
      cases Word.isOn word <;> cases Word.isOff word <;> cases Word.isFlip word <;> rfl
    rw [afterOne, ← known]
    cases switchCapability? word with
    | none => rfl
    | some capability => rfl

theorem readColor_left (nodes : List Node) (words : List String) :
    (s.readColor nodes words).2 = afterOne s.isColor words := by
  unfold readColor
  split
  · rfl
  · rename_i word rest
    rw [afterOne, isColor]
    cases ColorTable.find? s.topology.colors word with
    | none => rfl
    | some color => rfl

theorem brightnessWord_cases (word : String) :
    (Word.isLight word = true ∧
        (brightnessWord word = .ignored ∨ ∃ p, brightnessWord word = .percent p)) ∨
      (Word.isLight word = false ∧
        (brightnessWord word = .outOfRange ∨ brightnessWord word = .unknown)) := by
  unfold brightnessWord Word.isLight
  split
  · rename_i percent
    refine Or.inl ⟨by rw [percent]; rfl, ?_⟩
    split
    · exact Or.inr ⟨_, rfl⟩
    · exact Or.inl rfl
  · rename_i percent
    rw [Bool.eq_false_iff.mpr percent]
    split
    · rename_i number
      -- A number out of range is refused before `on` and `off` are tried, which it is not anyway.
      rw [Word.isOn_number number, Word.isOff_number number]
      exact Or.inr ⟨rfl, Or.inl rfl⟩
    · split
      · rename_i on
        rw [on]
        exact Or.inl ⟨rfl, Or.inr ⟨_, rfl⟩⟩
      · rename_i on
        rw [Bool.eq_false_iff.mpr on]
        split
        · rename_i off
          exact Or.inl ⟨off, Or.inr ⟨_, rfl⟩⟩
        · rename_i off
          exact Or.inr ⟨Bool.eq_false_iff.mpr off, Or.inr rfl⟩

theorem readBrightness_cons (nodes : List Node) (word : String) (rest : List String) :
    (Grammatical (readBrightness nodes (word :: rest)).1.errors ∧
        (readBrightness nodes (word :: rest)).2 = some (afterOne Word.isLight (word :: rest))) ∨
      (¬ Grammatical (readBrightness nodes (word :: rest)).1.errors ∧
        Word.isLight word = false ∧ Word.isTimeKeyword word = false) := by
  by_cases keyword : Word.isTimeKeyword word = true
  · refine Or.inl ?_
    rw [readBrightness, if_pos keyword, afterOne, Word.isLight_keyword keyword]
    exact ⟨grammatical_nil, rfl⟩
  · rw [readBrightness, if_neg keyword, afterOne]
    rcases brightnessWord_cases word with ⟨light, ignored | ⟨p, percent⟩⟩ | ⟨dark, range | unknown⟩
    · rw [ignored, if_pos light]
      exact Or.inl ⟨grammatical_nil, rfl⟩
    · rw [percent, if_pos light]
      exact Or.inl ⟨grammatical_nodes (ofNodes_errors (brightnessNode_errors p)), rfl⟩
    · rw [range]
      refine Or.inr ⟨fun told => ?_, dark, Bool.eq_false_iff.mpr keyword⟩
      cases (grammatical_one_iff _).mp told
    · rw [unknown]
      refine Or.inr ⟨fun told => ?_, dark, Bool.eq_false_iff.mpr keyword⟩
      cases (grammatical_one_iff _).mp told

theorem readEnd_grammatical_iff (nodes : List Node) (words : List String) :
    (Grammatical (readBrightness nodes words).1.errors ∧
        ∀ left ∈ (readBrightness nodes words).2, s.TimeWords left) ↔
      Phrase s.TimeWords [Word.isLight] words := by
  rw [phrase_cons_iff (TimeWords.apart fun _ => Word.isLight_keyword), phrase_nil_iff]
  cases words with
  | nil => exact iff_of_true ⟨grammatical_nil, by rintro left ⟨⟩; exact .none⟩ .none
  | cons word rest =>
    rcases readBrightness_cons nodes word rest with ⟨quiet, left⟩ | ⟨told, dark, other⟩
    · rw [left]
      simp [quiet]
    · refine iff_of_false (fun h => told h.1) fun time => ?_
      rw [afterOne, dark] at time
      have keyword := time.keyword
      rw [other] at keyword
      cases keyword

theorem setNodes_errors (nodes : List Node) (words : List String) :
    Grammatical (s.setNodes nodes words).errors ↔
      Grammatical (s.readParts nodes words).1.errors ∧
        ∀ left ∈ (s.readParts nodes words).2, s.TimeWords left := by
  rw [setNodes_eq]
  obtain ⟨draft, left⟩ := s.readParts nodes words
  cases left with
  | none => simp
  | some left =>
    simp only
    rw [grammatical_append_iff, s.readModifier_grammatical_iff]
    simp

theorem setNodes_grammatical_iff
    (plain : ∀ id ∈ s.topology.colors.keys, Word.isTimeKeyword id = false) (nodes : List Node)
    (words : List String) : Grammatical (s.setNodes nodes words).errors ↔ s.SetWords words := by
  rw [SetWords, phrase_cons_iff (TimeWords.apart fun _ => Word.isSwitch_keyword),
    phrase_cons_iff (TimeWords.apart fun _ => isColor_keyword plain), setNodes_errors, readParts]
  simp only [Draft.append, grammatical_append_iff, readSwitch_left, readColor_left]
  rw [← s.readEnd_grammatical_iff nodes]
  have switched := grammatical_nodes (readSwitch_errors nodes words)
  have colored := grammatical_nodes (s.readColor_errors nodes (afterOne Word.isSwitch words))
  simp only [switched, colored, true_and]

/-- A text with one command, a `set`: its targets, as many words as stand for nodes, and the others. -/
structure SetCommand (timed : Bool) (text : String) (targets args : List String) : Prop where
  said : (commandsOf text).map words = ["set" :: (targets ++ args)]
  some : targets ≠ []
  resolved : ∀ w ∈ targets, s.topology.resolve timed w ≠ []
  rest : ∀ w ∈ args.head?, s.topology.resolve timed w = []

theorem checked_grammatical_iff (p : Plan) :
    Grammatical p.checked.errors ↔ Grammatical p.errors := by
  unfold Plan.checked
  split
  · rw [Plan.note, grammatical_append_iff, grammatical_one_iff]
    exact and_iff_left rfl
  · exact Iff.rfl

variable {s}

theorem SetCommand.compile_eq {timed : Bool} {text : String} {targets args : List String}
    (h : s.SetCommand timed text targets args) :
    s.compile timed text =
      (s.setNodes (uniqueNodes (targets.flatMap (s.topology.resolve timed))) args).checked := by
  obtain ⟨command, one, spoken⟩ := List.map_eq_singleton_iff.mp h.said
  have found := s.targets_append h.resolved h.rest
  have somebody := s.uniqueNodes_ne_nil h.some h.resolved
  rw [Situation.compile_eq, batch, one]
  simp only [List.foldl_cons, List.foldl_nil, Plan.empty_merge, Situation.command, spoken]
  rw [set_eq found somebody]

/-- Where no color has the name of a time keyword, `set` understands just the words of its grammar, for
whatever nodes. -/
theorem set_understands_its_grammar {timed : Bool} {text : String} {targets args : List String}
    (h : s.SetCommand timed text targets args)
    (plain : ∀ id ∈ s.topology.colors.keys, Word.isTimeKeyword id = false) :
    Grammatical (s.compile timed text).errors ↔ s.SetWords args := by
  rw [h.compile_eq, checked_grammatical_iff, s.setNodes_grammatical_iff plain]

theorem set_understands_its_grammar_twice :
    let bulb : Device := ⟨"bulb", Device.virtualKind, [], [Attr.on, Attr.brightness], false, []⟩
    let s : Situation :=
      ⟨(Controller.ofBulb bulb).topology, (Place.mk .utc none).resolver, ⟨0, 0⟩, fun _ _ => none⟩
    let args := ["on", "on", "for", "5m"]
    s.SetCommand false "set lamp on on for 5m" ["lamp"] args ∧
      (∀ id ∈ s.topology.colors.keys, Word.isTimeKeyword id = false) ∧
      Grammatical (s.compile false "set lamp on on for 5m").errors := by
  intro bulb s args
  have command : s.SetCommand false "set lamp on on for 5m" ["lamp"] args :=
    ⟨by decide +kernel, by decide, by decide, by decide⟩
  have plain : ∀ id ∈ s.topology.colors.keys, Word.isTimeKeyword id = false := by decide
  have time : s.TimeWords ["for", "5m"] := by
    have read : (Duration.parse? "5m").isSome = true := by decide +kernel
    obtain ⟨d, read⟩ := Option.isSome_iff_exists.mp read
    exact .span (by decide) read
  have phrase : s.SetWords args := .take (by decide) (.skip (.take (by decide) (.last time)))
  exact ⟨command, plain, (set_understands_its_grammar command plain).mpr phrase⟩

end Situation

end HomeControl
