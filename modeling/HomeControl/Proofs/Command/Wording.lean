import HomeControl.Proofs.Command.Expansion
import HomeControl.Proofs.Text
import Mathlib.Data.List.TakeWhile
/-!
Texts that are put together from others. A blank between two texts keeps their words apart, and a
semicolon their commands; so words that are joined by blanks are read back, and commands that are
joined by semicolons stay the same commands.
-/

namespace HomeControl

namespace Text

theorem takeWhile_append_stop {α : Type} {p : α → Bool} {c : α} (stop : p c = false)
    (xs ys : List α) : (xs ++ c :: ys).takeWhile p = xs.takeWhile p := by
  induction xs with
  | nil => simp [stop]
  | cons x rest ih =>
    simp only [List.cons_append, List.takeWhile_cons, ih]

theorem dropWhile_append_stop {α : Type} {p : α → Bool} {c : α} (stop : p c = false)
    (xs ys : List α) : (xs ++ c :: ys).dropWhile p = xs.dropWhile p ++ c :: ys := by
  induction xs with
  | nil => simp [stop]
  | cons x rest ih =>
    simp only [List.cons_append, List.dropWhile_cons, ih]
    split <;> rfl

theorem wordChars_blank {c : Char} (blank : isBlank c = true) (cs : List Char) :
    wordChars (c :: cs) = wordChars cs := by
  rw [wordChars, if_pos blank]

theorem wordChars_append {c : Char} (blank : isBlank c = true) (xs ys : List Char) :
    wordChars (xs ++ c :: ys) = wordChars xs ++ wordChars ys := by
  have stop : (!isBlank c) = false := by simp [blank]
  fun_induction wordChars xs with
  | case1 => simp [wordChars_blank blank]
  | case2 d rest blank' ih => simp [wordChars_blank blank', ih]
  | case3 d rest letter ih =>
    rw [List.cons_append, wordChars, if_neg letter, takeWhile_append_stop (p := (!isBlank ·)) stop,
      dropWhile_append_stop (p := (!isBlank ·)) stop, ih, List.cons_append]

theorem wordChars_of_blanks {cs : List Char} (blank : ∀ c ∈ cs, isBlank c = true) :
    wordChars cs = [] := by
  induction cs with
  | nil => rw [wordChars]
  | cons c rest ih =>
    obtain ⟨first, others⟩ := List.forall_mem_cons.mp blank
    rw [wordChars_blank first, ih others]

theorem wordChars_of_letters {cs : List Char} (some : cs ≠ [])
    (letters : ∀ c ∈ cs, isBlank c = false) : wordChars cs = [cs] := by
  cases cs with
  | nil => exact absurd rfl some
  | cons c rest =>
    obtain ⟨first, others⟩ := List.forall_mem_cons.mp letters
    have through : ∀ d ∈ rest, (!isBlank d) = true := by
      intro d inside
      simp [others d inside]
    rw [wordChars, if_neg (by simp [first]), List.takeWhile_eq_self_iff.mpr through,
      List.dropWhile_eq_nil_iff.mpr through, wordChars]

theorem wordChars_dropBlank (cs : List Char) : wordChars (dropBlank cs) = wordChars cs := by
  induction cs with
  | nil => rfl
  | cons c rest ih =>
    simp only [dropBlank, List.dropWhile_cons]
    split
    · rename_i blank
      rw [wordChars_blank blank]
      exact ih
    · rfl

theorem wordChars_append_blanks (xs : List Char) {ys : List Char}
    (blank : ∀ c ∈ ys, isBlank c = true) : wordChars (xs ++ ys) = wordChars xs := by
  cases ys with
  | nil => rw [List.append_nil]
  | cons c rest =>
    obtain ⟨first, others⟩ := List.forall_mem_cons.mp blank
    rw [wordChars_append first, wordChars_of_blanks others, List.append_nil]

theorem wordChars_trimChars (cs : List Char) : wordChars (trimChars cs) = wordChars cs := by
  have whole : dropBlank cs =
      trimChars cs ++ ((dropBlank cs).reverse.takeWhile isBlank).reverse := by
    have back := List.takeWhile_append_dropWhile (p := isBlank) (l := (dropBlank cs).reverse)
    have there := congrArg List.reverse back
    rw [List.reverse_append, List.reverse_reverse] at there
    exact there.symm
  rw [← wordChars_dropBlank cs, whole, wordChars_append_blanks]
  intro c inside
  exact List.mem_takeWhile_imp (List.mem_reverse.mp inside)

theorem mem_of_trimChars {ch : Char} {cs : List Char} (h : ch ∈ trimChars cs) : ch ∈ cs := by
  have front : ch ∈ dropBlank cs :=
    List.mem_reverse.mp ((List.dropWhile_sublist isBlank).subset (List.mem_reverse.mp h))
  exact (List.dropWhile_sublist isBlank).subset front

@[simp] theorem words_trim (text : String) : words (trim text) = words text := by
  simp only [words, trim, String.toList_ofList, wordChars_trimChars]

theorem words_append (x y : String) : words (x ++ " " ++ y) = words x ++ words y := by
  have cut := wordChars_append (c := ' ') (by decide) x.toList y.toList
  simp [words, cut]

theorem words_intercalate (texts : List String) :
    words (" ".intercalate texts) = texts.flatMap words := by
  induction texts with
  | nil => simp [words, wordChars]
  | cons text rest ih =>
    cases rest with
    | nil => simp
    | cons next others =>
      rw [String.intercalate_cons_cons, words_append, ih]
      rfl

theorem words_do (line : String) : words ("do " ++ line) = "do" :: words line :=
  (words_append "do" line).trans (by rw [show words "do" = ["do"] by decide +kernel]; rfl)

def ahead (text : String) : String :=
  String.ofList (text.toList.takeWhile (· != ';'))

def behind (text : String) : String :=
  String.ofList ((text.toList.dropWhile (· != ';')).drop 1)

theorem not_mem_ahead (text : String) : ';' ∉ (ahead text).toList := by
  intro inside
  rw [ahead, String.toList_ofList] at inside
  simpa using List.mem_takeWhile_imp inside

theorem cut_of_not_mem {text : String} (h : ';' ∉ text.toList) :
    ahead text = text ∧ behind text = "" := by
  have through : ∀ c ∈ text.toList, (c != ';') = true := by
    intro c inside
    simpa using ne_of_mem_of_not_mem inside h
  constructor
  · rw [ahead, List.takeWhile_eq_self_iff.mpr through, String.ofList_toList]
  · rw [behind, List.dropWhile_eq_nil_iff.mpr through]
    rfl

theorem eq_ahead_behind {text : String} (h : ';' ∈ text.toList) :
    text = ahead text ++ ";" ++ behind text := by
  have whole := List.takeWhile_append_dropWhile (p := (· != ';')) (l := text.toList)
  have left : text.toList.dropWhile (· != ';') ≠ [] := by
    intro none
    have every := List.dropWhile_eq_nil_iff.mp none ';' h
    simp at every
  obtain ⟨c, rest, more⟩ := List.exists_cons_of_ne_nil left
  have first : c = ';' := by
    have stops := List.head?_dropWhile_not (· != ';') text.toList
    rw [more] at stops
    simpa using stops
  rw [more, first] at whole
  apply String.toList_inj.mp
  simp [ahead, behind, more, whole]

theorem cut_do (line : String) :
    ahead ("do " ++ line) = "do " ++ ahead line ∧ behind ("do " ++ line) = behind line := by
  have through : ∀ c ∈ "do ".toList, (c != ';') = true := List.all_eq_true.mp (by decide)
  constructor
  · apply String.toList_inj.mp
    rw [ahead, String.toList_append, List.takeWhile_append_of_pos through]
    simp [ahead]
  · rw [behind, String.toList_append, List.dropWhile_append_of_pos through, behind]

end Text

open Text

def Word.Spoken (w : String) : Prop :=
  w ≠ "" ∧ ∀ c ∈ w.toList, isBlank c = false ∧ c ≠ ';'

instance Word.decidableSpoken (w : String) : Decidable (Word.Spoken w) :=
  decidable_of_iff (w ≠ "" ∧ (w.toList.all fun c => !isBlank c && c != ';') = true)
    (by simp [Word.Spoken])

namespace Word

theorem Spoken.words {w : String} (h : Spoken w) : words w = [w] := by
  have some : w.toList ≠ [] := by simpa using h.1
  simp [Text.words, wordChars_of_letters some fun c inside => (h.2 c inside).1]

theorem words_phrase {ws : List String} (h : ∀ w ∈ ws, Spoken w) :
    words (" ".intercalate ws) = ws := by
  rw [words_intercalate]
  induction ws with
  | nil => rfl
  | cons w rest ih =>
    obtain ⟨first, others⟩ := List.forall_mem_cons.mp h
    rw [List.flatMap_cons, first.words, ih others, List.singleton_append]

theorem not_mem_phrase {ws : List String} (h : ∀ w ∈ ws, Spoken w) :
    ';' ∉ (" ".intercalate ws).toList := by
  induction ws with
  | nil => simp
  | cons w rest ih =>
    obtain ⟨first, others⟩ := List.forall_mem_cons.mp h
    have own : ';' ∉ w.toList := fun inside => (first.2 _ inside).2 rfl
    cases rest with
    | nil => simpa using own
    | cons next more =>
      rw [String.intercalate_cons_cons]
      simp only [String.toList_append, List.mem_append, not_or]
      exact ⟨⟨own, by decide⟩, ih others⟩

end Word

namespace Situation

theorem commandsOf_append (x y : String) :
    commandsOf (x ++ ";" ++ y) = commandsOf x ++ commandsOf y := by
  have mark : ";".toList = [';'] := rfl
  simp only [commandsOf, pieces_append mark, List.map_append, List.filter_append]

theorem commandsOf_intercalate (texts : List String) :
    commandsOf (";".intercalate texts) = texts.flatMap commandsOf := by
  induction texts with
  | nil => rfl
  | cons text rest ih =>
    cases rest with
    | nil => simp
    | cons next others =>
      rw [String.intercalate_cons_cons, commandsOf_append, ih]
      rfl

theorem whole_of_commandsOf {one text : String} (h : one ∈ commandsOf text) :
    ';' ∉ one.toList := by
  obtain ⟨trimmed, -⟩ := List.mem_filter.mp h
  obtain ⟨piece, among, rfl⟩ := List.mem_map.mp trimmed
  obtain ⟨cs, cut, rfl⟩ := List.mem_map.mp among
  intro inside
  rw [trim, String.toList_ofList, String.toList_ofList] at inside
  obtain ⟨apart, -⟩ := mem_splitOnP cut ';' (mem_of_trimChars inside)
  exact absurd apart (by decide)

theorem commandsOf_one {text : String} (whole : ';' ∉ text.toList) (some : words text ≠ []) :
    commandsOf text = [trim text] := by
  have there : trim text ≠ "" := by
    intro none
    rw [← words_trim, none] at some
    exact some (by simp [words, wordChars])
  simp [commandsOf, pieces_of_not_mem whole, there]

theorem commandsOf_blank : commandsOf "" = [] := rfl

theorem commandsOf_cut (text : String) :
    commandsOf text = commandsOf (ahead text) ++ commandsOf (behind text) := by
  by_cases inside : ';' ∈ text.toList
  · conv => lhs; rw [eq_ahead_behind inside]
    rw [commandsOf_append]
  · obtain ⟨front, nothing⟩ := cut_of_not_mem inside
    rw [front, nothing, commandsOf_blank, List.append_nil]

variable (s : Situation) (timed : Bool)

theorem command_trim (expand : List String → Plan) (text : String) :
    s.command timed expand (trim text) = s.command timed expand text := by
  simp only [command, words_trim]

theorem batch_one (expand : List String → Plan) {text : String} (whole : ';' ∉ text.toList)
    (some : words text ≠ []) : s.batch timed expand text = s.command timed expand text := by
  simp only [batch, commandsOf_one whole some, List.foldl_cons, List.foldl_nil, Plan.empty_merge,
    command_trim]

/-- What is behind `do` up to a semicolon are actions, and what is behind that are other commands. -/
theorem commandsOf_do (line : String) :
    commandsOf ("do " ++ line) = trim ("do " ++ ahead line) :: commandsOf (behind line) := by
  obtain ⟨front, rest⟩ := cut_do line
  have whole := not_mem_ahead ("do " ++ line)
  rw [front] at whole
  rw [commandsOf_cut, front, rest, commandsOf_one whole (by simp [words_do]), List.singleton_append]

theorem command_do (expand : List String → Plan) (line : String) :
    s.command timed expand ("do " ++ line) = expand (words line) := by
  simp only [command, words_do]

end Situation

end HomeControl
