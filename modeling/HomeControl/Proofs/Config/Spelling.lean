import HomeControl.Config.Files
import HomeControl.Proofs.Text
/-!
Ways to write a path. Joining a path to a directory and going up to the directory of a path are said
by the steps they make, and the place where a file is found by the steps of its path alone.
-/

namespace HomeControl

namespace Path

open Text

def busy (path : String) : List String :=
  (pieces '/' path).filter (!isIdle ·)

theorem slash : "/".toList = ['/'] := rfl

theorem isAbsolute_iff {path : String} :
    isAbsolute path = true ↔ ∃ rest, rest ≠ [] ∧ pieces '/' path = "" :: rest := by
  constructor
  · intro absolute
    obtain ⟨letters, front⟩ := List.head?_eq_some_iff.mp (eq_of_beq absolute)
    have whole : path = "" ++ "/" ++ String.ofList letters := by
      rw [← String.toList_inj]
      simpa using front
    rw [whole, pieces_append slash]
    exact ⟨_, pieces_ne_nil _ _, rfl⟩
  · rintro ⟨rest, more, cut⟩
    obtain ⟨next, others, rfl⟩ := List.exists_cons_of_ne_nil more
    rw [← intercalate_pieces slash path, cut, String.intercalate_cons_cons]
    simp [isAbsolute]

def lead (path : String) : List String :=
  if (pieces '/' path).head? = some "." then ["."] else []

theorem steps_eq (path : String) : steps path = ⟨isAbsolute path, lead path ++ busy path⟩ := by
  obtain ⟨first, rest, cut⟩ := List.exists_cons_of_ne_nil (pieces_ne_nil '/' path)
  by_cases absolute : isAbsolute path = true
  · obtain ⟨_, _, root⟩ := isAbsolute_iff.mp absolute
    rw [steps, if_pos absolute, absolute, lead, root, if_neg (by simp), busy, root, List.nil_append]
  · rw [steps, if_neg absolute, Bool.eq_false_iff.mpr absolute, lead, busy, cut]
    by_cases point : first = "."
    · subst point
      rfl
    · rw [if_neg (by simpa using point), List.nil_append]
      split
      · rename_i same
        exact absurd (List.cons.inj same).1 point
      · rfl

theorem steps_of_isAbsolute {path : String} (absolute : isAbsolute path = true) :
    steps path = ⟨true, busy path⟩ := by
  rw [steps, if_pos absolute, busy]

theorem join_of_isAbsolute {path : String} (absolute : isAbsolute path = true) (dir : String) :
    join dir path = path := by
  simp [join, absolute]

theorem pieces_join {path : String} (relative : isAbsolute path = false) (dir : String) :
    ∃ front, pieces '/' (join dir path) = front ++ pieces '/' path ∧
      front.filter (!isIdle ·) = busy dir := by
  by_cases empty : dir = ""
  · subst empty
    exact ⟨[], by simp [join], by decide +kernel⟩
  have filled : dir.isEmpty = false := by simpa using empty
  by_cases ends : (dir.toList.getLast? == some '/') = true
  · obtain ⟨letters, whole⟩ := List.getLast?_eq_some_iff.mp (eq_of_beq ends)
    have split : dir = String.ofList letters ++ "/" := by
      rw [← String.toList_inj]
      simpa using whole
    refine ⟨pieces '/' (String.ofList letters), ?_, ?_⟩
    · rw [join, relative, filled, if_neg (by decide), if_pos ends, split, pieces_append slash]
    · rw [busy, split, ← String.append_empty (s := String.ofList letters ++ "/"),
        pieces_append slash, List.filter_append, show pieces '/' "" = [""] by decide +kernel]
      exact (List.append_nil _).symm
  · refine ⟨pieces '/' dir, ?_, rfl⟩
    rw [join, relative, filled, if_neg (by decide), if_neg ends, pieces_append slash]

theorem busy_join {path : String} (relative : isAbsolute path = false) (dir : String) :
    busy (join dir path) = busy dir ++ busy path := by
  obtain ⟨front, cut, busy_front⟩ := pieces_join relative dir
  rw [busy, cut, List.filter_append, busy_front]
  rfl

theorem isAbsolute_append {front : String} (filled : front ≠ "") (back : String) :
    isAbsolute (front ++ back) = isAbsolute front := by
  obtain ⟨first, rest, letters⟩ :=
    List.exists_cons_of_ne_nil (mt String.toList_eq_nil_iff.mp filled)
  rw [isAbsolute, String.toList_append, isAbsolute, letters]
  rfl

theorem isAbsolute_join {path : String} (relative : isAbsolute path = false) (dir : String) :
    isAbsolute (join dir path) = isAbsolute dir := by
  by_cases empty : dir = ""
  · subst empty
    rw [show join "" path = path by simp [join], relative]
    rfl
  rw [join, relative, show dir.isEmpty = false by simpa using empty, if_neg (by decide)]
  split
  · exact isAbsolute_append empty _
  · rw [String.append_assoc]
    exact isAbsolute_append empty _

theorem dropIdle_eq (parts : List String) :
    ∃ front, (∀ part ∈ front, isIdle part = true) ∧ parts = front ++ dropIdle parts := by
  induction parts using dropIdle.induct with
  | case1 => exact ⟨[], List.forall_mem_nil _, rfl⟩
  | case2 => exact ⟨[], List.forall_mem_nil _, rfl⟩
  | case3 part rest _ idle ih =>
    obtain ⟨front, each, whole⟩ := ih
    rw [dropIdle.eq_3 _ _ (by assumption), if_pos idle]
    refine ⟨part :: front, List.forall_mem_cons.mpr ⟨(Bool.and_eq_true_iff.mp idle).1, each⟩, ?_⟩
    rw [List.cons_append, ← whole]
  | case4 part rest _ busy =>
    rw [dropIdle.eq_3 _ _ (by assumption), if_neg busy]
    exact ⟨[], List.forall_mem_nil _, rfl⟩

theorem dropIdle_ne_nil {parts : List String} (filled : parts ≠ []) : dropIdle parts ≠ [] := by
  fun_induction dropIdle parts with
  | case1 => exact filled
  | case2 => exact List.cons_ne_nil _ _
  | case3 part rest _ idle ih =>
    exact ih (by simpa using (Bool.and_eq_true_iff.mp idle).2)
  | case4 part rest => exact List.cons_ne_nil _ _

theorem eq_nil_of_dropIdle {parts rest : List String} {part : String}
    (left : dropIdle parts = part :: rest) (idle : isIdle part = true) : rest = [] := by
  fun_induction dropIdle parts with
  | case1 => exact absurd left (by simp)
  | case2 => exact (List.cons.inj left).2.symm
  | case3 other others _ _ ih => exact ih left
  | case4 other others _ stops =>
    obtain ⟨rfl, rfl⟩ := List.cons.inj left
    simpa [idle] using stops

theorem filter_idles {parts : List String} (idle : ∀ part ∈ parts, isIdle part = true) :
    parts.filter (!isIdle ·) = [] :=
  List.filter_eq_nil_iff.mpr fun part inside => by simp [idle part inside]

theorem isAbsolute_of_pieces {dir path : String} {more : List String}
    (whole : pieces '/' path = pieces '/' dir ++ more) (several : pieces '/' dir ≠ [""]) :
    isAbsolute dir = isAbsolute path := by
  obtain ⟨first, others, cut⟩ := List.exists_cons_of_ne_nil (pieces_ne_nil '/' dir)
  rw [Bool.eq_iff_iff, isAbsolute_iff, isAbsolute_iff, whole, cut]
  rw [cut] at several
  constructor
  · rintro ⟨rest, filled, same⟩
    refine ⟨rest ++ more, List.append_ne_nil_of_left_ne_nil filled _, ?_⟩
    rw [same, List.cons_append]
  · rintro ⟨rest, -, same⟩
    obtain ⟨rfl, -⟩ := List.cons.inj same
    exact ⟨others, fun empty => several (by rw [empty]), rfl⟩

/-- What the directory of a path is put together from: the parts in front of the last step, up to
idle ones. -/
theorem parent?_eq {path : String} (filled : busy path ≠ []) :
    ∃ parts between last idles, pieces '/' path = parts ++ (between ++ last :: idles) ∧
      (∀ part ∈ between ++ idles, isIdle part = true) ∧ isIdle last = false ∧
      (parts = [] → between = []) ∧
      parent? path = some (if parts = [""] then "/" else "/".intercalate parts) := by
  obtain ⟨idles, idle, whole⟩ := dropIdle_eq (pieces '/' path).reverse
  obtain ⟨last, rest, left⟩ := List.exists_cons_of_ne_nil
    (dropIdle_ne_nil (List.reverse_ne_nil_iff.mpr (pieces_ne_nil '/' path)))
  obtain ⟨between, idle', rest_eq⟩ := dropIdle_eq rest
  have cut : pieces '/' path =
      (dropIdle rest).reverse ++ (between.reverse ++ last :: idles.reverse) := by
    rw [left] at whole
    rw [← List.append_assoc, ← List.reverse_append, ← rest_eq]
    simpa using congrArg List.reverse whole
  refine ⟨_, _, last, _, cut, ?_, ?_, ?_, ?_⟩
  · intro part inside
    rcases List.mem_append.mp inside with before | after
    · exact idle' part (List.mem_reverse.mp before)
    · exact idle part (List.mem_reverse.mp after)
  · refine Bool.eq_false_iff.mpr fun nothing => filled (filter_idles ?_)
    rw [← List.reverse_reverse (pieces '/' path), whole, left, eq_nil_of_dropIdle left nothing]
    simpa [nothing] using idle
  · intro empty
    rw [List.reverse_eq_nil_iff] at empty ⊢
    have alone : rest = [] := Decidable.byContradiction fun more => dropIdle_ne_nil more empty
    rw [alone] at rest_eq
    exact (List.append_eq_nil_iff.mp rest_eq.symm).1
  · have known : (steps path).parts.isEmpty = false := by simp [steps_eq, filled]
    rw [parent?, known, if_neg (by decide), left]
    by_cases root : (dropIdle rest).reverse = [""]
    · have absolute : isAbsolute path = true := isAbsolute_iff.mpr
        ⟨between.reverse ++ last :: idles.reverse, by simp, by rw [cut, root]; rfl⟩
      simp only [root, if_pos absolute, if_true]
    · simp only [if_neg root]

/-- A path as the steps of its directory, the last step, and what comes idly after it. -/
structure Ends (path dir last : String) : Prop where
  parent : parent? path = some dir
  absolute : isAbsolute dir = isAbsolute path
  step : isIdle last = false
  cut : ∃ front idles, pieces '/' path = front ++ last :: idles ∧
    front.filter (!isIdle ·) = busy dir ∧ ∀ part ∈ idles, isIdle part = true

theorem exists_ends {path : String} (filled : busy path ≠ []) : ∃ dir last, Ends path dir last := by
  obtain ⟨parts, between, last, idles, whole, idle, step, first, parent⟩ := parent?_eq filled
  obtain ⟨before, after⟩ := List.forall_mem_append.mp idle
  have front : (parts ++ between).filter (!isIdle ·) = parts.filter (!isIdle ·) := by
    rw [List.filter_append, filter_idles before, List.append_nil]
  have cut := whole.trans (List.append_assoc parts between (last :: idles)).symm
  by_cases root : parts = [""]
  · have absolute : isAbsolute path = true :=
      isAbsolute_iff.mpr ⟨between ++ last :: idles, by simp, by rw [whole, root]; rfl⟩
    refine ⟨"/", last, ⟨by rw [parent, if_pos root], absolute.symm, step, _, _, cut, ?_, after⟩⟩
    rw [front, root]
    decide +kernel
  · rw [if_neg root] at parent
    by_cases empty : parts = []
    · obtain rfl := first empty
      subst empty
      refine ⟨"", last, ⟨parent, ?_, step, _, _, cut, by decide +kernel, after⟩⟩
      refine (Bool.eq_false_iff.mpr fun absolute => ?_).symm
      obtain ⟨_, -, same⟩ := isAbsolute_iff.mp absolute
      obtain ⟨rfl, -⟩ := List.cons.inj (whole.symm.trans same)
      exact absurd step (by decide)
    · have again : pieces '/' ("/".intercalate parts) = parts := by
        refine pieces_intercalate slash empty fun part inside => ?_
        exact not_mem_of_mem_pieces (whole ▸ List.mem_append_left _ inside)
      refine ⟨_, last, ⟨parent, ?_, step, _, _, cut, ?_, after⟩⟩
      · exact isAbsolute_of_pieces (by rw [again, whole]) (by rwa [again])
      · rw [front, busy, again]

theorem Ends.busy_eq {path dir last : String} (h : Ends path dir last) :
    busy path = busy dir ++ [last] := by
  obtain ⟨front, idles, whole, before, idle⟩ := h.cut
  rw [busy, whole, List.filter_append, before, List.filter_cons_of_pos (by simp [h.step]),
    filter_idles idle]

def turn (place : List String) (part : String) : List String :=
  if isIdle part then place else if part = ".." then place.dropLast else place ++ [part]

/-- Where the steps of a path lead, from the root. -/
def Steps.place (x : Steps) : List String :=
  x.parts.foldl turn []

theorem foldl_turn_idle {parts : List String} (idle : ∀ part ∈ parts, isIdle part = true)
    (place : List String) : parts.foldl turn place = place := by
  induction parts with
  | nil => rfl
  | cons part rest ih =>
    obtain ⟨first, later⟩ := List.forall_mem_cons.mp idle
    rw [List.foldl_cons, turn, if_pos first, ih later]

theorem foldl_turn_filter (parts : List String) (place : List String) :
    (parts.filter (!isIdle ·)).foldl turn place = parts.foldl turn place := by
  induction parts generalizing place with
  | nil => rfl
  | cons part rest ih =>
    by_cases idle : isIdle part = true
    · rw [List.filter_cons_of_neg (by simp [idle]), List.foldl_cons, turn, if_pos idle, ih]
    · rw [List.filter_cons_of_pos (by simpa using idle), List.foldl_cons, List.foldl_cons, ih]

theorem foldl_turn_of_not_mem {parts : List String} (idle : ∀ part ∈ parts, isIdle part = false)
    (down : ".." ∉ parts) (place : List String) : parts.foldl turn place = place ++ parts := by
  induction parts generalizing place with
  | nil => exact (List.append_nil place).symm
  | cons part rest ih =>
    obtain ⟨first, later⟩ := List.forall_mem_cons.mp idle
    obtain ⟨other, below⟩ := not_or.mp (mt List.mem_cons.mpr down)
    rw [List.foldl_cons, turn, if_neg (by simp [first]), if_neg (Ne.symm other), ih later below,
      List.append_assoc, List.singleton_append]

theorem place_of_isAbsolute {path : String} (absolute : isAbsolute path = true) :
    (steps path).place = (busy path).foldl turn [] := by
  rw [steps_of_isAbsolute absolute, Steps.place]

def Steps.Rooted (x : Steps) : Prop :=
  ∃ path, isAbsolute path = true ∧ steps path = x

/-- Two ways to write the place of a file from the root have the same steps if neither steps up. -/
theorem Steps.eq_of_place {x y : Steps} (rooted : x.Rooted) (rooted' : y.Rooted)
    (same : x.place = y.place) (down : ".." ∉ x.parts) (down' : ".." ∉ y.parts) : x = y := by
  have place : ∀ {x : Steps}, x.Rooted → ".." ∉ x.parts → x = ⟨true, x.place⟩ := by
    rintro _ ⟨path, absolute, rfl⟩ down
    have plain : ∀ part ∈ busy path, isIdle part = false := by
      intro part inside
      simpa using (List.mem_filter.mp inside).2
    rw [steps_of_isAbsolute absolute] at down ⊢
    rw [Steps.place, foldl_turn_of_not_mem plain down, List.nil_append]
  rw [place rooted down, place rooted' down', same]

end Path

namespace Files

variable {f : Files}

theorem isDirectory_dropLast {place : List String} (h : f.isDirectory place = true) :
    f.isDirectory place.dropLast = true := by
  have shorter : place.dropLast <+: place := place.dropLast_prefix
  rcases Bool.or_eq_true_iff.mp h with own | other
  · exact Bool.or_eq_true_iff.mpr (.inl (List.isPrefixOf_iff_prefix.mpr
      (shorter.trans (List.isPrefixOf_iff_prefix.mp own))))
  · obtain ⟨e, inside, above⟩ := List.any_eq_true.mp other
    obtain ⟨front, less⟩ := Bool.and_eq_true_iff.mp above
    refine Bool.or_eq_true_iff.mpr (.inr (List.any_eq_true.mpr ⟨e, inside, ?_⟩))
    refine Bool.and_eq_true_iff.mpr ⟨List.isPrefixOf_iff_prefix.mpr
      (shorter.trans (List.isPrefixOf_iff_prefix.mp front)), ?_⟩
    exact decide_eq_true (Nat.lt_of_le_of_lt shorter.length_le (of_decide_eq_true less))

theorem walk_cons {part : String} {rest place out : List String}
    (h : f.walk place (part :: rest) = .ok out) :
    f.isDirectory place = true ∧ f.walk (Path.turn place part) rest = .ok out := by
  rw [walk] at h
  rw [Path.turn]
  by_cases directory : f.isDirectory place = true
  · refine ⟨directory, ?_⟩
    rw [if_neg (by simp [directory])] at h
    by_cases idle : Path.isIdle part = true
    · rwa [if_pos idle] at h ⊢
    by_cases up : part = ".."
    · rwa [if_neg idle, if_pos up] at h ⊢
    rw [if_neg idle, if_neg up] at h ⊢
    by_cases long : nameLimit < part.utf8ByteSize
    · rw [if_pos long] at h
      cases h
    rw [if_neg long] at h
    by_cases there : (f.isDirectory (place ++ [part]) || (f.find? (place ++ [part])).isSome) = true
    · rwa [if_pos there] at h
    · rw [if_neg there] at h
      cases h
  · rw [if_pos (by simpa using directory)] at h
    cases h

theorem walk_append {front back place out : List String}
    (h : f.walk place (front ++ back) = .ok out) :
    f.walk (front.foldl Path.turn place) back = .ok out := by
  induction front generalizing place with
  | nil => exact h
  | cons part rest ih => exact ih (walk_cons h).2

theorem walk_eq_ok {parts place out : List String} (h : f.walk place parts = .ok out) :
    out = parts.foldl Path.turn place := by
  rw [← List.append_nil parts] at h
  exact (Except.ok.inj (walk_append h)).symm

/-- Where a path leads, from the directory that relative paths start from. -/
def leads (f : Files) (path : String) : List String :=
  (Path.busy (Path.join f.directory path)).foldl Path.turn []

theorem leads_of_isAbsolute {path : String} (absolute : Path.isAbsolute path = true) :
    f.leads path = (Path.steps path).place := by
  rw [leads, Path.join_of_isAbsolute absolute, Path.place_of_isAbsolute absolute]

theorem read_eq_ok {path : String} {content : Option Document} (h : f.read path = .ok content) :
    path.utf8ByteSize < pathLimit ∧
      f.walk [] (Text.pieces '/' (Path.join f.directory path)) = .ok (f.leads path) ∧
      f.isDirectory (f.leads path) = false ∧ f.find? (f.leads path) = some content := by
  rw [read] at h
  by_cases zero : path.toList.contains '\x00' = true
  · simp only [zero, if_true] at h
    cases h
  by_cases empty : path.isEmpty = true
  · simp only [zero, empty, if_true] at h
    cases h
  by_cases long : pathLimit ≤ path.utf8ByteSize
  · simp only [zero, empty, long, if_true] at h
    cases h
  simp only [zero, empty, long, if_false] at h
  refine ⟨Nat.lt_of_not_le long, ?_⟩
  cases walked : f.walk [] (Text.pieces '/' (Path.join f.directory path)) with
  | error fault =>
    rw [walked] at h
    cases h
  | ok place =>
    have out : place = f.leads path := by
      rw [walk_eq_ok walked, leads, Path.busy, Path.foldl_turn_filter]
    subst out
    rw [walked] at h
    refine ⟨rfl, ?_⟩
    by_cases directory : f.isDirectory (f.leads path) = true
    · simp only [bind, Except.bind, directory, if_true] at h
      cases h
    · simp only [bind, Except.bind, directory] at h
      refine ⟨by simpa using directory, ?_⟩
      cases found : f.find? (f.leads path) with
      | none =>
        rw [found] at h
        cases h
      | some other =>
        rw [found] at h
        exact congrArg _ (Except.ok.inj h)

theorem exists_walk (f : Files) (path : String) :
    ∃ front, Text.pieces '/' (Path.join f.directory path) = front ++ Text.pieces '/' path ∧
      ∀ dir, Path.isAbsolute dir = Path.isAbsolute path →
        f.leads dir = (Path.busy dir).foldl Path.turn (front.foldl Path.turn []) := by
  by_cases whole : Path.isAbsolute path = true
  · refine ⟨[], by rw [Path.join_of_isAbsolute whole, List.nil_append], fun dir same => ?_⟩
    rw [leads, Path.join_of_isAbsolute (same.trans whole), List.foldl_nil]
  · have relative : Path.isAbsolute path = false := by simpa using whole
    obtain ⟨front, cut, busy⟩ := Path.pieces_join relative f.directory
    refine ⟨front, cut, fun dir same => ?_⟩
    rw [leads, Path.busy_join (same.trans relative), ← busy, List.foldl_append,
      Path.foldl_turn_filter]

/-- A file that can be read lies in the place of its directory. -/
theorem exists_parent {path : String} {content : Option Document} (h : f.read path = .ok content) :
    ∃ dir last, Path.Ends path dir last ∧ f.leads dir = (f.leads path).dropLast := by
  obtain ⟨-, walked, notDirectory, -⟩ := read_eq_ok h
  obtain ⟨start, whole, leads⟩ := f.exists_walk path
  rw [whole] at walked
  have filled : Path.busy path ≠ [] := by
    intro empty
    obtain ⟨part, rest, cut⟩ := List.exists_cons_of_ne_nil (Text.pieces_ne_nil '/' path)
    rw [cut] at walked
    have directory := (walk_cons (walk_append walked)).1
    rw [leads path rfl, empty, List.foldl_nil] at notDirectory
    exact absurd directory (by simp [notDirectory])
  obtain ⟨dir, last, ends⟩ := Path.exists_ends filled
  refine ⟨dir, last, ends, ?_⟩
  obtain ⟨front, idles, cut, before, idle⟩ := ends.cut
  have above : (start ++ front).foldl Path.turn [] = f.leads dir := by
    rw [leads dir ends.absolute, ← before, Path.foldl_turn_filter, List.foldl_append]
  rw [cut, ← List.append_assoc] at walked
  obtain ⟨directory, inside⟩ := walk_cons (walk_append walked)
  have place := walk_eq_ok inside
  rw [Path.foldl_turn_idle idle] at place
  rw [above] at directory place
  rw [Path.turn, if_neg (by simp [ends.step])] at place
  by_cases up : last = ".."
  · -- a step up leads from one directory to another, but a file is none
    rw [if_pos up] at place
    rw [place, isDirectory_dropLast directory] at notDirectory
    exact absurd notDirectory (by decide)
  · rw [place, if_neg up, List.dropLast_concat]

end Files

end HomeControl
