import HomeControl.Proofs.Config.Loading
/-!
Where files are read. An include is read from the directory of the file it stands in, at any depth,
and the file that is named first from its own path, if this path starts from the root or its
directory is the one that relative paths start from. The steps of any other directory are taken
twice.
-/

namespace HomeControl.Surroundings

variable {s : Surroundings} {base : String}

theorem isAbsolute_includePath {file : String} (absolute : Path.isAbsolute file = true)
    {content : Option Document} (read : s.files.read file = .ok content) (path : String) :
    Path.isAbsolute (includePath base file path) = true := by
  obtain ⟨dir, last, ends, -⟩ := Files.exists_parent read
  rw [includePath, ends.parent, Option.getD_some]
  by_cases whole : Path.isAbsolute path = true
  · rwa [Path.join_of_isAbsolute whole]
  · rw [Path.isAbsolute_join (by simpa using whole), ends.absolute, absolute]

/-- An include leads from the directory of the file that it stands in. -/
theorem leads_includePath {file : String} {content : Option Document}
    (read : s.files.read file = .ok content) {path : String}
    (relative : Path.isAbsolute path = false) :
    s.files.leads (includePath base file path) =
      (Path.busy path).foldl Path.turn (s.files.leads file).dropLast := by
  obtain ⟨dir, last, ends, place⟩ := Files.exists_parent read
  obtain ⟨front, -, leads⟩ := s.files.exists_walk file
  have same := (Path.isAbsolute_join relative dir).trans ends.absolute
  rw [includePath, ends.parent, Option.getD_some, leads _ same, Path.busy_join relative,
    List.foldl_append, ← leads dir ends.absolute, place]

theorem busy_includePath {file : String} {content : Option Document}
    (read : s.files.read file = .ok content) {path : String}
    (relative : Path.isAbsolute path = false) :
    Path.busy (includePath base file path) = (Path.busy file).dropLast ++ Path.busy path := by
  obtain ⟨dir, last, ends, -⟩ := Files.exists_parent read
  rw [includePath, ends.parent, Option.getD_some, Path.busy_join relative, ends.busy_eq,
    List.dropLast_concat]

theorem Reaches.isAbsolute {opened later : List Path.Steps} {path last : String}
    (reaches : s.Reaches base opened path later last) (absolute : Path.isAbsolute path = true) :
    Path.isAbsolute last = true := by
  induction reaches with
  | here => exact absolute
  | inside own _ read _ _ ih =>
    rw [Path.join_of_isAbsolute absolute] at own
    subst own
    exact ih (isAbsolute_includePath absolute read _)

/-- A load gets to nothing that it does not read where its path leads. -/
theorem leads_of_reaches {path dir step : String} (ends : Path.Ends path dir step)
    (plain : Path.isAbsolute path = true ∨ Path.busy dir = [])
    {opened : List Path.Steps} {last : String} (reaches : s.Reaches dir [] path opened last) :
    s.files.leads (Path.join dir last) = s.files.leads last := by
  by_cases whole : Path.isAbsolute last = true
  · rw [Path.join_of_isAbsolute whole]
  have relative : Path.isAbsolute last = false := by simpa using whole
  have start : Path.isAbsolute path = false :=
    Bool.eq_false_iff.mpr fun absolute => whole (reaches.isAbsolute absolute)
  have idle : Path.busy dir = [] := plain.resolve_left (by simp [start])
  obtain ⟨front, -, leads⟩ := s.files.exists_walk last
  have same : Path.isAbsolute (Path.join dir last) = Path.isAbsolute last := by
    rw [Path.isAbsolute_join relative, ends.absolute, start, relative]
  rw [leads _ same, leads last rfl, Path.busy_join relative, idle, List.nil_append]

/-- Any other directory is entered twice. -/
theorem leads_join_parent {path dir step : String} (ends : Path.Ends path dir step)
    (relative : Path.isAbsolute path = false) :
    s.files.leads (Path.join dir path) =
      (Path.busy dir ++ [step]).foldl Path.turn (s.files.leads dir) := by
  obtain ⟨front, -, leads⟩ := s.files.exists_walk path
  have same : Path.isAbsolute (Path.join dir path) = Path.isAbsolute path :=
    (Path.isAbsolute_join relative dir).trans ends.absolute
  rw [leads _ same, leads dir ends.absolute, Path.busy_join relative, List.foldl_append,
    ends.busy_eq]

example : Path.join "conf" "conf/nomctrl.yaml" = "conf/conf/nomctrl.yaml" := by decide +kernel

end HomeControl.Surroundings
