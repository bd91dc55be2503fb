import HomeControl.Proofs.Config.Named
import Mathlib.Logic.Relation
/-!
Files that include each other. Reading such files comes to an end, with an error, and the error says
that they do if the path by which the circle closes has the steps of one that is being read. Paths
from the root have the same steps wherever the place is written without a step up.
-/

namespace HomeControl

namespace Files

def nextPlace (place : List String) (path : String) : List String :=
  if Path.isAbsolute path then (Path.steps path).place
  else (Path.busy path).foldl Path.turn place.dropLast

/-- The file in a place includes the one in another. -/
def Includes (f : Files) (place next : List String) : Prop :=
  ∃ d path, f.find? place = some (some d) ∧ ("!include", .text path) ∈ d.tags ∧
    next = nextPlace place path

/-- A file that includes itself, by way of others or at once. -/
def Nests (f : Files) (place : List String) : Prop :=
  Relation.TransGen f.Includes place place

end Files

namespace Surroundings

variable {s : Surroundings} {base : String}

theorem place_of_read {path : String} (absolute : Path.isAbsolute path = true)
    {content : Option Document} (read : s.files.read path = .ok content) :
    s.files.find? (Path.steps path).place = some content := by
  rw [← Files.leads_of_isAbsolute absolute]
  exact (Files.read_eq_ok read).2.2.2

theorem place_includePath {file : String} (absolute : Path.isAbsolute file = true)
    {content : Option Document} (read : s.files.read file = .ok content) (path : String) :
    (Path.steps (includePath base file path)).place =
      Files.nextPlace (Path.steps file).place path := by
  rw [Files.nextPlace]
  by_cases whole : Path.isAbsolute path = true
  · rw [if_pos whole, includePath, Path.join_of_isAbsolute whole]
  · have relative : Path.isAbsolute path = false := by simpa using whole
    have led : s.files.leads (includePath base file path) = _ := leads_includePath read relative
    rw [Files.leads_of_isAbsolute (isAbsolute_includePath absolute read path),
      Files.leads_of_isAbsolute absolute] at led
    rw [led, if_neg whole]

theorem carryOut_include (load : String → Except ConfigError Document) (path : String) :
    s.carryOut load "!include" (.text path) = load path := by
  rw [carryOut, if_pos rfl]

/-- The fault of an include that a document gets to is the fault of the document. -/
theorem expand_eq_error_of_asks {load : String → Except ConfigError Document} {d : Document}
    {path : String} (asks : s.Asks load d path) {e : ConfigError} (fault : load path = .error e) :
    s.expand load d = .error e := by
  obtain ⟨before, after, cut, clean⟩ := asks
  refine fault?_eq_some_iff.mp ?_
  rw [fault?_expand, List.findSome?_eq_some_iff]
  refine ⟨before, ("!include", .text path), after, cut, ?_, clean⟩
  rw [carryOut_include, fault?_eq_some_iff, fault]

theorem substitute_eq_error {spec : String} {e : ConfigError}
    (fault : s.substitute spec = .error e) : ∃ name, e = .envVarNotFound name := by
  simp only [substitute] at fault
  split at fault
  · exact ⟨_, (Except.error.inj fault).symm⟩
  · split at fault <;> cases fault

theorem carryOut_eq_circular {load : String → Except ConfigError Document} {tag : String}
    {content : Document} {x : String}
    (circle : s.carryOut load tag content = .error (.circularInclude x)) :
    tag = "!include" ∧ ∃ path, content = .text path ∧ load path = .error (.circularInclude x) := by
  unfold carryOut at circle
  by_cases included : tag = "!include"
  · rw [if_pos included] at circle
    refine ⟨included, ?_⟩
    cases content with
    | text path => exact ⟨path, rfl, circle⟩
    | _ => cases circle
  · rw [if_neg included] at circle
    by_cases named : tag = "!env_var"
    · rw [if_pos named] at circle
      cases content with
      | text spec =>
        cases substituted : s.substitute spec with
        | ok d =>
          simp only [substituted] at circle
          cases circle
        | error e =>
          obtain ⟨name, rfl⟩ := substitute_eq_error substituted
          simp only [substituted] at circle
          cases circle
      | _ => cases circle
    · rw [if_neg named] at circle
      cases circle

theorem exists_asks {load : String → Except ConfigError Document} {d : Document} {x : String}
    (circle : s.expand load d = .error (.circularInclude x)) :
    ∃ path, s.Asks load d path ∧ load path = .error (.circularInclude x) := by
  have first := fault?_eq_some_iff.mpr circle
  rw [fault?_expand, List.findSome?_eq_some_iff] at first
  obtain ⟨before, ⟨tag, content⟩, after, cut, fault, clean⟩ := first
  obtain ⟨rfl, path, rfl, deeper⟩ := carryOut_eq_circular (fault?_eq_some_iff.mp fault)
  exact ⟨path, ⟨before, after, cut, clean⟩, deeper⟩

theorem answer_of_read {opened : List Path.Steps} (h : Opened opened) {path file : String}
    (own : Path.join base path = file) (new : Path.steps file ∉ opened) {d : Document}
    (read : s.files.read file = .ok (some d)) :
    s.answer base opened path = s.expand
      (fun q => s.answer base (Path.steps file :: opened) (includePath base file q)) d := by
  subst own
  simp only [answer_eq h, following, if_neg new, read]

theorem answer_eq_circular {opened : List Path.Steps} (h : Opened opened) {path : String}
    (circle : Path.steps (Path.join base path) ∈ opened) :
    s.answer base opened path = .error (.circularInclude (Path.join base path)) := by
  simp only [answer_eq h, following, if_pos circle]

theorem answer_cases {opened : List Path.Steps} (h : Opened opened) {path file : String}
    (own : Path.join base path = file) :
    (Path.steps file ∈ opened ∧ s.answer base opened path = .error (.circularInclude file)) ∨
      (∃ e, (∀ x, e ≠ .circularInclude x) ∧ s.answer base opened path = .error e) ∨
      ∃ d, Path.steps file ∉ opened ∧ s.files.read file = .ok (some d) ∧
        s.answer base opened path = s.expand
          (fun q => s.answer base (Path.steps file :: opened) (includePath base file q)) d := by
  by_cases circle : Path.steps file ∈ opened
  · subst own
    exact .inl ⟨circle, answer_eq_circular h circle⟩
  refine .inr ?_
  cases read : s.files.read file with
  | error fault =>
    refine .inl ⟨.unreadable file fault, by simp, ?_⟩
    simp only [answer_eq h, following, own, if_neg circle, read]
  | ok content =>
    cases content with
    | none =>
      refine .inl ⟨.malformed file, by simp, ?_⟩
      simp only [answer_eq h, following, own, if_neg circle, read]
    | some d => exact .inr ⟨d, circle, rfl, answer_of_read h own circle read⟩

theorem answer_eq_error_of_reaches {opened later : List Path.Steps} {path last : String}
    (reaches : s.Reaches base opened path later last) (h : Opened opened) {e : ConfigError}
    (fault : s.answer base later last = .error e) : s.answer base opened path = .error e := by
  induction reaches with
  | here => exact fault
  | inside own new read asks _ ih =>
    rw [answer_of_read h own new read]
    exact expand_eq_error_of_asks asks (ih (h.cons new read) fault)

theorem Reaches.opened {opened later : List Path.Steps} {path last : String}
    (reaches : s.Reaches base opened path later last) (h : Opened opened) : Opened later := by
  induction reaches with
  | here => exact h
  | inside _ new read _ _ ih => exact ih (h.cons new read)

/-- A circle is reported where a load gets to a file that is being read. -/
theorem exists_reaches {opened : List Path.Steps} (h : Opened opened) {path x : String}
    (circle : s.answer base opened path = .error (.circularInclude x)) :
    ∃ later last, s.Reaches base opened path later last ∧ Path.join base last = x ∧
      Path.steps x ∈ later := by
  -- there is room for fewer files with every one that is being read
  induction left : Files.openable - opened.length using Nat.strongRecOn
    generalizing opened path with
  | ind room ih =>
    generalize own : Path.join base path = file
    rcases answer_cases h own with ⟨again, answer⟩ | ⟨e, other, answer⟩ | ⟨d, new, read, answer⟩
    · rw [answer] at circle
      cases circle
      exact ⟨opened, path, .here opened path, own, again⟩
    · rw [answer] at circle
      exact absurd (Except.error.inj circle) (other x)
    · rw [answer] at circle
      obtain ⟨q, asks, deeper⟩ := exists_asks circle
      have opened' := h.cons new read
      have less : Files.openable - (Path.steps file :: opened).length < room := by
        have := opened'.length_le
        rw [List.length_cons] at this ⊢
        omega
      obtain ⟨later, last, reaches, whole, closed⟩ := ih _ less opened' deeper rfl
      exact ⟨later, last, .inside own new read asks reaches, whole, closed⟩

theorem Reaches.includes {opened later : List Path.Steps} {path last : String}
    (reaches : s.Reaches base opened path later last) (absolute : Path.isAbsolute path = true)
    (chain : ∀ file ∈ opened, file.Rooted ∧
      Relation.TransGen s.files.Includes file.place (Path.steps path).place) :
    ∀ file ∈ later, file.Rooted ∧
      Relation.TransGen s.files.Includes file.place (Path.steps last).place := by
  induction reaches with
  | here => exact chain
  | @inside opened later path file last q d own _ read asks _ ih =>
    rw [Path.join_of_isAbsolute absolute] at own
    subst own
    refine ih (isAbsolute_includePath absolute read q) ?_
    obtain ⟨before, after, cut, -⟩ := asks
    have included : s.files.Includes (Path.steps path).place
        (Path.steps (includePath base path q)).place :=
      ⟨d, q, place_of_read absolute read, cut ▸ List.mem_append_right _ List.mem_cons_self,
        place_includePath absolute read q⟩
    refine List.forall_mem_cons.mpr ⟨⟨⟨path, absolute, rfl⟩, .single included⟩, ?_⟩
    exact fun file inside => ⟨(chain file inside).1, (chain file inside).2.tail included⟩

theorem exists_deeper {opened : List Path.Steps} (h : Opened opened) {path : String}
    (absolute : Path.isAbsolute path = true) {v : Document}
    (loaded : s.answer base opened path = .ok v) {next : List String}
    (includes : s.files.Includes (Path.steps path).place next) :
    ∃ file q w, Opened (file :: opened) ∧ Path.isAbsolute q = true ∧
      (Path.steps q).place = next ∧ s.answer base (file :: opened) q = .ok w := by
  obtain ⟨d, q, there, included, rfl⟩ := includes
  rcases answer_cases h (Path.join_of_isAbsolute absolute base) with
    ⟨-, answer⟩ | ⟨e, -, answer⟩ | ⟨d', new, read, answer⟩
  · rw [answer] at loaded
    cases loaded
  · rw [answer] at loaded
    cases loaded
  · have found := place_of_read absolute read
    rw [there, Option.some.injEq, Option.some.injEq] at found
    subst found
    have clean := fault?_eq_none_iff.mpr ⟨v, answer.symm.trans loaded⟩
    rw [fault?_expand, List.findSome?_eq_none_iff] at clean
    obtain ⟨w, answered⟩ := fault?_eq_none_iff.mp (clean _ included)
    rw [carryOut_include] at answered
    exact ⟨_, _, w, h.cons new read, isAbsolute_includePath absolute read q,
      place_includePath absolute read q, answered⟩

theorem exists_deeper_of_transGen {opened : List Path.Steps} (h : Opened opened) {path : String}
    (absolute : Path.isAbsolute path = true) {v : Document}
    (loaded : s.answer base opened path = .ok v) {next : List String}
    (leads : Relation.TransGen s.files.Includes (Path.steps path).place next) :
    ∃ later q w, opened.length < later.length ∧ Opened later ∧ Path.isAbsolute q = true ∧
      (Path.steps q).place = next ∧ s.answer base later q = .ok w := by
  induction leads with
  | single includes =>
    obtain ⟨file, q, w, h', absolute', place, answered⟩ := exists_deeper h absolute loaded includes
    exact ⟨file :: opened, q, w, by simp, h', absolute', place, answered⟩
  | tail _ includes ih =>
    obtain ⟨later, q, w, longer, h', absolute', rfl, answered⟩ := ih
    obtain ⟨file, q', w', h'', absolute'', place, answered'⟩ :=
      exists_deeper h' absolute' answered includes
    have longer' : opened.length < (file :: later).length := longer.trans (Nat.lt_succ_self _)
    exact ⟨file :: later, q', w', longer', h'', absolute'', place, answered'⟩

/-- A file that includes itself is never loaded: its document would have to be read without end. -/
theorem answer_ne_ok_of_nests {opened : List Path.Steps} (h : Opened opened) {path : String}
    (absolute : Path.isAbsolute path = true) (nests : s.files.Nests (Path.steps path).place)
    (v : Document) : s.answer base opened path ≠ .ok v := by
  intro loaded
  have deep : ∀ n, ∃ later q w, n ≤ later.length ∧ Opened later ∧ Path.isAbsolute q = true ∧
      (Path.steps q).place = (Path.steps path).place ∧ s.answer base later q = .ok w := by
    intro n
    induction n with
    | zero => exact ⟨opened, path, v, Nat.zero_le _, h, absolute, rfl, loaded⟩
    | succ n ih =>
      obtain ⟨later, q, w, long, h', absolute', place, answered⟩ := ih
      rw [← place] at nests
      obtain ⟨more, q', w', longer, rest⟩ :=
        exists_deeper_of_transGen h' absolute' answered nests
      rw [place] at rest
      exact ⟨more, q', w', by omega, rest⟩
  obtain ⟨later, _, _, long, h', -⟩ := deep (Files.openable + 1)
  have := h'.length_le
  omega

/-- Loading a file by its path from the root comes to an end, and every load leaves the files that
are being read as they were. A circle is reported exactly if the load gets to a path with the steps
of a file that is being read. Only files that include themselves are reported. A load that gets to a
file that is being read fails whatever path leads there, and reports the circle if neither path
steps up. -/
theorem circle_is_reported_iff {path : String} (absolute : Path.isAbsolute path = true) :
    (∀ fuel, Files.openable < fuel →
      (s.loadFile base fuel path).on [] = ((s.load base path).result, [])) ∧
    (∀ fuel q opened, ((s.loadFile base fuel q).on opened).2 = opened) ∧
    (∀ x, (s.load base path).result = .error (.circularInclude x) ↔
      ∃ opened, s.Reaches base [] path opened x ∧ Path.steps x ∈ opened) ∧
    (∀ x, (s.load base path).result = .error (.circularInclude x) →
      s.files.Nests (Path.steps x).place) ∧
    ∀ opened x, s.Reaches base [] path opened x →
      ∀ file ∈ opened, file.place = (Path.steps x).place →
        (∃ e, (s.load base path).result = .error e) ∧
          (".." ∉ file.parts → ".." ∉ (Path.steps x).parts →
            (s.load base path).result = .error (.circularInclude x)) := by
  simp only [result_load]
  have result {opened : List Path.Steps} {x : String}
      (reaches : s.Reaches base [] path opened x) (circle : Path.steps x ∈ opened) :
      s.answer base [] path = .error (.circularInclude x) := by
    have own := Path.join_of_isAbsolute (reaches.isAbsolute absolute) base
    refine answer_eq_error_of_reaches reaches .nil ?_
    rw [answer_eq_circular (reaches.opened .nil) (by rwa [own]), own]
  have reaches {x : String} (circle : s.answer base [] path = .error (.circularInclude x)) :
      ∃ opened, s.Reaches base [] path opened x ∧ Path.steps x ∈ opened := by
    obtain ⟨opened, last, reaches, rfl, closed⟩ := exists_reaches .nil circle
    rw [Path.join_of_isAbsolute (reaches.isAbsolute absolute)] at closed ⊢
    exact ⟨opened, reaches, closed⟩
  refine ⟨fun fuel enough => ?_, loadFile_keeps, fun x => ⟨reaches, fun ⟨_, r, c⟩ => result r c⟩,
    fun x circle => ?_, fun opened x there file inside place => ?_⟩
  · have same : s.outcome base fuel [] path = s.answer base [] path := by
      refine outcome_eq .nil ?_ ?_ path <;> (rw [List.length_nil]; omega)
    rw [← same]
    exact Prod.ext rfl (loadFile_keeps fuel path [])
  · obtain ⟨opened, there, closed⟩ := reaches circle
    exact (there.includes absolute (List.forall_mem_nil _) _ closed).2
  · obtain ⟨rooted, leads⟩ := there.includes absolute (List.forall_mem_nil _) file inside
    rw [place] at leads
    have absolute' := there.isAbsolute absolute
    constructor
    · cases loaded : s.answer base opened x with
      | ok v => exact absurd loaded (answer_ne_ok_of_nests (there.opened .nil) absolute' leads v)
      | error e => exact ⟨e, answer_eq_error_of_reaches there .nil loaded⟩
    · intro down down'
      have same := Path.Steps.eq_of_place rooted ⟨x, absolute', rfl⟩ place down down'
      exact result there (same ▸ inside)

def alone (name path : String) : Surroundings :=
  ⟨⟨"/", [(name, some (.map [("app", .tagged "!include" (.text path))]))]⟩, []⟩

theorem tags_alone {name path file : String} {d : Document}
    (read : (alone name path).files.read file = .ok (some d)) :
    d.tags = [("!include", .text path)] := by
  obtain ⟨-, -, -, found⟩ := Files.read_eq_ok read
  simp only [Files.find?, alone, List.map_cons, List.map_nil, List.lookup_cons,
    List.lookup_nil] at found
  split at found
  · rw [Option.some.injEq, Option.some.injEq] at found
    subst found
    rfl
  · cases found

theorem reaches_alone {name path file : String} (absolute : Path.isAbsolute file = true)
    {d : Document} (read : (alone name path).files.read file = .ok (some d)) :
    (alone name path).Reaches "/" [] file [Path.steps file] (includePath "/" file path) :=
  .inside (Path.join_of_isAbsolute absolute "/") List.not_mem_nil read
    ⟨[], [], tags_alone read, List.forall_mem_nil _⟩ (.here _ _)

theorem circle_is_reported_iff_itself :
    Path.isAbsolute "/a.yaml" = true ∧
      ((alone "a.yaml" "./a.yaml").load "/" "/a.yaml").result =
        .error (.circularInclude "/./a.yaml") := by
  have absolute : Path.isAbsolute "/a.yaml" = true := by decide +kernel
  have again : includePath "/" "/a.yaml" "./a.yaml" = "/./a.yaml" := by decide +kernel
  have reaches : (alone "a.yaml" "./a.yaml").Reaches "/" [] "/a.yaml"
      [Path.steps "/a.yaml"] (includePath "/" "/a.yaml" "./a.yaml") := by
    refine reaches_alone (d := .map [("app", .tagged "!include" (.text "./a.yaml"))]) absolute ?_
    with_unfolding_all rfl
  rw [again] at reaches
  refine ⟨absolute, ?_⟩
  exact ((circle_is_reported_iff absolute).2.2.2.2 _ _ reaches _ List.mem_cons_self
    (by decide +kernel)).2 (by decide +kernel) (by decide +kernel)

theorem Reaches.longer (deep : ∀ file d q, s.files.read file = .ok (some d) →
      ("!include", .text q) ∈ d.tags → Path.isAbsolute q = false ∧ 1 < (Path.busy q).length)
    {opened later : List Path.Steps} {path last : String}
    (reaches : s.Reaches base opened path later last) (absolute : Path.isAbsolute path = true)
    (shorter : ∀ file ∈ opened, file.parts.length < (Path.busy path).length) :
    ∀ file ∈ later, file.parts.length < (Path.busy last).length := by
  induction reaches with
  | here => exact shorter
  | @inside opened later path file last q d own _ read asks _ ih =>
    rw [Path.join_of_isAbsolute absolute] at own
    subst own
    obtain ⟨before, after, cut, -⟩ := asks
    obtain ⟨relative, several⟩ := deep path d q read
      (cut ▸ List.mem_append_right _ List.mem_cons_self)
    have longer : (Path.busy path).length < (Path.busy (includePath base path q)).length := by
      rw [busy_includePath read relative, List.length_append, List.length_dropLast]
      omega
    refine ih (isAbsolute_includePath absolute read q) (List.forall_mem_cons.mpr ⟨?_, ?_⟩)
    · rwa [Path.steps_of_isAbsolute absolute]
    · exact fun file inside => (shorter file inside).trans longer

/-- The circle of a file that steps out of its directory and back in is not reported, although it
closes at once. -/
theorem circle_next_door_is_missed :
    Path.isAbsolute "/d/a.yaml" = true ∧
      (∃ opened x, (alone "d/a.yaml" "../d/a.yaml").Reaches "/" [] "/d/a.yaml" opened x ∧
        ∃ file ∈ opened, file.place = (Path.steps x).place) ∧
      ∀ x, ((alone "d/a.yaml" "../d/a.yaml").load "/" "/d/a.yaml").result ≠
        .error (.circularInclude x) := by
  have absolute : Path.isAbsolute "/d/a.yaml" = true := by decide +kernel
  refine ⟨absolute, ⟨_, _, reaches_alone absolute
    (d := .map [("app", .tagged "!include" (.text "../d/a.yaml"))]) (by with_unfolding_all rfl),
    _, List.mem_cons_self, by decide +kernel⟩, fun x circle => ?_⟩
  rw [result_load] at circle
  obtain ⟨later, last, reaches, own, closed⟩ := exists_reaches .nil circle
  have absolute' := reaches.isAbsolute absolute
  rw [Path.join_of_isAbsolute absolute'] at own
  subst own
  have longer := reaches.longer (fun file d q read included => ?_) absolute (List.forall_mem_nil _)
    _ closed
  · rw [Path.steps_of_isAbsolute absolute'] at longer
    exact absurd longer (Nat.lt_irrefl _)
  · rw [tags_alone read, List.mem_singleton] at included
    cases included
    decide +kernel

end Surroundings

end HomeControl
