import HomeControl.Config.Load
import HomeControl.Proofs.Config.Spelling
import Mathlib.Data.List.Nodup
import Mathlib.Data.List.Perm.Subperm
import Mathlib.Data.Nat.Digits.Lemmas
/-!
What a load comes to. The files that are being read are the same ones after every load as before, so
an answer depends on them alone; there cannot be more of them than there are paths short enough to
be opened, so the fuel does not matter; and the fault of a document is that of the first of its tags
that has one.
-/

namespace HomeControl

namespace Document

mutual

def tags : Document → List (String × Document)
  | list items => tagsItems items
  | map fields => tagsFields fields
  | tagged tag content => [(tag, content)]
  | _ => []

def tagsItems : List Document → List (String × Document)
  | [] => []
  | d :: rest => tags d ++ tagsItems rest

def tagsFields : List (String × Document) → List (String × Document)
  | [] => []
  | (_, d) :: rest => tags d ++ tagsFields rest

end

end Document

namespace Surroundings

variable {s : Surroundings} {base : String}

namespace Loading

variable {α β : Type}

/-- What comes of it while some files are being read, and which ones are being read afterwards. -/
def on (opened : List Path.Steps) (x : Loading α) : Except ConfigError α × List Path.Steps :=
  x.run.run opened

theorem on_throw (opened : List Path.Steps) (e : ConfigError) :
    (throw e : Loading α).on opened = (.error e, opened) :=
  rfl

theorem on_bind (opened : List Path.Steps) (x : Loading α) (next : α → Loading β) :
    (x >>= next).on opened =
      match x.on opened with
      | (.ok a, after) => (next a).on after
      | (.error e, after) => (.error e, after) := by
  rw [on, on, ExceptT.run_bind, StateT.run_bind]
  cases x.run.run opened with
  | mk result after => cases result <;> rfl

theorem on_map (opened : List Path.Steps) (f : α → β) (x : Loading α) :
    (f <$> x).on opened = (f <$> (x.on opened).1, (x.on opened).2) := by
  rw [map_eq_pure_bind, on_bind]
  obtain ⟨result, after⟩ := x.on opened
  cases result <;> rfl

theorem on_get (opened : List Path.Steps) :
    (get : Loading (List Path.Steps)).on opened = (.ok opened, opened) :=
  rfl

theorem on_ofExcept (opened : List Path.Steps) (result : Except ConfigError α) :
    (MonadExcept.ofExcept result : Loading α).on opened = (result, opened) := by
  cases result <;> rfl

theorem on_modify (opened : List Path.Steps) (f : List Path.Steps → List Path.Steps) :
    (modify f : Loading PUnit).on opened = (.ok ⟨⟩, f opened) :=
  rfl

theorem on_lift_run (opened : List Path.Steps) (x : Loading α) :
    on opened (ExceptT.lift x.run) = (.ok (x.on opened).1, (x.on opened).2) :=
  rfl

theorem on_within {opened : List Path.Steps} {file : Path.Steps} (new : file ∉ opened)
    {x : Loading α} (kept : (x.on (file :: opened)).2 = file :: opened) :
    (x.within file).on opened = ((x.on (file :: opened)).1, opened) := by
  rw [within, on_bind, on_modify]
  simp only [List.insert_of_not_mem new, on_bind, on_lift_run, on_modify, on_ofExcept, kept,
    List.erase_cons_head]

end Loading

theorem on_carryOut {load : String → Loading Document} {opened : List Path.Steps}
    (kept : ∀ q, ((load q).on opened).2 = opened) (tag : String) (content : Document) :
    (s.carryOut load tag content).on opened =
      (s.carryOut (fun q => ((load q).on opened).1) tag content, opened) := by
  simp only [carryOut]
  by_cases included : tag = "!include"
  · rw [if_pos included, if_pos included]
    cases content with
    | text path => exact Prod.ext rfl (kept path)
    | _ => rfl
  · rw [if_neg included, if_neg included]
    by_cases named : tag = "!env_var"
    · rw [if_pos named, if_pos named]
      cases content with
      | text spec =>
        simp only [Loading.on_ofExcept]
        cases s.substitute spec <;> rfl
      | _ => rfl
    · rw [if_neg named, if_neg named]
      rfl

mutual

/-- A document whose includes leave the files that are being read as they were does so too, and
comes to what their answers make of it. -/
theorem on_expand {load : String → Loading Document} {opened : List Path.Steps}
    (kept : ∀ q, ((load q).on opened).2 = opened) : (d : Document) →
    (s.expand load d).on opened = (s.expand (fun q => ((load q).on opened).1) d, opened)
  | .list items => by rw [expand, expand, Loading.on_map, on_expandItems kept items]
  | .map fields => by rw [expand, expand, Loading.on_map, on_expandFields kept fields]
  | .tagged tag content => by rw [expand, expand, on_carryOut kept]
  | .null | .bool _ | .int _ | .float _ | .text _ => rfl

theorem on_expandItems {load : String → Loading Document} {opened : List Path.Steps}
    (kept : ∀ q, ((load q).on opened).2 = opened) : (items : List Document) →
    (s.expandItems load items).on opened =
      (s.expandItems (fun q => ((load q).on opened).1) items, opened)
  | [] => rfl
  | d :: rest => by
    rw [expandItems, expandItems, Loading.on_bind, on_expand kept d]
    cases s.expand (fun q => ((load q).on opened).1) d with
    | error e => rfl
    | ok item =>
      simp only [Loading.on_bind, on_expandItems kept rest]
      cases s.expandItems (fun q => ((load q).on opened).1) rest <;> rfl

theorem on_expandFields {load : String → Loading Document} {opened : List Path.Steps}
    (kept : ∀ q, ((load q).on opened).2 = opened) : (fields : List (String × Document)) →
    (s.expandFields load fields).on opened =
      (s.expandFields (fun q => ((load q).on opened).1) fields, opened)
  | [] => rfl
  | (key, d) :: rest => by
    rw [expandFields, expandFields, Loading.on_bind, on_expand kept d]
    cases s.expand (fun q => ((load q).on opened).1) d with
    | error e => rfl
    | ok item =>
      simp only [Loading.on_bind, on_expandFields kept rest]
      cases s.expandFields (fun q => ((load q).on opened).1) rest <;> rfl

end

def fault? {α : Type} : Except ConfigError α → Option ConfigError
  | .ok _ => none
  | .error e => some e

theorem fault?_eq_none_iff {α : Type} {result : Except ConfigError α} :
    fault? result = none ↔ ∃ a, result = .ok a := by
  cases result <;> simp [fault?]

theorem fault?_eq_some_iff {α : Type} {result : Except ConfigError α} {e : ConfigError} :
    fault? result = some e ↔ result = .error e := by
  cases result <;> simp [fault?]

theorem fault?_map {α β : Type} (f : α → β) (result : Except ConfigError α) :
    fault? (f <$> result) = fault? result := by
  cases result <;> rfl

mutual

/-- The fault of a document is that of the first of its tags that has one. -/
theorem fault?_expand (load : String → Except ConfigError Document) : (d : Document) →
    fault? (s.expand load d) = d.tags.findSome? fun t => fault? (s.carryOut load t.1 t.2)
  | .list items => by rw [expand, fault?_map, fault?_expandItems load items]; rfl
  | .map fields => by rw [expand, fault?_map, fault?_expandFields load fields]; rfl
  | .tagged tag content => by
    rw [expand, Document.tags, List.findSome?_singleton]
  | .null | .bool _ | .int _ | .float _ | .text _ => rfl

theorem fault?_expandItems (load : String → Except ConfigError Document) : (items : List Document) →
    fault? (s.expandItems load items) =
      (Document.tagsItems items).findSome? fun t => fault? (s.carryOut load t.1 t.2)
  | [] => rfl
  | d :: rest => by
    rw [Document.tagsItems, List.findSome?_append, ← fault?_expand load d,
      ← fault?_expandItems load rest, expandItems]
    cases s.expand load d with
    | error e => rfl
    | ok item => cases s.expandItems load rest <;> rfl

theorem fault?_expandFields (load : String → Except ConfigError Document) :
    (fields : List (String × Document)) →
    fault? (s.expandFields load fields) =
      (Document.tagsFields fields).findSome? fun t => fault? (s.carryOut load t.1 t.2)
  | [] => rfl
  | (key, d) :: rest => by
    rw [Document.tagsFields, List.findSome?_append, ← fault?_expand load d,
      ← fault?_expandFields load rest, expandFields]
    cases s.expand load d with
    | error e => rfl
    | ok item => cases s.expandFields load rest <;> rfl

end

/-- What comes of loading a path while some files are being read. -/
def outcome (s : Surroundings) (base : String) (fuel : Nat) (opened : List Path.Steps)
    (path : String) : Except ConfigError Document :=
  ((s.loadFile base fuel path).on opened).1

def following (s : Surroundings) (base : String) (opened : List Path.Steps)
    (answer : List Path.Steps → String → Except ConfigError Document) (path : String) :
    Except ConfigError Document :=
  let file := Path.join base path
  let steps := Path.steps file
  if steps ∈ opened then .error (.circularInclude file)
  else
    match s.files.read file with
    | .error fault => .error (.unreadable file fault)
    | .ok none => .error (.malformed file)
    | .ok (some d) => s.expand (fun q => answer (steps :: opened) (includePath base file q)) d

theorem on_loadFile_succ {fuel : Nat}
    (kept : ∀ path opened, ((s.loadFile base fuel path).on opened).2 = opened) (path : String)
    (opened : List Path.Steps) :
    (s.loadFile base (fuel + 1) path).on opened =
      (s.following base opened (s.outcome base fuel) path, opened) := by
  simp only [loadFile, following]
  generalize Path.join base path = file
  rw [Loading.on_bind, Loading.on_get]
  by_cases circle : Path.steps file ∈ opened
  · simp only [List.contains_iff_mem, if_pos circle, Loading.on_throw]
  · simp only [List.contains_iff_mem, if_neg circle]
    cases s.files.read file with
    | error fault => rfl
    | ok content =>
      cases content with
      | none => exact Loading.on_within circle rfl
      | some d =>
        have whole := on_expand (s := s)
          (fun q => kept (includePath base file q) (Path.steps file :: opened)) d
        exact (Loading.on_within circle (by rw [whole])).trans (by rw [whole]; rfl)

/-- Every load leaves the files that are being read as they were, also if it fails. -/
theorem loadFile_keeps (fuel : Nat) (path : String) (opened : List Path.Steps) :
    ((s.loadFile base fuel path).on opened).2 = opened := by
  induction fuel generalizing path opened with
  | zero => rfl
  | succ fuel ih => rw [on_loadFile_succ ih]

theorem outcome_succ (fuel : Nat) (opened : List Path.Steps) (path : String) :
    s.outcome base (fuel + 1) opened path = s.following base opened (s.outcome base fuel) path := by
  rw [outcome, on_loadFile_succ (loadFile_keeps fuel)]

/-- The files that are being read are different ones, by paths that can be opened. -/
def Opened (opened : List Path.Steps) : Prop :=
  opened.Nodup ∧ ∃ paths : List String, paths.map Path.steps = opened ∧
    ∀ path ∈ paths, path.utf8ByteSize < Files.pathLimit

theorem Opened.nil : Opened [] :=
  ⟨List.nodup_nil, [], rfl, List.forall_mem_nil _⟩

theorem Opened.cons {opened : List Path.Steps} (h : Opened opened) {file : String}
    (new : Path.steps file ∉ opened) {content : Option Document}
    (read : s.files.read file = .ok content) : Opened (Path.steps file :: opened) := by
  obtain ⟨once, paths, own, short⟩ := h
  refine ⟨once.cons new, file :: paths, by rw [List.map_cons, own], ?_⟩
  exact List.forall_mem_cons.mpr ⟨(Files.read_eq_ok read).1, short⟩

def number (path : String) : Nat :=
  Nat.ofDigits 257 (path.toByteArray.data.toList.map fun byte => byte.toNat + 1)

theorem digits_number (path : String) :
    Nat.digits 257 (number path) = path.toByteArray.data.toList.map fun byte => byte.toNat + 1 := by
  refine Nat.digits_ofDigits 257 (by decide) _ ?_ ?_
  · intro digit inside
    obtain ⟨byte, -, rfl⟩ := List.mem_map.mp inside
    have := byte.toNat_lt
    omega
  · intro filled
    obtain ⟨byte, -, own⟩ := List.mem_map.mp (List.getLast_mem filled)
    omega

theorem number_injective : Function.Injective number := by
  intro path other same
  have bytes : List.map (fun byte : UInt8 => byte.toNat + 1) path.toByteArray.data.toList =
      other.toByteArray.data.toList.map fun byte => byte.toNat + 1 := by
    rw [← digits_number, ← digits_number, same]
  have same := List.map_injective_iff.mpr
    (fun x y h => UInt8.toNat_inj.mp (Nat.succ.inj h)) bytes
  rw [← String.toByteArray_inj]
  exact ByteArray.ext (Array.toList_inj.mp same)

theorem number_lt {path : String} {bytes : Nat} (short : path.utf8ByteSize < bytes) :
    number path < Files.pathsBelow bytes := by
  refine Nat.lt_of_lt_of_le (Nat.ofDigits_lt_base_pow_length (by decide) ?_)
    (Nat.pow_le_pow_right (by decide) ?_)
  · intro digit inside
    obtain ⟨byte, -, rfl⟩ := List.mem_map.mp inside
    have := byte.toNat_lt
    omega
  · rw [List.length_map]
    exact short.le

theorem Opened.length_le {opened : List Path.Steps} (h : Opened opened) :
    opened.length ≤ Files.openable := by
  obtain ⟨once, paths, rfl, short⟩ := h
  have different : (paths.map number).Nodup := once.of_map.map number_injective
  have below : paths.map number ⊆ List.range Files.openable := by
    intro n inside
    obtain ⟨path, there, rfl⟩ := List.mem_map.mp inside
    exact List.mem_range.mpr (number_lt (short path there))
  simpa using (List.subperm_of_subset different below).length_le

theorem following_congr {opened : List Path.Steps} (h : Opened opened)
    {answer other : List Path.Steps → String → Except ConfigError Document}
    (same : ∀ file, Opened (file :: opened) → ∀ q,
      answer (file :: opened) q = other (file :: opened) q) (path : String) :
    s.following base opened answer path = s.following base opened other path := by
  simp only [following]
  generalize Path.join base path = file
  by_cases circle : Path.steps file ∈ opened
  · rw [if_pos circle, if_pos circle]
  · rw [if_neg circle, if_neg circle]
    cases read : s.files.read file with
    | error fault => rfl
    | ok content =>
      cases content with
      | none => rfl
      | some d =>
        exact congrArg (s.expand · d) (funext fun q => same _ (h.cons circle read) _)

/-- More fuel than enough does not matter. -/
theorem outcome_eq {fuel more : Nat} {opened : List Path.Steps} (h : Opened opened)
    (enough : Files.openable < fuel + opened.length)
    (enough' : Files.openable < more + opened.length) (path : String) :
    s.outcome base fuel opened path = s.outcome base more opened path := by
  induction fuel generalizing more opened path with
  | zero => exact absurd h.length_le (by omega)
  | succ fuel ih =>
    cases more with
    | zero => exact absurd h.length_le (by omega)
    | succ more =>
      rw [outcome_succ, outcome_succ]
      refine following_congr h (fun file h q => ih h ?_ ?_ q) path <;>
        (rw [List.length_cons]; omega)

def answer (s : Surroundings) (base : String) (opened : List Path.Steps) (path : String) :
    Except ConfigError Document :=
  s.outcome base (Files.openable + 1) opened path

theorem answer_eq {opened : List Path.Steps} (h : Opened opened) (path : String) :
    s.answer base opened path = s.following base opened (s.answer base) path := by
  rw [answer, outcome_succ]
  refine following_congr h (fun file h q => outcome_eq h ?_ ?_ q) path <;>
    (rw [List.length_cons]; omega)

theorem result_load (path : String) : (s.load base path).result = s.answer base [] path :=
  rfl

/-- A document gets to an include if there is nothing wrong with the tags in front of it. -/
def Asks (s : Surroundings) (load : String → Except ConfigError Document) (d : Document)
    (path : String) : Prop :=
  ∃ before after, d.tags = before ++ ("!include", .text path) :: after ∧
    ∀ t ∈ before, fault? (s.carryOut load t.1 t.2) = none

/-- Loading a path while some files are being read gets to another path, with these and the files in
between being read. -/
inductive Reaches (s : Surroundings) (base : String) :
    List Path.Steps → String → List Path.Steps → String → Prop
  | here (opened : List Path.Steps) (path : String) : Reaches s base opened path opened path
  | inside {opened later : List Path.Steps} {path file last q : String} {d : Document}
      (own : Path.join base path = file)
      (new : Path.steps file ∉ opened)
      (read : s.files.read file = .ok (some d))
      (asks : s.Asks
        (fun q => s.answer base (Path.steps file :: opened) (includePath base file q)) d q)
      (further : Reaches s base (Path.steps file :: opened) (includePath base file q) later last) :
      Reaches s base opened path later last

end Surroundings

end HomeControl
