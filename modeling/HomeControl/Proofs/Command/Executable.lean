import HomeControl.Proofs.Command.Members
import HomeControl.Proofs.Command.Met
import HomeControl.Proofs.Command.Modified
import HomeControl.Proofs.Command.Restore
import HomeControl.Proofs.House.Capable
/-!
What plans ask for can be done. Every setter that commands mean is for a node that has the very
capability that carries it out, be it now, at a later time, or step by step in a fade. What is put
back after some time is not looked at in this way.
-/

namespace HomeControl

open Text

structure Topology.Immediate (t : Topology) (p : Plan) : Prop where
  setters : ∀ w ∈ p.setters, t.Executable w
  faders : ∀ f ∈ p.faders, t.Fadable f
  timed : p.timed = []

structure Plan.Reads (p : Plan) : Prop where
  setters : p.setters = []
  faders : p.faders = []
  timed : p.timed = []

namespace Plan

theorem reads_empty : empty.Reads := ⟨rfl, rfl, rfl⟩

theorem reads_failure (e : PlanError) : (failure e).Reads := ⟨rfl, rfl, rfl⟩

theorem Reads.merge {p q : Plan} (hp : p.Reads) (hq : q.Reads) : (p.merge q).Reads where
  setters := List.append_eq_nil_iff.mpr ⟨hp.setters, hq.setters⟩
  faders := List.append_eq_nil_iff.mpr ⟨hp.faders, hq.faders⟩
  timed := List.append_eq_nil_iff.mpr ⟨hp.timed, hq.timed⟩

theorem Reads.immediate {p : Plan} (h : p.Reads) (t : Topology) : t.Immediate p where
  setters _ inside := absurd (h.setters ▸ inside) List.not_mem_nil
  faders _ inside := absurd (h.faders ▸ inside) List.not_mem_nil
  timed := h.timed

end Plan

theorem toNat_min_hundred_le (n : Nat) : (min n 100).toUInt8.toNat ≤ 100 := by
  simp only [Nat.toUInt8, UInt8.toNat_ofNat']
  omega

theorem Word.percent?_le {word : String} {p : UInt8} (h : Word.percent? word = some p) :
    p.toNat ≤ 100 := by
  obtain ⟨n, -, rfl⟩ := Option.map_eq_some_iff.mp h
  exact toNat_min_hundred_le n

namespace Situation

theorem brightnessWord_le {word : String} {p : Nat} (h : brightnessWord word = .percent p) :
    p ≤ 100 := by
  unfold brightnessWord at h
  split at h
  · split at h
    · rename_i found
      cases h
      exact Word.percent?_le found
    · cases h
  · split at h
    · cases h
    · split at h
      · cases h
        exact Nat.le_refl 100
      · split at h
        · cases h
          exact Nat.zero_le 100
        · cases h

section Words

variable {s : Situation} {t : Topology} {n : Node}

theorem switchNode_executable (found : t.nodes.get? n.id = some n) {capability word : String}
    (means : switchCapability? word = some capability) (single : Bool) :
    ∀ w ∈ (switchNode capability word single n).setters, t.Executable w := by
  unfold switchNode
  split
  · rename_i has
    refine List.forall_mem_singleton.mpr ?_
    unfold switchCapability? at means
    split at means
    · cases means
      exact Topology.executable_state found has
    · split at means
      · cases means
        exact Topology.executable_state found has
      · split at means
        · cases means
          exact Topology.executable_flip found has
        · cases means
  · exact List.forall_mem_nil _

theorem colorNode_executable (found : t.nodes.get? n.id = some n) (color : Color)
    (last single : Bool) : ∀ w ∈ (colorNode color last single n).setters, t.Executable w := by
  unfold colorNode
  split
  · rename_i has
    refine List.forall_mem_cons.mpr ⟨Topology.executable_color found has color, ?_⟩
    split
    · rename_i on
      exact List.forall_mem_singleton.mpr (Topology.executable_state found (Bool.and_eq_true_iff.mp on).2)
    · exact List.forall_mem_nil _
  · exact List.forall_mem_nil _

theorem brightnessNode_executable (found : t.nodes.get? n.id = some n) {percent : Nat}
    (most : percent ≤ 100) (single : Bool) :
    ∀ w ∈ (brightnessNode percent single n).setters, t.Executable w := by
  have switched : ∀ b on, (b = true → n.hasSet (if on then Attr.on else Attr.off) = true) →
      ∀ w ∈ if b then [Setter.state n.id on] else [], t.Executable w := by
    intro b on has
    cases b with
    | false => exact List.forall_mem_nil _
    | true => exact List.forall_mem_singleton.mpr (Topology.executable_state found (has rfl))
  unfold brightnessNode
  split
  · rename_i has
    refine List.forall_mem_cons.mpr
      ⟨Topology.executable_brightness found has most, List.forall_mem_append.mpr ⟨?_, ?_⟩⟩
    · exact switched _ true fun full => (Bool.and_eq_true_iff.mp full).2
    · exact switched _ false fun none => (Bool.and_eq_true_iff.mp none).2
  · split
    · exact List.forall_mem_nil _
    · split
      · rename_i on
        exact List.forall_mem_singleton.mpr
          (Topology.executable_state found (Bool.and_eq_true_iff.mp on).2)
      · split
        · rename_i off
          exact List.forall_mem_singleton.mpr
            (Topology.executable_state found (Bool.and_eq_true_iff.mp off).2)
        · exact List.forall_mem_nil _

variable {nodes : List Node} (known : ∀ n ∈ nodes, t.nodes.get? n.id = some n)

include known

theorem ofNodes_executable {f : Bool → Node → Draft} (own : Draft.Own f)
    (each : ∀ n, t.nodes.get? n.id = some n → ∀ w ∈ (f true n).setters, t.Executable w) :
    ∀ w ∈ (Draft.ofNodes nodes f).setters, t.Executable w := by
  rw [own.ofNodes_setters]
  intro w inside
  obtain ⟨n, among, mine⟩ := List.mem_flatMap.mp inside
  exact each n (known n among) w mine

theorem readSwitch_executable (words : List String) :
    ∀ w ∈ (readSwitch nodes words).1.setters, t.Executable w := by
  unfold readSwitch
  split
  · exact List.forall_mem_nil _
  · split
    · rename_i means
      exact ofNodes_executable known (switchNode_own _ _)
        fun n found => switchNode_executable found means true
    · exact List.forall_mem_nil _

theorem readColor_executable (words : List String) :
    ∀ w ∈ (s.readColor nodes words).1.setters, t.Executable w := by
  unfold readColor
  split
  · exact List.forall_mem_nil _
  · split
    · exact ofNodes_executable known (colorNode_own _ _)
        fun n found => colorNode_executable found _ _ true
    · exact List.forall_mem_nil _

theorem readBrightness_executable (words : List String) :
    ∀ w ∈ (readBrightness nodes words).1.setters, t.Executable w := by
  unfold readBrightness
  split
  · exact List.forall_mem_nil _
  · split
    · exact List.forall_mem_nil _
    · split
      · rename_i means
        exact ofNodes_executable known (brightnessNode_own _)
          fun n found => brightnessNode_executable found (brightnessWord_le means) true
      · exact List.forall_mem_nil _
      · exact List.forall_mem_nil _
      · exact List.forall_mem_nil _

theorem readParts_executable (words : List String) :
    ∀ w ∈ (s.readParts nodes words).1.setters, t.Executable w := by
  intro w inside
  rcases List.mem_append.mp inside with first | lit
  · rcases List.mem_append.mp first with switched | colored
    · exact readSwitch_executable known words w switched
    · exact readColor_executable known _ w colored
  · exact readBrightness_executable known _ w lit

end Words

section Fades

variable {s : Situation} {t : Topology}

theorem percentOf?_le {v : Value} {p : UInt8} (h : percentOf? v = some p) : p.toNat ≤ 100 := by
  obtain ⟨n, -, rfl⟩ := Option.map_eq_some_iff.mp h
  exact toNat_min_hundred_le n

theorem fadeValues?_eq_some {w : Setter} {known : Option Value} {values : FadeValues}
    (h : fadeValues? w known = some values) :
    w.attr = values.attr ∧ values.Percentages := by
  unfold fadeValues? at h
  split at h
  · split at h
    · rename_i same
      simp only [Option.bind_eq_bind, Option.bind_eq_some_iff, Option.some.injEq] at h
      obtain ⟨start, first, goal, last, rfl⟩ := h
      refine ⟨same, ?_⟩
      rintro _ _ ⟨⟩
      exact ⟨percentOf?_le first, percentOf?_le last⟩
    · split at h
      · rename_i same
        simp only [Option.bind_eq_bind, Option.bind_eq_some_iff, Option.some.injEq] at h
        obtain ⟨start, first, goal, last, rfl⟩ := h
        exact ⟨same, nofun⟩
      · cases h
  · cases h

theorem fadable_of_executable {w : Setter} (can : t.Executable w) {f : FaderSpec}
    (own : w.node = f.node) {known : Option Value} (ends : fadeValues? w known = some f.values) :
    t.Fadable f := by
  obtain ⟨same, most⟩ := fadeValues?_eq_some ends
  exact can.fadable own same most

theorem fadeEnd?_le {attr : Option String} {word : String} {p : UInt8}
    (h : s.fadeEnd? attr word = some (.brightness p)) : p.toNat ≤ 100 := by
  rcases Option.or_eq_some_iff.mp h with color | ⟨-, brightness⟩
  · split at color
    · cases color
    · obtain ⟨c, -, other⟩ := Option.map_eq_some_iff.mp color
      cases other
  · split at brightness
    · cases brightness
    · split at brightness
      · obtain ⟨q, found, same⟩ := Option.map_eq_some_iff.mp brightness
        cases same
        exact Word.percent?_le found
      · cases brightness

theorem readFadeEnd_le {attr : Option String} {words : List String} {p : UInt8}
    (h : (s.readFadeEnd attr words).1 = some (.brightness p)) : p.toNat ≤ 100 := by
  unfold readFadeEnd at h
  split at h
  · split at h
    · rename_i found
      cases h
      exact fadeEnd?_le found
    · cases h
  · cases h

theorem pair?_percentages {start goal : Option FadeEnd} {values : FadeValues}
    (first : ∀ p, start = some (.brightness p) → p.toNat ≤ 100)
    (last : ∀ p, goal = some (.brightness p) → p.toNat ≤ 100)
    (h : pair? start goal = some values) : values.Percentages := by
  unfold pair? at h
  split at h
  · cases h
    exact nofun
  · cases h
    rintro _ _ ⟨⟩
    exact ⟨first _ rfl, last _ rfl⟩
  · cases h

theorem fadersOf_fadable {nodes : List Node} (known : ∀ n ∈ nodes, t.nodes.get? n.id = some n)
    {values : FadeValues} (most : values.Percentages) (d : Duration) :
    ∀ f ∈ (fadersOf nodes values d).faders, t.Fadable f := by
  intro f inside
  obtain ⟨n, among, rfl⟩ := List.mem_map.mp inside
  obtain ⟨there, has⟩ := List.mem_filter.mp among
  exact Topology.fadable_of_hasSet (known n there) has most

theorem fadeNodes_fadable {nodes : List Node} (known : ∀ n ∈ nodes, t.nodes.get? n.id = some n)
    (words : List String) : ∀ f ∈ (s.fadeNodes nodes words).faders, t.Fadable f := by
  have planned : ∀ values d, (∀ v, values = some v → v.Percentages) →
      ∀ f ∈ (fadePlan nodes values d).faders, t.Fadable f := by
    intro values d most
    unfold fadePlan
    split
    · exact List.forall_mem_nil _
    · exact List.forall_mem_nil _
    · exact fadersOf_fadable known (most _ rfl) _
  refine planned _ _ ?_
  intro values paired
  exact pair?_percentages (fun p => readFadeEnd_le) (fun p => readFadeEnd_le) paired

end Fades

theorem timedSet?_of_words (s : Situation) {timed : Bool} {one : String} {words args time : List String}
    {nodes : List Node} {draft : Draft} (whole : ';' ∉ one.toList)
    (spoken : Text.words one = "set" :: words) (found : s.targets timed words = (nodes, args))
    (targets : nodes ≠ []) (parts : s.readParts nodes args = (draft, some time)) :
    s.timedSet? timed one = some (draft, time) := by
  obtain ⟨n, more, rfl⟩ := List.exists_cons_of_ne_nil targets
  have there : Text.words one ≠ [] := by
    rw [spoken]
    exact List.cons_ne_nil _ _
  simp only [timedSet?, commandsOf_one whole there, words_trim, spoken, found, parts]

theorem status_reads (s : Situation) (words : List String) : (s.status words).Reads := by
  unfold status
  split
  · exact ⟨rfl, rfl, rfl⟩
  · refine List.foldlRecOn (motive := Plan.Reads) _ _ Plan.reads_empty ?_
    intro p reads word _
    unfold statusOf
    split
    · exact ⟨reads.setters, reads.faders, reads.timed⟩
    · exact ⟨reads.setters, reads.faders, reads.timed⟩

theorem get_reads (s : Situation) (words : List String) : (s.get words).Reads := by
  have attrs : ∀ nodes attrs, (getNodes nodes attrs).Reads := by
    intro nodes attrs
    refine List.foldlRecOn (motive := Plan.Reads) _ _ Plan.reads_empty ?_
    intro p reads attr _
    exact reads.merge ⟨rfl, rfl, rfl⟩
  unfold get
  split
  split
  simp only
  split
  · exact ⟨rfl, rfl, rfl⟩
  · exact ⟨(attrs _ _).setters, (attrs _ _).faders, (attrs _ _).timed⟩

def Timed (s : Situation) (timed : Bool) (one : String) (p : Plan) : Prop :=
  ∃ draft time, s.timedSet? timed one = some (draft, time) ∧
    (∀ w ∈ draft.setters, s.topology.Executable w) ∧ s.Modified draft.setters time p

section Commands

variable {c : Config} {s : Situation} (made : Topology.ofConfig c = .ok s.topology) (timed : Bool)

include made

theorem get?_of_targets {words args : List String} {nodes : List Node}
    (found : s.targets timed words = (nodes, args)) :
    ∀ n ∈ nodes, s.topology.nodes.get? n.id = some n := by
  have read : ∀ words, ∀ n ∈ (s.readTargets timed words).1, s.topology.nodes.get? n.id = some n := by
    intro words
    induction words with
    | nil => exact List.forall_mem_nil _
    | cons word rest ih =>
      rw [readTargets]
      split
      · exact List.forall_mem_nil _
      · refine List.forall_mem_append.mpr ⟨?_, ih⟩
        exact fun n inside => Topology.get?_of_resolve made inside
  intro n inside
  rw [targets] at found
  cases found
  exact read words n (mem_of_uniqueNodes inside)

/-- A setting that has a time is under it, and all else that a setting writes is written at once. -/
theorem set_cases {one : String} {words : List String} (whole : ';' ∉ one.toList)
    (spoken : Text.words one = "set" :: words) :
    s.Timed timed one (s.set timed words) ∨ s.topology.Immediate (s.set timed words) := by
  unfold set
  split
  · exact Or.inr ((Plan.reads_failure _).immediate _)
  · rename_i nodes args some found
    have can := readParts_executable (s := s) (get?_of_targets made timed found) args
    rw [setNodes_eq]
    split
    · rename_i draft parts
      rw [parts] at can
      exact Or.inr ⟨can, List.forall_mem_nil _, rfl⟩
    · rename_i draft time parts
      rw [parts] at can
      have read := s.timedSet?_of_words whole spoken found some parts
      have under := s.readModifier_modified draft.setters time
      exact Or.inl ⟨draft, time, read, can, under.setters, under.faders, under.timed⟩

theorem fade_immediate (words : List String) : s.topology.Immediate (s.fade timed words) := by
  obtain ⟨nodes, args, found⟩ : ∃ nodes args, s.targets timed words = (nodes, args) := ⟨_, _, rfl⟩
  have nothing := fade_carries (s := s) (Q := fun _ => False) timed words
  refine ⟨fun w inside => (nothing.1 w inside).elim, ?_,
    List.eq_nil_iff_forall_not_mem.mpr nothing.2⟩
  cases nodes with
  | nil =>
    unfold fade
    rw [found]
    exact List.forall_mem_nil _
  | cons n more =>
    rw [fade_eq found (List.cons_ne_nil n more)]
    exact fadeNodes_fadable (get?_of_targets made timed found) args

theorem plain_cases {one : String} (whole : ';' ∉ one.toList) :
    s.Timed timed one (s.plain timed one) ∨ s.topology.Immediate (s.plain timed one) := by
  unfold plain command
  split
  · exact Or.inr ((Plan.reads_failure _).immediate _)
  · exact Or.inr ((s.status_reads _).immediate _)
  · exact Or.inr (Plan.reads_empty.immediate _)
  · exact Or.inr ((s.get_reads _).immediate _)
  · rename_i spoken
    exact set_cases made timed whole spoken
  · exact Or.inr (fade_immediate made timed _)
  · exact Or.inr ((Plan.reads_failure _).immediate _)

end Commands

/-- All that a text writes is written by a setting under its time, or at once. -/
theorem writes_cases {c : Config} {s : Situation} (made : Topology.ofConfig c = .ok s.topology)
    {timed : Bool} {text : String} {α : Type} {view : Plan → List α} (v : Plan.View view) {y : α}
    (inside : y ∈ view (s.compile timed text)) :
    ∃ one, Met s.topology.actions [] text one ∧ y ∈ view (s.plain timed one) ∧
      (s.Timed timed one (s.plain timed one) ∨ s.topology.Immediate (s.plain timed one)) := by
  obtain ⟨one, met, plain⟩ := (mem_view_compile v s timed).mp inside
  exact ⟨one, met, plain, plain_cases made timed (whole_of_met met)⟩

/-- A setter for later that comes from a setting which is met in a text, under a time that starts with
a keyword. -/
def Delays (s : Situation) (timed : Bool) (text keyword : String) (x : TimedSetter) : Prop :=
  ∃ one, Met s.topology.actions [] text one ∧ x ∈ (s.plain timed one).timed ∧
    ∃ draft more, s.timedSet? timed one = some (draft, keyword :: more)

/-- What a text asks to write can be carried out: its setters and its fades at once, and what is set at
or in some time then. Nothing else is written later but what puts back what was there before. -/
theorem compiled_writes_are_executable {c : Config} {s : Situation}
    (made : Topology.ofConfig c = .ok s.topology) (timed : Bool) (text : String) :
    let p := s.compile timed text
    (∀ w ∈ p.setters, s.topology.Executable w) ∧
    (∀ f ∈ p.faders, s.topology.Fadable f) ∧
    (∀ keyword ∈ ["at", "in"], ∀ x, s.Delays timed text keyword x →
      s.topology.Executable x.setter) ∧
    ∀ x, x ∈ p.timed ↔ ∃ keyword ∈ ["at", "in", "until", "for"], s.Delays timed text keyword x := by
  intro p
  have apart : ∀ keyword ∈ ["at", "in"], keyword ∉ ["until", "for"] := by decide
  refine ⟨?_, ?_, ?_, ?_⟩
  · intro w inside
    obtain ⟨one, -, plain, ⟨_, _, _, can, under⟩ | now⟩ := writes_cases made Plan.view_setters inside
    · exact can w (under.setters w plain)
    · exact now.setters w plain
  · intro f inside
    obtain ⟨one, -, plain, ⟨_, _, _, can, under⟩ | now⟩ := writes_cases made Plan.view_faders inside
    · obtain ⟨w, among, own, ends⟩ := under.faders f plain
      exact fadable_of_executable (can w among) own ends
    · exact now.faders f plain
  · rintro keyword delays x ⟨one, met, plain, draft, more, read⟩
    rcases plain_cases made timed (whole_of_met met) with ⟨_, _, read', can, under⟩ | now
    · cases read.symm.trans read'
      obtain ⟨_, _, same, ⟨-, among⟩ | restores⟩ := under.timed x plain
      · exact can x.setter among
      · cases same
        exact absurd restores (apart keyword delays)
    · exact absurd (now.timed ▸ plain) List.not_mem_nil
  · intro x
    constructor
    · intro inside
      obtain ⟨one, met, plain, ⟨draft, time, read, -, under⟩ | now⟩ :=
        writes_cases made Plan.view_timed inside
      · obtain ⟨keyword, more, rfl, kind⟩ := under.timed x plain
        refine ⟨keyword, ?_, one, met, plain, draft, more, read⟩
        exact List.mem_append.mpr (kind.imp_left And.left)
      · exact absurd (now.timed ▸ plain) List.not_mem_nil
    · rintro ⟨keyword, -, one, met, plain, -⟩
      exact (mem_view_compile Plan.view_timed s timed).mpr ⟨one, met, plain⟩

theorem compiled_writes_are_executable_evening :
    let bulb : Device := ⟨"bulb", Device.virtualKind, [], [Attr.on, Attr.brightness], false, []⟩
    let t : Topology := { (Controller.ofBulb bulb).topology with
      actions := ⟨[("evening", ["set lamp 100 over 10"])]⟩ }
    let s : Situation := ⟨t, (Place.mk .utc none).resolver, ⟨0, 0⟩, fun _ attr =>
      if attr = Attr.brightness then some (.int 20) else none⟩
    let text := "do evening; set lamp 40% in 5m"
    (s.compile false text).setters = [.state "lamp" true] ∧
      t.Executable (.state "lamp" true) ∧
      (s.compile false text).faders = [⟨"lamp", .brightness 20 100, .ofParts 10 0⟩] ∧
      t.Fadable ⟨"lamp", .brightness 20 100, .ofParts 10 0⟩ ∧
      s.Delays false text "in" ⟨.brightness "lamp" 40, 300000⟩ ∧
      t.Executable (.brightness "lamp" 40) := by
  intro bulb t s text
  have made : Topology.ofConfig
      { Config.ofBulb [("setters", .list [.text Attr.on, .text Attr.brightness])] with
        actions := [⟨some "evening", none, none, .one "set lamp 100 over 10"⟩] } = .ok t := rfl
  obtain ⟨now, fading, later, -⟩ := compiled_writes_are_executable (s := s) made false text
  have setters : (s.compile false text).setters = [.state "lamp" true] := by decide +kernel
  have faders : (s.compile false text).faders = [⟨"lamp", .brightness 20 100, .ofParts 10 0⟩] := by
    decide +kernel
  have delays : s.Delays false text "in" ⟨.brightness "lamp" 40, 300000⟩ := by
    exact ⟨"set lamp 40% in 5m", .here (by decide +kernel) (by decide +kernel), by decide +kernel,
      ⟨[.brightness "lamp" 40], []⟩, ["5m"], by decide +kernel⟩
  exact ⟨setters, now _ (by rw [setters]; exact List.mem_singleton_self _), faders,
    fading _ (by rw [faders]; exact List.mem_singleton_self _), delays,
    later "in" (by decide) _ delays⟩

end Situation

end HomeControl
