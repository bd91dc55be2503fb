import HomeControl.Proofs.Command.Brightness
/-!
Transitions. `set` with a duration puts fades in place of the setters that have a known value to start
from, so for a brightness it means what `fade` means from the known one. But full brightness comes with
a switch, and so does none; these are not faded, and are done at once.
-/

namespace HomeControl

open Text

namespace Word

theorem number_toString : ∀ p < 101, isNumber (toString p) = true ∧ isPlain (toString p) = true ∧
    value (toString p) = p := by
  decide +kernel

theorem spoken_toString : ∀ p < 101, Spoken (toString p) := by
  decide +kernel

theorem uncolored_toString : ∀ p < 101,
    (Color.ofHex? (toString p)).or (Color.ofLiteral? (toString p)) = none := by
  decide +kernel

theorem isNumber_percent {word : String} (h : isPercent word = true) : isNumber word = true := by
  unfold isPercent at h
  simp only [Bool.or_eq_true, Bool.and_eq_true, decide_eq_true_eq, beq_iff_eq] at h
  rcases h with (⟨⟨some, -⟩, digits⟩ | hundred) | ⟨some, zeros⟩
  · refine number_iff.mpr ⟨List.ne_nil_of_length_pos some, List.all_eq_true.mp digits⟩
  · rw [isNumber, hundred]
    decide
  · refine number_iff.mpr ⟨by simpa using some, fun c inside => ?_⟩
    rw [beq_iff_eq.mp (List.all_eq_true.mp zeros c inside)]
    decide

theorem toList_negative (k : Nat) :
    (toString (Int.negSucc k)).toList = '-' :: Nat.toDigits 10 (k + 1) := by
  change ("-" ++ Nat.repr (k + 1)).toList = _
  rw [String.toList_append, Nat.toList_repr]
  rfl

theorem isPercent_negative (k : Nat) : isPercent (toString (Int.negSucc k)) = false := by
  refine Bool.eq_false_iff.mpr fun percent => ?_
  obtain ⟨c, first, digit⟩ := head_number (isNumber_percent percent)
  rw [toList_negative] at first
  cases first
  exact absurd digit (by decide)

theorem ne_negative {word : String} {c : Char} (first : word.toList.head? = some c)
    (other : c ≠ '-') (k : Nat) : toString (Int.negSucc k) ≠ word := by
  rintro rfl
  rw [toList_negative] at first
  cases first
  exact other rfl

theorem spoken_digit {c : Char} (h : c.isDigit = true) : isBlank c = false ∧ c ≠ ';' := by
  refine ⟨isBlank_digit h, ?_⟩
  rintro rfl
  cases h

theorem spoken_negative (k : Nat) : Spoken (toString (Int.negSucc k)) := by
  refine ⟨fun blank => ?_, fun c inside => ?_⟩
  · have none := congrArg String.toList blank
    rw [toList_negative] at none
    cases none
  · rw [toList_negative] at inside
    rcases List.mem_cons.mp inside with rfl | digit
    · decide
    · exact spoken_digit (isDigit_toDigits (k + 1) c digit)

end Word

namespace Situation

variable {s : Situation} {n : Node} {d : Duration} {word : String}

theorem transitionOne_state (node : String) (on : Bool) :
    s.transitionOne d (.state node on) = { setters := [.state node on] } := by
  unfold transitionOne fadeValues?
  cases s.known (Setter.state node on).node (Setter.state node on).attr <;> rfl

theorem transitionOne_brightness {c p : Nat} {node : String}
    (known : s.known node Attr.brightness = some (.int c)) (low : c ≤ 100) (percent : p ≤ 100)
    (lasting : d.nanos ≠ 0) :
    s.transitionOne d (.brightness node p) =
      { faders := [⟨node, .brightness c.toUInt8 p.toUInt8, d⟩] } := by
  have values : fadeValues? (.brightness node p) (some (.int c)) =
      some (.brightness (min c 100).toUInt8 (min p 100).toUInt8) := rfl
  simp only [transitionOne, Setter.brightness, known]
  simp only [Setter.brightness] at values
  simp only [values, if_neg lasting, Nat.min_eq_left low, Nat.min_eq_left percent]

/-- A value that is no number up from zero is nothing to start a fade from. -/
theorem transitionOne_negative {k p : Nat} {node : String}
    (known : s.known node Attr.brightness = some (.int (.negSucc k))) :
    s.transitionOne d (.brightness node p) = { setters := [.brightness node p] } := by
  have values : fadeValues? (.brightness node p) (some (.int (.negSucc k))) = none := rfl
  simp only [transitionOne, Setter.brightness, known]
  simp only [Setter.brightness] at values
  simp only [values]

theorem transition_extremes (first : Setter) (n : Node) (p : Nat) :
    s.transition (first :: extremes n p) d =
      (s.transitionOne d first).merge { setters := extremes n p } := by
  unfold extremes transition
  split_ifs <;> simp [transitionOne_state, Plan.merge, Plan.empty, Plan.aggregateClash]

theorem readModifier_over (read : Duration.parse? word = some d) (ws : List Setter) :
    s.readModifier ws ["over", word] = s.transition ws d := by
  have exact : duration word = .ok d := by rw [duration, read]
  have transition : s.modify "over" word ws = s.transition ws d := by
    simp [modify, exact, Except.map]
  have key : Word.isTimeKeyword "over" = true := by decide
  simp only [readModifier, if_pos key, transition, leftover, List.append_nil]

theorem skip_word {expected : List String} {word : String} (h : expected.contains word = false)
    (rest : List String) : skip expected (word :: rest) = (none, word :: rest) := by
  simp only [skip, h, Bool.false_eq_true, if_false]

theorem readFadeEnd_percent {p : Nat} (percent : p ≤ 100) (rest : List String) :
    s.readFadeEnd (some Attr.brightness) (toString p :: rest) =
      (some (.brightness p.toUInt8), rest) := by
  obtain ⟨number, plain, same⟩ := Word.number_toString p (by omega)
  have shape := ((Word.isPlain_iff number).mp plain).1
  have read := Word.percent?_plain number plain
  rw [same] at read
  have fadeEnd : s.fadeEnd? (some Attr.brightness) (toString p) = some (.brightness p.toUInt8) := by
    unfold fadeEnd?
    rw [if_pos rfl, if_neg (by decide), if_pos shape, read]
    rfl
  simp only [readFadeEnd, fadeEnd]

theorem readFadeEnd_negative (k : Nat) (rest : List String) :
    s.readFadeEnd (some Attr.brightness) (toString (Int.negSucc k) :: rest) =
      (none, toString (Int.negSucc k) :: rest) := by
  have fadeEnd : s.fadeEnd? (some Attr.brightness) (toString (Int.negSucc k)) = none := by
    unfold fadeEnd?
    rw [if_pos rfl, if_neg (by decide), Word.isPercent_negative, if_neg (by decide)]
    rfl
  simp only [readFadeEnd, fadeEnd]

theorem fadeNodes_percent {c p : Nat} (low : c ≤ 100) (percent : p ≤ 100)
    (lit : n.hasSet Attr.brightness = true) (read : Duration.parse? word = some d)
    (lasting : d.nanos ≠ 0) :
    s.fadeNodes [n] [Attr.brightness, toString c, "to", toString p, "over", word] =
      { faders := [⟨n.id, .brightness c.toUInt8 p.toUInt8, d⟩] } := by
  have number := (Word.number_toString c (by omega)).1
  have kind : skip [Attr.brightness, Attr.color]
      [Attr.brightness, toString c, "to", toString p, "over", word] =
      (some Attr.brightness, [toString c, "to", toString p, "over", word]) := rfl
  have other : ["from"].contains (toString c) = false :=
    Word.contains_number (by decide +kernel) number
  have start := skip_word other ["to", toString p, "over", word]
  have goal : skip ["to"] ["to", toString p, "over", word] =
      (some "to", [toString p, "over", word]) := rfl
  have spanned : skip ["for", "over"] ["over", word] = (some "over", [word]) := rfl
  have time : readFadeDuration [word] = (.ok d, []) := by
    simp only [readFadeDuration, duration, read, if_neg lasting]
  simp only [fadeNodes, kind, start, readFadeEnd_percent low, goal, readFadeEnd_percent percent,
    spanned, time]
  simp [pair?, fadePlan, fadersOf, FadeValues.attr, lit, leftover]

theorem fadeNodes_negative (nodes : List Node) (k : Nat) (rest : List String) :
    .noFadeValues ∈
      (s.fadeNodes nodes (Attr.brightness :: toString (Int.negSucc k) :: rest)).errors := by
  have kind : skip [Attr.brightness, Attr.color]
      (Attr.brightness :: toString (Int.negSucc k) :: rest) =
      (some Attr.brightness, toString (Int.negSucc k) :: rest) := rfl
  have other : ["from"].contains (toString (Int.negSucc k)) = false := by
    refine Bool.eq_false_iff.mpr fun inside => ?_
    exact Word.ne_negative rfl (by decide) k (List.mem_singleton.mp (List.contains_iff_mem.mp inside))
  simp only [fadeNodes, kind, skip_word other, readFadeEnd_negative]
  exact List.mem_append_left _ List.mem_cons_self

theorem compile_one {timed : Bool} {verb : NodeVerb} {args : List String} (asked : verb ≠ .get)
    (own : s.topology.resolve timed n.id = [n]) (spoken : ∀ w ∈ n.id :: args, Word.Spoken w)
    (rest : ∀ w ∈ args.head?, s.topology.resolve timed w = []) :
    s.compile timed (verb.phrase (n.id :: args)) = (s.tell verb [n] args).checked := by
  have reach : verb.reach timed = timed := by
    cases verb with
    | get => exact absurd rfl asked
    | set => rfl
    | fade => rfl
  have one : s.Addressed timed verb [n.id] args := by
    refine ⟨spoken, List.cons_ne_nil _ _, ?_, by rwa [reach], fun get => absurd get asked⟩
    refine List.forall_mem_singleton.mpr ?_
    rw [reach, own]
    exact List.cons_ne_nil _ _
  have node : s.addressees timed verb [n.id] = [n] := by
    simp [addressees, reach, own, uniqueNodes]
  rw [show s.compile timed (verb.phrase (n.id :: args)) = _ from one.compile_eq, node]

theorem checked_of_faders {p : Plan} (some : p.faders ≠ []) : p.checked = p := by
  have busy : p.hasNoActions = false := by
    simp [Plan.hasNoActions, List.isEmpty_eq_false_iff.mpr some]
  rw [Plan.checked, busy]
  rfl

theorem mem_checked {p : Plan} {e : PlanError} (told : e ∈ p.errors) : e ∈ p.checked.errors := by
  unfold Plan.checked
  split
  · exact List.mem_append_left _ told
  · exact told

theorem extremes_nil_iff {p : Nat} : extremes n p = [] ↔
    ¬ (p = 100 ∧ n.hasSet Attr.on = true) ∧ ¬ (p = 0 ∧ n.hasSet Attr.off = true) := by
  simp [extremes]

/-- A node whose brightness is known, a brightness that it is to have, and the time it takes. The words
for them stand for nothing else. -/
structure Dimming (s : Situation) (timed : Bool) (n : Node) (c : Int) (p : Nat) (word : String)
    (d : Duration) : Prop where
  own : s.topology.resolve timed n.id = [n]
  lit : n.hasSet Attr.brightness = true
  known : s.known n.id Attr.brightness = some (.int c)
  low : c ≤ 100
  percent : p ≤ 100
  read : Duration.parse? word = some d
  lasting : d.nanos ≠ 0
  named : Word.Spoken n.id
  single : Word.Spoken word
  free : ∀ w ∈ [Attr.brightness, toString p], s.topology.resolve timed w = []
  unnamed : s.topology.colors.get? (toString p) = none

section Dimming

variable {timed : Bool} {c : Int} {p : Nat} (h : s.Dimming timed n c p word d)

include h

theorem Dimming.setNodes_eq :
    s.setNodes [n] [toString p, "over", word] =
      (s.transitionOne d (.brightness n.id p)).merge { setters := extremes n p } := by
  have small : p < 101 := by have := h.percent; omega
  obtain ⟨number, plain, same⟩ := Word.number_toString p small
  have uncolored : s.isColor (toString p) = false := by
    rw [isColor, ColorTable.find?, h.unnamed, Word.uncolored_toString p small]
    rfl
  rw [Situation.setNodes_eq, readParts_lit h.lit uncolored number]
  simp only [if_pos plain, same, Draft.ofSetters, readModifier_over h.read, transition_extremes,
    List.nil_append]

theorem Dimming.compile_set :
    s.compile timed (NodeVerb.phrase .set [n.id, toString p, "over", word]) =
      ((s.transitionOne d (.brightness n.id p)).merge { setters := extremes n p }).checked := by
  have brief : Word.Spoken (toString p) := Word.spoken_toString p (by have := h.percent; omega)
  have spoken : ∀ w ∈ [n.id, toString p, "over", word], Word.Spoken w := by
    simp only [List.forall_mem_cons]
    exact ⟨h.named, brief, by decide, h.single, List.forall_mem_nil _⟩
  rw [compile_one (by decide) h.own spoken (by simpa using h.free _ (by simp))]
  exact congrArg Plan.checked h.setNodes_eq

theorem Dimming.compile_fade (begin : Word.Spoken (toString c)) :
    s.compile timed
        (NodeVerb.phrase .fade
          [n.id, Attr.brightness, toString c, "to", toString p, "over", word]) =
      (s.fadeNodes [n]
        [Attr.brightness, toString c, "to", toString p, "over", word]).checked := by
  have brief : Word.Spoken (toString p) := Word.spoken_toString p (by have := h.percent; omega)
  have spoken : ∀ w ∈ [n.id, Attr.brightness, toString c, "to", toString p, "over", word],
      Word.Spoken w := by
    simp only [List.forall_mem_cons]
    exact ⟨h.named, by decide, begin, by decide, brief, by decide, h.single, List.forall_mem_nil _⟩
  exact compile_one (by decide) h.own spoken (by simpa using h.free _ (by simp))

/-- The transition to a brightness is the fade to it from the known one, but full brightness and none
come with a switch, which is done at once. A value below zero is nothing that a fade starts from: the
transition sets at once then, and the fade is refused. -/
theorem transition_is_fade :
    let set := s.compile timed (NodeVerb.phrase .set [n.id, toString p, "over", word])
    let fade := s.compile timed
      (NodeVerb.phrase .fade [n.id, Attr.brightness, toString c, "to", toString p, "over", word])
    (0 ≤ c →
        fade = { faders := [⟨n.id, .brightness c.toNat.toUInt8 p.toUInt8, d⟩] } ∧
          set = { fade with setters := extremes n p }) ∧
      (c < 0 →
        set = .ofSetters (.brightness n.id p :: extremes n p) ∧ .noFadeValues ∈ fade.errors) ∧
      (set = fade ↔ 0 ≤ c ∧ ¬ (p = 100 ∧ n.hasSet Attr.on = true) ∧
        ¬ (p = 0 ∧ n.hasSet Attr.off = true)) := by
  intro set fade
  have setting : set = _ := h.compile_set
  rw [← extremes_nil_iff]
  cases c with
  | ofNat m =>
    have small : m ≤ 100 := Int.ofNat_le.mp h.low
    have begin : Word.Spoken (toString (Int.ofNat m)) := Word.spoken_toString m (by omega)
    have faded : fade = { faders := [⟨n.id, .brightness m.toUInt8 p.toUInt8, d⟩] } := by
      have exact : fade = _ := h.compile_fade begin
      rw [exact, show toString (Int.ofNat m) = toString m from rfl,
        fadeNodes_percent small h.percent h.lit h.read h.lasting]
      rfl
    have moved : set = { fade with setters := extremes n p } := by
      rw [setting, transitionOne_brightness h.known small h.percent h.lasting, faded,
        checked_of_faders (List.cons_ne_nil _ _)]
      rfl
    have same : set = fade ↔ extremes n p = [] := by
      rw [moved, faded]
      simp
    exact ⟨fun _ => ⟨faded, moved⟩,
      fun below => absurd below (Int.not_lt.mpr (Int.natCast_nonneg m)), by simpa using same⟩
  | negSucc k =>
    have refused : .noFadeValues ∈ fade.errors := by
      have exact : fade = _ := h.compile_fade (Word.spoken_negative k)
      rw [exact]
      exact mem_checked (fadeNodes_negative [n] k _)
    have sudden : set = .ofSetters (.brightness n.id p :: extremes n p) := by
      rw [setting, transitionOne_negative h.known]
      rfl
    have apart : set ≠ fade := by
      intro same
      rw [← same, sudden] at refused
      cases refused
    exact ⟨fun above => by omega, fun _ => ⟨sudden, refused⟩,
      iff_of_false apart fun both => by have := both.1; omega⟩

end Dimming

theorem transition_is_fade_lamp :
    let bulb : Device :=
      ⟨"bulb", Device.virtualKind, [Attr.brightness], [Attr.on, Attr.off, Attr.brightness], false, []⟩
    let s : Situation :=
      ⟨(Controller.ofBulb bulb).topology, (Place.mk .utc none).resolver, ⟨0, 0⟩,
        fun _ _ => some (.int 50)⟩
    s.Dimming false ⟨"lamp", bulb, none, none, []⟩ 50 20 "10m" (.ofSeconds 600) ∧
      s.compile false "set lamp 20 over 10m" =
        s.compile false "fade lamp brightness 50 to 20 over 10m" := by
  intro bulb s
  have dimming : s.Dimming false ⟨"lamp", bulb, none, none, []⟩ 50 20 "10m" (.ofSeconds 600) :=
    ⟨by decide, by decide, rfl, by decide, by decide, by decide +kernel, by decide, by decide,
      by decide, by decide, by decide⟩
  obtain ⟨-, -, same⟩ := transition_is_fade dimming
  exact ⟨dimming, same.mpr ⟨by decide, by decide, by decide⟩⟩

/-- A lamp that is to be dark in ten minutes is switched off now. -/
theorem transition_switches_off_at_once :
    let bulb : Device :=
      ⟨"bulb", Device.virtualKind, [Attr.brightness], [Attr.on, Attr.off, Attr.brightness], false, []⟩
    let s : Situation :=
      ⟨(Controller.ofBulb bulb).topology, (Place.mk .utc none).resolver, ⟨0, 0⟩,
        fun _ _ => some (.int 50)⟩
    s.Dimming false ⟨"lamp", bulb, none, none, []⟩ 50 0 "10m" (.ofSeconds 600) ∧
      s.compile false "set lamp 0 over 10m" =
        { s.compile false "fade lamp brightness 50 to 0 over 10m" with
          setters := [.state "lamp" false] } ∧
      s.compile false "set lamp 0 over 10m" ≠
        s.compile false "fade lamp brightness 50 to 0 over 10m" := by
  intro bulb s
  have dimming : s.Dimming false ⟨"lamp", bulb, none, none, []⟩ 50 0 "10m" (.ofSeconds 600) :=
    ⟨by decide, by decide, rfl, by decide, by decide, by decide +kernel, by decide, by decide,
      by decide, by decide, by decide⟩
  exact ⟨dimming, by decide +kernel, by decide +kernel⟩

end Situation

end HomeControl
