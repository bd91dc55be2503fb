import HomeControl.Proofs.Config.Entries
/-!
Timers as their entries merge into them. In an accepted configuration a timer has the events of all
entries of its id, in order, and a time that is written in an entry is among them exactly if the
entry says what to do at it. A time with nothing to do is not even read.
-/

namespace HomeControl

/-- Where an entry of a timer writes a time: to switch its node, or for something else. -/
inductive TimeField where
  | on
  | off
  | flip
  | later
  deriving DecidableEq, Repr

def TimeField.word? : TimeField → Option String
  | on => some "on"
  | off => some "off"
  | flip => some "flip"
  | later => none

namespace TimerConfig

def time? (e : TimerConfig) : TimeField → Option String
  | .on => e.onTime
  | .off => e.offTime
  | .flip => e.flipTime
  | .later => e.atTime

def withTime (e : TimerConfig) (field : TimeField) (text : String) : TimerConfig :=
  match field with
  | .on => { e with onTime := some text }
  | .off => { e with offTime := some text }
  | .flip => { e with flipTime := some text }
  | .later => { e with atTime := some text }

def commandsAt (e : TimerConfig) (field : TimeField) : List String :=
  match field.word? with
  | some word => e.node.toList.map fun node => "set " ++ node ++ " " ++ word
  | none =>
    (match e.node, e.setWords with
      | some node, some words => ["set " ++ node ++ " " ++ words]
      | _, _ => []) ++
    e.action.toList.map ("do " ++ ·) ++ e.command.toList

/-- Whether an entry says what to do at the time of a field. Switching needs a node. Anything else
needs a node and words to set it by, an action, or a command. -/
def Asks (e : TimerConfig) (field : TimeField) : Prop :=
  if field = .later then
    (e.node.isSome = true ∧ e.setWords.isSome = true) ∨ e.action.isSome = true ∨
      e.command.isSome = true
  else e.node.isSome = true

theorem commandsAt_ne_nil_iff {e : TimerConfig} {field : TimeField} :
    e.commandsAt field ≠ [] ↔ e.Asks field := by
  obtain ⟨id, node, strict, on, off, flip, at', words, action, command⟩ := e
  cases field with
  | later =>
    cases node <;> cases words <;> cases action <;> cases command <;>
      simp [commandsAt, Asks, TimeField.word?]
  | _ => cases node <;> simp [commandsAt, Asks, TimeField.word?]

def eventsAt (e : TimerConfig) (field : TimeField) : List (String × String) :=
  (e.time? field).toList.flatMap fun time => (e.commandsAt field).map (time, ·)

theorem events_eq (e : TimerConfig) :
    e.events = [TimeField.on, .off, .flip, .later].flatMap e.eventsAt := by
  obtain ⟨id, node, strict, on, off, flip, later, words, action, command⟩ := e
  simp only [List.flatMap_cons, List.flatMap_nil, List.append_nil, ← List.append_assoc]
  refine congr (congrArg _ (congr (congrArg _ (congr (congrArg _ ?_) ?_)) ?_)) ?_
  · cases node <;> cases on <;> rfl
  · cases node <;> cases off <;> rfl
  · cases node <;> cases flip <;> rfl
  · cases later with
    | none => rfl
    | some time => cases node <;> cases words <;> cases action <;> cases command <;> rfl

theorem events_withTime {e : TimerConfig} {field : TimeField} (idle : ¬ e.Asks field)
    (text : String) : (e.withTime field text).events = e.events := by
  have nothing : ∀ time : Option String,
      (time.toList.flatMap fun time => (e.commandsAt field).map (time, ·)) = [] := by
    intro time
    rw [not_not.mp (mt commandsAt_ne_nil_iff.mp idle)]
    cases time <;> rfl
  have same : ∀ other, (e.withTime field text).eventsAt other = e.eventsAt other := by
    intro other
    by_cases own : other = field
    · subst own
      have commands : (e.withTime other text).commandsAt other = e.commandsAt other := by
        cases other <;> rfl
      rw [eventsAt, eventsAt, commands, nothing, nothing]
    · cases field <;> cases other <;> first | exact absurd rfl own | rfl
  rw [events_eq, events_eq]
  exact List.flatMap_congr fun other _ => same other

end TimerConfig

namespace TimerDef

theorem Merges.keeps {entries : List TimerConfig} {t : TimerDef} (h : t.Merges entries)
    {e : TimerConfig} (inside : e ∈ entries) {field : TimeField} {time command : String}
    (written : e.time? field = some time) (asked : command ∈ e.commandsAt field) :
    ∃ spec, TimeSpec.parse time = .ok spec ∧ (spec, command) ∈ t.events := by
  have own : (time, command) ∈ e.eventsAt field := by
    rw [TimerConfig.eventsAt, written]
    simpa using asked
  have event : (time, command) ∈ e.events := by
    rw [e.events_eq]
    exact List.mem_flatMap.mpr ⟨field, by cases field <;> decide, own⟩
  obtain ⟨⟨spec, _⟩, among, parsed, rfl⟩ :=
    exists_of_forall₂ h.events (List.mem_flatMap.mpr ⟨e, inside, event⟩)
  exact ⟨spec, parsed, among⟩

theorem addEntry_withTime {e : TimerConfig} {field : TimeField} (idle : ¬ e.Asks field)
    (text : String) (p : Progress) : addEntry p (e.withTime field text) = addEntry p e := by
  have id : (e.withTime field text).id = e.id := by cases field <;> rfl
  have node : (e.withTime field text).node = e.node := by cases field <;> rfl
  have strict : (e.withTime field text).strict = e.strict := by cases field <;> rfl
  simp only [addEntry, id, node, strict, TimerConfig.events_withTime idle]

end TimerDef

namespace Config

/-- The timers of an accepted configuration are its entries by id, in order of first appearance,
each with the events of all its entries in order, and strict if one of them is. A time that is
written in an entry can be read, and is the time of an event of this entry, if and only if the entry
says what to do at it. Otherwise the text does not matter: any other would be accepted in its place,
with the same timers. -/
theorem written_times_are_kept_iff {c : Config} (accepted : c.check = .ok c) :
    ∃ timers, c.timerDefs = .ok timers ∧
      timers.map (·.id) = (c.timers.map (·.id)).eraseDups ∧
      (∀ t ∈ timers, t.Merges (c.timers.filter (·.id = t.id))) ∧
      (∀ e ∈ c.timers, ∀ field time, e.time? field = some time →
        (e.Asks field ↔ ∃ t ∈ timers, t.id = e.id ∧ ∃ spec command,
          TimeSpec.parse time = .ok spec ∧ command ∈ e.commandsAt field ∧
            (spec, command) ∈ t.events)) ∧
      ∀ front e back field, c.timers = front ++ e :: back → ¬ e.Asks field → ∀ text,
        let other := { c with timers := front ++ e.withTime field text :: back }
        other.check = .ok other ∧ other.timerDefs = .ok timers := by
  obtain ⟨timers, made⟩ := (checked_of_check accepted).timers
  obtain ⟨ids, merges⟩ := TimerDef.merges_ofEntries made
  refine ⟨timers, made, ids, merges, ?_, ?_⟩
  · intro e inside field time written
    constructor
    · intro asks
      obtain ⟨command, asked⟩ :=
        List.exists_mem_of_ne_nil _ (TimerConfig.commandsAt_ne_nil_iff.mpr asks)
      have own : e.id ∈ timers.map (·.id) := by
        rw [ids, List.mem_eraseDups]
        exact List.mem_map.mpr ⟨e, inside, rfl⟩
      obtain ⟨t, there, same⟩ := List.mem_map.mp own
      have among : e ∈ c.timers.filter (·.id = t.id) :=
        List.mem_filter.mpr ⟨inside, decide_eq_true same.symm⟩
      obtain ⟨spec, parsed, kept⟩ := (merges t there).keeps among written asked
      exact ⟨t, there, same, spec, command, parsed, asked, kept⟩
    · rintro ⟨-, -, -, -, command, -, asked, -⟩
      exact TimerConfig.commandsAt_ne_nil_iff.mp (List.ne_nil_of_mem asked)
  · intro front e back field split idle text other
    have defs : other.timerDefs = c.timerDefs := by
      simp only [other, timerDefs, TimerDef.ofEntries, split, List.foldl_append, List.foldl_cons,
        TimerDef.addEntry_withTime idle]
    have entry : c.timerErrors (e.withTime field text) = c.timerErrors e := by
      cases field <;> rfl
    have entries : other.timers.flatMap c.timerErrors = c.timers.flatMap c.timerErrors := by
      simp only [other, split, List.flatMap_append, List.flatMap_cons, entry]
    have errors : other.errors = c.errors := by
      unfold Config.errors
      rw [defs, show other.timers.flatMap other.timerErrors = _ from entries]
      rfl
    have clean := errors.trans (ConfigError.orElse_eq_ok.mp accepted).1
    exact ⟨ConfigError.orElse_eq_ok.mpr ⟨clean, rfl⟩, defs.trans made⟩

/-- One timer of two entries, between which another one stands. -/
theorem written_times_are_kept_iff_twice :
    let c : Config :=
      { devices := [⟨"bulb", "virtual", []⟩]
        nodes := [⟨"lamp", "bulb", none, none, []⟩]
        timers := [⟨"night", some "lamp", false, some "18:00", some "23:00", none, none, none, none,
            none⟩,
          ⟨"noon", none, false, none, none, none, some "12:00", none, none, some "status"⟩,
          ⟨"night", some "lamp", true, none, none, none, some "sunrise", some "20%", none, none⟩] }
    c.check = .ok c ∧ ∃ timers, c.timerDefs = .ok timers ∧
      timers.map (·.id) = ["night", "noon"] ∧
      ∃ t ∈ timers, t.id = "night" ∧ ∃ spec command, TimeSpec.parse "sunrise" = .ok spec ∧
        command ∈ ["set lamp 20%"] ∧ (spec, command) ∈ t.events := by
  intro c
  have accepted : c.check = .ok c := by with_unfolding_all rfl
  obtain ⟨timers, made, ids, -, kept, -⟩ := written_times_are_kept_iff accepted
  refine ⟨accepted, timers, made, ids.trans (by decide +kernel), ?_⟩
  refine (kept _ (List.mem_cons_of_mem _ (List.mem_cons_of_mem _ List.mem_cons_self)) .later
    "sunrise" rfl).mp ?_
  simp [TimerConfig.Asks]

/-- A timer that is to switch, but names no node: what is no time is accepted as one, and the timer
does nothing. -/
theorem unread_time_is_accepted :
    let c : Config := { timers := [⟨"night", none, false, some "half past nine", none, none, none,
      none, none, none⟩] }
    c.check = .ok c ∧ TimeSpec.parse "half past nine" = .error (.invalid "half past nine") ∧
      c.timerDefs = .ok [⟨"night", none, false, []⟩] := by
  intro c
  exact ⟨rfl, by decide +kernel, rfl⟩

end Config

end HomeControl
