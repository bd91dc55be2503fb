import HomeControl.Feedback
import HomeControl.Proofs.Schedule.FaderStep
/-!
Runs of a controller: whatever is asked of it, and whatever it does as time passes, one thing after
the other and in any order. A property of states that is kept by each reading, each setting and
each change of the schedule is kept by every run.
-/

namespace HomeControl

def Plan.Carries (Q : Setter → Prop) (p : Plan) : Prop :=
  (∀ w ∈ p.setters, Q w) ∧ ∀ t ∈ p.timed, Q t.setter

/-- One thing that happens to a controller. The clock may be put to any time. -/
inductive Act where
  | command (timed : Bool) (depth : Nat) (text : String)
  | plan (depth : Nat) (p : Plan)
  | get (g : Getter) (depth : Nat)
  | set (w : Setter) (depth : Nat)
  | fader (spec : FaderSpec)
  | single (timed : TimedSetter)
  | cancel (key : ScheduleKey)
  | clock (now : Instant)
  | tickTimers
  | tickFaders
  | tickSingles
  deriving DecidableEq, Repr

def Act.Carries (Q : Setter → Prop) : Act → Prop
  | .plan _ p => p.Carries Q
  | .set w _ => Q w
  | .single timed => Q timed.setter
  | _ => True

theorem Act.carries_true (a : Act) : a.Carries fun _ => True := by
  cases a with
  | plan depth p => exact ⟨fun _ _ => trivial, fun _ _ => trivial⟩
  | _ => trivial

def Order.Carries (Q : Setter → Prop) : Order → Prop
  | .command _ _ => True
  | .setter w => Q w

namespace Controller

def fireSingles (c : Controller) (s : State) : Progress :=
  let (orders, s) := tickSingles s
  c.performAll 0 orders s

def fireTimers (c : Controller) (s : State) : Progress :=
  match c.tickTimers s with
  | (some orders, s) => c.performAll 0 orders s
  | (none, s) => { state := s, broken := true }

def step (c : Controller) (a : Act) (s : State) : State :=
  match a with
  | .command timed depth text => (c.performAll depth [.command text timed] s).state
  | .plan depth p => (c.executePlan depth p s).2
  | .get g depth => (s.read c.topology depth g).2
  | .set w depth => { s with house := (s.house.set c.topology w depth).2 }
  | .fader spec => s.enlist [spec] []
  | .single timed => s.enlist [] [timed]
  | .cancel key => { s with schedule := s.schedule.cancel key }
  | .clock now => { s with now := now }
  | .tickTimers => (c.fireTimers s).state
  | .tickFaders => c.tickFaders s
  | .tickSingles => (c.fireSingles s).state

def run (c : Controller) (acts : List Act) (s : State) : State :=
  acts.foldl (fun s a => c.step a s) s

theorem run_append (c : Controller) (before after : List Act) (s : State) :
    c.run (before ++ after) s = c.run after (c.run before s) :=
  List.foldl_append

def ofBulb (bulb : Device) : Controller where
  topology := ⟨⟨[("bulb", bulb)]⟩, ⟨[("lamp", ⟨"lamp", bulb, none, none, []⟩)]⟩, .empty, [],
    .empty, .empty, []⟩
  place := ⟨.utc, none⟩
  timers := []
  router := ⟨[], 4⟩
  intervals := ⟨60, 2, 1⟩

def withActions (c : Controller) (actions : List ActionConfig) : Controller :=
  { c with
    topology := { c.topology with triggered := actions }
    router := .ofActions actions c.router.maxDepth }

/-- A property `P` of states is kept by all that acts are made of. Of the setters that are carried
out it may be used that they have the property `Q`, which commands and fades must grant. -/
structure Keeps (c : Controller) (Q : Setter → Prop) (P : State → Prop) : Prop where
  granted : ∀ timed text s, P s → (c.compile timed text s).Carries Q
  faded : ∀ (f : ActiveFader) now, Q ⟨f.spec.node, f.spec.attr, some (f.valueAt now)⟩
  read : ∀ depth g s, P s → P (s.read c.topology depth g).2
  set : ∀ depth w s, Q w → P s → P { s with house := (s.house.set c.topology w depth).2 }
  addFader : ∀ spec now s, P s → P { s with schedule := s.schedule.addFader spec now }
  addSingle : ∀ timed s, Q timed.setter → P s →
    P { s with schedule := s.schedule.addSingle timed }
  cancel : ∀ key s, P s → P { s with schedule := s.schedule.cancel key }
  takeDue : ∀ key now s shot after, s.schedule.takeDue? key now = some (shot, after) → P s →
    Q shot.setter ∧ P { s with schedule := after }
  noteApplied : ∀ key generation v s, P s →
    P { s with schedule := s.schedule.noteApplied key generation v }
  dropFader : ∀ key generation s, P s →
    P { s with schedule := s.schedule.dropFader key generation }
  look : ∀ s, P s → P { s with schedule := { s.schedule with lastTick := some s.now } }
  clock : ∀ now s, P s → P { s with now := now }

section Keeps

variable {c : Controller} {Q : Setter → Prop} {P : State → Prop}

theorem readAll_keeps (k : Keeps c Q P) (depth : Nat) (gs : List Getter) (s : State) (h : P s) :
    P (s |> State.readAll c.topology depth gs).2 := by
  induction gs generalizing s with
  | nil => exact h
  | cons g rest ih => exact ih _ (k.read depth g s h)

theorem write_keeps (k : Keeps c Q P) (depth : Nat) (w : Setter) (s : State) (granted : Q w)
    (h : P s) : P (s.write c.topology depth w).2 := by
  have done := k.set depth w s granted h
  unfold State.write
  cases call : s.house.set c.topology w depth with
  | mk answer house =>
    rw [call] at done
    cases answer with
    | ok _ => exact k.cancel _ _ done
    | error e => exact done

theorem writeAll_keeps (k : Keeps c Q P) (depth : Nat) (ws : List Setter) (s : State)
    (granted : ∀ w ∈ ws, Q w) (h : P s) : P (s |> State.writeAll c.topology depth ws).2 := by
  induction ws generalizing s with
  | nil => exact h
  | cons w rest ih =>
    have written := write_keeps k depth w s (granted w List.mem_cons_self) h
    have later : ∀ w ∈ rest, Q w := fun w hw => granted w (List.mem_cons_of_mem _ hw)
    simp only [State.writeAll]
    cases call : s.write c.topology depth w with
    | mk answer after =>
      rw [call] at written
      cases answer with
      | ok _ => exact ih after later written
      | error e => exact ih after later written

theorem enlist_keeps (k : Keeps c Q P) (faders : List FaderSpec) (timed : List TimedSetter)
    (s : State) (granted : ∀ t ∈ timed, Q t.setter) (h : P s) : P (s.enlist faders timed) := by
  unfold State.enlist
  have faded : P { s with
      schedule := faders.foldl (fun t spec => t.addFader spec s.now.millis) s.schedule } := by
    refine List.foldlRecOn (motive := fun t => P { s with schedule := t }) _ _ h ?_
    intro t kept spec _
    exact k.addFader spec _ _ kept
  refine List.foldlRecOn (motive := fun t => P { s with schedule := t }) _ _ faded ?_
  intro t kept x inside
  exact k.addSingle x _ (granted x inside) kept

theorem survivors_subset (ws : List Setter) : Setter.survivors ws ⊆ ws := by
  induction ws with
  | nil => exact fun _ h => h
  | cons w rest ih =>
    intro x hx
    simp only [Setter.survivors] at hx
    split at hx
    · exact List.mem_cons_of_mem _ (ih hx)
    · rcases List.mem_cons.mp hx with same | later
      · exact same ▸ List.mem_cons_self
      · exact List.mem_cons_of_mem _ (ih later)

theorem execute_keeps (k : Keeps c Q P) (depth : Nat) (p : Plan) (s : State)
    (granted : p.Carries Q) (h : P s) : P (s.execute c.topology depth p).2 := by
  have read := readAll_keeps k depth p.getters.eraseDups s h
  have written := writeAll_keeps k depth (Setter.survivors p.setters) _
    (fun w hw => granted.1 w (survivors_subset _ hw)) read
  exact enlist_keeps k p.faders p.timed _ granted.2 written

theorem perform_keeps (k : Keeps c Q P) (depth : Nat) (o : Order) (s : State)
    (granted : o.Carries Q) (h : P s) : P (c.perform depth o s).2 := by
  cases o with
  | command text timed => exact execute_keeps k depth _ s (k.granted timed text s h) h
  | setter w =>
    refine execute_keeps k depth _ s ⟨?_, ?_⟩ h
    · intro x hx
      rw [List.mem_singleton.mp hx]
      exact granted
    · intro t ht
      exact absurd ht List.not_mem_nil

theorem performAll_keeps (k : Keeps c Q P) (depth : Nat) (orders : List Order) (s : State)
    (granted : ∀ o ∈ orders, o.Carries Q) (h : P s) : P (c.performAll depth orders s).state := by
  induction orders generalizing s with
  | nil => exact h
  | cons o rest ih =>
    simp only [performAll]
    split
    · exact ih _ (fun x hx => granted x (List.mem_cons_of_mem _ hx))
        (perform_keeps k depth o s (granted o List.mem_cons_self) h)
    · exact h

theorem takeAllDue_keeps (k : Keeps c Q P) (now : Int) (keys : List ScheduleKey) (s : State)
    (h : P s) : (∀ shot ∈ (s.schedule.takeAllDue now keys).1, Q shot.setter) ∧
      P { s with schedule := (s.schedule.takeAllDue now keys).2 } := by
  induction keys generalizing s with
  | nil => exact ⟨fun _ hx => absurd hx List.not_mem_nil, h⟩
  | cons key rest ih =>
    simp only [Schedule.takeAllDue]
    cases taken : s.schedule.takeDue? key now with
    | none => exact ih s h
    | some found =>
      obtain ⟨shot, after⟩ := found
      obtain ⟨first, left⟩ := k.takeDue key now s shot after taken h
      obtain ⟨others, final⟩ := ih { s with schedule := after } left
      refine ⟨?_, final⟩
      intro x hx
      rcases List.mem_cons.mp hx with same | later
      · exact same ▸ first
      · exact others x later

theorem fireSingles_keeps (k : Keeps c Q P) (s : State) (h : P s) :
    P (c.fireSingles s).state := by
  obtain ⟨granted, taken⟩ := takeAllDue_keeps k s.now.millis (s.schedule.dueKeys s.now.millis) s h
  refine performAll_keeps k 0 _ _ ?_ taken
  intro o ho
  obtain ⟨shot, fired, rfl⟩ := List.mem_map.mp ho
  exact granted shot (List.mem_mergeSort.mp fired)

theorem timerOrders?_cases {r : Resolver} {last : Option Instant} {now : Instant} {t : TimerDef}
    {orders : List Order} (h : timerOrders? r last now t = some orders) :
    (t.strict = true ∧ orders = (t.currentCommand r now).toList.map (.command · true)) ∨
      (t.strict = false ∧ ∃ texts, orders = texts.map (.command · false) ∧
        ∀ before, last = some before → t.crossed? r before now = some texts) := by
  unfold timerOrders? at h
  split at h
  · rename_i strict
    rw [Option.ite_none_right_eq_some] at h
    exact Or.inl ⟨strict, (Option.some.inj h.2).symm⟩
  · rename_i edge
    refine Or.inr ⟨Bool.eq_false_iff.mpr edge, ?_⟩
    split at h
    · rw [Option.ite_none_right_eq_some] at h
      obtain ⟨texts, crossed, rfl⟩ := Option.map_eq_some_iff.mp h.2
      refine ⟨texts, rfl, fun before same => ?_⟩
      rw [← Option.some.inj same, crossed]
    · cases h
      exact ⟨[], rfl, fun before same => by cases same⟩

theorem timerOrders?_carries {r : Resolver} {last : Option Instant} {now : Instant} {t : TimerDef}
    {orders : List Order} (h : timerOrders? r last now t = some orders) :
    ∀ o ∈ orders, o.Carries Q := by
  have commands : ∀ (texts : List String) (timed : Bool),
      ∀ o ∈ texts.map (Order.command · timed), o.Carries Q := by
    intro texts timed o ho
    obtain ⟨text, -, rfl⟩ := List.mem_map.mp ho
    trivial
  rcases timerOrders?_cases h with ⟨-, rfl⟩ | ⟨-, texts, rfl, -⟩
  · exact commands _ true
  · exact commands texts false

theorem allOrders_carries {r : Resolver} {last : Option Instant} {now : Instant}
    {timers : List TimerDef} {lists : List (List Order)}
    (h : timers.mapM (timerOrders? r last now) = some lists) :
    ∀ o ∈ lists.flatten, o.Carries Q := by
  induction timers generalizing lists with
  | nil =>
    cases h
    exact fun o ho => absurd ho List.not_mem_nil
  | cons t rest ih =>
    rw [List.mapM_cons] at h
    obtain ⟨first, hfirst, h⟩ := Option.bind_eq_some_iff.mp h
    obtain ⟨others, hothers, h⟩ := Option.bind_eq_some_iff.mp h
    cases h
    intro o ho
    rcases List.mem_append.mp (List.flatten_cons ▸ ho) with now | later
    · exact timerOrders?_carries hfirst o now
    · exact ih hothers o later

theorem fireTimers_keeps (k : Keeps c Q P) (s : State) (h : P s) :
    P (c.fireTimers s).state := by
  have looked := k.look s h
  unfold fireTimers tickTimers
  cases found : c.timers.mapM (timerOrders? c.place.resolver s.schedule.lastTick s.now) with
  | none => exact looked
  | some lists => exact performAll_keeps k 0 _ _ (allOrders_carries found) looked

theorem stepFader_keeps (k : Keeps c Q P) (now : Int) (f : ActiveFader) (s : State) (h : P s) :
    P (c.stepFader now s f) := by
  have applied : P ((f.step? now).elim s (s.applyFade c.topology f)) := by
    cases stepped : f.step? now with
    | none => exact h
    | some v =>
      have granted : Q (f.setter v) :=
        ActiveFader.eq_valueAt_of_step? stepped ▸ k.faded f now
      have done := k.set 0 (f.setter v) s granted h
      simp only [Option.elim_some, State.applyFade]
      split
      · exact k.noteApplied _ _ _ _ done
      · exact done
  rw [stepFader_eq]
  unfold State.endFade
  split
  · exact k.dropFader _ _ _ applied
  · exact applied

theorem tickFaders_keeps (k : Keeps c Q P) (s : State) (h : P s) : P (c.tickFaders s) := by
  unfold tickFaders
  generalize s.schedule.fadersInOrder = fades, s.now.millis = now
  induction fades generalizing s with
  | nil => exact h
  | cons f rest ih => exact ih _ (stepFader_keeps k now f s h)

theorem step_keeps (k : Keeps c Q P) (a : Act) (s : State) (granted : a.Carries Q) (h : P s) :
    P (c.step a s) := by
  cases a with
  | command timed depth text =>
    refine performAll_keeps k depth _ s ?_ h
    intro o ho
    rw [List.mem_singleton.mp ho]
    trivial
  | plan depth p => exact execute_keeps k depth p s granted h
  | get g depth => exact k.read depth g s h
  | set w depth => exact k.set depth w s granted h
  | fader spec => exact k.addFader spec _ s h
  | single timed => exact k.addSingle timed s granted h
  | cancel key => exact k.cancel key s h
  | clock now => exact k.clock now s h
  | tickTimers => exact fireTimers_keeps k s h
  | tickFaders => exact tickFaders_keeps k s h
  | tickSingles => exact fireSingles_keeps k s h

theorem run_keeps (k : Keeps c Q P) (acts : List Act) (s : State)
    (granted : ∀ a ∈ acts, a.Carries Q) (h : P s) : P (c.run acts s) := by
  induction acts generalizing s with
  | nil => exact h
  | cons a rest ih =>
    exact ih _ (fun x hx => granted x (List.mem_cons_of_mem _ hx))
      (step_keeps k a s (granted a List.mem_cons_self) h)

end Keeps

end Controller

end HomeControl
