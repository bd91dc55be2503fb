import HomeControl.Proofs.House.Events
import HomeControl.Proofs.Run
import Mathlib.Logic.Hydra
import Mathlib.Data.Finset.Lattice.Fold
/-!
Feedback comes to an end. Events wait to be handed to the router, in any order; what one of them
sets off may cause further events, which wait too. They are one step deeper, and none is set off
below the deepest step, so each event handed over is replaced by ones that are nearer to the end.
-/

namespace HomeControl

/-- Events that wait to be handed to the router, and the state that they left. -/
structure Unrest where
  waiting : Multiset Event
  state : State

namespace Controller

variable (c : Controller)

def fired (before after : State) : List Event :=
  after.house.events.drop before.house.events.length

/-- Hands an event to the router. The events of all that it sets off wait then. -/
def hand (e : Event) (u : Unrest) : Unrest :=
  let after := (c.react e u.state).state
  ⟨u.waiting.erase e + fired u.state after, after⟩

def handAll (order : List Event) (u : Unrest) : Unrest :=
  order.foldl (fun u e => c.hand e u) u

/-- Whether each event of an order waits when its turn comes. -/
def Follows (c : Controller) : List Event → Unrest → Prop
  | [], _ => True
  | e :: rest, u => e ∈ u.waiting ∧ c.Follows rest (c.hand e u)

/-- What is carried out in the course of an order, each with the event that set it off. -/
def setOff (c : Controller) : List Event → Unrest → List (Event × Dispatch)
  | [], _ => []
  | e :: rest, u => (c.react e u.state).ran.map (e, ·) ++ c.setOff rest (c.hand e u)

theorem handAll_append (before after : List Event) (u : Unrest) :
    c.handAll (before ++ after) u = c.handAll after (c.handAll before u) :=
  List.foldl_append

theorem follows_append (before after : List Event) (u : Unrest) :
    c.Follows (before ++ after) u ↔ c.Follows before u ∧ c.Follows after (c.handAll before u) := by
  induction before generalizing u with
  | nil => exact ⟨fun h => ⟨trivial, h⟩, fun h => h.2⟩
  | cons e rest ih =>
    simp only [List.cons_append, Follows, ih, and_assoc]
    rfl

theorem setOff_append (before after : List Event) (u : Unrest) :
    c.setOff (before ++ after) u = c.setOff before u ++ c.setOff after (c.handAll before u) := by
  induction before generalizing u with
  | nil => rfl
  | cons e rest ih =>
    simp only [List.cons_append, setOff, ih, List.append_assoc]
    rfl

theorem fired_depth {depth : Nat} {s s' : State} (h : s.house.Fires depth s'.house) :
    ∀ e ∈ fired s s', e.depth = depth := by
  obtain ⟨new, events, deep⟩ := h
  intro e inside
  rw [fired, events, List.drop_left] at inside
  exact deep e inside

theorem react_fires (e : Event) (s : State) :
    s.house.Fires (e.depth + 1) (c.react e s).state.house := by
  unfold react
  split
  · exact c.performAll_fires _ _ s
  · exact .refl _ _

theorem react_depth (e : Event) (s : State) :
    ∀ d ∈ (c.react e s).ran, d.depth = e.depth + 1 ∧ d.depth ≤ c.router.maxDepth := by
  intro d inside
  unfold react at inside
  split at inside
  · have deeper := c.performAll_depth _ _ s d inside
    refine ⟨deeper, ?_⟩
    by_contra deep
    have none : c.router.reactions e = [] := by
      unfold Router.reactions
      exact if_neg (by omega)
    rw [none] at inside
    exact absurd inside List.not_mem_nil
  · exact absurd inside List.not_mem_nil

theorem react_idle {e : Event} (deep : c.router.maxDepth ≤ e.depth) (s : State) :
    (c.react e s).state = s := by
  have none : c.router.reactions e = [] := by
    unfold Router.reactions
    exact if_neg (by omega)
  unfold react
  rw [none]
  split <;> rfl

theorem fired_by_react (e : Event) (s : State) :
    ∀ e' ∈ fired s (c.react e s).state,
      e'.depth = e.depth + 1 ∧ e'.depth ≤ c.router.maxDepth := by
  intro e' inside
  have deeper := fired_depth (c.react_fires e s) e' inside
  refine ⟨deeper, ?_⟩
  by_contra deep
  rw [c.react_idle (by omega), fired, List.drop_length] at inside
  exact absurd inside List.not_mem_nil

def Nearer (e' e : Event) : Prop :=
  e'.depth = e.depth + 1 ∧ e'.depth ≤ c.router.maxDepth

theorem nearer_wf : WellFounded c.Nearer := by
  refine Subrelation.wf ?_ (measure fun e : Event => c.router.maxDepth - e.depth).wf
  intro e' e nearer
  obtain ⟨deeper, bound⟩ := nearer
  change c.router.maxDepth - e'.depth < c.router.maxDepth - e.depth
  omega

theorem hand_descends {e : Event} {u : Unrest} (waits : e ∈ u.waiting) :
    Relation.CutExpand c.Nearer (c.hand e u).waiting u.waiting := by
  refine ⟨fired u.state (c.react e u.state).state, e, ?_, ?_⟩
  · intro e' inside
    exact c.fired_by_react e u.state e' inside
  · calc u.waiting.erase e + fired u.state (c.react e u.state).state + {e}
        = e ::ₘ u.waiting.erase e + fired u.state (c.react e u.state).state := by
          rw [← Multiset.singleton_add]
          ac_rfl
      _ = u.waiting + fired u.state (c.react e u.state).state := by
          rw [Multiset.cons_erase waits]

/-- There is a number of events that no order of handing over exceeds. -/
theorem order_bounded (u : Unrest) :
    ∃ most, ∀ order, c.Follows order u → order.length ≤ most := by
  obtain ⟨waiting, s⟩ := u
  -- On the events that wait, each of which is replaced by ones that are nearer to the end.
  induction waiting using c.nearer_wf.cutExpand.induction generalizing s with
  | _ waiting ih =>
    have each : ∀ e, ∃ most, e ∈ waiting →
        ∀ rest, c.Follows rest (c.hand e ⟨waiting, s⟩) → rest.length ≤ most := by
      intro e
      by_cases waits : e ∈ waiting
      · obtain ⟨most, bound⟩ := ih _ (c.hand_descends (u := ⟨waiting, s⟩) waits) _
        exact ⟨most, fun _ => bound⟩
      · exact ⟨0, fun h => absurd h waits⟩
    choose most bound using each
    refine ⟨waiting.toFinset.sup most + 1, ?_⟩
    intro order follows
    cases order with
    | nil => exact Nat.zero_le _
    | cons e rest =>
      obtain ⟨waits, follows⟩ := follows
      have short := bound e waits rest follows
      have among : most e ≤ waiting.toFinset.sup most :=
        Finset.le_sup (Multiset.mem_toFinset.mpr waits)
      rw [List.length_cons]
      omega

theorem setOff_depth (order : List Event) (u : Unrest) :
    ∀ d ∈ c.setOff order u, d.2.depth = d.1.depth + 1 ∧ d.2.depth ≤ c.router.maxDepth := by
  induction order generalizing u with
  | nil => exact List.forall_mem_nil _
  | cons e rest ih =>
    intro d inside
    rcases List.mem_append.mp inside with now | later
    · obtain ⟨dispatch, ran, rfl⟩ := List.mem_map.mp now
      exact c.react_depth e u.state dispatch ran
    · exact ih _ d later

theorem fired_trans {first second third : State}
    (before : first.house.events <+: second.house.events)
    (after : second.house.events <+: third.house.events) :
    fired first third = fired first second ++ fired second third := by
  obtain ⟨xs, hxs⟩ := before
  obtain ⟨ys, hys⟩ := after
  simp only [fired, ← hys, ← hxs, List.drop_left]
  rw [List.append_assoc, List.drop_left]

theorem react_keeps_events (e : Event) (s : State) :
    s.house.events <+: (c.react e s).state.house.events := by
  obtain ⟨new, events, -⟩ := c.react_fires e s
  exact ⟨new, events.symm⟩

theorem reactAll_keeps_events (batch : List Event) (s : State) :
    s.house.events <+: (c.reactAll batch s).state.house.events := by
  induction batch generalizing s with
  | nil => exact List.prefix_rfl
  | cons e rest ih => exact (c.react_keeps_events e s).trans (ih _)

theorem reactAll_hands (batch : List Event) (others : Multiset Event) (s : State) :
    let u : Unrest := ⟨batch + others, s⟩
    let p := c.reactAll batch s
    c.Follows batch u ∧ c.handAll batch u = ⟨others + fired s p.state, p.state⟩ ∧
      (c.setOff batch u).map (·.2) = p.ran := by
  induction batch generalizing others s with
  | nil =>
    refine ⟨trivial, ?_, rfl⟩
    simp [handAll, reactAll, fired]
  | cons e rest ih =>
    intro u p
    have handed : c.hand e u =
        ⟨rest + (others + fired s (c.react e s).state), (c.react e s).state⟩ := by
      have left : u.waiting.erase e = rest + others := by
        simp only [u, ← Multiset.cons_coe, Multiset.cons_add, Multiset.erase_cons_head]
      simp only [hand, left, add_assoc]
      rfl
    obtain ⟨follows, final, ran⟩ := ih (others + fired s (c.react e s).state) (c.react e s).state
    refine ⟨⟨?_, handed ▸ follows⟩, ?_, ?_⟩
    · exact Multiset.mem_add.mpr (Or.inl List.mem_cons_self)
    · have news : fired s p.state =
          fired s (c.react e s).state ++ fired (c.react e s).state p.state :=
        fired_trans (c.react_keeps_events e s) (c.reactAll_keeps_events rest _)
      change c.handAll rest (c.hand e u) = _
      rw [handed, final, news, ← Multiset.coe_add, ← add_assoc]
      rfl
    · simp only [setOff, handed, List.map_append, ran, List.map_map]
      exact congrArg (· ++ _) (List.map_id _)

theorem fired_by_reactAll (batch : List Event) (s : State) :
    ∀ e' ∈ fired s (c.reactAll batch s).state, ∃ e ∈ batch, c.Nearer e' e := by
  induction batch generalizing s with
  | nil =>
    intro e' inside
    rw [reactAll, fired, List.drop_length] at inside
    exact absurd inside List.not_mem_nil
  | cons e rest ih =>
    intro e' inside
    have news : fired s (c.reactAll (e :: rest) s).state = fired s (c.react e s).state ++
        fired (c.react e s).state (c.reactAll rest (c.react e s).state).state :=
      fired_trans (c.react_keeps_events e s) (c.reactAll_keeps_events rest _)
    rw [news] at inside
    rcases List.mem_append.mp inside with now | later
    · exact ⟨e, List.mem_cons_self, c.fired_by_react e s e' now⟩
    · obtain ⟨x, among, nearer⟩ := ih _ e' later
      exact ⟨x, List.mem_cons_of_mem _ among, nearer⟩

theorem settleWithin_hands (rounds : Nat) (batch : List Event) (s : State)
    (enough : ∀ e ∈ batch, 0 < rounds ∧ c.router.maxDepth < e.depth + rounds) :
    ∃ order, c.Follows order ⟨batch, s⟩ ∧
      c.handAll order ⟨batch, s⟩ = ⟨0, (c.settleWithin rounds batch s).state⟩ ∧
      (c.setOff order ⟨batch, s⟩).map (·.2) = (c.settleWithin rounds batch s).ran := by
  induction rounds generalizing batch s with
  | zero =>
    cases batch with
    | nil => exact ⟨[], trivial, rfl, rfl⟩
    | cons e rest => exact absurd (enough e List.mem_cons_self).1 (Nat.lt_irrefl 0)
  | succ rounds ih =>
    cases batch with
    | nil => exact ⟨[], trivial, rfl, rfl⟩
    | cons e rest =>
      obtain ⟨follows, handed, ran⟩ := c.reactAll_hands (e :: rest) 0 s
      rw [add_zero] at follows handed ran
      rw [zero_add] at handed
      have deeper : ∀ e' ∈ fired s (c.reactAll (e :: rest) s).state,
          0 < rounds ∧ c.router.maxDepth < e'.depth + rounds := by
        intro e' inside
        obtain ⟨x, among, deeper, bound⟩ := c.fired_by_reactAll (e :: rest) s e' inside
        have left := (enough x among).2
        omega
      obtain ⟨order, follows', handed', ran'⟩ := ih _ (c.reactAll (e :: rest) s).state deeper
      refine ⟨(e :: rest) ++ order, ?_, ?_, ?_⟩
      · rw [follows_append, handed]
        exact ⟨follows, follows'⟩
      · rw [handAll_append, handed, handed']
        rfl
      · rw [setOff_append, List.map_append, ran, handed, ran']
        rfl

/-- The rounds of settling are enough: it hands over all events, also those that follow. -/
theorem settle_hands_all (batch : List Event) (s : State) :
    ∃ order, c.Follows order ⟨batch, s⟩ ∧
      c.handAll order ⟨batch, s⟩ = ⟨0, (c.settle batch s).state⟩ ∧
      (c.setOff order ⟨batch, s⟩).map (·.2) = (c.settle batch s).ran :=
  c.settleWithin_hands _ batch s fun _ _ => ⟨Nat.succ_pos _, by omega⟩

/-- In whatever order the events are handed over that a command causes, and those that follow from
them, there is an end: the orders have a greatest length, and one that cannot go on leaves nothing
waiting. What is carried out on the way is one step deeper than the event that set it off, at least
one deep and no deeper than chains may get. -/
theorem feedback_dies_out (timed : Bool) (text : String) (s : State) :
    let after := (c.execute timed 0 text s).2
    let u : Unrest := ⟨fired s after, after⟩
    (∀ e ∈ u.waiting, e.depth = 0) ∧
    ∃ most, ∀ order, c.Follows order u →
      order.length ≤ most ∧
      ((∀ e, ¬ c.Follows (order ++ [e]) u) → (c.handAll order u).waiting = 0) ∧
      ∀ d ∈ c.setOff order u,
        d.2.depth = d.1.depth + 1 ∧ 1 ≤ d.2.depth ∧ d.2.depth ≤ c.router.maxDepth := by
  intro after u
  refine ⟨fired_depth (State.execute_fires c.topology 0 _ s), ?_⟩
  obtain ⟨most, bound⟩ := c.order_bounded u
  refine ⟨most, fun order follows => ⟨bound order follows, ?_, ?_⟩⟩
  · intro final
    apply Multiset.eq_zero_of_forall_notMem
    intro e waits
    exact final e ((c.follows_append order [e] u).mpr ⟨follows, waits, trivial⟩)
  · intro d inside
    obtain ⟨deeper, bounded⟩ := c.setOff_depth order u d inside
    omega

/-- A lamp that is flipped whenever its state changes comes to rest after four flips. -/
example :
    let bulb : Device :=
      ⟨"bulb", Device.virtualKind, [Attr.state], [Attr.on, Attr.off, Attr.flip], false, []⟩
    let c := (ofBulb bulb).withActions [⟨none, some "lamp.state", none, .one "set lamp flip"⟩]
    let s := State.start c.topology ⟨0, 0⟩
    let after := (c.execute false 0 "set lamp on" s).2
    (c.settle (fired s after) after).ran.map (·.depth) = [1, 2, 3, 4] := by
  decide +kernel

end Controller

end HomeControl
