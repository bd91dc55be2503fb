import HomeControl.Proofs.House.Events
import HomeControl.Proofs.Value.Same
/-!
The events of a house as the history of what is known. Readings and settings take note of values in
different ways, but all that one of them does to the known values and the events is to take note of one
value or of none. So what is known of an attribute is what the last event about it tells.
-/

namespace HomeControl

namespace House

inductive Call where
  | get (node attr : String) (depth : Nat)
  | set (w : Setter) (depth : Nat)
  deriving DecidableEq, Repr

namespace Call

def node : Call → String
  | get node _ _ => node
  | set w _ => w.node

def target : Call → String
  | get _ attr _ => attr
  | set w _ => w.target

def depth : Call → Nat
  | get _ _ depth => depth
  | set _ depth => depth

def carryOut (t : Topology) (h : House) : Call → House
  | get node attr depth => (h.get t node attr depth).2
  | set w depth => (h.set t w depth).2

end Call

def callAll (t : Topology) (calls : List Call) (h : House) : House :=
  calls.foldl (Call.carryOut t) h

theorem callAll_concat (t : Topology) (calls : List Call) (c : Call) (h : House) :
    h.callAll t (calls ++ [c]) = c.carryOut t (h.callAll t calls) :=
  List.foldl_concat ..

def eventsOf (h : House) (node attr : String) : List Event :=
  h.events.filter fun e => e.node == node && e.attr == attr

/-- Whether two houses know the same and had the same events; their devices may differ. -/
def Recalls (g h : House) : Prop :=
  g.known = h.known ∧ g.events = h.events

theorem noteSet_recalls (h : House) (w : Setter) (depth : Nat) :
    h.noteSet w depth = h ∨ ∃ v, h.noteSet w depth = h.remember w.node w.target v depth := by
  unfold noteSet Setter.target
  split
  · split
    · exact Or.inr ⟨_, rfl⟩
    · exact Or.inl rfl
  · split
    · exact Or.inr ⟨_, rfl⟩
    · exact Or.inl rfl

/-- All that a call does to the known values and the events is to take note of a value, or nothing. -/
theorem carryOut_recalls (t : Topology) (h : House) (c : Call) :
    (c.carryOut t h).Recalls h ∨
      ∃ v, (c.carryOut t h).Recalls (h.remember c.node c.target v c.depth) := by
  cases c with
  | get node attr depth =>
    simp only [Call.carryOut, Call.node, Call.target, Call.depth, get]
    split
    · exact Or.inl ⟨rfl, rfl⟩
    · split
      · exact Or.inl ⟨rfl, rfl⟩
      · rename_i v _ _
        dsimp only
        split
        · exact Or.inl ⟨rfl, rfl⟩
        · exact Or.inr ⟨v, rfl, rfl⟩
  | set w depth =>
    simp only [Call.carryOut, Call.node, Call.target, Call.depth, set]
    split
    · exact Or.inl ⟨rfl, rfl⟩
    · split
      · exact Or.inl ⟨rfl, rfl⟩
      · rename_i n _ _ _ s _
        rcases noteSet_recalls (h.putDevice n.device s) w depth with same | ⟨v, same⟩
        · rw [same]
          exact Or.inl ⟨rfl, rfl⟩
        · rw [same]
          exact Or.inr ⟨v, rfl, rfl⟩

theorem Recalls.known? {g h : House} (same : g.Recalls h) (node attr : String) :
    g.known? node attr = h.known? node attr := by
  simp only [House.known?, snapshot?, same.1]

theorem Recalls.eventsOf {g h : House} (same : g.Recalls h) (node attr : String) :
    g.eventsOf node attr = h.eventsOf node attr := by
  simp only [House.eventsOf, same.2]

theorem events_remember (h : House) (node attr : String) (v : Value) (depth : Nat) :
    (h.remember node attr v depth).events =
      if isNews (h.known? node attr) v then h.events ++ [⟨node, attr, v, depth⟩] else h.events := by
  rw [known?_eq]
  rfl

theorem eventsOf_remember (h : House) (node attr : String) (v : Value) (depth : Nat)
    (n a : String) :
    (h.remember node attr v depth).eventsOf n a =
      if isNews (h.known? node attr) v = true ∧ node = n ∧ attr = a then
        h.eventsOf n a ++ [⟨node, attr, v, depth⟩]
      else h.eventsOf n a := by
  rw [eventsOf, events_remember]
  cases isNews (h.known? node attr) v with
  | false => simp [eventsOf]
  | true =>
    rw [if_pos rfl, List.filter_append]
    by_cases hit : node = n ∧ attr = a
    · simp [eventsOf, hit]
    · have other : (node == n && attr == a) = false := by simpa using hit
      rw [if_neg fun both => hit both.2, List.filter_singleton, other, cond_false, List.append_nil,
        eventsOf]

/-- What is known of an attribute is what the last event about it tells, and nothing if there was
none. Each of these events tells of another value than the one before it. -/
structure Historic (h : House) (node attr : String) : Prop where
  unknown : h.known? node attr = none → h.eventsOf node attr = []
  last : ∀ v, h.known? node attr = some v →
    ∃ e, (h.eventsOf node attr).getLast? = some e ∧ e.value.Agrees v
  changes : (h.eventsOf node attr).IsChain fun e e' => e.value.same e'.value = false

section Historic

variable {g h : House} {node attr : String}

theorem start_historic (t : Topology) (node attr : String) :
    (House.start t).Historic node attr where
  unknown _ := rfl
  last v known := by
    rw [known?_start] at known
    cases known
  changes := List.IsChain.nil

theorem Historic.of_recalls (old : h.Historic node attr) (same : g.Recalls h) :
    g.Historic node attr := by
  refine ⟨?_, ?_, ?_⟩
  · rw [same.known?, same.eventsOf]
    exact old.unknown
  · rw [same.known?, same.eventsOf]
    exact old.last
  · rw [same.eventsOf]
    exact old.changes

theorem Historic.same_last (old : h.Historic node attr) {e : Event}
    (last : (h.eventsOf node attr).getLast? = some e) (v : Value) :
    e.value.same v = !isNews (h.known? node attr) v := by
  cases known : h.known? node attr with
  | none =>
    rw [old.unknown known] at last
    cases last
  | some w =>
    obtain ⟨e', last', agrees⟩ := old.last w known
    cases last.symm.trans last'
    rw [agrees.same_eq, isNews, Bool.not_not]

theorem Historic.remember_news (old : h.Historic node attr) {v : Value} (depth : Nat)
    (news : isNews (h.known? node attr) v = true) :
    (h.remember node attr v depth).Historic node attr := by
  have known := known?_remember h node attr v depth node attr
  have events := eventsOf_remember h node attr v depth node attr
  rw [if_pos ⟨rfl, rfl⟩] at known
  rw [if_pos ⟨news, rfl, rfl⟩] at events
  refine ⟨?_, ?_, ?_⟩
  · rw [known]
    exact nofun
  · rw [known, events]
    rintro w ⟨⟩
    exact ⟨_, List.getLast?_concat, Or.inl rfl⟩
  · rw [events]
    refine List.isChain_append.mpr ⟨old.changes, List.IsChain.singleton _, ?_⟩
    rintro e last e' ⟨⟩
    rw [old.same_last last, news, Bool.not_true]

theorem Historic.remember_again (old : h.Historic node attr) {v : Value} (depth : Nat)
    (again : isNews (h.known? node attr) v = false) :
    (h.remember node attr v depth).Historic node attr := by
  have known := known?_remember h node attr v depth node attr
  have events := eventsOf_remember h node attr v depth node attr
  rw [if_pos ⟨rfl, rfl⟩] at known
  rw [if_neg fun both => Bool.false_ne_true (again.symm.trans both.1)] at events
  refine ⟨?_, ?_, ?_⟩
  · rw [known]
    exact nofun
  · rw [known, events]
    rintro w ⟨⟩
    cases before : h.known? node attr with
    | none =>
      rw [before] at again
      cases again
    | some w =>
      obtain ⟨e, last, -⟩ := old.last w before
      refine ⟨e, last, Or.inr ?_⟩
      rw [old.same_last last, again, Bool.not_false]
  · rw [events]
    exact old.changes

theorem Historic.remember (old : h.Historic node attr) (n a : String) (v : Value) (depth : Nat) :
    (h.remember n a v depth).Historic node attr := by
  by_cases hit : n = node ∧ a = attr
  · obtain ⟨rfl, rfl⟩ := hit
    cases news : isNews (h.known? n a) v with
    | true => exact old.remember_news depth news
    | false => exact old.remember_again depth news
  · have known := known?_remember h n a v depth node attr
    have events := eventsOf_remember h n a v depth node attr
    rw [if_neg hit] at known
    rw [if_neg fun both => hit both.2] at events
    exact ⟨by rw [known, events]; exact old.unknown, by rw [known, events]; exact old.last,
      by rw [events]; exact old.changes⟩

theorem Historic.carryOut (old : h.Historic node attr) (t : Topology) (c : Call) :
    (c.carryOut t h).Historic node attr := by
  rcases carryOut_recalls t h c with same | ⟨v, same⟩
  · exact old.of_recalls same
  · exact (old.remember c.node c.target v c.depth).of_recalls same

theorem callAll_historic (t : Topology) (calls : List Call) (node attr : String) :
    ((House.start t).callAll t calls).Historic node attr := by
  refine List.foldlRecOn (motive := fun h : House => h.Historic node attr) _ _
    (start_historic t node attr) ?_
  intro h old c _
  exact old.carryOut t c

end Historic

/-- A call that fires an event: from it on the value is known that the event tells of, which was not
known before. -/
structure Call.FiresEvent (t : Topology) (g : House) (c : Call) (e : Event) : Prop where
  events : (c.carryOut t g).events = g.events ++ [e]
  node : e.node = c.node
  attr : e.attr = c.target
  depth : e.depth = c.depth
  known : (c.carryOut t g).known? e.node e.attr = some e.value
  news : isNews (g.known? e.node e.attr) e.value = true

theorem carryOut_events (t : Topology) (g : House) (c : Call) :
    (c.carryOut t g).events = g.events ∨ ∃ e, c.FiresEvent t g e := by
  rcases carryOut_recalls t g c with same | ⟨v, same⟩
  · exact Or.inl same.2
  · have events := same.2.trans (g.events_remember c.node c.target v c.depth)
    cases news : isNews (g.known? c.node c.target) v with
    | false =>
      rw [news] at events
      exact Or.inl events
    | true =>
      rw [news] at events
      refine Or.inr ⟨⟨c.node, c.target, v, c.depth⟩, events, rfl, rfl, rfl, ?_, news⟩
      rw [same.known?, known?_remember, if_pos ⟨rfl, rfl⟩]

theorem fired_in_callAll (t : Topology) (calls : List Call) {past future : List Event} {e : Event}
    (events : ((House.start t).callAll t calls).events = past ++ e :: future) :
    ∃ before c after, calls = before ++ c :: after ∧
      ((House.start t).callAll t before).events = past ∧
      c.FiresEvent t ((House.start t).callAll t before) e := by
  induction calls using List.reverseRecOn generalizing future with
  | nil => exact absurd events.symm (List.append_ne_nil_of_right_ne_nil _ (List.cons_ne_nil _ _))
  | append_singleton front c ih =>
    rw [callAll_concat] at events
    have earlier : ∀ {future : List Event},
        ((House.start t).callAll t front).events = past ++ e :: future →
        ∃ before c' after, front ++ [c] = before ++ c' :: after ∧
          ((House.start t).callAll t before).events = past ∧
          c'.FiresEvent t ((House.start t).callAll t before) e := by
      intro future events
      obtain ⟨before, c', after, split, rest⟩ := ih events
      exact ⟨before, c', after ++ [c], by rw [split, List.append_assoc, List.cons_append], rest⟩
    rcases carryOut_events t ((House.start t).callAll t front) c with same | ⟨e', fires⟩
    · exact earlier (same.symm.trans events)
    · have added := fires.events.symm.trans events
      -- The event is the one that this call fires, or stands before it.
      cases future using List.reverseRecOn with
      | nil =>
        obtain ⟨before, own⟩ := List.append_inj' added rfl
        cases own
        exact ⟨front, c, [], rfl, before, fires⟩
      | append_singleton more last =>
        rw [← List.cons_append, ← List.append_assoc] at added
        exact earlier (List.append_inj' added rfl).1

/-- In every run of calls, in any house, the events are the history of what is known: something is
known of an attribute if there was an event about it, and it is what the last one tells; no two of
these events after each other tell the same; and each event was fired by a call with its depth, which
made known what it tells. -/
theorem events_are_the_history (t : Topology) (calls : List Call) :
    let h := (House.start t).callAll t calls
    (∀ node attr,
      (h.known? node attr = none ↔ h.eventsOf node attr = []) ∧
      (∀ v, h.known? node attr = some v →
        ∃ e, (h.eventsOf node attr).getLast? = some e ∧ e.value.Agrees v) ∧
      (h.eventsOf node attr).IsChain fun e e' => e.value.same e'.value = false) ∧
    ∀ past e future, h.events = past ++ e :: future →
      ∃ before c after, calls = before ++ c :: after ∧
        ((House.start t).callAll t before).events = past ∧
        c.FiresEvent t ((House.start t).callAll t before) e := by
  intro h
  refine ⟨fun node attr => ?_, fun past e future events => fired_in_callAll t calls events⟩
  have history := callAll_historic t calls node attr
  refine ⟨⟨history.unknown, fun none => ?_⟩, history.last, history.changes⟩
  cases known : h.known? node attr with
  | none => rfl
  | some v =>
    obtain ⟨e, last, -⟩ := history.last v known
    rw [none] at last
    cases last

end House

end HomeControl
