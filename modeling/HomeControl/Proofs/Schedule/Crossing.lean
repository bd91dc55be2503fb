import HomeControl.Controller
import Mathlib.Data.List.Induction
import Mathlib.Data.List.Nodup
import Mathlib.Order.Lattice
/-!
One look at a timer. Of each event it finds the times after the look before and not after the look
itself, on the two days on which these looks are, and gives the commands in order of time.
-/

namespace HomeControl

namespace Instant

theorem lt_iff (i j : Instant) :
    i < j ↔ i.seconds < j.seconds ∨ (i.seconds = j.seconds ∧ i.nanos < j.nanos) := Iff.rfl

theorem le_iff (i j : Instant) : i ≤ j ↔ ¬ j < i := Iff.rfl

theorem ext_iff (i j : Instant) : i = j ↔ i.seconds = j.seconds ∧ i.nanos = j.nanos := by
  cases i
  cases j
  exact Iff.of_eq (mk.injEq ..)

instance : LinearOrder Instant where
  le := (· ≤ ·)
  lt := (· < ·)
  le_refl i := by simp only [le_iff, lt_iff]; omega
  le_trans i j k := by simp only [le_iff, lt_iff]; omega
  lt_iff_le_not_ge i j := by simp only [le_iff, lt_iff]; omega
  le_antisymm i j := by simp only [le_iff, lt_iff, ext_iff]; omega
  le_total i j := by simp only [le_iff, lt_iff]; omega
  toDecidableLE := inferInstance

end Instant

namespace Date

theorem lt_iff (a b : Date) : a < b ↔ a.day < b.day := Iff.rfl

theorem le_iff (a b : Date) : a ≤ b ↔ a.day ≤ b.day := Iff.rfl

theorem ext_iff (a b : Date) : a = b ↔ a.day = b.day := by
  cases a
  cases b
  exact Iff.of_eq (mk.injEq ..)

theorem inCalendar_iff (a : Date) : a.inCalendar = true ↔ first ≤ a ∧ a ≤ last := by
  simp [inCalendar]

def Follows (b a : Date) : Prop :=
  b = a ∨ b = a.plus 1

theorem eq_of_follows {a b day : Date} (near : b.Follows a) (early : a ≤ day) (late : day ≤ b) :
    day = a ∨ day = b := by
  rcases near with rfl | rfl
  · simp only [le_iff, ext_iff] at *
    omega
  · simp only [le_iff, ext_iff, plus] at *
    omega

end Date

/-- An event of a timer that comes about: when, the place of the event in the timer, its command. -/
structure Firing where
  time : Instant
  event : Nat
  command : String
  deriving DecidableEq, Repr

namespace Firing

def Before (x y : Firing) : Prop :=
  x.time < y.time ∨ x.time = y.time ∧ x.event < y.event

def entry (x : Firing) : Instant × String :=
  (x.time, x.command)

def place (x : Firing) : List Firing → List Firing
  | [] => [x]
  | y :: rest => if x.time < y.time then x :: y :: rest else y :: place x rest

def arrange (xs : List Firing) : List Firing :=
  xs.foldl (fun placed x => place x placed) []

theorem Before.trans {x y z : Firing} (h : Before x y) (h' : Before y z) : Before x z := by
  rcases h with h | ⟨h, e⟩ <;> rcases h' with h' | ⟨h', e'⟩
  · exact Or.inl (h.trans h')
  · exact Or.inl (h' ▸ h)
  · exact Or.inl (h ▸ h')
  · exact Or.inr ⟨h.trans h', e.trans e'⟩

theorem Before.ne {x y : Firing} (h : Before x y) : x ≠ y := by
  rintro rfl
  rcases h with h | ⟨-, h⟩
  · exact lt_irrefl _ h
  · exact lt_irrefl _ h

theorem place_entry (x : Firing) (placed : List Firing) :
    (place x placed).map entry = TimerDef.insertLater x.entry (placed.map entry) := by
  induction placed with
  | nil => rfl
  | cons y rest ih =>
    simp only [place, List.map_cons, TimerDef.insertLater, ← ih]
    by_cases before : x.time < y.time
    · simp only [entry, before, if_true, List.map_cons]
    · simp only [entry, before, if_false, List.map_cons]

theorem arrange_entry (xs : List Firing) :
    (arrange xs).map entry = TimerDef.byTime (xs.map entry) := by
  induction xs using List.reverseRecOn with
  | nil => rfl
  | append_singleton front x ih =>
    rw [List.map_append, List.map_singleton, arrange, TimerDef.byTime, List.foldl_concat,
      List.foldl_concat, place_entry]
    exact congrArg _ ih

theorem mem_place {x y : Firing} {placed : List Firing} : y ∈ place x placed ↔ y = x ∨ y ∈ placed := by
  induction placed with
  | nil => simp [place]
  | cons z rest ih =>
    rw [place]
    split
    · exact List.mem_cons
    · rw [List.mem_cons, ih, List.mem_cons]
      exact or_left_comm

theorem mem_arrange {x : Firing} {xs : List Firing} : x ∈ arrange xs ↔ x ∈ xs := by
  induction xs using List.reverseRecOn with
  | nil => exact Iff.rfl
  | append_singleton front y ih =>
    rw [arrange, List.foldl_concat, mem_place, List.mem_append, List.mem_singleton, or_comm]
    exact or_congr_left ih

theorem place_inOrder {x : Firing} {placed : List Firing} (ordered : placed.Pairwise Before)
    (behind : ∀ y ∈ placed, y.time = x.time → y.event < x.event) :
    (place x placed).Pairwise Before := by
  induction placed with
  | nil => exact List.pairwise_singleton _ _
  | cons y rest ih =>
    obtain ⟨first, later⟩ := List.pairwise_cons.mp ordered
    obtain ⟨own, others⟩ := List.forall_mem_cons.mp behind
    rw [place]
    split
    · rename_i earlier
      refine List.pairwise_cons.mpr ⟨List.forall_mem_cons.mpr ⟨Or.inl earlier, ?_⟩, ordered⟩
      exact fun z inside => Before.trans (Or.inl earlier) (first z inside)
    · rename_i notEarlier
      refine List.pairwise_cons.mpr ⟨fun z inside => ?_, ih later others⟩
      rcases mem_place.mp inside with rfl | inside
      · rcases lt_or_eq_of_le (not_lt.mp notEarlier) with before | same
        · exact Or.inl before
        · exact Or.inr ⟨same, own same⟩
      · exact first z inside

theorem arrange_inOrder {xs : List Firing}
    (grouped : xs.Pairwise fun x y => x.event < y.event ∨ x.event = y.event ∧ x.time ≠ y.time) :
    (arrange xs).Pairwise Before := by
  induction xs using List.reverseRecOn with
  | nil => exact List.Pairwise.nil
  | append_singleton front x ih =>
    obtain ⟨front', -, last⟩ := List.pairwise_append.mp grouped
    rw [arrange, List.foldl_concat]
    refine place_inOrder (ih front') fun y inside same => ?_
    rcases last y (mem_arrange.mp inside) x (List.mem_singleton.mpr rfl) with before | ⟨-, apart⟩
    · exact before
    · exact absurd same apart

theorem eq_of_inOrder {xs ys : List Firing} (hx : xs.Pairwise Before) (hy : ys.Pairwise Before)
    (same : ∀ x, x ∈ xs ↔ x ∈ ys) : xs = ys := by
  have nodup : ∀ l : List Firing, l.Pairwise Before → l.Nodup := fun _ h => h.imp Before.ne
  refine List.Perm.eq_of_pairwise (fun x y _ _ h h' => ?_) hx hy
    ((List.perm_ext_iff_of_nodup (nodup xs hx) (nodup ys hy)).mpr same)
  exact absurd rfl (Before.ne (Before.trans h h'))

end Firing

namespace Resolver

/-- Some day has an instant for a written time. -/
def Occurs (r : Resolver) (spec : TimeSpec) (i : Instant) : Prop :=
  ∃ day : Date, day.inCalendar = true ∧ r.resolveOn spec day = .ok i

def Monotone (r : Resolver) : Prop :=
  ∀ i j a b, i ≤ j → r.dateOf? i = some a → r.dateOf? j = some b → a ≤ b

theorem Monotone.lt {r : Resolver} (monotone : r.Monotone) {i j : Instant} {a b : Date}
    (hi : r.dateOf? i = some a) (hj : r.dateOf? j = some b) (before : a < b) : i < j := by
  by_contra late
  have back := monotone j i b a (not_lt.mp late) hj hi
  rw [Date.le_iff] at back
  rw [Date.lt_iff] at before
  omega

end Resolver

namespace TimerDef

/-- Instants of daily events are on the day that is asked for, and other events have the same instant
on each day. -/
structure Regular (t : TimerDef) (r : Resolver) : Prop where
  daily : ∀ e ∈ t.events, e.1.isDaily = true → ∀ day i, day.inCalendar = true →
    r.resolveOn e.1 day = .ok i → r.dateOf? i = some day
  absolute : ∀ e ∈ t.events, ∀ i, e.1 = .absolute i → ∀ day, r.resolveOn e.1 day = .ok i

/-- What comes about of a timer after one time and not after another: each event at each of its
instants once, in order. -/
structure Fires (t : TimerDef) (r : Resolver) (last now : Instant) (fired : List Firing) : Prop where
  inOrder : fired.Pairwise Firing.Before
  exact : ∀ x, x ∈ fired ↔ ∃ spec, t.events[x.event]? = some (spec, x.command) ∧
    r.Occurs spec x.time ∧ last < x.time ∧ x.time ≤ now

theorem Fires.unique {t : TimerDef} {r : Resolver} {last now : Instant} {xs ys : List Firing}
    (hx : t.Fires r last now xs) (hy : t.Fires r last now ys) : xs = ys :=
  Firing.eq_of_inOrder hx.inOrder hy.inOrder fun x => (hx.exact x).trans (hy.exact x).symm

theorem Fires.none (t : TimerDef) (r : Resolver) (now : Instant) : t.Fires r now now [] where
  inOrder := List.Pairwise.nil
  exact x := by
    refine ⟨fun inside => absurd inside List.not_mem_nil, ?_⟩
    rintro ⟨-, -, -, after, before⟩
    exact absurd (lt_of_lt_of_le after before) (lt_irrefl _)

theorem Fires.append {t : TimerDef} {r : Resolver} {first middle last : Instant}
    {xs ys : List Firing} (early : first ≤ middle) (late : middle ≤ last)
    (hx : t.Fires r first middle xs) (hy : t.Fires r middle last ys) :
    t.Fires r first last (xs ++ ys) where
  inOrder := by
    refine List.pairwise_append.mpr ⟨hx.inOrder, hy.inOrder, fun x inside y among => Or.inl ?_⟩
    obtain ⟨-, -, -, -, before⟩ := (hx.exact x).mp inside
    obtain ⟨-, -, -, after, -⟩ := (hy.exact y).mp among
    exact lt_of_le_of_lt before after
  exact x := by
    rw [List.mem_append, hx.exact, hy.exact]
    constructor
    · rintro (⟨spec, own, occurs, after, before⟩ | ⟨spec, own, occurs, after, before⟩)
      · exact ⟨spec, own, occurs, after, before.trans late⟩
      · exact ⟨spec, own, occurs, lt_of_le_of_lt early after, before⟩
    · rintro ⟨spec, own, occurs, after, before⟩
      rcases le_or_gt x.time middle with first | second
      · exact Or.inl ⟨spec, own, occurs, after, first⟩
      · exact Or.inr ⟨spec, own, occurs, second, before⟩

variable {r : Resolver} {last now : Instant} {a b : Date}

def firingOn? (r : Resolver) (last now : Instant) (e : (TimeSpec × String) × Nat) (day : Date) :
    Option Firing :=
  match r.resolveOn e.1.1 day with
  | .ok i => if last < i && i ≤ now then some ⟨i, e.2, e.1.2⟩ else none
  | .error _ => none

theorem firingOn?_eq_some {e : (TimeSpec × String) × Nat} {day : Date} {x : Firing} :
    firingOn? r last now e day = some x ↔ x.event = e.2 ∧ x.command = e.1.2 ∧
      r.resolveOn e.1.1 day = .ok x.time ∧ last < x.time ∧ x.time ≤ now := by
  obtain ⟨time, event, command⟩ := x
  unfold firingOn?
  cases r.resolveOn e.1.1 day with
  | error _ => simp
  | ok i =>
    simp only [Bool.and_eq_true, decide_eq_true_eq, Option.ite_none_right_eq_some, Except.ok.injEq,
      Option.some.injEq, Firing.mk.injEq]
    constructor
    · rintro ⟨inside, rfl, rfl, rfl⟩
      exact ⟨rfl, rfl, rfl, inside⟩
    · rintro ⟨rfl, rfl, rfl, inside⟩
      exact ⟨inside, rfl, rfl, rfl⟩

def firingsOn (r : Resolver) (last now : Instant) (e : (TimeSpec × String) × Nat)
    (days : List Date) : List Firing :=
  days.filterMap (firingOn? r last now e)

def daysOf (first : Date) (more : List Date) (spec : TimeSpec) : List Date :=
  first :: if spec.isDaily then more else []

theorem eventCrossings?_eq (first : Date) (more : List Date) (e : (TimeSpec × String) × Nat) :
    eventCrossings? r (first :: more) last now e.1 =
      some ((firingsOn r last now e (daysOf first more e.1.1)).map Firing.entry) := by
  have entries : ∀ days : List Date, (firingsOn r last now e days).map Firing.entry =
      days.filterMap fun day => match r.resolveOn e.1.1 day with
        | .ok i => if last < i && i ≤ now then some (i, e.1.2) else none
        | .error _ => none := by
    intro days
    rw [firingsOn, List.map_filterMap]
    refine List.filterMap_congr fun day _ => ?_
    unfold firingOn?
    cases r.resolveOn e.1.1 day with
    | error _ => rfl
    | ok i => dsimp only; split <;> rfl
  unfold eventCrossings? daysOf
  split
  · exact congrArg some (entries _).symm
  · exact congrArg some (entries _).symm

theorem mem_firingsOn {e : (TimeSpec × String) × Nat} {days : List Date} {x : Firing} :
    x ∈ firingsOn r last now e days ↔ x.event = e.2 ∧ x.command = e.1.2 ∧
      (∃ day ∈ days, r.resolveOn e.1.1 day = .ok x.time) ∧ last < x.time ∧ x.time ≤ now := by
  simp only [firingsOn, List.mem_filterMap, firingOn?_eq_some]
  constructor
  · rintro ⟨day, among, event, command, resolved, inside⟩
    exact ⟨event, command, ⟨day, among, resolved⟩, inside⟩
  · rintro ⟨event, command, ⟨day, among, resolved⟩, inside⟩
    exact ⟨day, among, event, command, resolved, inside⟩

def firings (t : TimerDef) (r : Resolver) (first : Date) (more : List Date) (last now : Instant) :
    List Firing :=
  t.events.zipIdx.flatMap fun e => firingsOn r last now e (daysOf first more e.1.1)

theorem crossed?_eq {first : Date} {more : List Date} (t : TimerDef)
    (days : daysSince? r last now = some (first :: more)) :
    t.crossed? r last now =
      some ((Firing.arrange (t.firings r first more last now)).map (·.command)) := by
  have each : t.events.mapM (eventCrossings? r (first :: more) last now) =
      some (t.events.zipIdx.map fun e =>
        (firingsOn r last now e (daysOf first more e.1.1)).map Firing.entry) := by
    conv_lhs => rw [← List.zipIdx_map_fst 0 t.events, List.mapM_map]
    exact (congrArg (List.mapM · t.events.zipIdx) (funext (eventCrossings?_eq first more))).trans
      List.mapM_pure
  have commands : (fun x : Firing => x.command) = (·.2) ∘ Firing.entry := rfl
  simp only [crossed?, days, each, Option.bind_eq_bind, Option.bind_some]
  rw [commands, ← List.map_map, Firing.arrange_entry, firings, List.map_flatMap, List.flatMap]

theorem zipIdx_increasing {α : Type} (xs : List α) : xs.zipIdx.Pairwise fun x y => x.2 < y.2 := by
  have indices : (xs.zipIdx.map Prod.snd).Pairwise (· < ·) := by
    rw [List.zipIdx_map_snd]
    exact List.pairwise_lt_range'
  exact List.pairwise_map.mp indices

theorem mem_daysOf {first : Date} {more : List Date} {spec : TimeSpec} {day : Date} :
    day ∈ daysOf first more spec ↔ day = first ∨ spec.isDaily = true ∧ day ∈ more := by
  unfold daysOf
  split
  · rename_i daily
    rw [List.mem_cons, and_iff_right daily]
  · rename_i other
    rw [List.mem_singleton, or_iff_left fun both => other both.1]

def Apart (t : TimerDef) (r : Resolver) (last now : Instant) (days : List Date) : Prop :=
  ∀ e ∈ t.events, e.1.isDaily = true → ∀ day ∈ days, ∀ other ∈ days, ∀ i, last < i → i ≤ now →
    r.resolveOn e.1 day = .ok i → r.resolveOn e.1 other = .ok i → day = other

theorem firings_grouped {t : TimerDef} {first : Date} {more : List Date}
    (unique : (first :: more).Nodup) (apart : t.Apart r last now (first :: more)) :
    (t.firings r first more last now).Pairwise fun x y =>
      x.event < y.event ∨ x.event = y.event ∧ x.time ≠ y.time := by
  refine List.pairwise_flatMap.mpr ⟨fun e inside => ?_, (zipIdx_increasing t.events).imp ?_⟩
  · cases daily : e.1.1.isDaily with
    | true =>
      have days : daysOf first more e.1.1 = first :: more := by rw [daysOf, if_pos daily]
      rw [days]
      refine List.pairwise_filterMap.mpr (unique.imp_of_mem fun among also other x hx y hy => ?_)
      obtain ⟨hx, -, found, after, before⟩ := firingOn?_eq_some.mp hx
      obtain ⟨hy, -, found', -⟩ := firingOn?_eq_some.mp hy
      refine Or.inr ⟨hx.trans hy.symm, fun same => other ?_⟩
      exact apart e.1 (List.fst_mem_of_mem_zipIdx inside) daily _ among _ also x.time after before
        found (same ▸ found')
    | false =>
      have days : daysOf first more e.1.1 = [first] := by simp [daysOf, daily]
      rw [days]
      exact List.pairwise_filterMap.mpr (List.pairwise_singleton _ _)
  · intro e e' before x hx y hy
    rw [(mem_firingsOn.mp hx).1, (mem_firingsOn.mp hy).1]
    exact Or.inl before

theorem mem_firings {t : TimerDef} {first : Date} {more : List Date} {x : Firing} :
    x ∈ t.firings r first more last now ↔
      ∃ spec, t.events[x.event]? = some (spec, x.command) ∧
        (∃ day ∈ daysOf first more spec, r.resolveOn spec day = .ok x.time) ∧
        last < x.time ∧ x.time ≤ now := by
  simp only [firings, List.mem_flatMap, mem_firingsOn]
  constructor
  · rintro ⟨⟨⟨spec, command⟩, k⟩, inside, rfl, same, found, after, before⟩
    exact ⟨spec, by rw [List.mk_mem_zipIdx_iff_getElem?.mp inside, same], found, after, before⟩
  · rintro ⟨spec, here, found, after, before⟩
    exact ⟨((spec, x.command), x.event), List.mk_mem_zipIdx_iff_getElem?.mpr here, rfl, rfl, found,
      after, before⟩

end TimerDef

end HomeControl
