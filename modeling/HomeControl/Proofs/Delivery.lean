import HomeControl.Bus
import HomeControl.Proofs.Table
import Mathlib.Data.Finset.Card
import Mathlib.Data.Nat.Log
/-!
What receivers are told. A receiver is told of all events of its key that were fired since its
subscription, in order and once. Only a receiver that has more of them before it than a channel
keeps is told a number instead of the events that are no longer kept.
-/

namespace HomeControl

theorem Event.key_ne_valueKey (e : Event) : e.key ≠ e.valueKey := by
  intro same
  have lengths := congrArg String.length same
  simp only [valueKey, String.length_append] at lengths
  have dot : ".".length = 1 := rfl
  omega

namespace Bus

/-- What is done with a bus. To subscribe to everything is to subscribe to the key `*`. -/
inductive Op where
  | subscribe (key : String)
  | fire (e : Event)
  | receive (index : Nat)
  deriving DecidableEq, Repr

def step (b : Bus) : Op → Bus
  | .subscribe key => b.subscribe key
  | .fire e => b.fire e
  | .receive index => (b.receive index).2

def run (b : Bus) (ops : List Op) : Bus :=
  ops.foldl step b

theorem run_concat (b : Bus) (ops : List Op) (op : Op) :
    b.run (ops ++ [op]) = (b.run ops).step op :=
  List.foldl_concat ..

def fired : List Op → List Event :=
  List.filterMap fun
    | .fire e => some e
    | _ => none

def listened : List Op → List String :=
  List.filterMap fun
    | .subscribe key => if key = matchAll then none else some key
    | _ => none

def answer (b : Bus) (index : Nat) : Op → List Delivery
  | .receive i => if i = index then [(b.receive i).1] else []
  | _ => []

def answers (b : Bus) (index : Nat) : List Op → List Delivery
  | [] => []
  | op :: rest => b.answer index op ++ (b.step op).answers index rest

def wants (key : String) (e : Event) : Bool :=
  key == matchAll || key == e.key || key == e.valueKey

/-- Answers that tell of events, in order and once. A number stands for that many events. -/
inductive Told : List Event → List Delivery → Prop
  | nothing : Told [] []
  | event (e : Event) {es : List Event} {ds : List Delivery} (later : Told es ds) :
    Told (e :: es) (.event e :: ds)
  | lagged (missed : List Event) {es : List Event} {ds : List Delivery} (later : Told es ds) :
    Told (missed ++ es) (.lagged missed.length :: ds)
  | empty {es : List Event} {ds : List Delivery} (later : Told es ds) : Told es (.empty :: ds)

def next (capacity : Nat) : List Event → Delivery
  | [] => .empty
  | e :: es =>
    if capacity < (e :: es).length then .lagged ((e :: es).length - capacity) else .event e

/-- A receiver that stands behind a part of the messages is answered from the rest, and goes
on behind what the answer tells of. -/
theorem receive_append (capacity : Nat) (old left : List Event) :
    ∃ read rest, left = read ++ rest ∧
      (Channel.mk capacity (old ++ left)).receive old.length =
        (next capacity left, (old ++ read).length) ∧
      ∀ {es : List Event} {ds : List Delivery},
        Told es ds → Told (read ++ es) (next capacity left :: ds) := by
  have oldest : old.length < (old ++ left).length - capacity ↔ capacity < left.length := by
    rw [List.length_append]
    omega
  cases left with
  | nil =>
    refine ⟨[], [], rfl, ?_, fun told => told.empty⟩
    have kept : ¬old.length < (old ++ []).length - capacity := fun beyond =>
      Nat.not_lt_zero _ (oldest.mp beyond)
    simp only [Channel.receive, if_neg kept, next]
    rw [List.append_nil, List.getElem?_eq_none (Nat.le_refl _)]
  | cons e es =>
    by_cases beyond : capacity < (e :: es).length
    · let missed := (e :: es).length - capacity
      have length : ((e :: es).take missed).length = missed :=
        List.length_take_of_le (Nat.sub_le ..)
      refine ⟨(e :: es).take missed, (e :: es).drop missed, (List.take_append_drop ..).symm, ?_, ?_⟩
      · have count : (old ++ e :: es).length - capacity = old.length + missed := by
          rw [List.length_append]
          omega
        simp only [Channel.receive, next]
        rw [if_pos (oldest.mpr beyond), if_pos beyond, count, Nat.add_sub_cancel_left,
          List.length_append, length]
      · intro later ds told
        have lagged := told.lagged ((e :: es).take missed)
        rw [length] at lagged
        rwa [next, if_pos beyond]
    · refine ⟨[e], es, rfl, ?_, ?_⟩
      · simp only [Channel.receive, next]
        rw [if_neg (mt oldest.mp beyond), if_neg beyond, List.getElem?_append_right (Nat.le_refl _),
          Nat.sub_self, List.getElem?_cons_zero, List.length_append, List.length_singleton]
      · intro later ds told
        rw [next, if_neg beyond]
        exact told.event e

/-- A receiver of a key that has these events before it. -/
def Behind (b : Bus) (index : Nat) (key : String) (left : List Event) : Prop :=
  ∃ old, b.channel? key = some ⟨b.capacity, old ++ left⟩ ∧
    b.receivers[index]? = some ⟨key, old.length⟩

section Behind

variable {b : Bus} {index : Nat} {key : String} {left : List Event}

theorem ne_matchAll_of_absent (absent : b.channel? key = none) : key ≠ matchAll := by
  rintro rfl
  simp [channel?] at absent

theorem channel?_fire (b : Bus) (e : Event) (key : String) :
    (b.fire e).channel? key =
      (b.channel? key).map fun c => if wants key e then c.send e else c := by
  unfold channel? fire
  by_cases all : key = matchAll
  · simp [all, wants]
  · have other := e.key_ne_valueKey
    simp only [if_neg all, List.foldl_cons, List.foldl_nil, Keyed.get?_modify]
    by_cases attr : e.key = key
    · subst attr
      simp [wants, Ne.symm other]
    · by_cases value : e.valueKey = key
      · simp [wants, value, attr]
      · have unwanted : wants key e = false := by
          simp [wants, all, Ne.symm attr, Ne.symm value]
        simp [attr, value, unwanted]

theorem channel?_subscribe (b : Bus) (subscribed key : String) :
    (b.subscribe subscribed).channel? key =
      if subscribed = key then some ((b.channel? key).getD ⟨b.capacity, []⟩)
      else b.channel? key := by
  unfold subscribe
  split
  · rename_i c found
    by_cases same : subscribed = key
    · subst same
      rw [if_pos rfl, found]
      exact found
    · rw [if_neg same]
      rfl
  · rename_i absent
    have named := ne_matchAll_of_absent absent
    by_cases same : subscribed = key
    · subst same
      rw [channel?, Keyed.get?_insert, if_neg named, if_pos rfl, if_pos rfl, absent,
        Option.getD_none]
    · simp only [channel?, Keyed.get?_insert, if_neg same]

theorem capacity_subscribe (b : Bus) (key : String) : (b.subscribe key).capacity = b.capacity := by
  unfold subscribe
  split <;> rfl

theorem receive_frame (b : Bus) (i : Nat) :
    ∃ receivers, (b.receive i).2 = { b with receivers } ∧
      ∀ j, i ≠ j → receivers[j]? = b.receivers[j]? := by
  unfold receive
  split
  · exact ⟨b.receivers, rfl, fun _ _ => rfl⟩
  · split
    · exact ⟨b.receivers, rfl, fun _ _ => rfl⟩
    · exact ⟨_, rfl, fun _ other => List.getElem?_set_ne other⟩

theorem receivers_subscribe (b : Bus) (key : String) :
    (b.subscribe key).receivers =
      b.receivers ++ [⟨key, ((b.channel? key).getD ⟨b.capacity, []⟩).sent.length⟩] := by
  unfold subscribe
  split
  · rename_i found
    rw [found, Option.getD_some]
  · rename_i absent
    rw [absent, Option.getD_none]
    rfl

theorem Behind.subscribe (behind : b.Behind index key left) (subscribed : String) :
    (b.subscribe subscribed).Behind index key left := by
  obtain ⟨old, channel, receiver⟩ := behind
  refine ⟨old, ?_, ?_⟩
  · rw [channel?_subscribe, channel, Option.getD_some, ite_self, capacity_subscribe]
  · rw [receivers_subscribe, List.getElem?_append_left (List.getElem?_eq_some_iff.mp receiver).1]
    exact receiver

theorem Behind.fire (behind : b.Behind index key left) (e : Event) :
    (b.fire e).Behind index key (left ++ [e].filter (wants key)) := by
  obtain ⟨old, channel, receiver⟩ := behind
  refine ⟨old, ?_, receiver⟩
  rw [channel?_fire, channel, Option.map_some, List.filter_singleton]
  cases wants key e with
  | true => simp only [Channel.send, List.append_assoc]; rfl
  | false => simp only [cond_false, List.append_nil]; rfl

theorem Behind.receive_other (behind : b.Behind index key left) {i : Nat} (other : i ≠ index) :
    (b.receive i).2.Behind index key left := by
  obtain ⟨old, channel, receiver⟩ := behind
  obtain ⟨receivers, same, others⟩ := b.receive_frame i
  rw [same]
  exact ⟨old, channel, (others index other).trans receiver⟩

theorem Behind.receive (behind : b.Behind index key left) :
    (b.receive index).1 = next b.capacity left ∧
      ∃ read rest, left = read ++ rest ∧ (b.receive index).2.Behind index key rest ∧
        ∀ {es : List Event} {ds : List Delivery},
          Told es ds → Told (read ++ es) (next b.capacity left :: ds) := by
  obtain ⟨old, channel, receiver⟩ := behind
  obtain ⟨read, rest, split, answered, told⟩ := receive_append b.capacity old left
  have received : b.receive index = (next b.capacity left,
      { b with receivers := b.receivers.set index ⟨key, (old ++ read).length⟩ }) := by
    simp only [Bus.receive, receiver, channel, answered]
  rw [received]
  refine ⟨rfl, read, rest, split, ⟨old ++ read, ?_, ?_⟩, told⟩
  · rw [List.append_assoc, ← split]
    exact channel
  · exact List.getElem?_set_self (List.getElem?_eq_some_iff.mp receiver).1

/-- What an operation does to the events that are before a receiver: the events it fires come after
them, and those that its answer tells of are taken from them. -/
theorem Behind.step (behind : b.Behind index key left) (op : Op) :
    ∃ read rest, left ++ (fired [op]).filter (wants key) = read ++ rest ∧
      (b.step op).Behind index key rest ∧
      ∀ {es : List Event} {ds : List Delivery},
        Told es ds → Told (read ++ es) (b.answer index op ++ ds) := by
  cases op with
  | subscribe subscribed => exact ⟨[], left, List.append_nil _, behind.subscribe subscribed, id⟩
  | fire e => exact ⟨[], _, rfl, behind.fire e, id⟩
  | receive i =>
    by_cases own : i = index
    · subst own
      obtain ⟨answered, read, rest, split, later, told⟩ := behind.receive
      refine ⟨read, rest, (List.append_nil _).trans split, later, ?_⟩
      rw [answer, if_pos rfl, answered]
      exact told
    · refine ⟨[], left, List.append_nil _, behind.receive_other own, ?_⟩
      rw [answer, if_neg own]
      exact id

theorem capacity_step (b : Bus) (op : Op) : (b.step op).capacity = b.capacity := by
  cases op with
  | subscribe key => exact b.capacity_subscribe key
  | fire e => rfl
  | receive i =>
    obtain ⟨receivers, same, -⟩ := b.receive_frame i
    rw [Bus.step, same]

theorem capacity_run (b : Bus) (ops : List Op) : (b.run ops).capacity = b.capacity :=
  List.foldlRecOn (motive := fun later : Bus => later.capacity = b.capacity) ops Bus.step rfl
    fun later same op _ => (later.capacity_step op).trans same

theorem Behind.run (behind : b.Behind index key left) (ops : List Op) :
    ∃ read rest, left ++ (fired ops).filter (wants key) = read ++ rest ∧
      (b.run ops).Behind index key rest ∧ Told read (b.answers index ops) := by
  induction ops generalizing b left with
  | nil => exact ⟨[], left, List.append_nil _, behind, Told.nothing⟩
  | cons op ops ih =>
    obtain ⟨first, left', step, after, toldFirst⟩ := behind.step op
    obtain ⟨more, rest, run, last, toldMore⟩ := ih after
    refine ⟨first ++ more, rest, ?_, last, toldFirst toldMore⟩
    have events : fired (op :: ops) = fired [op] ++ fired ops :=
      List.filterMap_append (l := [op])
    rw [events, List.filter_append, ← List.append_assoc, step, List.append_assoc, run,
      List.append_assoc]

end Behind

def Uniform (b : Bus) : Prop :=
  ∀ key c, b.channel? key = some c → c.capacity = b.capacity

theorem Uniform.step {b : Bus} (uniform : b.Uniform) (op : Op) : (b.step op).Uniform := by
  intro key c channel
  rw [capacity_step]
  cases op with
  | subscribe subscribed =>
    rw [Bus.step, channel?_subscribe] at channel
    split at channel
    · cases channel
      cases found : b.channel? key with
      | none => rfl
      | some c => exact uniform key c found
    · exact uniform key c channel
  | fire e =>
    rw [Bus.step, channel?_fire, Option.map_eq_some_iff] at channel
    obtain ⟨c, found, rfl⟩ := channel
    have same : (if wants key e then c.send e else c).capacity = c.capacity := by split <;> rfl
    exact same.trans (uniform key c found)
  | receive i =>
    obtain ⟨receivers, same, -⟩ := b.receive_frame i
    rw [Bus.step, same] at channel
    exact uniform key c channel

theorem Uniform.run {b : Bus} (uniform : b.Uniform) (ops : List Op) : (b.run ops).Uniform :=
  List.foldlRecOn (motive := Bus.Uniform) ops Bus.step uniform fun _ kept op _ => kept.step op

theorem subscribe_behind {b : Bus} (uniform : b.Uniform) (key : String) :
    (b.subscribe key).Behind b.receivers.length key [] := by
  refine ⟨((b.channel? key).getD ⟨b.capacity, []⟩).sent, ?_, ?_⟩
  · rw [channel?_subscribe, if_pos rfl, List.append_nil, capacity_subscribe]
    cases found : b.channel? key with
    | none => rfl
    | some c => rw [Option.getD_some, ← uniform key c found]
  · rw [receivers_subscribe, List.getElem?_concat_length]

theorem keys_subscribe (b : Bus) (key : String) :
    (b.subscribe key).channels.keys =
      if key = matchAll ∨ key ∈ b.channels.keys then b.channels.keys
      else b.channels.keys ++ [key] := by
  unfold subscribe
  split
  · rename_i c found
    have there : key = matchAll ∨ key ∈ b.channels.keys := by
      refine or_iff_not_imp_left.mpr fun named => ?_
      rw [channel?, if_neg named] at found
      exact Keyed.mem_keys_of_get? found
    rw [if_pos there]
  · rename_i absent
    have named := ne_matchAll_of_absent absent
    simp only [named, false_or]
    exact Keyed.keys_put ..

theorem keys_fire (b : Bus) (e : Event) : (b.fire e).channels.keys = b.channels.keys := by
  simp only [fire, List.foldl_cons, List.foldl_nil, Keyed.keys_modify]

def Listening (b : Bus) (keys : List String) : Prop :=
  b.channels.keys.Nodup ∧ ∀ key, key ∈ b.channels.keys ↔ key ∈ keys

theorem Listening.step {b : Bus} {keys : List String} (listening : b.Listening keys) (op : Op) :
    (b.step op).Listening (keys ++ listened [op]) := by
  obtain ⟨nodup, same⟩ := listening
  cases op with
  | subscribe key =>
    rw [Listening, Bus.step, keys_subscribe]
    by_cases all : key = matchAll
    · simpa [listened, all] using ⟨nodup, same⟩
    · by_cases known : key ∈ b.channels.keys
      · rw [if_pos (Or.inr known)]
        refine ⟨nodup, fun other => ?_⟩
        have inside := (same key).mp known
        rw [same]
        simp only [listened, List.filterMap_cons, if_neg all, List.filterMap_nil, List.mem_append,
          List.mem_singleton]
        exact ⟨Or.inl, fun either => either.elim id fun own => own ▸ inside⟩
      · rw [if_neg (not_or.mpr ⟨all, known⟩)]
        refine ⟨List.concat_eq_append ▸ nodup.concat known, fun other => ?_⟩
        simp only [listened, List.filterMap_cons, if_neg all, List.filterMap_nil, List.mem_append,
          same]
  | fire e =>
    rw [Listening, Bus.step, keys_fire]
    exact ⟨nodup, fun key => by rw [same]; simp [listened]⟩
  | receive i =>
    obtain ⟨receivers, unchanged, -⟩ := b.receive_frame i
    rw [Bus.step, unchanged]
    exact ⟨nodup, fun key => by rw [same]; simp [listened]⟩

theorem Listening.run {b : Bus} {keys : List String} (listening : b.Listening keys)
    (ops : List Op) : (b.run ops).Listening (keys ++ listened ops) := by
  induction ops generalizing b keys with
  | nil =>
    rw [listened, List.filterMap_nil, List.append_nil]
    exact listening
  | cons op ops ih =>
    have later := ih (listening.step op)
    have all : listened (op :: ops) = listened [op] ++ listened ops :=
      List.filterMap_append (l := [op])
    rw [all, ← List.append_assoc]
    exact later

theorem Listening.count {b : Bus} {keys : List String} (listening : b.Listening keys) :
    b.listenerCount = keys.toFinset.card := by
  rw [listenerCount, ← List.toFinset_card_of_nodup listening.1,
    List.toFinset.ext listening.2]

/-- The capacity is the power of two whose exponent is the logarithm, rounded up. -/
theorem powerAbove_eq (n : Nat) : powerAbove n = bitRange (Nat.clog 2 n) := by
  unfold powerAbove
  split
  · rename_i small
    rw [Nat.clog_of_right_le_one small]
    rfl
  · rename_i large
    have below := Nat.lt_log2_self (n := n - 1)
    have above := Nat.log2_self_le (n := n - 1) (by omega)
    have bits : Nat.clog 2 n = (n - 1).log2 + 1 :=
      le_antisymm ((Nat.clog_le_iff_le_pow Nat.one_lt_two).mpr (by omega))
        ((Nat.lt_clog_iff_pow_lt Nat.one_lt_two).mpr (by omega))
    rw [bits]

def fresh (capacity : Nat) : Bus := ⟨capacity, .empty, ⟨capacity, []⟩, []⟩

theorem ofCapacity?_eq {n : Nat} (positive : 0 < n) :
    ofCapacity? n = some (fresh (bitRange (Nat.clog 2 n))) := by
  rw [← powerAbove_eq]
  exact if_neg positive.ne'

theorem uniform_fresh (capacity : Nat) : (fresh capacity).Uniform := by
  intro key c channel
  unfold channel? at channel
  split at channel
  · cases channel
    rfl
  · cases channel

theorem listening_fresh (capacity : Nat) : (fresh capacity).Listening [] :=
  ⟨List.nodup_nil, fun _ => Iff.rfl⟩

/-- A bus of any capacity but zero can be made. Wherever a run of it stops, a receiver was told of
exactly the events of its key that were fired since its subscription, in order and once, up to those
that are still before it; and it is told a number for some of these only if they are more than the
capacity, rounded up to a power of two. The listeners are counted by their keys. -/
theorem receivers_miss_nothing {n : Nat} (positive : 0 < n) :
    ∃ b, ofCapacity? n = some b ∧
      (∀ before key after,
        let subscribed := b.run (before ++ [.subscribe key])
        let index := (b.run before).receivers.length
        ∃ read left, (fired after).filter (wants key) = read ++ left ∧
          Told read (subscribed.answers index after) ∧
          ((subscribed.run after).receive index).1 = next (bitRange (Nat.clog 2 n)) left) ∧
      ∀ ops, (b.run ops).listenerCount = (listened ops).toFinset.card := by
  let capacity := bitRange (Nat.clog 2 n)
  refine ⟨fresh capacity, ofCapacity?_eq positive, fun before key after => ?_, fun ops => ?_⟩
  · intro subscribed index
    have start : subscribed.Behind index key [] := by
      have now : subscribed = ((fresh capacity).run before).subscribe key := run_concat ..
      rw [now]
      exact subscribe_behind ((uniform_fresh capacity).run before) key
    obtain ⟨read, left, events, later, told⟩ := start.run after
    refine ⟨read, left, events, told, ?_⟩
    rw [later.receive.1, capacity_run, capacity_run]
    rfl
  · rw [((listening_fresh capacity).run ops).count, List.nil_append]

/-- With room for one event, the first of two is only counted. -/
theorem receivers_miss_nothing_slow :
    let on : Event := ⟨"lamp", "state", .bool true, 0⟩
    let off : Event := ⟨"lamp", "state", .bool false, 0⟩
    let after := [Op.fire on, .fire off, .receive 0, .receive 0]
    0 < 1 ∧ ∃ b, ofCapacity? 1 = some b ∧
      (∃ read left, [on, off] = read ++ left ∧
        Told read ((b.run [.subscribe "*"]).answers 0 after) ∧
        (((b.run [.subscribe "*"]).run after).receive 0).1 = next (bitRange (Nat.clog 2 1)) left) ∧
      (b.run [.subscribe "*"]).answers 0 after = [.lagged 1, .event off] ∧
      (b.run (.subscribe "*" :: after)).listenerCount = 0 := by
  intro on off after
  obtain ⟨b, made, told, count⟩ := receivers_miss_nothing Nat.one_pos
  cases made
  exact ⟨Nat.one_pos, _, rfl, told [] "*" after, rfl, count _⟩

end Bus

end HomeControl
