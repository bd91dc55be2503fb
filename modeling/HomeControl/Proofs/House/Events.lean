import HomeControl.Feedback
import HomeControl.Proofs.House.Effects
/-!
The events that commands cause. Nothing takes an event back, and all that happens in the course of
one command has the depth of this command.
-/

namespace HomeControl

namespace House

/-- Whether what happened from one house to another are events of a kind. -/
def Causes (P : Event → Prop) (before after : House) : Prop :=
  ∃ new, after.events = before.events ++ new ∧ ∀ e ∈ new, P e

def Fires (depth : Nat) : House → House → Prop :=
  Causes (·.depth = depth)

theorem Causes.of_events_eq {P : Event → Prop} {before after : House}
    (same : after.events = before.events) : Causes P before after :=
  ⟨[], by rw [same, List.append_nil], List.forall_mem_nil _⟩

theorem Causes.refl (P : Event → Prop) (h : House) : Causes P h h :=
  .of_events_eq rfl

theorem Causes.trans {P : Event → Prop} {first second third : House}
    (before : Causes P first second) (after : Causes P second third) : Causes P first third := by
  obtain ⟨xs, hxs, allx⟩ := before
  obtain ⟨ys, hys, ally⟩ := after
  refine ⟨xs ++ ys, by rw [hys, hxs, List.append_assoc], ?_⟩
  intro e inside
  rcases List.mem_append.mp inside with early | late
  · exact allx e early
  · exact ally e late

theorem Causes.imp {P Q : Event → Prop} {before after : House} (weaker : ∀ e, P e → Q e)
    (h : Causes P before after) : Causes Q before after := by
  obtain ⟨new, events, all⟩ := h
  exact ⟨new, events, fun e inside => weaker e (all e inside)⟩

theorem remember_causes (h : House) (node attr : String) (v : Value) (depth : Nat) :
    Causes (fun e => e.node = node ∧ e.attr = attr ∧ e.depth = depth) h
      (h.remember node attr v depth) := by
  cases news : isNews (((h.snapshot? node).getD []).lookup attr) v with
  | true =>
    refine ⟨[⟨node, attr, v, depth⟩], ?_, List.forall_mem_singleton.mpr ⟨rfl, rfl, rfl⟩⟩
    simp only [remember, news, if_true]
  | false =>
    refine .of_events_eq ?_
    simp only [remember, news, Bool.false_eq_true, if_false]

theorem noteSet_causes (h : House) (w : Setter) (depth : Nat) :
    Causes (fun e => e.node = w.node ∧ e.attr = w.target ∧ e.depth = depth) h
      (h.noteSet w depth) := by
  unfold noteSet Setter.target
  split
  · split
    · exact h.remember_causes _ _ _ _
    · exact .refl _ h
  · split
    · exact h.remember_causes _ _ _ _
    · exact .refl _ h

theorem get_causes (t : Topology) (h : House) (node attr : String) (depth : Nat) :
    Causes (fun e => e.node = node ∧ e.attr = attr ∧ e.depth = depth) h
      (h.get t node attr depth).2 := by
  unfold get
  split
  · exact .refl _ h
  · split
    · exact .of_events_eq rfl
    · rename_i n _ _ v s _
      dsimp only
      split
      · exact .of_events_eq rfl
      · exact (Causes.of_events_eq rfl).trans
          ((h.putDevice n.device s).remember_causes node attr v depth)

theorem get_fires (t : Topology) (h : House) (node attr : String) (depth : Nat) :
    h.Fires depth (h.get t node attr depth).2 :=
  (get_causes t h node attr depth).imp fun _ about => about.2.2

theorem set_causes (t : Topology) (h : House) (w : Setter) (depth : Nat) :
    Causes (fun e => e.node = w.node ∧ e.attr = w.target ∧ e.depth = depth) h
      (h.set t w depth).2 := by
  unfold set
  split
  · exact .refl _ h
  · split
    · exact .of_events_eq rfl
    · rename_i n _ _ _ s _
      exact (Causes.of_events_eq rfl).trans (noteSet_causes (h.putDevice n.device s) w depth)

theorem set_fires (t : Topology) (h : House) (w : Setter) (depth : Nat) :
    h.Fires depth (h.set t w depth).2 :=
  (set_causes t h w depth).imp fun _ about => about.2.2

end House

namespace State

variable (t : Topology) (depth : Nat)

theorem readAll_fires (gs : List Getter) (s : State) :
    s.house.Fires depth (s |> readAll t depth gs).2.house := by
  induction gs generalizing s with
  | nil => exact .refl _ _
  | cons g rest ih =>
    have first := House.get_fires t s.house g.node g.attr depth
    exact first.trans (ih (s.read t depth g).2)

theorem write_fires (w : Setter) (s : State) :
    s.house.Fires depth (s.write t depth w).2.house := by
  have done := House.set_fires t s.house w depth
  unfold write
  cases call : s.house.set t w depth with
  | mk answer house =>
    rw [call] at done
    cases answer with
    | ok _ => exact done
    | error e => exact done

theorem writeAll_fires (ws : List Setter) (s : State) :
    s.house.Fires depth (s |> writeAll t depth ws).2.house := by
  induction ws generalizing s with
  | nil => exact .refl _ _
  | cons w rest ih =>
    have first := write_fires t depth w s
    simp only [writeAll]
    cases call : s.write t depth w with
    | mk answer after =>
      rw [call] at first
      cases answer with
      | ok _ => exact first.trans (ih after)
      | error e => exact first.trans (ih after)

theorem execute_fires (p : Plan) (s : State) :
    s.house.Fires depth (s.execute t depth p).2.house :=
  (readAll_fires t depth p.getters.eraseDups s).trans
    (writeAll_fires t depth (Setter.survivors p.setters) _)

end State

namespace Controller

variable (c : Controller) (depth : Nat)

theorem perform_fires (o : Order) (s : State) :
    s.house.Fires depth (c.perform depth o s).2.house := by
  cases o with
  | command text timed => exact State.execute_fires c.topology depth _ s
  | setter w => exact State.execute_fires c.topology depth _ s

theorem performAll_fires (orders : List Order) (s : State) :
    s.house.Fires depth (c.performAll depth orders s).state.house := by
  induction orders generalizing s with
  | nil => exact .refl _ _
  | cons o rest ih =>
    simp only [performAll]
    split
    · exact (c.perform_fires depth o s).trans (ih _)
    · exact .refl _ _

theorem performAll_depth (orders : List Order) (s : State) :
    ∀ d ∈ (c.performAll depth orders s).ran, d.depth = depth := by
  induction orders generalizing s with
  | nil => exact List.forall_mem_nil _
  | cons o rest ih =>
    simp only [performAll]
    split
    · exact List.forall_mem_cons.mpr ⟨rfl, ih _⟩
    · exact List.forall_mem_nil _

end Controller

end HomeControl
