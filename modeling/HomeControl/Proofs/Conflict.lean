import HomeControl.Proofs.Schedule.Overridden
/-!
Which setters are left of several that stand against each other. Two of them do so if they are about
the same thing, so the last one about each thing is left, where it stands, and nothing else.
-/

namespace HomeControl.Setter

variable {w : Setter} {ws rest : List Setter}

def LastAt (ws : List Setter) (k : Nat) : Prop :=
  ∃ w, ws[k]? = some w ∧ ∀ j x, k < j → ws[j]? = some x → x.key ≠ w.key

theorem overridden_iff :
    rest.any (·.overrides w) = true ↔ ∃ x ∈ rest, x.key = w.key := by
  simp only [List.any_eq_true, overrides_iff]

theorem lastAt_zero : LastAt (w :: rest) 0 ↔ ¬ rest.any (·.overrides w) = true := by
  rw [overridden_iff]
  constructor
  · rintro ⟨x, first, others⟩ ⟨y, inside, same⟩
    cases first
    obtain ⟨j, here⟩ := List.getElem?_of_mem inside
    exact others (j + 1) y (Nat.succ_pos j) here same
  · intro alone
    refine ⟨w, rfl, ?_⟩
    intro j x behind here same
    cases j with
    | zero => omega
    | succ j => exact alone ⟨x, List.mem_of_getElem? here, same⟩

theorem lastAt_succ {k : Nat} : LastAt (w :: rest) (k + 1) ↔ LastAt rest k := by
  constructor
  · rintro ⟨x, here, others⟩
    refine ⟨x, here, ?_⟩
    intro j y behind there
    exact others (j + 1) y (Nat.succ_lt_succ behind) there
  · rintro ⟨x, here, others⟩
    refine ⟨x, here, ?_⟩
    intro j y behind there
    cases j with
    | zero => omega
    | succ j => exact others j y (Nat.lt_of_succ_lt_succ behind) there

theorem survivors_places (ws : List Setter) :
    ∃ places : List Nat, places.Pairwise (· < ·) ∧ (∀ k, k ∈ places ↔ LastAt ws k) ∧
      survivors ws = places.filterMap (ws[·]?) := by
  induction ws with
  | nil =>
    refine ⟨[], List.Pairwise.nil, ?_, rfl⟩
    intro k
    simp [LastAt]
  | cons w rest ih =>
    obtain ⟨places, increasing, exact, kept⟩ := ih
    have shifted : (places.map (· + 1)).Pairwise (· < ·) :=
      List.pairwise_map.mpr (increasing.imp Nat.succ_lt_succ)
    have later : (places.map (· + 1)).filterMap ((w :: rest)[·]?) = survivors rest := by
      rw [kept, List.filterMap_map]
      rfl
    unfold survivors
    split
    · rename_i overridden
      refine ⟨places.map (· + 1), shifted, ?_, later.symm⟩
      intro k
      cases k with
      | zero => simp [lastAt_zero, overridden]
      | succ k => simp [lastAt_succ, exact]
    · rename_i alone
      refine ⟨0 :: places.map (· + 1), ?_, ?_, ?_⟩
      · refine List.pairwise_cons.mpr ⟨?_, shifted⟩
        intro k inside
        obtain ⟨j, -, rfl⟩ := List.mem_map.mp inside
        omega
      · intro k
        cases k with
        | zero => simp [lastAt_zero, alone]
        | succ k => simp [lastAt_succ, exact]
      · rw [← later, List.filterMap_cons]
        rfl

/-- Of each key the last setter is left, if there is one, and no other. -/
theorem filter_key_survivors (ws : List Setter) (key : ScheduleKey) :
    (survivors ws).filter (·.key = key) = (ws.filter (·.key = key)).getLast?.toList := by
  induction ws with
  | nil => rfl
  | cons w rest ih =>
    unfold survivors
    split
    · rename_i overridden
      rw [ih]
      by_cases own : w.key = key
      · obtain ⟨x, inside, same⟩ := overridden_iff.mp overridden
        have among : x ∈ rest.filter (·.key = key) := by
          simpa [inside] using same.trans own
        rw [List.filter_cons_of_pos (by simpa using own), List.getLast?_cons,
          List.getLast?_eq_some_getLast (List.ne_nil_of_mem among), Option.getD_some]
      · rw [List.filter_cons_of_neg (by simpa using own)]
    · rename_i alone
      by_cases own : w.key = key
      · have none : rest.filter (·.key = key) = [] := by
          refine List.filter_eq_nil_iff.mpr ?_
          intro x inside same
          exact alone (overridden_iff.mpr ⟨x, inside, (of_decide_eq_true same).trans own.symm⟩)
        rw [none] at ih
        rw [List.filter_cons_of_pos (by simpa using own),
          List.filter_cons_of_pos (by simpa using own), ih, none]
        rfl
      · rw [List.filter_cons_of_neg (by simpa using own),
          List.filter_cons_of_neg (by simpa using own), ih]

theorem any_survivors (w : Setter) (ws : List Setter) :
    (survivors ws).any (·.overrides w) = ws.any (·.overrides w) := by
  rw [Bool.eq_iff_iff, overridden_iff, overridden_iff]
  exact key_survivors ws w.key

theorem survivors_append_left (ws more : List Setter) :
    survivors (survivors ws ++ more) = survivors (ws ++ more) := by
  induction ws with
  | nil => rfl
  | cons w rest ih =>
    have both : (survivors rest ++ more).any (·.overrides w) = (rest ++ more).any (·.overrides w) := by
      rw [List.any_append, List.any_append, any_survivors]
    by_cases overridden : rest.any (·.overrides w) = true
    · rw [survivors, if_pos overridden, ih, List.cons_append, survivors, List.any_append,
        overridden, Bool.true_or, if_pos rfl]
    · rw [survivors, if_neg overridden, List.cons_append, List.cons_append, survivors, survivors,
        both, ih]

theorem survivors_append_right (ws more : List Setter) :
    survivors (ws ++ survivors more) = survivors (ws ++ more) := by
  induction ws with
  | nil => exact survivors_eq_self (survivors_once more)
  | cons w rest ih =>
    rw [List.cons_append, List.cons_append, survivors, survivors, List.any_append, List.any_append,
      any_survivors, ih]

/-- The setters that are left hold the last setter of each key in the order of the list. They stand
against each other no more, and those of a list can be found from those of its parts. -/
theorem survivors_are_last (ws : List Setter) :
    (∃ places : List Nat, places.Pairwise (· < ·) ∧ (∀ k, k ∈ places ↔ LastAt ws k) ∧
        survivors ws = places.filterMap (ws[·]?)) ∧
      (∀ key, (survivors ws).filter (·.key = key) = (ws.filter (·.key = key)).getLast?.toList) ∧
      (∀ later earlier : Setter, later.overrides earlier = true ↔
        ScheduleKey.of later.node later.attr = ScheduleKey.of earlier.node earlier.attr) ∧
      (survivors ws).Pairwise (fun w x => w.overrides x = false ∧ x.overrides w = false) ∧
      ∀ more, survivors (ws ++ more) = survivors (survivors ws ++ survivors more) := by
  refine ⟨survivors_places ws, filter_key_survivors ws, overrides_iff, ?_, ?_⟩
  · have once : (survivors ws).Pairwise fun w x => w.key ≠ x.key :=
      List.pairwise_map.mp (survivors_once ws)
    refine once.imp ?_
    intro w x apart
    constructor
    · exact Bool.eq_false_iff.mpr fun above => apart ((overrides_iff w x).mp above)
    · exact Bool.eq_false_iff.mpr fun above => apart ((overrides_iff x w).mp above).symm
  · intro more
    rw [survivors_append_right, survivors_append_left]

example : survivors [.state "lamp" true, .brightness "lamp" 40, .flip "lamp", .state "desk" false] =
    [.brightness "lamp" 40, .flip "lamp", .state "desk" false] := by
  decide +kernel

end HomeControl.Setter
