import HomeControl.Proofs.Table
import HomeControl.Response
/-!
Readings without the booleans of some attributes. They are made of the single readings without these
booleans, and sums are the same with and without them.
-/

namespace HomeControl

namespace Value

def blot : Value → Value
  | .bool _ => .null
  | v => v

theorem number?_blot (v : Value) : v.blot.number? = v.number? := by
  cases v <;> rfl

theorem map_putField (f : String → Value → Value) (key : String) (v : Value)
    (l : List (String × Value)) :
    (putField key v l).map (fun e => (e.1, f e.1 e.2)) =
      putField key (f key v) (l.map fun e => (e.1, f e.1 e.2)) := by
  induction l with
  | nil => rfl
  | cons e rest ih =>
    obtain ⟨k, w⟩ := e
    simp only [putField, List.map_cons]
    split
    · rfl
    · split
      · rfl
      · rw [List.map_cons, ih]

def blotFields (blurred : String → Bool) (fields : List (String × Value)) :
    List (String × Value) :=
  fields.map fun e => (e.1, if blurred e.1 then e.2.blot else e.2)

def blotResults (blurred : String → String → Bool) : Value → Value
  | .record nodes => .record (nodes.map fun e => (e.1,
      match e.2 with
      | .record fields => .record (blotFields (blurred e.1) fields)
      | v => v))
  | v => v

end Value

def Reading.blot (blurred : String → String → Bool) (r : Reading) : Reading :=
  ⟨r.node, r.attr, if blurred r.node r.attr then r.value.blot else r.value⟩

namespace Readings

variable (blurred : String → String → Bool)

def blot (t : Readings) : Readings :=
  ⟨t.entries.map fun e => (e.1, Value.blotFields (blurred e.1) e.2)⟩

theorem map_put {ν : Type} (f : String → ν → ν) (key : String) (v : ν) (l : List (String × ν)) :
    (Keyed.put key v l).map (fun e => (e.1, f e.1 e.2)) =
      Keyed.put key (f key v) (l.map fun e => (e.1, f e.1 e.2)) := by
  induction l with
  | nil => rfl
  | cons e rest ih =>
    obtain ⟨k, w⟩ := e
    simp only [Keyed.put, List.map_cons]
    split
    · rfl
    · rw [List.map_cons, ih]

theorem get?_blot (t : Readings) (node : String) :
    (t.blot blurred).get? node = (t.get? node).map (Value.blotFields (blurred node)) :=
  Keyed.lookup_map (fun node fields => Value.blotFields (blurred node) fields) t.entries node

theorem blot_add (t : Readings) (r : Reading) :
    (t.add r).blot blurred = (t.blot blurred).add (r.blot blurred) := by
  have fields : ((t.blot blurred).get? r.node).getD [] =
      Value.blotFields (blurred r.node) ((t.get? r.node).getD []) := by
    rw [get?_blot]
    cases t.get? r.node <;> rfl
  have whole : (t.blot blurred).add (r.blot blurred) = (t.blot blurred).insert r.node
      (Value.putField r.attr (r.blot blurred).value
        (((t.blot blurred).get? r.node).getD [])) := rfl
  rw [whole, fields]
  unfold add Keyed.insert blot
  rw [map_put fun node fields => Value.blotFields (blurred node) fields]
  congr 2
  exact Value.map_putField (fun attr v => if blurred r.node attr then v.blot else v) ..

theorem blot_ofList (readings : List Reading) :
    (ofList readings).blot blurred = ofList (readings.map (·.blot blurred)) := by
  unfold ofList
  rw [List.foldl_map]
  exact (List.foldl_hom (blot blurred) fun t r => (blot_add blurred t r).symm).symm

theorem blot_toValue (t : Readings) :
    t.toValue.blotResults blurred = (t.blot blurred).toValue := by
  have fold : ∀ (entries acc : List (String × Value)) (f : String → Value → Value),
      (entries.foldl (fun acc e => Value.putField e.1 e.2 acc) acc).map
          (fun e => (e.1, f e.1 e.2)) =
        (entries.map fun e => (e.1, f e.1 e.2)).foldl
          (fun acc e => Value.putField e.1 e.2 acc) (acc.map fun e => (e.1, f e.1 e.2)) := by
    intro entries
    induction entries with
    | nil => exact fun _ _ => rfl
    | cons e rest ih =>
      intro acc f
      rw [List.foldl_cons, ih, Value.map_putField]
      rfl
  simp only [toValue, Value.ofFields, Value.blotResults]
  rw [fold _ _ fun node v =>
    match v with
    | .record fields => .record (Value.blotFields (blurred node) fields)
    | v => v]
  simp only [List.map_map, blot]
  rfl

theorem toList_blot (t : Readings) :
    (t.blot blurred).toList = t.toList.map (·.blot blurred) := by
  simp only [toList, blot, Value.blotFields, List.flatMap_map, List.map_flatMap, List.map_map]
  rfl

theorem number?_blot (r : Reading) : (r.blot blurred).value.number? = r.value.number? := by
  unfold Reading.blot
  dsimp only
  split
  · exact r.value.number?_blot
  · rfl

theorem totals_blot (t : Readings) (how : Aggregate) :
    (t.blot blurred).totals how = t.totals how := by
  have attrs : (t.blot blurred).attrs = t.attrs := by
    unfold attrs
    rw [toList_blot, List.map_map]
    rfl
  have numbers : ∀ attr, (t.blot blurred).numbers attr = t.numbers attr := by
    intro attr
    unfold numbers
    rw [toList_blot, List.filterMap_map]
    congr 1
    funext r
    simp only [Function.comp_apply, number?_blot]
    rfl
  simp only [totals, total?, attrs, numbers]

end Readings

end HomeControl
