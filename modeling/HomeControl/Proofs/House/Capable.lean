import HomeControl.Proofs.House.Effects
/-!
Which setters and fades the nodes of a topology can carry out. Where a node has the capability, what
goes wrong is never that there is no such node or that its device cannot do such a thing, whatever the
house holds.
-/

namespace HomeControl

def DriverError.isUnsupported : DriverError → Bool
  | .notSupported .. => true
  | _ => false

def NodeError.isRefusal : NodeError → Bool
  | .unknown _ => true
  | .driver _ cause => cause.isUnsupported

def FadeValues.Percentages (values : FadeValues) : Prop :=
  ∀ start goal, values = .brightness start goal → start.toNat ≤ 100 ∧ goal.toNat ≤ 100

namespace Topology

/-- A setter for a node that has the capability to carry it out. -/
structure Capable (t : Topology) (w : Setter) : Prop where
  gated : ∃ n, t.nodes.get? w.node = some n ∧ n.hasSet w.capability = true
  answered : ∀ h depth e, (House.set t h w depth).1 = .error e → e.isRefusal = false

/-- A setter that a node can carry out, with a percentage if it is for a brightness, and with three
bytes if it is for a color. -/
structure Executable (t : Topology) (w : Setter) : Prop extends t.Capable w where
  brightness : w.attr = Attr.brightness → ∃ n ≤ 100, w.value = some (.int (n : Nat))
  color : w.attr = Attr.color → ∃ c : Color, w.value = some c.toValue

/-- A fade for a node that has the capability for each of its steps, between percentages if it is one of
brightness. -/
structure Fadable (t : Topology) (f : FaderSpec) : Prop where
  gated : ∃ n, t.nodes.get? f.node = some n ∧ n.hasSet f.attr = true
  answered : ∀ v h depth e, (House.set t h ⟨f.node, f.attr, some v⟩ depth).1 = .error e →
    e.isRefusal = false
  brightness : f.values.Percentages

end Topology

namespace Device

theorem writeStore_supports {store : List (String × Value)} {capability : String}
    {value : Option Value} {e : DriverError} (h : writeStore store capability value = .error e) :
    e.isUnsupported = false := by
  rw [writeStore_eq] at h
  split at h
  · cases h
    rfl
  · split at h
    · cases h
      rfl
    · cases h

theorem set_supports {d : Device} {capability : String} (has : d.hasSet capability = true)
    {value : Option Value} {s : DeviceState} {e : DriverError}
    (h : (d.set capability value s).1 = .error e) : e.isUnsupported = false := by
  simp only [set, show d.writable.contains capability = true from has, if_true] at h
  split at h
  · cases h
    rfl
  · split at h
    · cases h
    · rename_i refused
      cases h
      exact writeStore_supports refused

end Device

theorem Setter.capability_of_ne {w : Setter} (apart : w.attr ≠ Attr.state) :
    w.capability = w.attr :=
  if_neg apart

theorem FadeValues.attr_ne_state (values : FadeValues) : values.attr ≠ Attr.state := by
  cases values with
  | color => exact show Attr.color ≠ Attr.state by decide
  | brightness => exact show Attr.brightness ≠ Attr.state by decide

namespace Topology

variable {t : Topology} {n : Node}

theorem capable_of_hasSet {w : Setter} (found : t.nodes.get? w.node = some n)
    (has : n.hasSet w.capability = true) : t.Capable w where
  gated := ⟨n, found, has⟩
  answered := by
    intro h depth e failed
    simp only [House.set, found] at failed
    split at failed
    · rename_i cause state call
      cases failed
      exact Device.set_supports has (congrArg Prod.fst call)
    · cases failed

theorem executable_state (found : t.nodes.get? n.id = some n) {on : Bool}
    (has : n.hasSet (if on then Attr.on else Attr.off) = true) : t.Executable (.state n.id on) where
  toCapable := capable_of_hasSet found (by cases on <;> exact has)
  brightness same := absurd (show Attr.state = Attr.brightness from same) (by decide)
  color same := absurd (show Attr.state = Attr.color from same) (by decide)

theorem executable_flip (found : t.nodes.get? n.id = some n) (has : n.hasSet Attr.flip = true) :
    t.Executable (.flip n.id) where
  toCapable := capable_of_hasSet found has
  brightness same := absurd (show Attr.flip = Attr.brightness from same) (by decide)
  color same := absurd (show Attr.flip = Attr.color from same) (by decide)

theorem executable_brightness (found : t.nodes.get? n.id = some n)
    (has : n.hasSet Attr.brightness = true) {percent : Nat} (most : percent ≤ 100) :
    t.Executable (.brightness n.id percent) where
  toCapable := capable_of_hasSet found has
  brightness _ := ⟨percent, most, rfl⟩
  color same := absurd (show Attr.brightness = Attr.color from same) (by decide)

theorem executable_color (found : t.nodes.get? n.id = some n) (has : n.hasSet Attr.color = true)
    (c : Color) : t.Executable (.color n.id c) where
  toCapable := capable_of_hasSet found has
  brightness same := absurd (show Attr.color = Attr.brightness from same) (by decide)
  color _ := ⟨c, rfl⟩

theorem fadable_of_hasSet {f : FaderSpec} (found : t.nodes.get? f.node = some n)
    (has : n.hasSet f.attr = true) (most : f.values.Percentages) : t.Fadable f where
  gated := ⟨n, found, has⟩
  answered v := by
    have own := Setter.capability_of_ne (w := ⟨f.node, f.attr, some v⟩) f.values.attr_ne_state
    exact (capable_of_hasSet found (own ▸ has)).answered
  brightness := most

theorem Executable.fadable {w : Setter} (can : t.Executable w) {f : FaderSpec}
    (node : w.node = f.node) (attr : w.attr = f.attr) (most : f.values.Percentages) :
    t.Fadable f := by
  obtain ⟨n, found, has⟩ := can.gated
  rw [Setter.capability_of_ne (attr ▸ f.values.attr_ne_state), attr] at has
  exact fadable_of_hasSet (node ▸ found) has most

end Topology

end HomeControl
