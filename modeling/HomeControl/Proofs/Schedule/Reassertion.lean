import HomeControl.Proofs.Config.Entries
import HomeControl.Proofs.Schedule.Looks
import HomeControl.Proofs.Schedule.Repetition
/-!
Strict timers ask for the same again and again. If their entries switch nodes on and off, and no two of
them ask for different things of one node, then looking at them again at the same time changes nothing.
-/

namespace HomeControl

def Order.timed : Order → Bool
  | .command _ timed => timed
  | .setter _ => false

namespace TimerConfig

structure Switching (e : TimerConfig) : Prop where
  atTime : e.atTime = none
  node : ∀ node ∈ e.node, Word.Narrow node

theorem mem_switched {node word : String} {time : Option String} {x : String × String}
    (h : x ∈ match some node, time with
      | some node, some time => [(time, "set " ++ node ++ " " ++ word)]
      | _, _ => []) : x.2 = "set " ++ node ++ " " ++ word := by
  cases time with
  | none => exact absurd h List.not_mem_nil
  | some time => rw [List.mem_singleton.mp h]

theorem Switching.event {e : TimerConfig} (h : e.Switching) {x : String × String}
    (inside : x ∈ e.events) :
    ∃ node word, Word.Narrow node ∧ word ∈ [Attr.on, Attr.off, Attr.flip] ∧
      x.2 = "set " ++ node ++ " " ++ word := by
  cases own : e.node with
  | none => simp [events, own, h.atTime] at inside
  | some node =>
    simp only [events, own, h.atTime, List.append_nil, List.mem_append] at inside
    refine ⟨node, ?_⟩
    rcases inside with (on | off) | flip
    · exact ⟨Attr.on, h.node node own, by decide, mem_switched on⟩
    · exact ⟨Attr.off, h.node node own, by decide, mem_switched off⟩
    · exact ⟨Attr.flip, h.node node own, by decide, mem_switched flip⟩

end TimerConfig

namespace TimerDef

variable {t : TimerDef} {r : Resolver} {now : Instant}

def asks (t : TimerDef) (r : Resolver) (now : Instant) : List String :=
  if t.strict then (t.currentCommand r now).toList else []

end TimerDef

namespace Controller

variable {c : Controller} {s : State} {orders : List Order}

def strictTexts (c : Controller) (now : Instant) : List String :=
  c.timers.flatMap fun t => t.asks c.place.resolver now

def asked (c : Controller) (s : State) : List Setter :=
  c.settings (c.strictTexts s.now) s

end Controller

end HomeControl
