import HomeControl.Proofs.Run
import HomeControl.Proofs.Table
/-!
Sound schedules: each key stands once, entries stand under their own keys, and their generations
have been given out. Every operation on schedules keeps a schedule sound, so it is sound in every
run.
-/

namespace HomeControl

namespace Schedule

structure Sound (t : Schedule) : Prop where
  fadersOnce : t.faders.keys.Nodup
  singlesOnce : t.singles.keys.Nodup
  fader : ∀ key f, t.faders.get? key = some f → f.key = key ∧ f.generation < t.generation
  single : ∀ key x, t.singles.get? key = some x → x.key = key ∧ x.generation < t.generation

theorem empty_sound : Sound empty where
  fadersOnce := List.nodup_nil
  singlesOnce := List.nodup_nil
  fader := by intro key f h; exact absurd h (by simp [empty, Keyed.get?_empty])
  single := by intro key x h; exact absurd h (by simp [empty, Keyed.get?_empty])

theorem entry_after_insert {ν : Type} (own : ν → ScheduleKey) (generation : ν → Nat)
    {entries : Keyed ScheduleKey ν} {next : Nat}
    (h : ∀ key v, entries.get? key = some v → own v = key ∧ generation v < next) (v : ν)
    (given : generation v < next + 1) (key : ScheduleKey) (w : ν)
    (found : (entries.insert (own v) v).get? key = some w) :
    own w = key ∧ generation w < next + 1 := by
  rw [Keyed.get?_insert] at found
  split at found
  · rename_i same
    cases found
    exact ⟨same, given⟩
  · obtain ⟨under, old⟩ := h key w found
    exact ⟨under, by omega⟩

theorem addFader_sound {t : Schedule} (h : t.Sound) (spec : FaderSpec) (now : Int) :
    (t.addFader spec now).Sound where
  fadersOnce := Keyed.nodup_insert h.fadersOnce _ _
  singlesOnce := h.singlesOnce
  fader := entry_after_insert ActiveFader.key ActiveFader.generation h.fader
    (ActiveFader.ofSpec spec now t.generation)
    (Nat.lt_succ_self t.generation)
  single := by
    intro key x found
    obtain ⟨under, old⟩ := h.single key x found
    exact ⟨under, Nat.lt_succ_of_lt old⟩

theorem addSingle_sound {t : Schedule} (h : t.Sound) (timed : TimedSetter) :
    (t.addSingle timed).Sound where
  fadersOnce := h.fadersOnce
  singlesOnce := Keyed.nodup_insert h.singlesOnce _ _
  fader := by
    intro key f found
    obtain ⟨under, old⟩ := h.fader key f found
    exact ⟨under, Nat.lt_succ_of_lt old⟩
  single := entry_after_insert SingleShot.key SingleShot.generation h.single
    ⟨timed.setter, timed.due, t.generation⟩ (Nat.lt_succ_self t.generation)

theorem get?_of_erase {ν : Type} {entries : Keyed ScheduleKey ν} {key other : ScheduleKey} {v : ν}
    (h : (entries.erase key).get? other = some v) : entries.get? other = some v := by
  rw [Keyed.get?_erase] at h
  split at h
  · cases h
  · exact h

theorem eraseFader_sound {t : Schedule} (h : t.Sound) (key : ScheduleKey) :
    Sound { t with faders := t.faders.erase key } :=
  ⟨Keyed.nodup_erase h.fadersOnce key, h.singlesOnce,
    fun other f found => h.fader other f (get?_of_erase found), h.single⟩

theorem eraseSingle_sound {t : Schedule} (h : t.Sound) (key : ScheduleKey) :
    Sound { t with singles := t.singles.erase key } :=
  ⟨h.fadersOnce, Keyed.nodup_erase h.singlesOnce key, h.fader,
    fun other x found => h.single other x (get?_of_erase found)⟩

theorem cancel_sound {t : Schedule} (h : t.Sound) (key : ScheduleKey) : (t.cancel key).Sound :=
  eraseSingle_sound (eraseFader_sound h key) key

theorem noteApplied_sound {t : Schedule} (h : t.Sound) (key : ScheduleKey) (generation : Nat)
    (v : Value) : (t.noteApplied key generation v).Sound := by
  unfold noteApplied
  split
  · rename_i f found
    split
    · refine ⟨Keyed.nodup_insert h.fadersOnce _ _, h.singlesOnce, ?_, h.single⟩
      intro other g hg
      simp only [Keyed.get?_insert] at hg
      split at hg
      · rename_i same
        cases hg
        exact same ▸ h.fader key f found
      · exact h.fader other g hg
    · exact h
  · exact h

theorem dropFader_sound {t : Schedule} (h : t.Sound) (key : ScheduleKey) (generation : Nat) :
    (t.dropFader key generation).Sound := by
  unfold dropFader
  split
  · split
    · exact eraseFader_sound h key
    · exact h
  · exact h

theorem takeDue?_eq_some {t after : Schedule} {key : ScheduleKey} {now : Int} {shot : SingleShot}
    (h : t.takeDue? key now = some (shot, after)) :
    t.singles.get? key = some shot ∧ shot.due ≤ now ∧
      after = { t with singles := t.singles.erase key } := by
  unfold takeDue? at h
  split at h
  · rename_i x found
    split at h
    · rename_i due
      cases h
      exact ⟨found, by simpa [SingleShot.isDue] using due, rfl⟩
    · cases h
  · cases h

end Schedule

namespace Controller

theorem sound_keeps (c : Controller) :
    Keeps c (fun _ => True) (fun s => s.schedule.Sound) where
  granted _ _ _ _ := ⟨fun _ _ => trivial, fun _ _ => trivial⟩
  faded _ _ := trivial
  read _ _ _ h := h
  set _ _ _ _ h := h
  addFader spec now _ h := Schedule.addFader_sound h spec now
  addSingle timed _ _ h := Schedule.addSingle_sound h timed
  cancel key _ h := Schedule.cancel_sound h key
  takeDue key _ _ _ _ taken h := by
    obtain ⟨-, -, rfl⟩ := Schedule.takeDue?_eq_some taken
    exact ⟨trivial, Schedule.eraseSingle_sound h key⟩
  noteApplied key generation v _ h := Schedule.noteApplied_sound h key generation v
  dropFader key generation _ h := Schedule.dropFader_sound h key generation
  look _ h := ⟨h.fadersOnce, h.singlesOnce, h.fader, h.single⟩
  clock _ _ h := h

theorem run_sound (c : Controller) (acts : List Act) (s : State) (h : s.schedule.Sound) :
    (c.run acts s).schedule.Sound :=
  run_keeps (sound_keeps c) acts s (fun a _ => a.carries_true) h

theorem start_sound (c : Controller) (now : Instant) :
    (State.start c.topology now).schedule.Sound :=
  Schedule.empty_sound

end Controller

end HomeControl
