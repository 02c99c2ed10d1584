/-
**Two writers that keep out of each other's way.**

The lamp can end up with an old state because a writer may read the state for the lamp, and send
what it read after the other writer has changed the state.  Nothing in the program prevents this.
It is enough that no setter is called while the other writer is between reading and sending, as
it would be if the observer and the setters held a lock; whole operations need not be serialised.

Main definitions:

* `TwinThing.Exclusive` — no setter call comes between another writer's read and its send, and a
  send finds room;
* `TwinThing.LampSystem.Current` — what has been read and not yet sent is the state as it is.

Main results:

* `TwinThing.LampSystem.current_step` — what one step keeps;
* `TwinThing.exclusive_shows` — **then the lamp shows the state**, at most twenty-one steps after
  it is left alone, and puts it out at its pins between two rounds.
-/

import TwinThing.ServiceRate
import TwinThing.StateObserverExample

set_option relaxedAutoImplicit false
set_option autoImplicit false

namespace TwinThing

open Runs

/-- The other writer. -/
def Who.other : Who → Who
  | .twin => .switch
  | .switch => .twin

theorem Who.eq_other {v w : Who} (h : v ≠ w) : v = w.other := by
  cases v <;> cases w <;> first | rfl | exact absurd rfl h

/-- Between reading the state and sending it. -/
def Stage.Reading : Stage → Prop
  | .read _ => True
  | _ => False

instance : (p : Stage) → Decidable p.Reading
  | .ready => isFalse id
  | .dirty => isFalse id
  | .read _ => isTrue trivial

/-- A setter is called only when the other writer is not between reading the state and sending it,
and a command is sent only when there is room for it. -/
def Exclusive (s : LampSystem) : LampAct → Prop
  | .write w => ¬ (s.writers w.other).stage.Reading
  | .send w => (s.writers w).stage.Reading → ¬ s.lamp.agent.queue.Full
  | _ => True

instance (s : LampSystem) : (a : LampAct) → Decidable (Exclusive s a)
  | .update _ => isTrue trivial
  | .press _ => isTrue trivial
  | .write w => inferInstanceAs (Decidable (¬ (s.writers w.other).stage.Reading))
  | .read _ => isTrue trivial
  | .send w => inferInstanceAs (Decidable ((s.writers w).stage.Reading → _))
  | .loop => isTrue trivial

namespace LampSystem

/-- What a writer has read and not yet sent is the state as it is. -/
def Current (s : LampSystem) : Prop :=
  ∀ w c, (s.writers w).stage = .read c → c = stateCommand s.state

variable {s : LampSystem}

/-- A writer that goes on to a point where it has read nothing, or the state as it is. -/
theorem Current.setWriter (h : s.Current) (w : Who) (calls : List Setter) {stage : Stage}
    (hstage : ∀ c, stage = .read c → c = stateCommand s.state) :
    (s.setWriter w calls stage).Current := by
  intro v c hc
  by_cases hv : v = w
  · subst hv
    rw [setWriter_self] at hc
    exact hstage c hc
  · rw [setWriter_of_ne hv] at hc
    exact h v c hc

/-- After a setter call nobody has read anything. -/
theorem current_write (h : s.Current) {w : Who} (ha : Exclusive s (.write w)) :
    (s.write w).Current := by
  rcases s.write_cases w with heq | ⟨c, calls, heq⟩
  · rwa [heq]
  · rw [heq]
    intro v d hd
    by_cases hv : v = w
    · subst hv
      rw [setWriter_self] at hd
      cases hd
    · rw [setWriter_of_ne hv] at hd
      have hreading : (s.writers w.other).stage.Reading := by
        rw [← Who.eq_other hv, hd]
        trivial
      exact absurd hreading ha

/-- **The step lemma.** -/
theorem current_step (h : s.Current) {a : LampAct} (ha : Exclusive s a) :
    (lampStep s a).Current := by
  cases a with
  | update json =>
      rcases s.update_cases json with heq | ⟨-, heq⟩
      · rwa [lampStep, heq]
      · rw [lampStep, heq]
        exact h.setWriter _ _ (by simp)
  | press kind =>
      rcases s.press_cases kind with heq | ⟨-, obs, calls, heq⟩
      · rwa [lampStep, heq]
      · rw [lampStep, heq]
        exact Current.setWriter (s := { s with obs := obs }) h _ _ (by simp)
  | write w => exact current_write h ha
  | read w =>
      rcases s.read_cases w with heq | ⟨-, heq⟩
      · rwa [lampStep, heq]
      · rw [lampStep, heq]
        exact h.setWriter _ _ fun c hc => (Stage.read.inj hc).symm
  | send w =>
      by_cases hread : ∃ c, (s.writers w).stage = .read c
      · obtain ⟨c, hc⟩ := hread
        rw [lampStep, send_of_read hc]
        exact Current.setWriter (s := { s with lamp := s.lamp.set c.mode c.r c.g c.b }) h _ _
          (by simp)
      · rwa [lampStep, send_of_ne (not_exists.1 hread)]
  | loop => exact h

/-- What is sent then is the state as it is. -/
theorem sendCurrent_of_exclusive (h : s.Current) {a : LampAct} (ha : Exclusive s a) :
    SendCurrent s a := by
  cases a with
  | send w =>
      intro c hc _
      have hroom : ¬ s.lamp.agent.queue.Full := by
        refine ha ?_
        rw [hc]
        trivial
      rw [if_neg hroom]
      exact h w c hc
  | _ => trivial

end LampSystem

/-- The run lemma: nothing that was read is out of date, and the lamp settles on the state whenever
nobody is writing. -/
theorem settles_of_exclusive (pRgb pPrevRgb : Rgb16) {acts : List LampAct}
    (h : Along lampStep Exclusive (.start pRgb pPrevRgb) acts) :
    (run lampStep (.start pRgb pPrevRgb) acts).Current ∧
      SettlesOnState (run lampStep (.start pRgb pPrevRgb) acts) := by
  induction acts using List.reverseRecOn with
  | nil =>
      refine ⟨?_, fun _ hchanged => absurd rfl hchanged⟩
      intro w c hc
      cases hc
  | append_singleton acts a ih =>
      obtain ⟨hpre, ha⟩ := along_append.1 h
      obtain ⟨hcurrent, hsettles⟩ := ih hpre
      rw [run_concat]
      refine ⟨LampSystem.current_step hcurrent ha.1, ?_⟩
      exact (settlesOnState_step (LampSystem.inv_run pRgb pPrevRgb acts) hsettles a).1
        (LampSystem.sendCurrent_of_exclusive hcurrent ha.1)

/-- **Writers that keep out of each other's way are shown.**  In every interleaving of two writers
and the lamp in which no setter is called while the other writer is between reading the state and
sending it, and no send finds the queue full: wherever the run has got to, if the state has been
changed and nobody is in the middle of an operation, the driver holds the state's mode and colour
from the twenty-first step of its task on, when that is left alone, and its pins put them out
whenever the task is between two rounds. -/
theorem exclusive_shows (pRgb pPrevRgb : Rgb16) (acts : List LampAct)
    (h : Along lampStep Exclusive (.start pRgb pPrevRgb) acts) :
    ∀ pre, pre <+: acts →
      let t := run lampStep (.start pRgb pPrevRgb) pre
      t.Quiet → t.Changed → ∀ j, 21 ≤ j →
        let u := run lampStep (.start pRgb pPrevRgb) (pre ++ List.replicate j .loop)
        u.lamp.Shows (stateDisplay u.state) := by
  rintro pre ⟨post, rfl⟩ t hquiet hchanged j hj u
  have hsettles := (settles_of_exclusive pRgb pPrevRgb (along_append.1 h).1).2 hquiet hchanged
  obtain ⟨k, hk, hshown⟩ :=
    LedTask.exists_shown_settled (LampSystem.inv_run pRgb pPrevRgb pre).lamp
  have hpinned : u.lamp.Pinned := (LampSystem.inv_run pRgb pPrevRgb _).pinned
  have hu : u = { t with lamp := LedTask.step^[j] t.lamp } := by
    simp only [u, t, run_append, LampSystem.run_loops]
  refine hpinned.shows ?_
  rw [hu]
  exact (hshown j (by omega)).trans hsettles

/-- A press comes while the twin is about to send that the light is off, and waits with its setter
calls until that is sent. -/
def excluded : List LampAct :=
  [.update [("on", .boolean false)], .write .twin, .read .twin, .press .short, .send .twin,
    .write .switch, .read .switch, .send .switch, .write .switch, .read .switch, .send .switch]

/-- The lamp shows the first colour of the rainbow. -/
theorem exclusive_shows_excluded :
    (run lampStep (.start .black .black) (excluded ++ List.replicate 21 .loop)).lamp.Shows
      (.on, squares 0x94 0 0xD3) := by
  have hquiet : ∀ w, ((run lampStep (.start .black .black) excluded).writers w).Quiet := by
    intro w
    cases w <;> decide +kernel
  have hstate : stateDisplay (run lampStep (.start .black .black)
      (excluded ++ List.replicate 21 .loop)).state = (.on, squares 0x94 0 0xD3) := by
    decide +kernel
  rw [← hstate]
  exact exclusive_shows .black .black excluded (by decide +kernel) excluded (List.prefix_refl _)
    hquiet (by decide +kernel) 21 (Nat.le_refl _)

end TwinThing
