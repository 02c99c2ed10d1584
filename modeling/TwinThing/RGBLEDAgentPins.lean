/-
**What an LED agent puts out at its pins.**

The mode and the colour of a driver are what it was told; its pins follow when it is ticked.  This
module says when they have followed.  Between two rounds of the loop the pins put out the display
that the driver holds, from the first round on in the first life of an agent; and in any life,
wherever the task is, when it is left alone they come to put out the display it settles to.

Main definitions:

* `TwinThing.RGBpwm.PutsOut` — the driver holds a display, and its pins put it out;
* `TwinThing.LedTask.Shows` — the LED shows a display, at its pins whenever its task is between two
  rounds;
* `TwinThing.LedTask.Pinned` — what holds of the pins in the first life of an agent.

Main results:

* `TwinThing.LedTask.Pinned.shows` — what the driver holds then is what the LED shows;
* `TwinThing.LedTask.exists_shown_settled` — left alone, the driver holds the display it settles
  to after twenty-one steps;
* `TwinThing.LedTask.exists_putsOut` — **and the pins put it out** after twenty-three.
-/

import TwinThing.RGBLEDAgent
import TwinThing.RGBpwmCalls

set_option relaxedAutoImplicit false
set_option autoImplicit false

namespace TwinThing

/-! ### The driver and its pins -/

namespace RGBpwm

/-- The driver holds a display, and its pins put it out: they are dark when it is off, lit in its
colour when it is on, and one or the other when it is blinking. -/
def PutsOut (d : RGBpwm) (shown : RGBMode × Rgb16) : Prop :=
  (d.xMode, d.pRgb) = shown ∧
    match shown.1 with
    | .off => d.levels = .black
    | .on => d.levels = shown.2
    | .slow | .fast => d.levels = .black ∨ d.levels = shown.2
    | .once => False

/-- Outputs that match the driver put its display out. -/
theorem Displayed.putsOut {d : RGBpwm} (h : d.Displayed) (hm : d.xMode ≠ .once) :
    d.PutsOut (d.xMode, d.pRgb) := by
  refine ⟨rfl, ?_⟩
  cases hmode : d.xMode with
  | off => exact h.dark (Or.inl hmode)
  | on => exact h.lit hmode
  | slow => exact h.blinking (Or.inr hmode)
  | fast => exact h.blinking (Or.inl hmode)
  | once => exact absurd hmode hm

end RGBpwm

theorem tended_obey {d : RGBpwm} (h : d.Tended) (cmd : Option Command) : (obey d cmd).Tended := by
  cases cmd with
  | none => exact h
  | some c =>
      have hcolour : (d.setRGBb c.r c.g c.b).Tended := RGBpwm.tended_call (.setRGBb c.r c.g c.b) h
      exact RGBpwm.tended_call (.setMode c.mode) hcolour

theorem tended_runStart {d : RGBpwm} (h : d.Tended) : (runStart d).Tended :=
  tended_obey h (some ⟨.off, 0xFF, 0xFF, 0xFF⟩)

namespace LedTask

variable {t : LedTask}

theorem tended_set (h : t.agent.rgbPWM.Tended) (m : RGBMode) (r g b : UInt8) :
    (t.set m r g b).agent.rgbPWM.Tended := by
  rw [set, RGBLEDAgent.rgbPWM_set]
  exact h

theorem tended_step (h : t.agent.rgbPWM.Tended) : t.step.agent.rgbPWM.Tended := by
  cases hr : t.inRound with
  | true =>
      rw [step_of_inRound hr]
      exact (RGBpwm.displayed_tick h).tended
  | false =>
      rw [step_of_between hr]
      cases hq : t.agent.queue.pop with
      | none =>
          rw [poll_of_none hq]
          exact h
      | some p =>
          rw [poll_of_some hq]
          exact tended_obey h (some p.1)

/-! ### In the first life -/

/-- The LED shows a display: the driver holds it, and whenever the task is between two rounds the
pins put it out. -/
def Shows (t : LedTask) (d : RGBMode × Rgb16) : Prop :=
  t.shown = d ∧ (t.inRound = false → t.agent.rgbPWM.PutsOut d)

/-- Between two rounds the pins put out what the driver holds. -/
structure Pinned (t : LedTask) : Prop where
  tended : t.agent.rgbPWM.Tended
  between : t.inRound = false → t.agent.rgbPWM.PutsOut t.shown

/-- The pins are dark when the task enters its loop, and so is the display it starts with. -/
theorem pinned_enter (pRgb pPrevRgb : Rgb16) : (enter pRgb pPrevRgb).Pinned where
  tended := tended_runStart (RGBpwm.displayed_setup pRgb pPrevRgb).tended
  between := fun _ => ⟨rfl, rfl⟩

theorem pinned_set (h : t.Pinned) (m : RGBMode) (r g b : UInt8) : (t.set m r g b).Pinned where
  tended := tended_set h.tended m r g b
  between := by
    rw [set, shown, RGBLEDAgent.rgbPWM_set]
    exact h.between

/-- A tick puts the display out, and up to the next one the task is in a round. -/
theorem pinned_step (h : t.Inv) (hp : t.Pinned) : t.step.Pinned where
  tended := tended_step hp.tended
  between := by
    intro hbetween
    cases hr : t.inRound with
    | true =>
        rw [step_of_inRound hr]
        exact (RGBpwm.displayed_tick hp.tended).putsOut (RGBpwm.tick_xMode_ne_once h.restorable)
    | false =>
        rw [step_of_between hr] at hbetween
        cases hbetween

theorem Pinned.shows (h : t.Pinned) {d : RGBMode × Rgb16} (hd : t.shown = d) : t.Shows d :=
  ⟨hd, fun hr => hd ▸ h.between hr⟩

/-! ### The LED left alone -/

/-- Nothing is waiting, and the driver is not about to blink. -/
def Quiet (t : LedTask) : Prop := t.agent.queue.items = [] ∧ t.agent.rgbPWM.xMode ≠ .once

theorem quiet_of_idle (h : t.Inv) (hidle : t.Idle) : t.Quiet :=
  ⟨hidle.2, h.between hidle.1⟩

/-- A quiet task finds no command. -/
theorem Quiet.poll (h : t.Quiet) : poll t.agent = t.agent := by
  refine poll_of_none ?_
  cases hq : t.agent.queue.pop with
  | none => rfl
  | some p => exact absurd (h.1.symm.trans (Fifo.items_of_pop_some hq)) (by simp)

theorem quiet_step (h : t.Quiet) : t.step.Quiet := by
  cases hr : t.inRound with
  | true =>
      rw [step_of_inRound hr]
      exact ⟨h.1, RGBpwm.tick_xMode_ne_once fun hm => absurd hm h.2⟩
  | false =>
      rw [step_of_between hr, h.poll]
      exact h

/-- An LED that is quiet holds what it settles to. -/
theorem shown_of_quiet (h : t.Quiet) : t.shown = t.settled := by
  rw [settled, Mailbox.settled_of_empty display h.1]
  exact (RGBpwm.steady_of_ne h.2).symm

theorem quiet_iterate (h : t.Quiet) (k : ℕ) : (step^[k] t).Quiet := by
  induction k generalizing t with
  | zero => exact h
  | succ k ih => exact ih (quiet_step h)

/-- Left alone, the LED is quiet after twenty-one steps at most, two for each waiting command and
one for the round it is in. -/
theorem exists_quiet (h : t.Inv) : ∃ k ≤ 21, (step^[k] t).Quiet := by
  obtain ⟨k, hk, hidle⟩ := Runs.exists_iterate_le_of_measure work
    (fun (t : LedTask) (h : t.Inv) => inv_step h) (fun _ _ => work_step) h
  have hwork : t.work ≤ 21 := by
    have hlen := t.agent.queue.length_le
    simp only [work]
    split <;> omega
  exact ⟨k, by omega, quiet_of_idle (ledConsumer.inv_iterate h k) hidle⟩

/-- **Left alone, the driver holds what the LED settles to after twenty-one steps at most**, and
from then on. -/
theorem exists_shown_settled (h : t.Inv) :
    ∃ k ≤ 21, ∀ j, k ≤ j → (step^[j] t).shown = t.settled := by
  obtain ⟨k, hk, hquiet⟩ := exists_quiet h
  refine ⟨k, hk, fun j hj => ?_⟩
  obtain ⟨d, rfl⟩ := Nat.exists_eq_add_of_le hj
  have hlater : (step^[k + d] t).Quiet := by
    rw [Nat.add_comm, Function.iterate_add_apply]
    exact quiet_iterate hquiet d
  rw [shown_of_quiet hlater]
  exact ledConsumer.settled_iterate h (k + d)

/-- The task is quiet and its driver has taken up the last change. -/
def Calm (t : LedTask) : Prop := t.Quiet ∧ t.agent.rgbPWM.Displayed

theorem calm_step (h : t.Calm) : t.step.Calm := by
  refine ⟨quiet_step h.1, ?_⟩
  cases hr : t.inRound with
  | true =>
      rw [step_of_inRound hr]
      exact RGBpwm.displayed_tick h.2.tended
  | false =>
      rw [step_of_between hr, h.1.poll]
      exact h.2

theorem Calm.putsOut (h : t.Calm) : t.agent.rgbPWM.PutsOut t.settled := by
  rw [← shown_of_quiet h.1]
  exact h.2.putsOut h.1.2

/-- A quiet task ticks within its next two steps, which takes the last change up. -/
theorem calm_step_step (h : t.Quiet) (ht : t.agent.rgbPWM.Tended) : t.step.step.Calm := by
  cases hr : t.inRound with
  | true =>
      have hcalm : t.step.Calm := by
        refine ⟨quiet_step h, ?_⟩
        rw [step_of_inRound hr]
        exact RGBpwm.displayed_tick ht
      exact calm_step hcalm
  | false =>
      refine ⟨quiet_step (quiet_step h), ?_⟩
      rw [step_of_between hr, h.poll, step_of_inRound rfl]
      exact RGBpwm.displayed_tick ht

/-- An idle task puts out what it settles to after its next tick. -/
theorem putsOut_step_step (h : t.Inv) (hidle : t.Idle) (ht : t.agent.rgbPWM.Tended) :
    t.step.step.agent.rgbPWM.PutsOut t.settled := by
  rw [← settled_step h, ← settled_step (inv_step h)]
  exact (calm_step_step (quiet_of_idle h hidle) ht).putsOut

/-- **Left alone, the LED puts out what it settles to after twenty-three steps at most**, and from
then on, wherever its task is and whatever its pins put out before. -/
theorem exists_putsOut (h : t.Inv) (ht : t.agent.rgbPWM.Tended) :
    ∃ k ≤ 23, ∀ j, k ≤ j → (step^[j] t).agent.rgbPWM.PutsOut t.settled := by
  obtain ⟨k, hk, hquiet⟩ := exists_quiet h
  have htended : (step^[k] t).agent.rgbPWM.Tended :=
    Function.Iterate.rec (fun t : LedTask => t.agent.rgbPWM.Tended) ht (fun _ => tended_step) k
  have hcalm : (step^[k + 2] t).Calm := by
    rw [Function.iterate_succ_apply', Function.iterate_succ_apply']
    exact calm_step_step hquiet htended
  refine ⟨k + 2, by omega, fun j hj => ?_⟩
  obtain ⟨d, rfl⟩ := Nat.exists_eq_add_of_le hj
  have hlater : (step^[k + 2 + d] t).Calm := by
    rw [Nat.add_comm (k + 2), Function.iterate_add_apply]
    exact Function.Iterate.rec (fun t : LedTask => t.Calm) hcalm (fun _ => calm_step) d
  have hsettled : (step^[k + 2 + d] t).settled = t.settled := ledConsumer.settled_iterate h _
  rw [← hsettled]
  exact hlater.putsOut

end LedTask

end TwinThing
