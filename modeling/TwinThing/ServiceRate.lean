/-
**How fast connection events may come.**

A status that is raised while the queue of the service LED is full is lost.  Whether the queue is
ever full depends on how the events are interleaved with the rounds of the LED task, which takes
one command out of the queue in each round.  This module gives the exact condition, as an
instance of the backlog rule, and from it a condition on the interleaving alone under which every
status reaches the LED, and in how many steps.

Main definitions:

* `TwinThing.Accepted` — an event finds room in the queue;
* `TwinThing.queueActs` — what a step of the system does to the queue;
* `TwinThing.Paced` — in no stretch of a run are there more events than half the LED steps and
  ten.

Main results:

* `TwinThing.accepted_iff` — **exactly when no event is refused**;
* `TwinThing.paced_shows` — in a run that is paced the LED shows the last status at most
  twenty-one steps after its task is left alone.
-/

import TwinThing.Lib.Backlog
import TwinThing.ConnectionObserver

set_option relaxedAutoImplicit false
set_option autoImplicit false

namespace TwinThing

open Runs
open ConnectionObserver (Event command statusDisplay)

/-! ### The queue of the LED task -/

/-- An event that is raised finds room in the queue. -/
def Accepted (t : LedTask) (a : ServiceAct) : Prop := ∀ e, a = .event e → ¬ t.agent.queue.Full

/-- What a step of the system does to the queue: an event is sent to it, and the LED task receives
from it in the first half of each of its rounds. -/
def queueActs (t : LedTask) : ServiceAct → List Backlog.Act
  | .event _ => [.send]
  | .loop => if t.inRound then [] else [.receive]

/-- How many commands are waiting. -/
def LedTask.waiting (t : LedTask) : ℕ := t.agent.queue.items.length

theorem waiting_event {t : LedTask} (h : t.Inv) (e : Event) :
    (serviceStep t (.event e)).waiting = Backlog.step 10 t.waiting .send := by
  rw [serviceStep_event, LedTask.waiting, LedTask.set, RGBLEDAgent.queue_set h.started]
  by_cases hq : t.agent.queue.Full
  · have hfull : ¬ t.waiting < 10 := Nat.not_lt.2 hq
    rw [Fifo.push_of_full hq, Backlog.step, if_neg hfull]
    rfl
  · have hroom : t.waiting < 10 := Nat.not_le.1 hq
    rw [Fifo.items_push_of_not_full hq, Backlog.step, if_pos hroom, List.length_append]
    rfl

theorem waiting_poll (a : RGBLEDAgent) :
    (LedTask.poll a).queue.items.length = a.queue.items.length - 1 := by
  cases hq : a.queue.pop with
  | none => rw [LedTask.poll_of_none hq, Fifo.items_of_pop_none hq]; rfl
  | some p =>
      rw [LedTask.poll_of_some hq, Fifo.items_of_pop_some hq]
      rfl

/-- **The queue of the LED task is a queue of capacity ten**, on what the steps do to it. -/
theorem waiting_step (t : LedTask) (a : ServiceAct) (h : t.Inv) :
    (serviceStep t a).waiting = run (Backlog.step 10) t.waiting (queueActs t a) := by
  cases a with
  | event e => exact waiting_event h e
  | loop =>
      cases hr : t.inRound with
      | true => simp only [serviceStep, LedTask.step_of_inRound hr, queueActs, hr]; rfl
      | false =>
          simp only [serviceStep, LedTask.step_of_between hr, queueActs, hr]
          exact waiting_poll t.agent

theorem accepted_iff_room (t : LedTask) (a : ServiceAct) (_ : t.Inv) :
    Accepted t a ↔ Along (Backlog.step 10) (Backlog.Room 10) t.waiting (queueActs t a) := by
  cases a with
  | event e =>
      rw [queueActs, along_singleton]
      exact ⟨fun h _ => Nat.not_le.1 (h e rfl), fun h _ _ => Nat.not_le.2 (h rfl)⟩
  | loop =>
      refine iff_of_true (fun e he => ServiceAct.noConfusion he) ?_
      cases hr : t.inRound with
      | true => simp only [queueActs, hr]; exact along_nil _
      | false =>
          simp only [queueActs, hr]
          exact along_singleton.2 fun hs => Backlog.Act.noConfusion hs

/-- **Exactly when no event is refused.**  In a run of events and LED steps every event finds room
in the queue if and only if in every stretch of the run there are at most ten more events than
rounds begun by the LED task. -/
theorem accepted_iff (pRgb pPrevRgb : Rgb16) (as : List ServiceAct) :
    Along serviceStep Accepted (LedTask.enter pRgb pPrevRgb) as ↔
      Backlog.Within 10 (outputs serviceStep queueActs (LedTask.enter pRgb pPrevRgb) as) := by
  rw [along_abs (fun _ a h => inv_serviceStep h a) waiting_step accepted_iff_room
    (LedTask.inv_enter pRgb pPrevRgb)]
  exact Backlog.along_room_iff 10 _

/-! ### A condition on the interleaving alone -/

/-- In every stretch of a run there are at most ten more events than there are pairs of steps of
the LED task. -/
def Paced (as : List ServiceAct) : Prop :=
  ∀ w, w <:+: as → w.countP (· ≠ .loop) ≤ 10 + w.count .loop / 2

theorem inRound_step (t : LedTask) (a : ServiceAct) :
    (serviceStep t a).inRound = if a = .loop then !t.inRound else t.inRound := by
  cases a with
  | event e => rfl
  | loop =>
      cases hr : t.inRound with
      | true => rw [serviceStep, LedTask.step_of_inRound hr]; rfl
      | false => rw [serviceStep, LedTask.step_of_between hr]; rfl

/-- The sends in a stretch are its events, and at least every other step of the LED task is a
receive. -/
theorem count_queueActs (t : LedTask) (w : List ServiceAct) :
    (outputs serviceStep queueActs t w).count .send = w.countP (· ≠ .loop) ∧
      w.count .loop ≤ 2 * (outputs serviceStep queueActs t w).count .receive
        + if t.inRound then 1 else 0 := by
  induction w generalizing t with
  | nil => simp [outputs]
  | cons a w ih =>
      obtain ⟨hsend, hloop⟩ := ih (serviceStep t a)
      rw [inRound_step] at hloop
      rw [outputs, List.count_append, List.count_append, hsend]
      cases a with
      | event e =>
          simp [queueActs] at hloop ⊢
          omega
      | loop =>
          cases hr : t.inRound with
          | true =>
              simp [queueActs, hr] at hloop ⊢
              omega
          | false =>
              simp [queueActs, hr] at hloop ⊢
              omega

theorem length_queueActs (t : LedTask) (a : ServiceAct) : (queueActs t a).length ≤ 1 := by
  cases a with
  | event e => exact Nat.le_refl 1
  | loop => cases hr : t.inRound <;> simp [queueActs, hr]

/-- A paced run refuses no event. -/
theorem Paced.accepted {as : List ServiceAct} (h : Paced as) (t : LedTask) :
    Backlog.Within 10 (outputs serviceStep queueActs t as) := by
  intro u hu
  obtain ⟨t', w, hw, rfl⟩ := exists_infix_of_outputs serviceStep queueActs length_queueActs hu
  obtain ⟨hsend, hloop⟩ := count_queueActs t' w
  have hpace := h w hw
  rw [hsend]
  split at hloop <;> omega

/-! ### Paced runs -/

/-- If no event is refused, the LED settles on the last status. -/
theorem settles_of_accepted {t : LedTask} (h : t.Inv) {as : List ServiceAct}
    (has : Along serviceStep Accepted t as) : SettlesOnStatus (run serviceStep t as) as := by
  induction as using List.reverseRecOn with
  | nil =>
      intro e he
      cases he
  | append_singleton as a ih =>
      obtain ⟨hpre, ha⟩ := along_append.1 has
      rw [run_concat]
      refine (settlesOnStatus_step ?_ (ih hpre) a).1 ?_
      · exact run_invariant serviceStep LedTask.Inv (fun _ a h => inv_serviceStep h a) h as
      · cases a with
        | event e => exact fun _ => Or.inl (ha.1 e rfl)
        | loop => trivial

/-- **A paced run shows every status.**  However events and LED steps are interleaved, as long as
in no stretch there are more than ten events beyond half of the LED steps: wherever the run has
got to, when the LED task is left alone the LED shows the last status from the twenty-first step
on at the latest, at its pins too whenever the task is between two rounds. -/
theorem paced_shows (pRgb pPrevRgb : Rgb16) (as : List ServiceAct) (has : Paced as) :
    ∀ pre, pre <+: as → ∃ k ≤ 21, ∀ j, k ≤ j → ∀ e, lastStatus pre = some e →
      (run serviceStep (LedTask.enter pRgb pPrevRgb) (pre ++ List.replicate j .loop)).Shows
        (statusDisplay e) := by
  intro pre hpre
  have hpaced : Paced pre := fun w hw => has w (hw.trans hpre.isInfix)
  have hinv := inv_service pRgb pPrevRgb pre
  have hsettles : SettlesOnStatus (run serviceStep (LedTask.enter pRgb pPrevRgb) pre) pre := by
    refine settles_of_accepted (LedTask.inv_enter pRgb pPrevRgb) ?_
    rw [along_abs (fun _ a h => inv_serviceStep h a) waiting_step accepted_iff_room
      (LedTask.inv_enter pRgb pPrevRgb)]
    exact (Backlog.along_room_iff 10 _).2 (hpaced.accepted _)
  obtain ⟨k, hk, hshown⟩ := LedTask.exists_shown_settled hinv
  refine ⟨k, hk, fun j hj e he => (pinned_service pRgb pPrevRgb _).shows ?_⟩
  rw [run_append, led_run_replicate (fun t => t) ServiceAct.loop (fun _ => rfl), hshown j hj]
  exact hsettles e he

/-- Three events in a row are paced. -/
theorem paced_shows_burst :
    let as : List ServiceAct := [.event .linkDown, .event .mqttSend, .event .mqttOffline]
    ∃ k ≤ 21, ∀ j, k ≤ j → ∀ e, lastStatus as = some e →
      (run serviceStep (LedTask.enter .black .black) (as ++ List.replicate j .loop)).Shows
        (statusDisplay e) :=
  paced_shows .black .black [.event .linkDown, .event .mqttSend, .event .mqttOffline] (by
    intro w hw
    have hthree : w.countP (· ≠ .loop) ≤ 3 := hw.sublist.countP_le
    omega) _ List.prefix_rfl

end TwinThing
