/-
**The service LED: connection events on a bounded queue.**

`ConnectionObserver` turns seven events into commands for the service LED's agent.  Five of them
are statuses, which stay on the LED; sending and receiving only blink once.  All of them share one
queue of ten commands, and the value `RGBLEDAgent::set` returns is ignored, so a status raised
while the queue is full is lost.

Main definitions:

* `TwinThing.ConnectionObserver` — the seven operations, each on the agent;
* `TwinThing.ServiceAct` — the steps of the system: an event, or the LED task going on;
* `TwinThing.StatusLands` — an event is not lost, or its loss does not show.

Main results:

* `TwinThing.status_shown_iff` — **exactly when no status is lost**: whenever the LED has gone idle
  it holds the mode and the colour of the last status, if and only if every status raised meets
  `TwinThing.StatusLands`;
* `TwinThing.pinned_service` — and its pins put them out then;
* `TwinThing.burst_loses_status` — nine messages and two statuses are enough to lose one.
-/

import TwinThing.RGBLEDAgentPins

set_option relaxedAutoImplicit false
set_option autoImplicit false

namespace TwinThing

/-! ### The observer -/

namespace ConnectionObserver

/-- What every operation of the observer does: one call of `set`, whose result is dropped. -/
def notify (c : Command) (a : RGBLEDAgent) : RGBLEDAgent := (a.set c.mode c.r c.g c.b).2

def mqttOffline : RGBLEDAgent → RGBLEDAgent := notify ⟨.on, 0xFF, 0xBF, 0x00⟩

def mqttOnline : RGBLEDAgent → RGBLEDAgent := notify ⟨.on, 0x00, 0x00, 0xFF⟩

def mqttSend : RGBLEDAgent → RGBLEDAgent := notify ⟨.once, 0x00, 0xFF, 0x00⟩

def mqttRecv : RGBLEDAgent → RGBLEDAgent := notify ⟨.once, 0xFF, 0x00, 0x00⟩

def linkDown : RGBLEDAgent → RGBLEDAgent := notify ⟨.on, 0xFF, 0x00, 0x00⟩

def apJoined : RGBLEDAgent → RGBLEDAgent := notify ⟨.on, 0x00, 0xFF, 0x00⟩

def linkFailed : RGBLEDAgent → RGBLEDAgent := notify ⟨.slow, 0xFF, 0x00, 0x00⟩

/-- The seven operations, as events. -/
inductive Event
  | mqttOffline
  | mqttOnline
  | mqttSend
  | mqttRecv
  | linkDown
  | apJoined
  | linkFailed
  deriving DecidableEq, Repr

/-- The operation an event calls. -/
def handle : Event → RGBLEDAgent → RGBLEDAgent
  | .mqttOffline => mqttOffline
  | .mqttOnline => mqttOnline
  | .mqttSend => mqttSend
  | .mqttRecv => mqttRecv
  | .linkDown => linkDown
  | .apJoined => apJoined
  | .linkFailed => linkFailed

/-- The command an event sends. -/
def command : Event → Command
  | .mqttOffline => ⟨.on, 0xFF, 0xBF, 0x00⟩
  | .mqttOnline => ⟨.on, 0x00, 0x00, 0xFF⟩
  | .mqttSend => ⟨.once, 0x00, 0xFF, 0x00⟩
  | .mqttRecv => ⟨.once, 0xFF, 0x00, 0x00⟩
  | .linkDown => ⟨.on, 0xFF, 0x00, 0x00⟩
  | .apJoined => ⟨.on, 0x00, 0xFF, 0x00⟩
  | .linkFailed => ⟨.slow, 0xFF, 0x00, 0x00⟩

theorem handle_eq (e : Event) : handle e = notify (command e) := by cases e <;> rfl

/-- The events that say something lasting about the connection. -/
def Event.IsStatus (e : Event) : Prop := e ≠ .mqttSend ∧ e ≠ .mqttRecv

instance (e : Event) : Decidable e.IsStatus := inferInstanceAs (Decidable (_ ∧ _))

/-- The statuses are exactly the events that are not one-shot blinks. -/
theorem isStatus_iff (e : Event) : e.IsStatus ↔ (command e).mode ≠ .once := by
  cases e <;> decide

/-- The display that stands for a status. -/
def statusDisplay (e : Event) : RGBMode × Rgb16 := ((command e).mode, (command e).colour)

end ConnectionObserver

open ConnectionObserver

/-! ### The system -/

/-- A step of the system: an event is raised, or the LED task goes on. -/
inductive ServiceAct
  | event (e : Event)
  | loop
  deriving DecidableEq, Repr

/-- The LED task after a step of the system. -/
def serviceStep (t : LedTask) : ServiceAct → LedTask
  | .event e => { t with agent := handle e t.agent }
  | .loop => t.step

/-- The most recent status raised. -/
def lastStatus (as : List ServiceAct) : Option Event :=
  (as.filterMap fun
    | .event e => if e.IsStatus then some e else none
    | .loop => none).getLast?

@[simp] theorem lastStatus_concat_loop (as : List ServiceAct) :
    lastStatus (as ++ [.loop]) = lastStatus as := by
  simp [lastStatus]

theorem lastStatus_concat_status (as : List ServiceAct) {e : Event} (h : e.IsStatus) :
    lastStatus (as ++ [.event e]) = some e := by
  simp [lastStatus, h]

theorem lastStatus_concat_blink (as : List ServiceAct) {e : Event} (h : ¬ e.IsStatus) :
    lastStatus (as ++ [.event e]) = lastStatus as := by
  simp [lastStatus, h]

/-- An event is one `set` on the task's queue. -/
theorem serviceStep_event (t : LedTask) (e : Event) :
    serviceStep t (.event e)
      = t.set (command e).mode (command e).r (command e).g (command e).b := by
  rw [serviceStep, handle_eq]
  rfl

theorem inv_serviceStep {t : LedTask} (h : t.Inv) (a : ServiceAct) : (serviceStep t a).Inv := by
  cases a with
  | event e => rw [serviceStep_event]; exact LedTask.inv_set h ..
  | loop => exact LedTask.inv_step h

theorem settled_event_of_not_full {t : LedTask} (h : t.Inv) (hq : ¬ t.agent.queue.Full)
    (e : Event) : (serviceStep t (.event e)).settled = display t.settled (command e) := by
  rw [serviceStep_event]
  exact LedTask.settled_set_of_not_full h hq ..

theorem settled_event_of_full {t : LedTask} (h : t.Inv) (hq : t.agent.queue.Full) (e : Event) :
    (serviceStep t (.event e)).settled = t.settled := by
  rw [serviceStep_event]
  exact LedTask.settled_set_of_full h hq ..

/-- A blink leaves the display the LED settles to alone, whether it fits or not. -/
theorem settled_blink {t : LedTask} (h : t.Inv) {e : Event} (he : ¬ e.IsStatus) :
    (serviceStep t (.event e)).settled = t.settled := by
  have honce : (command e).mode = .once := by
    rw [isStatus_iff] at he
    exact not_not.1 he
  by_cases hq : t.agent.queue.Full
  · exact settled_event_of_full h hq e
  · rw [settled_event_of_not_full h hq, display_of_once honce]

/-! ### When no status is lost -/

/-- A status raised now is not lost, or its loss does not show: the queue has room for it, or the
LED is already going to settle on the same display.  Other steps have nothing to lose. -/
def StatusLands (t : LedTask) : ServiceAct → Prop
  | .event e => e.IsStatus → ¬ t.agent.queue.Full ∨ t.settled = statusDisplay e
  | .loop => True

/-- The LED is going to settle on the last status raised. -/
def SettlesOnStatus (t : LedTask) (as : List ServiceAct) : Prop :=
  ∀ e, lastStatus as = some e → t.settled = statusDisplay e

/-- The step lemma: as long as the LED settles on the last status, a step keeps it so exactly when
it meets `TwinThing.StatusLands`. -/
theorem settlesOnStatus_step {t : LedTask} (h : t.Inv) {as : List ServiceAct}
    (hJ : SettlesOnStatus t as) (a : ServiceAct) :
    StatusLands t a ↔ SettlesOnStatus (serviceStep t a) (as ++ [a]) := by
  cases a with
  | loop =>
      have hsettled : (serviceStep t .loop).settled = t.settled := LedTask.settled_step h
      simp only [StatusLands, SettlesOnStatus, lastStatus_concat_loop, hsettled, true_iff]
      exact hJ
  | event e =>
      by_cases he : e.IsStatus
      · -- a status is what the LED must settle on from now on
        have hne : (command e).mode ≠ .once := (isStatus_iff e).1 he
        simp only [StatusLands, SettlesOnStatus, lastStatus_concat_status as he, he,
          Option.some.injEq, forall_eq', true_implies]
        by_cases hq : t.agent.queue.Full
        · simp only [settled_event_of_full h hq, hq, not_true, false_or]
        · simp only [settled_event_of_not_full h hq, display_of_ne hne, hq, not_false_iff,
            true_or, statusDisplay]
      · simp only [StatusLands, SettlesOnStatus, lastStatus_concat_blink as he, he,
          settled_blink h he, false_implies, true_iff]
        exact hJ

theorem inv_service (pRgb pPrevRgb : Rgb16) (as : List ServiceAct) :
    (Runs.run serviceStep (LedTask.enter pRgb pPrevRgb) as).Inv :=
  Runs.run_invariant serviceStep LedTask.Inv (fun _ a h => inv_serviceStep h a)
    (LedTask.inv_enter pRgb pPrevRgb) as

theorem pinned_serviceStep {t : LedTask} (h : t.Inv) (hp : t.Pinned) (a : ServiceAct) :
    (serviceStep t a).Pinned := by
  cases a with
  | event e => rw [serviceStep_event]; exact LedTask.pinned_set hp ..
  | loop => exact LedTask.pinned_step h hp

theorem pinned_service (pRgb pPrevRgb : Rgb16) (as : List ServiceAct) :
    (Runs.run serviceStep (LedTask.enter pRgb pPrevRgb) as).Pinned :=
  (Runs.run_invariant serviceStep (fun t => t.Inv ∧ t.Pinned)
    (fun _ a h => ⟨inv_serviceStep h.1 a, pinned_serviceStep h.1 h.2 a⟩)
    ⟨LedTask.inv_enter pRgb pPrevRgb, LedTask.pinned_enter pRgb pPrevRgb⟩ as).2

/-- **No status is lost**: wherever a run has got to, once the LED task has been left alone for long
enough to be idle, its driver holds the last status raised; the pins put it out then, by
`TwinThing.pinned_service`. -/
def ShowsLastStatus (t : LedTask) (as : List ServiceAct) : Prop :=
  ∀ pre k, pre <+: as →
    let t' := Runs.run serviceStep t (pre ++ List.replicate k .loop)
    t'.Idle → ∀ e, lastStatus pre = some e → t'.shown = statusDisplay e

/-- **Exactly when no status is lost.**  In a run of events and LED steps the LED holds the mode and
the colour of the last status whenever it has gone idle, if and only if every status was raised
while the queue had room, or while the LED was already going to settle on it. -/
theorem status_shown_iff (pRgb pPrevRgb : Rgb16) (as : List ServiceAct) :
    ShowsLastStatus (LedTask.enter pRgb pPrevRgb) as ↔
      Runs.Along serviceStep StatusLands (LedTask.enter pRgb pPrevRgb) as := by
  have hstart : SettlesOnStatus (LedTask.enter pRgb pPrevRgb) [] := by
    intro e he
    cases he
  refine shown_iff_along (fun t => t) .loop
    (fun pre d => ∀ e, lastStatus pre = some e → d = statusDisplay e) (fun _ => rfl)
    (inv_service pRgb pPrevRgb) hstart ?_ as
  intro pre a hJ
  exact settlesOnStatus_step (inv_service pRgb pPrevRgb pre) hJ a

/-- A burst that loses a status: the link is reported down, nine messages are sent before the LED
task runs again, and then MQTT is reported offline. -/
def burst : List ServiceAct :=
  .event .linkDown :: (List.replicate 9 (.event .mqttSend) ++ [.event .mqttOffline])

/-- Nine messages between two statuses are enough to lose the second one: the LED goes idle in the
red of a link that is down, not in the amber of MQTT being offline. -/
theorem burst_loses_status : ¬ ShowsLastStatus (LedTask.enter .black .black) burst := by
  intro h
  have hidle : (Runs.run serviceStep (LedTask.enter .black .black)
      (burst ++ List.replicate 20 .loop)).inRound = false ∧
    (Runs.run serviceStep (LedTask.enter .black .black)
      (burst ++ List.replicate 20 .loop)).agent.queue.items = [] := by decide +kernel
  have hshown := h burst 20 (List.prefix_refl _) hidle .mqttOffline rfl
  exact absurd hshown (by decide +kernel)

end TwinThing
