/-
**The LED agent: a queue of commands, and the task that shows them.**

`RGBLEDAgent::set` puts a command of four bytes — a mode and a colour — into a FreeRTOS queue of
ten; the agent's task takes at most one command out in each round of its loop, hands it to the
driver and ticks the driver.  The driver is in `TwinThing.RGBpwm`; this module adds the queue and
the loop, and gives the agent its abstract meaning: a *steady display*, a mode and a colour, which
every command overwrites except for the one-shot blinks.

Main definitions:

* `TwinThing.Command`, `TwinThing.RGBLEDAgent` and its operations `start` and `set`;
* `TwinThing.iteration` — one round of the loop of `run`, with what happens at the pins;
* `TwinThing.LedTask` — the running task, which another task may interrupt between taking a
  command and ticking;
* `TwinThing.display` — the abstract agent;
* `TwinThing.ledConsumer` — the running task as the consumer of a mailbox in front of a display.

Main results:

* `TwinThing.steady_obey` — obeying a command is, on the steady display, the abstract operation;
* `TwinThing.LedTask.step_step` — two steps of the task are one round of the loop;
* `TwinThing.once_transparent` — **one-shot blinks are transparent to the steady display**;
* `TwinThing.shown_iff_along` — the exactness rule for an LED in a larger system.
-/

import TwinThing.Lib.Mailbox
import TwinThing.RGBpwm
import Mathlib.Data.List.ReduceOption

set_option relaxedAutoImplicit false
set_option autoImplicit false

namespace TwinThing

/-! ### Commands and the agent object -/

/-- A queued command, `cmd[0]` to `cmd[3]`. -/
structure Command where
  mode : RGBMode
  r : UInt8
  g : UInt8
  b : UInt8
  deriving DecidableEq, Repr

/-- The colour a command asks for, as the driver shows it. -/
def Command.colour (c : Command) : Rgb16 := squares c.r c.g c.b

/-- The agent object: its driver, and its queue, which is null until `start` has run. -/
structure RGBLEDAgent where
  rgbPWM : RGBpwm
  xRGBQueue : Option (Fifo Command 10)

namespace RGBLEDAgent

/-- The constructor sets the driver up and leaves the queue null. -/
def init (pRgb pPrevRgb : Rgb16) : RGBLEDAgent := ⟨.setup pRgb pPrevRgb, none⟩

/-- Creating the queue; the task that serves it is `TwinThing.LedTask`. -/
def start (a : RGBLEDAgent) : RGBLEDAgent := { a with xRGBQueue := some .empty }

/-- Queueing a command, with the value `set` returns: `pdPASS`, `errQUEUE_FULL` when the queue is
still full at the end of the wait, and `-1` when there is no queue. -/
def set (a : RGBLEDAgent) (m : RGBMode) (r g b : UInt8) : Int × RGBLEDAgent :=
  match a.xRGBQueue with
  | some q => (if q.Full then 0 else 1, { a with xRGBQueue := some (q.push ⟨m, r, g, b⟩) })
  | none => (-1, a)

/-- The waiting commands. -/
def queue (a : RGBLEDAgent) : Fifo Command 10 := a.xRGBQueue.getD .empty

/-- The queue has been created. -/
def Started (a : RGBLEDAgent) : Prop := a.xRGBQueue.isSome

theorem started_set {a : RGBLEDAgent} (h : a.Started) (m : RGBMode) (r g b : UInt8) :
    (a.set m r g b).2.Started := by
  obtain ⟨d, q⟩ := a
  cases q with
  | none => cases h
  | some q => rfl

theorem queue_set {a : RGBLEDAgent} (h : a.Started) (m : RGBMode) (r g b : UInt8) :
    (a.set m r g b).2.queue = a.queue.push ⟨m, r, g, b⟩ := by
  obtain ⟨d, q⟩ := a
  cases q with
  | none => cases h
  | some q => rfl

theorem rgbPWM_set (a : RGBLEDAgent) (m : RGBMode) (r g b : UInt8) :
    (a.set m r g b).2.rgbPWM = a.rgbPWM := by
  obtain ⟨d, q⟩ := a
  cases q <;> rfl

end RGBLEDAgent

/-! ### The loop of `run` -/

/-- What a round does with the command it took, if it took one. -/
def obey (d : RGBpwm) : Option Command → RGBpwm
  | none => d
  | some c => (d.setRGBb c.r c.g c.b).setMode c.mode

/-- One round of the loop: a command is taken, or none, the driver is ticked, and the task
sleeps. -/
def iteration (d : RGBpwm) (cmd : Option Command) : RGBpwm × List PwmAct :=
  let p := (obey d cmd).tick
  (p.1, p.2 ++ [.delay 10])

/-- What `run` does before its loop. -/
def runStart (d : RGBpwm) : RGBpwm := (d.setRGBb 0xFF 0xFF 0xFF).setMode .off

/-- The driver after the rounds that took the given commands, for a driver whose colour arrays
held `pRgb` and `pPrevRgb` when the task started. -/
def afterRounds (pRgb pPrevRgb : Rgb16) (cmds : List (Option Command)) : RGBpwm :=
  Runs.run (fun d cmd => (iteration d cmd).1) (runStart (.setup pRgb pPrevRgb)) cmds

/-! ### The steady display -/

/-- **The abstract agent**: a mode and a colour, which every command but a one-shot blink
overwrites. -/
def display (s : RGBMode × Rgb16) (c : Command) : RGBMode × Rgb16 :=
  if c.mode = .once then s else (c.mode, c.colour)

/-- The mode and the squared colour of the most recent command that is not a one-shot blink, and
the display the task starts with when there is none. -/
def lastSteady (cmds : List (Option Command)) : RGBMode × Rgb16 :=
  match (cmds.reduceOption.filter fun c => c.mode ≠ .once).getLast? with
  | some c => (c.mode,
      ⟨c.r.toUInt16 * c.r.toUInt16, c.g.toUInt16 * c.g.toUInt16, c.b.toUInt16 * c.b.toUInt16⟩)
  | none => (.off, ⟨0xFF * 0xFF, 0xFF * 0xFF, 0xFF * 0xFF⟩)

theorem display_of_once {c : Command} (h : c.mode = .once) (s : RGBMode × Rgb16) :
    display s c = s := if_pos h

theorem display_of_ne {c : Command} (h : c.mode ≠ .once) (s : RGBMode × Rgb16) :
    display s c = (c.mode, c.colour) := if_neg h

@[simp] theorem lastSteady_concat_none (cmds : List (Option Command)) :
    lastSteady (cmds ++ [none]) = lastSteady cmds := by
  simp [lastSteady, List.reduceOption_append]

@[simp] theorem lastSteady_concat_some (cmds : List (Option Command)) (c : Command) :
    lastSteady (cmds ++ [some c]) = display (lastSteady cmds) c := by
  by_cases h : c.mode = .once
  · simp [lastSteady, display, List.reduceOption_append, h]
  · simp [lastSteady, display, List.reduceOption_append, h, Command.colour, squares, square]

/-- A driver that is not about to blink can take any command. -/
theorem restorable_obey {d : RGBpwm} (h : d.xMode ≠ .once) (cmd : Option Command) :
    (obey d cmd).Restorable := by
  cases cmd with
  | none => exact fun hm => absurd hm h
  | some c => exact fun _ => h

/-- **Obeying a command is the abstract operation on the steady display.** -/
theorem steady_obey {d : RGBpwm} (h : d.xMode ≠ .once) (c : Command) :
    (obey d (some c)).steady = display d.steady c := by
  rw [RGBpwm.steady_of_ne h]
  by_cases hc : c.mode = .once
  · rw [RGBpwm.steady_of_once hc, display_of_once hc]
    rfl
  · rw [RGBpwm.steady_of_ne hc, display_of_ne hc]
    rfl

theorem iteration_ne_once {d : RGBpwm} (h : d.xMode ≠ .once) (cmd : Option Command) :
    (iteration d cmd).1.xMode ≠ .once :=
  RGBpwm.tick_xMode_ne_once (restorable_obey h cmd)

theorem afterRounds_concat (pRgb pPrevRgb : Rgb16) (cmds : List (Option Command))
    (cmd : Option Command) :
    afterRounds pRgb pPrevRgb (cmds ++ [cmd])
      = (iteration (afterRounds pRgb pPrevRgb cmds) cmd).1 :=
  Runs.run_concat ..

theorem afterRounds_ne_once (pRgb pPrevRgb : Rgb16) (cmds : List (Option Command)) :
    (afterRounds pRgb pPrevRgb cmds).xMode ≠ .once := by
  have hstart : (runStart (.setup pRgb pPrevRgb)).xMode ≠ .once := by
    simp [runStart, RGBpwm.setMode]
  exact Runs.run_invariant _ (fun d : RGBpwm => d.xMode ≠ .once)
    (fun d cmd h => iteration_ne_once h cmd) hstart cmds

/-- After any rounds, mode and colour are those of the last steady command. -/
theorem afterRounds_display (pRgb pPrevRgb : Rgb16) (cmds : List (Option Command)) :
    ((afterRounds pRgb pPrevRgb cmds).xMode, (afterRounds pRgb pPrevRgb cmds).pRgb)
      = lastSteady cmds := by
  induction cmds using List.reverseRecOn with
  | nil => rfl
  | append_singleton cmds cmd ih =>
      have hne := afterRounds_ne_once pRgb pPrevRgb cmds
      rw [afterRounds_concat, iteration, RGBpwm.tick_display (restorable_obey hne cmd)]
      cases cmd with
      | none => rw [lastSteady_concat_none, ← ih, obey, RGBpwm.steady_of_ne hne]
      | some c => rw [lastSteady_concat_some, ← ih, steady_obey hne, RGBpwm.steady_of_ne hne]

/-! ### One-shot blinks -/

/-- A tick outside mode `Once` writes to the pins at most once, and does not sleep. -/
theorem tick_acts_of_ne {d : RGBpwm} (h : d.xMode ≠ .once) :
    d.tick.2 = [] ∨ ∃ shown, d.tick.2 = [.write shown] := by
  have htoggle : ∀ (e : RGBpwm) period,
      (e.toggle period).2 = [] ∨ ∃ shown, (e.toggle period).2 = [.write shown] := by
    intro e period
    unfold RGBpwm.toggle
    split
    · split
      · exact Or.inr ⟨_, rfl⟩
      · exact Or.inr ⟨_, rfl⟩
    · exact Or.inl rfl
  cases hc : d.xChanged with
  | true => exact Or.inr ⟨_, by rw [RGBpwm.tick_of_changed h hc]⟩
  | false =>
      rw [RGBpwm.tick_of_not_changed h hc]
      unfold RGBpwm.tickBlink
      split
      · exact htoggle _ _
      · exact htoggle _ _
      · exact Or.inl rfl

/-- What a round may do at the pins when the steady display is `shown`.  For a one-shot command the
pins go dark, to the squared colour of the command, and dark again, for ten ticks each, and then
back to the display, which is dark when its mode is `Off`; for anything else at most one write. -/
def RoundActs (shown : RGBMode × Rgb16) (cmd : Option Command) (acts : List PwmAct) : Prop :=
  match cmd with
  | some ⟨.once, r, g, b⟩ =>
    acts = [.write ⟨0, 0, 0⟩, .delay 10,
      .write ⟨r.toUInt16 * r.toUInt16, g.toUInt16 * g.toUInt16, b.toUInt16 * b.toUInt16⟩, .delay 10,
      .write ⟨0, 0, 0⟩, .delay 10,
      .write (if shown.1 = .off then ⟨0, 0, 0⟩ else shown.2), .delay 10]
  | _ => acts = [.delay 10] ∨ ∃ levels, acts = [.write levels, .delay 10]

/-- A one-shot command is one pulse, after which the steady display shows from its beginning. -/
theorem iteration_of_once {d : RGBpwm} (h : d.xMode ≠ .once) (r g b : UInt8) :
    RoundActs (d.xMode, d.pRgb) (some ⟨.once, r, g, b⟩) (iteration d (some ⟨.once, r, g, b⟩)).2 ∧
      (iteration d (some ⟨.once, r, g, b⟩)).1.Showing := by
  have hprev : (obey d (some ⟨.once, r, g, b⟩)).xPrevMode ≠ .once := h
  have htick := RGBpwm.tick_of_once (d := obey d (some ⟨.once, r, g, b⟩)) rfl hprev
  constructor
  · rw [iteration, htick]
    rfl
  · rw [iteration, htick]
    exact RGBpwm.showing_takeUp hprev

/-- Any other round leaves the pins alone or writes one display to them. -/
theorem iteration_of_ne {d : RGBpwm} (h : d.xMode ≠ .once) {cmd : Option Command}
    (hcmd : cmd.map Command.mode ≠ some .once) (shown : RGBMode × Rgb16) :
    RoundActs shown cmd (iteration d cmd).2 := by
  have hacts : (iteration d cmd).2 = [.delay 10] ∨
      ∃ levels, (iteration d cmd).2 = [.write levels, .delay 10] := by
    have hne : (obey d cmd).xMode ≠ .once := by
      cases cmd with
      | none => exact h
      | some c => exact fun hm => hcmd (congrArg some hm)
    rw [iteration]
    rcases tick_acts_of_ne hne with hacts | ⟨levels, hacts⟩
    · exact Or.inl (by rw [hacts]; rfl)
    · exact Or.inr ⟨levels, by rw [hacts]; rfl⟩
  unfold RoundActs
  split
  · exact absurd rfl hcmd
  · exact hacts

/-- The levels after a round are those of its last write. -/
theorem levels_iteration (d : RGBpwm) (cmd : Option Command) :
    (iteration d cmd).1.levels = putOut d.levels (iteration d cmd).2 := by
  have hobey : (obey d cmd).levels = d.levels := by cases cmd <;> rfl
  rw [iteration, putOut_append, ← hobey]
  exact RGBpwm.levels_tick (obey d cmd)

/-- **One-shot blinks are transparent to the steady display.**  After any rounds of the loop the
driver holds the mode and colour of the last command that was not a one-shot blink.  What the next
round writes is what the pins put out: for a one-shot blink exactly one pulse, in the colour of its
command, and the steady display again; for anything else no pulse.  And after a one-shot blink the
steady display shows from its beginning. -/
theorem once_transparent (pRgb pPrevRgb : Rgb16) (cmds : List (Option Command)) :
    let d := afterRounds pRgb pPrevRgb cmds
    d.xMode ≠ .once ∧ (d.xMode, d.pRgb) = lastSteady cmds ∧
      ∀ cmd, RoundActs (lastSteady cmds) cmd (iteration d cmd).2 ∧
        (iteration d cmd).1.levels = putOut d.levels (iteration d cmd).2 ∧
        (cmd.map Command.mode = some .once → (iteration d cmd).1.Showing) := by
  intro d
  have hne : d.xMode ≠ .once := afterRounds_ne_once pRgb pPrevRgb cmds
  have hdisplay : (d.xMode, d.pRgb) = lastSteady cmds := afterRounds_display pRgb pPrevRgb cmds
  refine ⟨hne, hdisplay, fun cmd => ?_⟩
  rw [← hdisplay]
  by_cases hcmd : cmd.map Command.mode = some .once
  · obtain ⟨⟨m, r, g, b⟩, rfl, rfl⟩ := Option.map_eq_some_iff.1 hcmd
    obtain ⟨hacts, hshowing⟩ := iteration_of_once hne r g b
    exact ⟨hacts, levels_iteration d _, fun _ => hshowing⟩
  · exact ⟨iteration_of_ne hne hcmd _, levels_iteration d cmd, fun h => absurd h hcmd⟩

/-! ### The running task -/

/-- The agent's task, at one of the two points of its loop where another task may run: between two
rounds, and between taking a command and ticking. -/
structure LedTask where
  agent : RGBLEDAgent
  inRound : Bool

namespace LedTask

/-- The task as `run` enters its loop, on a freshly started agent. -/
def enter (pRgb pPrevRgb : Rgb16) : LedTask where
  agent := { (RGBLEDAgent.init pRgb pPrevRgb).start with rgbPWM := runStart (.setup pRgb pPrevRgb) }
  inRound := false

/-- Taking a command out of the queue, if there is one, and handing it to the driver. -/
def poll (a : RGBLEDAgent) : RGBLEDAgent :=
  match a.queue.pop with
  | some (c, q) => ⟨obey a.rgbPWM (some c), some q⟩
  | none => a

/-- The task goes on to the next of the two points. -/
def step (t : LedTask) : LedTask :=
  if t.inRound then ⟨{ t.agent with rgbPWM := t.agent.rgbPWM.tick.1 }, false⟩
  else ⟨poll t.agent, true⟩

/-- Another task calls `set`. -/
def set (t : LedTask) (m : RGBMode) (r g b : UInt8) : LedTask :=
  { t with agent := (t.agent.set m r g b).2 }

/-- The task is between two rounds and no command is waiting. -/
def Idle (t : LedTask) : Prop := t.inRound = false ∧ t.agent.queue.items = []

/-- The driver can go back to its display from wherever the task is. -/
structure Inv (t : LedTask) : Prop where
  started : t.agent.Started
  restorable : t.agent.rgbPWM.Restorable
  between : t.inRound = false → t.agent.rgbPWM.xMode ≠ .once

/-- The mailbox the task serves: its queue, in front of the steady display of its driver. -/
def mailbox (t : LedTask) : Mailbox (RGBMode × Rgb16) Command 10 :=
  ⟨t.agent.queue, t.agent.rgbPWM.steady⟩

/-- The display the LED settles to. -/
def settled (t : LedTask) : RGBMode × Rgb16 := Mailbox.settled display t.mailbox

theorem inv_enter (pRgb pPrevRgb : Rgb16) : (enter pRgb pPrevRgb).Inv where
  started := rfl
  restorable := by simp [RGBpwm.Restorable, enter, runStart, RGBpwm.setMode]
  between := by simp [enter, runStart, RGBpwm.setMode]

theorem inv_set {t : LedTask} (h : t.Inv) (m : RGBMode) (r g b : UInt8) : (t.set m r g b).Inv where
  started := RGBLEDAgent.started_set h.started m r g b
  restorable := by rw [set, RGBLEDAgent.rgbPWM_set]; exact h.restorable
  between := by rw [set, RGBLEDAgent.rgbPWM_set]; exact h.between

theorem mailbox_set {t : LedTask} (h : t.Inv) (m : RGBMode) (r g b : UInt8) :
    (t.set m r g b).mailbox = t.mailbox.send ⟨m, r, g, b⟩ := by
  simp only [mailbox, set, Mailbox.send, RGBLEDAgent.rgbPWM_set, RGBLEDAgent.queue_set h.started]

theorem step_of_inRound {t : LedTask} (h : t.inRound = true) :
    t.step = ⟨{ t.agent with rgbPWM := t.agent.rgbPWM.tick.1 }, false⟩ := if_pos h

theorem step_of_between {t : LedTask} (h : t.inRound = false) : t.step = ⟨poll t.agent, true⟩ :=
  if_neg (by simp [h])

theorem poll_of_some {a : RGBLEDAgent} {c : Command} {q : Fifo Command 10}
    (h : a.queue.pop = some (c, q)) : poll a = ⟨obey a.rgbPWM (some c), some q⟩ := by
  simp only [poll, h]

theorem poll_of_none {a : RGBLEDAgent} (h : a.queue.pop = none) : poll a = a := by
  simp only [poll, h]

/-- **Two steps of the task are one round of the loop**, on the command the queue gave out. -/
theorem step_step {t : LedTask} (h : t.inRound = false) :
    t.step.step.agent.rgbPWM
      = (iteration t.agent.rgbPWM (t.agent.queue.pop.map Prod.fst)).1 := by
  rw [step_of_between h, step_of_inRound rfl]
  cases hq : t.agent.queue.pop with
  | none => rw [poll_of_none hq]; rfl
  | some p => rw [poll_of_some hq]; rfl

theorem inv_step {t : LedTask} (h : t.Inv) : t.step.Inv := by
  cases hr : t.inRound with
  | true =>
      rw [step_of_inRound hr]
      have hne := RGBpwm.tick_xMode_ne_once h.restorable
      exact ⟨h.started, fun hm => absurd hm hne, fun _ => hne⟩
  | false =>
      rw [step_of_between hr]
      cases hq : t.agent.queue.pop with
      | none =>
          rw [poll_of_none hq]
          exact ⟨h.started, h.restorable, fun hf => absurd hf (by simp)⟩
      | some p =>
          rw [poll_of_some hq]
          exact ⟨rfl, restorable_obey (h.between hr) _, fun hf => absurd hf (by simp)⟩

/-- A step of the task takes a command out of the mailbox, or is invisible there. -/
theorem mailbox_step {t : LedTask} (h : t.Inv) :
    t.step.mailbox = t.mailbox ∨ t.step.mailbox = t.mailbox.receive display := by
  cases hr : t.inRound with
  | true =>
      -- the rest of the round is a tick, which keeps the steady display
      rw [step_of_inRound hr]
      exact Or.inl (congrArg (Mailbox.mk t.agent.queue) (RGBpwm.steady_tick h.restorable))
  | false =>
      rw [step_of_between hr]
      cases hq : t.agent.queue.pop with
      | none => rw [poll_of_none hq]; exact Or.inl rfl
      | some p =>
          rw [poll_of_some hq]
          right
          simp only [mailbox, Mailbox.receive, hq, steady_obey (h.between hr)]
          rfl

/-- The rounds still to be done, and the half round the task is in. -/
def work (t : LedTask) : ℕ := 2 * t.agent.queue.items.length + if t.inRound then 1 else 0

theorem work_step {t : LedTask} (h : ¬ t.Idle) : t.step.work < t.work := by
  cases hr : t.inRound with
  | true =>
      rw [step_of_inRound hr]
      simp only [work, hr, RGBLEDAgent.queue]
      simp
  | false =>
      rw [step_of_between hr]
      cases hq : t.agent.queue.pop with
      | none => exact absurd ⟨hr, Fifo.items_of_pop_none hq⟩ h
      | some p =>
          rw [poll_of_some hq]
          have hlen := congrArg List.length (Fifo.items_of_pop_some hq)
          simp only [List.length_cons] at hlen
          simp only [work, hr, RGBLEDAgent.queue, Option.getD_some] at hlen ⊢
          simp
          omega

end LedTask

/-- **The agent's task is a consumer of its mailbox**: its loop, whatever it does at the pins,
applies the queued commands to the steady display, one after the other. -/
def ledConsumer : Mailbox.Consumer display LedTask 10 where
  loop := LedTask.step
  abs := LedTask.mailbox
  Inv := LedTask.Inv
  Idle := LedTask.Idle
  work := LedTask.work
  inv_loop := fun _ => LedTask.inv_step
  refines := fun _ => LedTask.mailbox_step
  idle_empty := fun _ h => h.2
  work_lt := fun _ _ => LedTask.work_step

namespace LedTask

/-- What the driver holds, its mode and its colour; the pins follow when it is ticked. -/
def shown (t : LedTask) : RGBMode × Rgb16 := (t.agent.rgbPWM.xMode, t.agent.rgbPWM.pRgb)

theorem shown_of_idle {t : LedTask} (h : t.Inv) (hidle : t.Idle) : t.shown = t.mailbox.device :=
  (RGBpwm.steady_of_ne (h.between hidle.1)).symm

theorem settled_step {t : LedTask} (h : t.Inv) : t.step.settled = t.settled :=
  ledConsumer.settled_loop h

theorem settled_set_of_not_full {t : LedTask} (h : t.Inv) (hq : ¬ t.agent.queue.Full)
    (m : RGBMode) (r g b : UInt8) :
    (t.set m r g b).settled = display t.settled ⟨m, r, g, b⟩ := by
  rw [settled, mailbox_set h, Mailbox.settled_send_of_not_full display hq]
  rfl

theorem settled_set_of_full {t : LedTask} (h : t.Inv) (hq : t.agent.queue.Full)
    (m : RGBMode) (r g b : UInt8) : (t.set m r g b).settled = t.settled := by
  rw [settled, mailbox_set h, Mailbox.settled_send_of_full display hq]
  rfl

/-- **What the driver holds when its task has gone idle**, however long that takes: a property of it
is a property of the display it settles to. -/
theorem forall_idle_iff {t : LedTask} (h : t.Inv) (Q : RGBMode × Rgb16 → Prop) :
    (∀ k, (step^[k] t).Idle → Q (step^[k] t).shown) ↔ Q t.settled := by
  refine Iff.trans ?_ (ledConsumer.forall_idle_iff h Q)
  constructor
  · intro hQ k hk
    have heq : (step^[k] t).shown = (step^[k] t).mailbox.device :=
      shown_of_idle (ledConsumer.inv_iterate h k) hk
    exact heq ▸ hQ k hk
  · intro hQ k hk
    have heq : (step^[k] t).shown = (step^[k] t).mailbox.device :=
      shown_of_idle (ledConsumer.inv_iterate h k) hk
    exact heq.symm ▸ hQ k hk

end LedTask

/-! ### The LED of a larger system -/

section System

variable {σ ι : Type*} {step : σ → ι → σ} (led : σ → LedTask) (loop : ι)

theorem led_run_replicate (hloop : ∀ s, led (step s loop) = (led s).step) (s : σ) (k : ℕ) :
    led (Runs.run step s (List.replicate k loop)) = LedTask.step^[k] (led s) := by
  have hled : Function.Semiconj led (fun t => step t loop) LedTask.step := hloop
  rw [Runs.run_replicate]
  exact hled.iterate_right k s

/-- **The exactness rule for an LED.**  `Q` is what its driver should hold after the inputs so far.
If, as long as the LED settles on something right, a step keeps it so exactly when the step meets
`P`, then the driver holds something right whenever the LED has gone idle, wherever the run has got
to, exactly when `P` holds along the run. -/
theorem shown_iff_along {P : σ → ι → Prop} {s : σ} (Q : List ι → RGBMode × Rgb16 → Prop)
    (hloop : ∀ s, led (step s loop) = (led s).step)
    (hinv : ∀ pre, (led (Runs.run step s pre)).Inv) (h0 : Q [] (led s).settled)
    (hstep : ∀ pre e, Q pre (led (Runs.run step s pre)).settled →
      (P (Runs.run step s pre) e ↔
        Q (pre ++ [e]) (led (step (Runs.run step s pre) e)).settled)) (es : List ι) :
    (∀ pre k, pre <+: es →
      (led (Runs.run step s (pre ++ List.replicate k loop))).Idle →
        Q pre (led (Runs.run step s (pre ++ List.replicate k loop))).shown) ↔
      Runs.Along step P s es := by
  rw [Runs.along_iff_forall_prefix
    (J := fun pre => Q pre (led (Runs.run step s pre)).settled) h0 (fun pre e hJ => by
      rw [Runs.run_concat]
      exact hstep pre e hJ)]
  simp only [Runs.run_append, led_run_replicate led loop hloop]
  constructor
  · intro h pre hpre
    exact (LedTask.forall_idle_iff (hinv pre) (Q pre)).1 fun k => h pre k hpre
  · intro h pre k hpre
    exact (LedTask.forall_idle_iff (hinv pre) (Q pre)).2 (h pre hpre) k

end System

end TwinThing
