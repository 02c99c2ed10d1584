/-
**What the service LED says about the link.**

The main task shares the LED of the connection observer with the MQTT agent: it reports the state
of the link through the observer, and after the start-up it also sets the LED itself, to the red
that the observer uses for a link that is down.  This module runs the main task, the LED task and
the events of the MQTT agent together, in any interleaving, and says what the LED shows.

Main definitions:

* `TwinThing.ServiceLed`, `TwinThing.serviceLedStep` — the system: one step of the main task, one
  command of it on its way, one event of the MQTT agent, or half a round of the LED task;
* `TwinThing.ServiceLed.Accepts` — a command finds room in the queue;
* `TwinThing.ServiceLed.Told` — the LED settles on the last thing it was told.

Main results:

* `TwinThing.told_step` — every step keeps that;
* `TwinThing.service_led_shows` — **while the link is up the LED says that it is down**, until it
  is lost for the first time; from then on it says that it is up.
-/

import TwinThing.MainTaskLog

set_option relaxedAutoImplicit false
set_option autoImplicit false

namespace TwinThing

open Runs
open ConnectionObserver (Event command statusDisplay isStatus_iff)

/-! ### The system -/

/-- The command that an event of the main task sends to the service LED, if any. -/
def MainEvent.serviceCommand? : MainEvent → Option Command
  | .report e => some (command e)
  | .serviceSet c => some c
  | _ => none

/-- The main task with the commands it is about to send, and the task of its service LED. -/
structure ServiceLed where
  main : MainTask
  pending : List Command
  led : LedTask
  /-- The last status of the MQTT agent, if it came after the last word of the main task. -/
  mqtt : Option Event

/-- A step of the system. -/
inductive ServiceLedAct where
  | main
  | mqtt (e : Event)
  | loop

/-- The system as the LED task enters its loop. -/
def ServiceLed.start (w : Radio) (pRgb pPrevRgb : Rgb16) : ServiceLed where
  main := .start w
  pending := (MainTask.start w).log.filterMap MainEvent.serviceCommand?
  led := .enter pRgb pPrevRgb
  mqtt := none

/-- The main task sends the next command that is pending, or, when none is, goes on to its next
step. -/
def serviceLedStep (w : Radio) (s : ServiceLed) : ServiceLedAct → ServiceLed
  | .main =>
    match s.pending with
    | c :: cs => { s with
        pending := cs
        led := s.led.set c.mode c.r c.g c.b
        mqtt := if c.mode = .once then s.mqtt else none }
    | [] => { s with
        main := s.main.step w
        pending := ((s.main.step w).log.drop s.main.log.length).filterMap
          MainEvent.serviceCommand? }
  | .mqtt e => { s with
      led := serviceStep s.led (.event e)
      mqtt := if e.IsStatus then some e else s.mqtt }
  | .loop => { s with led := s.led.step }

/-- A command that is sent finds room in the queue. -/
def ServiceLed.Accepts (s : ServiceLed) : ServiceLedAct → Prop
  | .main => s.pending ≠ [] → ¬ s.led.agent.queue.Full
  | .mqtt _ => ¬ s.led.agent.queue.Full
  | .loop => True

instance (s : ServiceLed) (a : ServiceLedAct) : Decidable (s.Accepts a) :=
  match a with
  | .main => inferInstanceAs (Decidable (_ → ¬ _))
  | .mqtt _ => inferInstanceAs (Decidable (¬ _))
  | .loop => inferInstanceAs (Decidable True)

/-! ### What the LED was told -/

/-- The LED settles on the last thing it was told: by the MQTT agent, or by those commands of the
main task that are no longer pending. -/
structure ServiceLed.Told (w : Radio) (d : RGBMode × Rgb16) (s : ServiceLed) : Prop where
  reached : ∃ n, s.main = mainTask w n
  inv : s.led.Inv
  pinned : s.led.Pinned
  told : ∃ sent, s.main.log.filterMap MainEvent.serviceCommand? = sent ++ s.pending ∧
    s.led.settled = (s.mqtt.map statusDisplay).getD (sent.foldl display d)

/-- The task only adds to its log. -/
theorem log_prefix_step (w : Radio) (s : MainTask) : s.log <+: (s.step w).log := by
  unfold MainTask.step
  split
  · split
    · exact List.prefix_append _ _
    · exact List.prefix_append _ _
  · split
    · exact List.prefix_append _ _
    · exact List.prefix_append _ _
  · split
    · exact List.prefix_append _ _
    · exact List.prefix_append _ _
  · exact List.prefix_refl _

theorem told_start (w : Radio) (pRgb pPrevRgb : Rgb16) :
    (ServiceLed.start w pRgb pPrevRgb).Told w (LedTask.enter pRgb pPrevRgb).settled :=
  ⟨⟨0, rfl⟩, LedTask.inv_enter pRgb pPrevRgb, LedTask.pinned_enter pRgb pPrevRgb, [], rfl, rfl⟩

variable {w : Radio} {d : RGBMode × Rgb16} {s : ServiceLed}

/-- A command of the main task arrives. -/
theorem told_send (h : s.Told w d) {c : Command} {cs : List Command} (hs : s.pending = c :: cs)
    (hroom : ¬ s.led.agent.queue.Full) :
    ServiceLed.Told w d ⟨s.main, cs, s.led.set c.mode c.r c.g c.b,
      if c.mode = .once then s.mqtt else none⟩ := by
  obtain ⟨sent, hlog, hsettled⟩ := h.told
  refine ⟨h.reached, LedTask.inv_set h.inv .., LedTask.pinned_set h.pinned .., sent ++ [c], ?_, ?_⟩
  · rw [hlog, hs, List.append_assoc]
    rfl
  · have hset : (s.led.set c.mode c.r c.g c.b).settled = display s.led.settled c :=
      LedTask.settled_set_of_not_full h.inv hroom ..
    rw [List.foldl_append]
    change (s.led.set c.mode c.r c.g c.b).settled = _
    rw [hset]
    by_cases hc : c.mode = .once
    · simp only [if_pos hc, List.foldl_cons, List.foldl_nil, display_of_once hc]
      exact hsettled
    · simp only [if_neg hc, List.foldl_cons, List.foldl_nil, display_of_ne hc]
      rfl

/-- The main task goes on, and what it logs is pending. -/
theorem told_main (h : s.Told w d) (hs : s.pending = []) :
    ServiceLed.Told w d ⟨s.main.step w,
      ((s.main.step w).log.drop s.main.log.length).filterMap MainEvent.serviceCommand?,
      s.led, s.mqtt⟩ := by
  obtain ⟨n, hn⟩ := h.reached
  obtain ⟨sent, hlog, hsettled⟩ := h.told
  refine ⟨⟨n + 1, by rw [mainTask_succ, ← hn]⟩, h.inv, h.pinned, sent, ?_, hsettled⟩
  have hsplit := List.prefix_iff_eq_append.1 (log_prefix_step w s.main)
  rw [hs, List.append_nil] at hlog
  change (s.main.step w).log.filterMap MainEvent.serviceCommand? = _
  rw [← hlog, ← List.filterMap_append, hsplit]

/-- The MQTT agent raises an event. -/
theorem told_mqtt (h : s.Told w d) (e : Event) (hroom : ¬ s.led.agent.queue.Full) :
    ServiceLed.Told w d ⟨s.main, s.pending, serviceStep s.led (.event e),
      if e.IsStatus then some e else s.mqtt⟩ := by
  obtain ⟨sent, hlog, hsettled⟩ := h.told
  refine ⟨h.reached, inv_serviceStep h.inv (.event e),
    pinned_serviceStep h.inv h.pinned (.event e), sent, hlog, ?_⟩
  change (serviceStep s.led (.event e)).settled = _
  by_cases he : e.IsStatus
  · rw [settled_event_of_not_full h.inv hroom, display_of_ne ((isStatus_iff e).1 he), if_pos he]
    rfl
  · rw [settled_blink h.inv he, if_neg he]
    exact hsettled

/-- **The step lemma**: as long as its commands find room, the LED settles on the last thing it was
told. -/
theorem told_step (h : s.Told w d) {a : ServiceLedAct} (ha : s.Accepts a) :
    (serviceLedStep w s a).Told w d := by
  cases a with
  | main =>
      cases hs : s.pending with
      | nil => simpa only [serviceLedStep, hs] using told_main h hs
      | cons c cs =>
          have hroom : ¬ s.led.agent.queue.Full := ha (by simp [hs])
          simpa only [serviceLedStep, hs] using told_send h hs hroom
  | mqtt e => exact told_mqtt h e ha
  | loop =>
      obtain ⟨sent, hlog, hsettled⟩ := h.told
      exact ⟨h.reached, LedTask.inv_step h.inv, LedTask.pinned_step h.inv h.pinned, sent, hlog,
        (LedTask.settled_step h.inv).trans hsettled⟩

theorem told_run (w : Radio) (pRgb pPrevRgb : Rgb16) {as : List ServiceLedAct}
    (has : Along (serviceLedStep w) ServiceLed.Accepts (.start w pRgb pPrevRgb) as) :
    (run (serviceLedStep w) (.start w pRgb pPrevRgb) as).Told w
      (LedTask.enter pRgb pPrevRgb).settled := by
  induction as using List.reverseRecOn with
  | nil => exact told_start w pRgb pPrevRgb
  | append_singleton as a ih =>
      obtain ⟨hpre, ha⟩ := along_append.1 has
      rw [run_concat]
      exact told_step (ih hpre) ha.1

/-! ### What the main task says -/

/-- What the main task last says about the link: that it is down until the first poll that finds it
so, and that it is up from then on. -/
def lastWord (w : Radio) (j : ℕ) : Event := if ∀ i < j, 0 ≤ w.link i then .linkDown else .apJoined

theorem lastWord_succ (w : Radio) (j : ℕ) :
    lastWord w (j + 1) = if w.link j < 0 then .apJoined else lastWord w j := by
  by_cases hj : w.link j < 0
  · have hnot : ¬ ∀ i < j + 1, 0 ≤ w.link i := fun h => absurd (h j (by omega)) (by omega)
    rw [lastWord, if_neg hnot, if_pos hj]
  · have hiff : (∀ i < j + 1, 0 ≤ w.link i) ↔ ∀ i < j, 0 ≤ w.link i := by
      constructor
      · exact fun h i hi => h i (by omega)
      · intro h i hi
        rcases Nat.lt_succ_iff_lt_or_eq.1 hi with hi | rfl
        · exact h i hi
        · omega
    simp only [lastWord, hiff, if_neg hj]

theorem filterMap_attempts (w : Radio) (n : ℕ) :
    (attempts w n).filterMap MainEvent.serviceCommand? = [] := by
  simp [attempts, MainEvent.serviceCommand?]

/-- Its commands, applied in order, leave that on the LED. -/
theorem foldl_fullLog (w : Radio) (k j : ℕ) (d : RGBMode × Rgb16) :
    ((fullLog w k j).filterMap MainEvent.serviceCommand?).foldl display d
      = statusDisplay (lastWord w j) := by
  induction j with
  | zero =>
      rw [fullLog_zero, joinLog, List.cons_append, List.filterMap_cons, List.filterMap_append,
        filterMap_attempts]
      rfl
  | succ j ih =>
      rw [fullLog_succ, List.filterMap_append, List.foldl_append, ih, lastWord_succ, pollLog]
      by_cases hj : w.link j < 0
      · rw [if_pos hj, if_pos hj]
        rfl
      · rw [if_neg hj, if_neg hj]
        rfl

/-- In its supervision loop the task has made the start-up reports and its polls. -/
theorem log_of_supervising {n : ℕ} (hpc : (mainTask w n).pc = .supervising) :
    ∃ k, (mainTask w n).log = fullLog w k (mainTask w n).polls := by
  have hinit : w.init = 0 := by
    by_contra hne
    rw [mainTask_of_init_ne hne n] at hpc
    cases hpc
  by_cases hjoin : ∃ m, 0 ≤ w.connect m
  · have hk : FirstJoin w (Nat.find hjoin) :=
      ⟨Nat.find_spec hjoin, fun m hm => Int.not_le.1 (Nat.find_min hjoin hm)⟩
    exact ⟨_, (following_mainTask hinit hk n).log_of_supervising hpc⟩
  · have hfails : ∀ m < n, w.connect m < 0 := fun m _ => Int.not_le.1 fun h => hjoin ⟨m, h⟩
    exact absurd ((mainTask_joining hinit hfails).1.symm.trans hpc) (by simp)

/-! ### What the LED shows -/

/-- **What the service LED says about the link.**  In every interleaving in which no command is
refused: when the main task is in its supervision loop with nothing left to send and the LED task
is idle, the LED shows at its pins the last status of the MQTT agent, if that came after the last
word of the main task.  Otherwise it shows a link that is down, if no poll has found it down so far,
and an access point that was joined, if one has. -/
theorem service_led_shows (w : Radio) (pRgb pPrevRgb : Rgb16) (as : List ServiceLedAct)
    (has : Along (serviceLedStep w) ServiceLed.Accepts (.start w pRgb pPrevRgb) as) :
    let s := run (serviceLedStep w) (.start w pRgb pPrevRgb) as
    s.main.pc = .supervising → s.pending = [] → s.led.Idle →
      s.led.agent.rgbPWM.PutsOut (statusDisplay (s.mqtt.getD
        (if ∀ i < s.main.polls, 0 ≤ w.link i then .linkDown else .apJoined))) := by
  intro s hpc hpending hidle
  obtain ⟨⟨n, hn⟩, hinv, hpinned, sent, hlog, hsettled⟩ := told_run w pRgb pPrevRgb has
  obtain ⟨k, hfull⟩ := log_of_supervising (hn ▸ hpc : (mainTask w n).pc = .supervising)
  have hsent : sent = (fullLog w k s.main.polls).filterMap MainEvent.serviceCommand? := by
    have hall : s.main.log = fullLog w k s.main.polls := by rw [hn, hfull]
    rw [← hall, hlog, hpending, List.append_nil]
  have hshown : s.led.shown = s.led.settled :=
    (LedTask.shown_of_idle hinv hidle).trans (ledConsumer.device_of_idle hidle)
  refine (hpinned.shows ?_).2 hidle.1
  rw [hshown, hsettled, hsent, foldl_fullLog]
  cases s.mqtt with
  | none => rfl
  | some e => rfl

/-- With a link that is up all the time, the LED has gone idle in the red of a link that is down. -/
theorem service_led_shows_red :
    let w : Radio := ⟨0, fun _ => 0, fun _ => 3⟩
    let as : List ServiceLedAct := List.replicate 5 .main ++ List.replicate 6 .loop
    (run (serviceLedStep w) (.start w .black .black) as).led.agent.rgbPWM.PutsOut
      (statusDisplay .linkDown) := by
  intro w as
  have hroom : Along (serviceLedStep w) ServiceLed.Accepts (.start w .black .black) as := by
    decide +kernel
  have hword : (run (serviceLedStep w) (.start w .black .black) as).mqtt.getD
      (if ∀ i < (run (serviceLedStep w) (.start w .black .black) as).main.polls, 0 ≤ w.link i
        then .linkDown else .apJoined) = .linkDown := by
    decide +kernel
  have hputs := service_led_shows w .black .black as hroom (by decide +kernel) (by decide +kernel)
    ⟨by decide +kernel, by decide +kernel⟩
  rwa [hword] at hputs

end TwinThing
