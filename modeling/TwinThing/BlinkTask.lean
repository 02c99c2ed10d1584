/-
**The two blinking tasks.**

`BlinkAgent` blinks an LED at a pad and `BlinkPicoWTask` the LED on the board.  Both create a task
in `start`, delete it in `stop`, and write 1 and 0 to their pin for ever in between.  They differ
in the pin, the delay, and the destructor: that of `BlinkPicoWTask` calls `stop`, that of
`BlinkAgent` does nothing.

Main definitions:

* `TwinThing.BlinkTask` — what tells one class, and one object, from another;
* `TwinThing.BlinkAgent`, `TwinThing.BlinkPicoWTask` — the two classes;
* `TwinThing.BlinkSystem` — an object, the kernel's tasks on it, and what they did at the pin;
* `TwinThing.blinkProtocol` — how the two classes may be used;
* `TwinThing.wave`, `TwinThing.tally` — a square wave, and how many steps of it there should be;
* `TwinThing.blinkOps` — what the main task does with its local `BlinkAgent`.

Main results:

* `TwinThing.blink_safe_iff` — **the exact protocol of either class**;
* `TwinThing.BlinkSystem.waves_step` — what one act of it keeps;
* `TwinThing.blink_wave` — as long as it is kept, the pin is a square wave from the last start on,
  one step of it for each step of the task;
* `TwinThing.main_blink_safe_iff` — the main task keeps to it when the radio initialises, or else
  if the destructor stops the task.
-/

import TwinThing.Lib.Protocol
import TwinThing.RGBLEDAgentLife

set_option relaxedAutoImplicit false
set_option autoImplicit false

namespace TwinThing

open Runs

/-! ### The classes -/

/-- An object of either class: the pin, half the period in ticks, and whether the destructor stops
the task. -/
structure BlinkTask where
  pin : ℕ
  delay : ℕ
  stopsOnDestroy : Bool

/-- A `BlinkAgent` on pad `gp`. -/
def BlinkAgent (gp delay : ℕ) : BlinkTask := ⟨gp, delay, false⟩

/-- How long each half of the period of a `BlinkPicoWTask` takes. -/
def BLINK_TIME : ℕ := 500

/-- A `BlinkPicoWTask`, on the pin that the board's LED has. -/
def BlinkPicoWTask (pin : ℕ) : BlinkTask := ⟨pin, BLINK_TIME, true⟩

/-- What the task does at the pin: writing a level, or sleeping. -/
inductive PinAct where
  | put (pin : ℕ) (level : Bool)
  | delay (ticks : ℕ)
  deriving DecidableEq

/-- Where a task is in its loop: about to write 1, to sleep after that, to write 0, or to sleep
after that. -/
inductive BlinkPc where
  | rising
  | high
  | falling
  | low
  deriving DecidableEq

/-- Where a task goes on to. -/
def BlinkPc.next : BlinkPc → BlinkPc
  | .rising => .high
  | .high => .falling
  | .falling => .low
  | .low => .rising

/-- What a task does there. -/
def BlinkPc.act (B : BlinkTask) : BlinkPc → PinAct
  | .rising => .put B.pin true
  | .high => .delay B.delay
  | .falling => .put B.pin false
  | .low => .delay B.delay

/-- The object with the kernel's tasks that run on it, and what they have done since the last
start. -/
structure BlinkSystem where
  xHandle : Option ℕ
  alive : Bool
  tasks : HandleTable BlinkPc
  acts : List PinAct

namespace BlinkSystem

variable (B : BlinkTask)

/-- A constructed object. -/
def init : BlinkSystem := ⟨none, true, .empty, []⟩

/-- Creating a task, whose handle replaces the one the object held. -/
def start (s : BlinkSystem) : BlinkSystem :=
  { s with xHandle := some s.tasks.next, tasks := s.tasks.alloc .rising, acts := [] }

/-- Deleting the task whose handle the object holds. -/
def stop (s : BlinkSystem) : BlinkSystem :=
  match s.xHandle with
  | some t => { s with tasks := s.tasks.free t, xHandle := none }
  | none => s

/-- The destructor. -/
def destroy (s : BlinkSystem) : BlinkSystem :=
  { (if B.stopsOnDestroy then s.stop else s) with alive := false }

/-- A task is scheduled and goes on to the next point of its loop; nothing happens if it is not
live. -/
def goOn (s : BlinkSystem) (t : ℕ) : BlinkSystem :=
  match s.tasks.get t with
  | some pc => { s with
      tasks := s.tasks.update t fun _ => pc.next
      acts := s.acts ++ [pc.act B] }
  | none => s

end BlinkSystem

/-- An operation on the object. -/
inductive BlinkOp where
  | start
  | stop
  | destroy
  deriving DecidableEq

/-- An operation, or a step of the task with the given handle. -/
inductive BlinkAct where
  | op (o : BlinkOp)
  | goOn (t : ℕ)
  deriving DecidableEq

/-- The operation an act is, if it is one. -/
def BlinkAct.op? : BlinkAct → Option BlinkOp
  | .op o => some o
  | .goOn _ => none

namespace BlinkSystem

variable (B : BlinkTask)

def step (s : BlinkSystem) : BlinkAct → BlinkSystem
  | .op .start => s.start
  | .op .stop => s.stop
  | .op .destroy => s.destroy B
  | .goOn t => s.goOn B t

/-- An act is safe: a live task runs on an object that has not been destroyed, and at most one is
live afterwards. -/
def Safe (s : BlinkSystem) (a : BlinkAct) : Prop :=
  (∀ t, a = .goOn t → s.tasks.Live t → s.alive = true) ∧ (s.step B a).tasks.AtMostOne

end BlinkSystem

/-! ### The protocol -/

/-- The use of an object after an operation. -/
def blinkNext : Use → BlinkOp → Use
  | .idle, .start => .running
  | .running, .stop => .idle
  | _, .destroy => .gone
  | u, _ => u

/-- An object is started only when no task of it is live and it has not been destroyed.  It may be
destroyed while a task of it is live only if the destructor stops the task. -/
def BlinkAllowed (B : BlinkTask) : Use → BlinkOp → Prop
  | .running, .start => False
  | .gone, .start => False
  | .running, .destroy => B.stopsOnDestroy = true
  | _, _ => True

namespace BlinkSystem

variable {B : BlinkTask}

/-- The system is where the protocol has it. -/
def Matches (s : BlinkSystem) : Use → Prop
  | .idle => s.alive = true ∧ s.xHandle = none ∧ s.tasks.Vacant
  | .running => s.alive = true ∧ ∃ t, s.xHandle = some t ∧ s.tasks.Only t
  | .gone => s.alive = false ∧ s.xHandle = none ∧ s.tasks.Vacant

theorem matches_init : init.Matches .idle := ⟨rfl, rfl, HandleTable.vacant_empty⟩

theorem Matches.atMostOne {s : BlinkSystem} {u : Use} (h : s.Matches u) : s.tasks.AtMostOne := by
  cases u with
  | idle => exact h.2.2.atMostOne
  | running =>
      obtain ⟨-, t, -, ht⟩ := h
      exact ht.atMostOne
  | gone => exact h.2.2.atMostOne

theorem stop_of_none {s : BlinkSystem} (h : s.xHandle = none) : s.stop = s := by
  rw [stop, h]

theorem stop_of_some {s : BlinkSystem} {t : ℕ} (h : s.xHandle = some t) :
    s.stop = { s with tasks := s.tasks.free t, xHandle := none } := by
  rw [stop, h]

/-- Starting the first task. -/
theorem matches_start {s : BlinkSystem} (h : s.Matches .idle) : s.start.Matches .running :=
  ⟨h.1, s.tasks.next, rfl, HandleTable.only_alloc h.2.2 _⟩

/-- Stopping the only task. -/
theorem matches_stop {s : BlinkSystem} (h : s.Matches .running) : s.stop.Matches .idle := by
  obtain ⟨halive, t, ht, honly⟩ := h
  rw [stop_of_some ht]
  exact ⟨halive, rfl, HandleTable.vacant_free honly⟩

/-- Destroying an object without a task. -/
theorem matches_destroy {s : BlinkSystem} (hhandle : s.xHandle = none) (hvacant : s.tasks.Vacant) :
    (s.destroy B).Matches .gone := by
  have hdestroy : s.destroy B = { s with alive := false } := by
    rw [destroy, stop_of_none hhandle, ite_self]
  rw [hdestroy]
  exact ⟨rfl, hhandle, hvacant⟩

/-- **An allowed operation follows the protocol.** -/
theorem matches_op {s : BlinkSystem} {u : Use} {o : BlinkOp} (h : s.Matches u)
    (ho : BlinkAllowed B u o) : (s.step B (.op o)).Matches (blinkNext u o) := by
  cases u with
  | idle =>
      cases o with
      | start => exact matches_start h
      | stop => rwa [step, stop_of_none h.2.1]
      | destroy => exact matches_destroy h.2.1 h.2.2
  | running =>
      cases o with
      | start => exact ho.elim
      | stop => exact matches_stop h
      | destroy =>
          have hstops : B.stopsOnDestroy = true := ho
          obtain ⟨-, hhandle, hvacant⟩ := matches_stop h
          have hdestroy : s.destroy B = { s.stop with alive := false } := by
            rw [destroy, if_pos hstops]
          rw [step, hdestroy]
          exact ⟨rfl, hhandle, hvacant⟩
  | gone =>
      cases o with
      | start => exact ho.elim
      | stop => rwa [step, stop_of_none h.2.1]
      | destroy => exact matches_destroy h.2.1 h.2.2

theorem goOn_of_not_live {s : BlinkSystem} {t : ℕ} (h : ¬ s.tasks.Live t) : s.goOn B t = s := by
  have hnone : s.tasks.get t = none := not_not.1 h
  rw [goOn, hnone]

/-- A task's step leaves the object's handle, and what is live, as they are. -/
theorem goOn_frame (s : BlinkSystem) (t : ℕ) :
    (s.goOn B t).alive = s.alive ∧ (s.goOn B t).xHandle = s.xHandle ∧
      ∀ h, (s.goOn B t).tasks.Live h ↔ s.tasks.Live h := by
  unfold goOn
  split
  · exact ⟨rfl, rfl, fun _ => HandleTable.live_update⟩
  · exact ⟨rfl, rfl, fun _ => Iff.rfl⟩

/-- **A step of a task is safe and does not leave the protocol's state.** -/
theorem matches_goOn {s : BlinkSystem} {u : Use} (h : s.Matches u) (t : ℕ) :
    s.Safe B (.goOn t) ∧ (s.goOn B t).Matches u := by
  have hnext : (s.goOn B t).Matches u := by
    cases u with
    | idle => rwa [goOn_of_not_live (h.2.2 t)]
    | gone => rwa [goOn_of_not_live (h.2.2 t)]
    | running =>
        obtain ⟨halive, hhandle, hlive⟩ := goOn_frame (B := B) s t
        obtain ⟨hs, t₀, ht₀, honly⟩ := h
        exact ⟨halive.trans hs, t₀, hhandle.trans ht₀, fun t' => (hlive t').trans (honly t')⟩
  refine ⟨⟨?_, hnext.atMostOne⟩, hnext⟩
  rintro t' heq hlive
  cases u with
  | idle => exact absurd hlive (h.2.2 t')
  | gone => exact absurd hlive (h.2.2 t')
  | running => exact h.1

/-- An operation that is not allowed leads to a second task, or to one without an object. -/
theorem exists_unsafe_of_not_allowed {s : BlinkSystem} {u : Use} {o : BlinkOp}
    (h : s.Matches u) (ho : ¬ BlinkAllowed B u o) :
    ∃ as : List BlinkAct, as.filterMap BlinkAct.op? = [o] ∧ ¬ Along (step B) (Safe B) s as := by
  cases u with
  | idle => cases o <;> exact absurd trivial ho
  | running =>
      obtain ⟨-, t, -, honly⟩ := h
      cases o with
      | stop => exact absurd trivial ho
      | start =>
          exact ⟨[.op .start], rfl, fun hs => HandleTable.not_atMostOne_alloc honly.live _ hs.1.2⟩
      | destroy =>
          have hstops : B.stopsOnDestroy = false := Bool.eq_false_iff.2 ho
          have hdestroy : s.destroy B = { s with alive := false } := by
            simp only [destroy, hstops]
            rfl
          refine ⟨[.op .destroy, .goOn t], rfl, fun hs => ?_⟩
          have hgone : (s.destroy B).alive = true := by
            refine hs.2.1.1 t rfl ?_
            change (s.destroy B).tasks.Live t
            rw [hdestroy]
            exact honly.live
          rw [hdestroy] at hgone
          cases hgone
  | gone =>
      cases o with
      | stop => exact absurd trivial ho
      | destroy => exact absurd trivial ho
      | start =>
          refine ⟨[.op .start, .goOn s.tasks.next], rfl, fun hs => ?_⟩
          have hlive : s.start.tasks.Live s.tasks.next := HandleTable.live_alloc.2 (Or.inl rfl)
          have halive : s.alive = true := hs.2.1.1 _ rfl hlive
          rw [h.1] at halive
          cases halive

end BlinkSystem

/-- How an object of either class may be used. -/
def blinkProtocol (B : BlinkTask) : Protocol BlinkSystem BlinkAct BlinkOp Use where
  step := BlinkSystem.step B
  Safe := BlinkSystem.Safe B
  op? := BlinkAct.op?
  op := BlinkAct.op
  next := blinkNext
  Allowed := BlinkAllowed B
  Matches := BlinkSystem.Matches
  op?_op := fun _ => rfl
  follows_op := by
    rintro s u (o' | t) o hop h ho
    · cases hop
      have hnext := BlinkSystem.matches_op h ho
      exact ⟨⟨fun t ht => BlinkAct.noConfusion ht, hnext.atMostOne⟩, hnext⟩
    · cases hop
  follows_own := by
    rintro s u (o | t) hop h
    · cases hop
    · exact BlinkSystem.matches_goOn h t
  unsafe_of_not_allowed := fun _ _ _ h ho => BlinkSystem.exists_unsafe_of_not_allowed h ho

theorem blinkProtocol_init (B : BlinkTask) : (blinkProtocol B).Matches .init .idle :=
  BlinkSystem.matches_init

/-! ### All interleavings -/

/-- **The exact protocol of either class.**  Every interleaving of some operations with the tasks is
safe — at most one task is live after each act, and no task runs on a destroyed object — exactly
when the object is never started while a task of it is live or after its destruction, and, if its
destructor does not stop the task, never destroyed while one is live. -/
theorem blink_safe_iff (B : BlinkTask) (os : List BlinkOp) :
    (∀ acts : List BlinkAct, acts.filterMap BlinkAct.op? = os →
        Along (BlinkSystem.step B) (BlinkSystem.Safe B) .init acts) ↔
      Along blinkNext (BlinkAllowed B) .idle os :=
  (blinkProtocol B).safe_iff (blinkProtocol_init B) os

/-! ### The square wave -/

/-- What is done at the pin in the `i`-th step of a square wave: 1 and 0 in turn, starting with 1,
with one delay after each. -/
def waveAct (B : BlinkTask) (i : ℕ) : PinAct :=
  if i % 4 = 0 then .put B.pin true else if i % 4 = 2 then .put B.pin false else .delay B.delay

/-- The first `n` steps of a square wave. -/
def wave (B : BlinkTask) (n : ℕ) : List PinAct := (List.range n).map (waveAct B)

/-- Of some acts: how many were starts, whether a stop or a destruction has come after the last
start, and how many steps the task of the last start took before that. -/
structure Tally where
  starts : ℕ
  running : Bool
  steps : ℕ

/-- One more act.  Handles are given out from 0, one for each start. -/
def Tally.count (c : Tally) : BlinkAct → Tally
  | .op .start => ⟨c.starts + 1, true, 0⟩
  | .op .stop => { c with running := false }
  | .op .destroy => { c with running := false }
  | .goOn t => if c.running ∧ t + 1 = c.starts then { c with steps := c.steps + 1 } else c

def tally (acts : List BlinkAct) : Tally := run Tally.count ⟨0, false, 0⟩ acts

/-- Where a task is after `n` steps. -/
def phase (n : ℕ) : BlinkPc := BlinkPc.next^[n] .rising

theorem phase_succ (n : ℕ) : phase (n + 1) = (phase n).next := Function.iterate_succ_apply' ..

/-- The loop goes round in four steps, one after another those of the wave. -/
theorem act_phase (B : BlinkTask) (n : ℕ) : (phase n).act B = waveAct B n := by
  have hround : ∀ i, phase (i + 4) = phase i := by
    intro i
    rw [phase_succ, phase_succ, phase_succ, phase_succ]
    cases phase i <;> rfl
  induction n using Nat.strong_induction_on with
  | _ n ih =>
      match n with
      | 0 => rfl
      | 1 => rfl
      | 2 => rfl
      | 3 => rfl
      | i + 4 =>
          rw [hround, ih i (by omega), waveAct, waveAct, Nat.add_mod_right]

theorem wave_succ (B : BlinkTask) (n : ℕ) : wave B (n + 1) = wave B n ++ [(phase n).act B] := by
  rw [wave, List.range_succ, List.map_append, act_phase]
  rfl

namespace BlinkSystem

variable {B : BlinkTask}

/-- **What holds after some acts**: the log is as much of the wave as the task of the last start
took steps, and that task, as long as it is live, is where those steps lead. -/
structure Waves (B : BlinkTask) (s : BlinkSystem) (c : Tally) : Prop where
  next : s.tasks.next = c.starts
  log : s.acts = wave B c.steps
  get : ∀ t, s.tasks.get t = if c.running ∧ t + 1 = c.starts then some (phase c.steps) else none

theorem waves_init (B : BlinkTask) : init.Waves B ⟨0, false, 0⟩ :=
  ⟨rfl, rfl, fun _ => by simp [init, HandleTable.empty]⟩

/-- The task of a start is at the beginning of the wave. -/
theorem waves_start {s : BlinkSystem} {c : Tally} (h : s.Waves B c) (hvacant : s.tasks.Vacant) :
    s.start.Waves B (c.count (.op .start)) := by
  refine ⟨congrArg (· + 1) h.next, rfl, fun t => ?_⟩
  have hdead : s.tasks.get t = none := not_not.1 (hvacant t)
  have hget : s.start.tasks.get t = if t = s.tasks.next then some .rising else s.tasks.get t :=
    HandleTable.get_alloc ..
  rw [hget, hdead, h.next]
  simp [Tally.count, phase]

/-- An operation that leaves no task ends the wave where it is. -/
theorem waves_end {s s' : BlinkSystem} {c : Tally} (h : s.Waves B c)
    (hnext : s'.tasks.next = s.tasks.next) (hlog : s'.acts = s.acts) (hvacant : s'.tasks.Vacant) :
    s'.Waves B { c with running := false } := by
  refine ⟨hnext.trans h.next, hlog.trans h.log, fun t => ?_⟩
  have hdead : s'.tasks.get t = none := not_not.1 (hvacant t)
  simp [hdead]

theorem stop_frame (s : BlinkSystem) :
    s.stop.tasks.next = s.tasks.next ∧ s.stop.acts = s.acts := by
  unfold stop
  split <;> exact ⟨rfl, rfl⟩

theorem destroy_frame (s : BlinkSystem) :
    (s.destroy B).tasks.next = s.tasks.next ∧ (s.destroy B).acts = s.acts := by
  unfold destroy
  split
  · exact stop_frame s
  · exact ⟨rfl, rfl⟩

/-- A step of the live task is the next one of the wave; no other handle is a task's. -/
theorem waves_goOn {s : BlinkSystem} {c : Tally} (h : s.Waves B c) (t : ℕ) :
    (s.goOn B t).Waves B (c.count (.goOn t)) := by
  have ht := h.get t
  by_cases hlive : c.running ∧ t + 1 = c.starts
  · rw [if_pos hlive] at ht
    have hgo : s.goOn B t = { s with
        tasks := s.tasks.update t fun _ => (phase c.steps).next
        acts := s.acts ++ [(phase c.steps).act B] } := by
      simp only [goOn, ht]
    rw [hgo, Tally.count, if_pos hlive]
    refine ⟨h.next, ?_, fun t' => ?_⟩
    · rw [wave_succ, h.log]
    · rw [HandleTable.get_update, ht, h.get t', phase_succ]
      by_cases heq : t' = t
      · simp [heq, hlive]
      · have hne : ¬ (c.running = true ∧ t' + 1 = c.starts) := fun hor => heq (by omega)
        rw [if_neg heq, if_neg hne, if_neg hne]
  · rw [if_neg hlive] at ht
    rw [goOn_of_not_live (not_not.2 ht), Tally.count, if_neg hlive]
    exact h

/-- **The step lemma.** -/
theorem waves_step {s : BlinkSystem} {u : Use} {c : Tally} (h : s.Waves B c) (hu : s.Matches u)
    {a : BlinkAct} (ha : ∀ o, a = .op o → BlinkAllowed B u o) :
    (s.step B a).Waves B (c.count a) := by
  cases a with
  | goOn t => exact waves_goOn h t
  | op o =>
      have hmatches := matches_op hu (ha o rfl)
      cases o with
      | start =>
          cases u with
          | idle => exact waves_start h hu.2.2
          | running => exact (ha _ rfl).elim
          | gone => exact (ha _ rfl).elim
      | stop =>
          obtain ⟨hnext, hlog⟩ := stop_frame s
          refine waves_end h hnext hlog ?_
          cases u <;> exact hmatches.2.2
      | destroy =>
          obtain ⟨hnext, hlog⟩ := destroy_frame (B := B) s
          refine waves_end h hnext hlog ?_
          cases u <;> exact hmatches.2.2

/-- What the step lemma says of a run. -/
theorem waves_run {acts : List BlinkAct}
    (hacts : Along blinkNext (BlinkAllowed B) .idle (acts.filterMap BlinkAct.op?)) :
    (run (step B) init acts).Waves B (tally acts) := by
  induction acts using List.reverseRecOn with
  | nil => exact waves_init B
  | append_singleton acts a ih =>
      rw [List.filterMap_append] at hacts
      obtain ⟨hpre, hlast⟩ := along_append.1 hacts
      have hmatches := ((blinkProtocol B).matches_run (blinkProtocol_init B) hpre).2
      rw [tally, run_concat, run_concat]
      refine waves_step (ih hpre) hmatches ?_
      rintro o rfl
      exact hlast.1

end BlinkSystem

/-- **The pin is a square wave.**  In every interleaving whose operations keep to the protocol, what
was done at the pin since the last start is the beginning of a square wave — 1 and 0 in turn,
starting with 1, with one delay after each — and exactly as much of it as the task of that start
took steps while it was live. -/
theorem blink_wave (B : BlinkTask) (acts : List BlinkAct)
    (hacts : Along blinkNext (BlinkAllowed B) .idle (acts.filterMap BlinkAct.op?)) :
    (run (BlinkSystem.step B) .init acts).acts = wave B (tally acts).steps :=
  (BlinkSystem.waves_run hacts).log

/-- A task that is stopped before it sleeps, and started again. -/
theorem blink_wave_restart :
    (run (BlinkSystem.step (BlinkAgent 3 500)) .init
        [.op .start, .goOn 0, .op .stop, .op .start, .goOn 0, .goOn 1, .goOn 1, .goOn 1]).acts
      = [.put 3 true, .delay 500, .put 3 false] :=
  blink_wave (BlinkAgent 3 500)
    [.op .start, .goOn 0, .op .stop, .op .start, .goOn 0, .goOn 1, .goOn 1, .goOn 1]
    ⟨trivial, trivial, trivial, trivial⟩

/-! ### The blinking task of the main task -/

/-- The operations on the main task's local object in its first `n` steps: the start, and the
destructor when it has returned. -/
def blinkOps (w : Radio) (n : ℕ) : List BlinkOp :=
  .start :: if (mainTask w n).pc = .returned then [.destroy] else []

/-- **The main task and its blinking task**: however long it runs, and however the tasks are
interleaved, its use of the object is safe exactly when the radio initialises or the destructor
stops the task.  It uses a `BlinkAgent`, whose destructor does not. -/
theorem main_blink_safe_iff (B : BlinkTask) (w : Radio) (n : ℕ) :
    (∀ acts : List BlinkAct, acts.filterMap BlinkAct.op? = blinkOps w n →
        Along (BlinkSystem.step B) (BlinkSystem.Safe B) .init acts) ↔
      B.stopsOnDestroy = true ∨ w.init = 0 := by
  have hrule := (blinkProtocol B).safe_iff (blinkProtocol_init B) (blinkOps w n)
  refine hrule.trans ?_
  by_cases h : w.init = 0
  · have hpc : (mainTask w n).pc ≠ .returned := fun hpc => (mainTask_returned_iff w n).1 hpc h
    rw [blinkOps, if_neg hpc]
    exact iff_of_true ⟨trivial, trivial⟩ (Or.inr h)
  · rw [blinkOps, if_pos ((mainTask_returned_iff w n).2 h), or_iff_left h]
    constructor
    · exact fun hs => hs.2.1
    · exact fun hs => ⟨trivial, hs, trivial⟩

end TwinThing
