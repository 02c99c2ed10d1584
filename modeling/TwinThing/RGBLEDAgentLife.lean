/-
**The life of an LED agent: its task, its queue, and the object.**

An agent object holds two handles that the kernel gave it, of its queue and of its task, and four
operations manage them: `start` creates both and overwrites the handles it had, `stop` deletes the
task, `set` sends to the queue, and the destructor deletes the queue.  The task runs on the object
itself, so it reads the handle of the queue from there in every round of its loop.

Here the operations are interleaved with the steps of whatever tasks are live, at the granularity
of the loop: one step enters `run`, tests the queue, receives from it, or ticks.  What callers may
do is a machine with three states, and the agent behaves in every interleaving exactly when its
callers keep to that machine.  The main task does not: when the radio fails to initialise it
returns, and its local agent is destroyed with the task still running.

Main definitions:

* `TwinThing.LedSystem`, with `start`, `stop`, `set`, `destroy`, `goOn` — the object and the
  kernel, the four operations, and a step of a task;
* `TwinThing.LedSystem.Safe` — one act is safe: at most one task is live after it, and no task
  runs on a destroyed object or uses a deleted queue;
* `TwinThing.Use`, `TwinThing.Use.Allowed`, `TwinThing.agentProtocol` — the protocol of the
  callers;
* `TwinThing.serviceOps` — what the main task does with the agent of its service LED;
* `TwinThing.LedSystem.ledTask` — the running task without the kernel;
* `TwinThing.LedSystem.moves` — what an act is to it.

Main results:

* `TwinThing.LedSystem.matches_op`, `TwinThing.LedSystem.matches_goOn` — the system follows the
  protocol;
* `TwinThing.agent_safe_iff` — **every interleaving is safe** exactly when the operations keep to
  the protocol;
* `TwinThing.service_safe_iff` — the main task keeps to it exactly when the radio initialises;
* `TwinThing.LedSystem.ledTask_step`, `TwinThing.LedSystem.count_moves` — one act is the moves of
  the running task that `moves` says, and how many half rounds that makes;
* `TwinThing.LedSystem.started_refines` — a started agent refines `TwinThing.LedTask`.
-/

import TwinThing.Lib.Handles
import TwinThing.Lib.Protocol
import TwinThing.MainTask

set_option relaxedAutoImplicit false
set_option autoImplicit false

namespace TwinThing

open Runs

/-! ### The object and the kernel -/

/-- Where a task is in `run`: before the loop, or at one of the three things a round does. -/
inductive TaskPc
  | entering
  | testing
  | receiving
  | ticking
  deriving DecidableEq, Repr

/-- The agent object, with the kernel's tasks that run on it and the queues created for it. -/
structure LedSystem where
  rgbPWM : RGBpwm
  xRGBQueue : Option ℕ
  xHandle : Option ℕ
  /-- The object has not been destroyed; its fields keep their values when it is. -/
  alive : Bool
  tasks : HandleTable TaskPc
  queues : HandleTable (Fifo Command 10)

namespace LedSystem

/-- A constructed agent, before anything was created for it. -/
def init (pRgb pPrevRgb : Rgb16) : LedSystem where
  rgbPWM := .setup pRgb pPrevRgb
  xRGBQueue := none
  xHandle := none
  alive := true
  tasks := .empty
  queues := .empty

/-- Creating a queue and a task, whose handles replace those the object held. -/
def start (s : LedSystem) : LedSystem :=
  { s with
    xRGBQueue := some s.queues.next
    xHandle := some s.tasks.next
    queues := s.queues.alloc .empty
    tasks := s.tasks.alloc .entering }

/-- Deleting the task whose handle the object holds. -/
def stop (s : LedSystem) : LedSystem :=
  match s.xHandle with
  | some t => { s with tasks := s.tasks.free t, xHandle := none }
  | none => s

/-- Sending a command to the queue whose handle the object holds. -/
def set (s : LedSystem) (c : Command) : LedSystem :=
  match s.xRGBQueue with
  | some q => { s with queues := s.queues.update q fun f => f.push c }
  | none => s

/-- The destructor, which deletes the queue and leaves the task to itself. -/
def destroy (s : LedSystem) : LedSystem :=
  match s.xRGBQueue with
  | some q => { s with queues := s.queues.free q, alive := false }
  | none => { s with alive := false }

/-- The queue that the object's handle leads to, if it has not been deleted. -/
def queue (s : LedSystem) : Option (Fifo Command 10) := s.xRGBQueue.bind s.queues.get

/-- A task is scheduled and goes on to the next point of its loop; nothing happens if it is not
live. -/
def goOn (s : LedSystem) (t : ℕ) : LedSystem :=
  match s.tasks.get t with
  | some .entering =>
    { s with rgbPWM := runStart s.rgbPWM, tasks := s.tasks.update t fun _ => .testing }
  | some .testing =>
    { s with tasks := s.tasks.update t fun _ =>
        if 0 < (s.queue.getD .empty).items.length then .receiving else .ticking }
  | some .receiving =>
    match s.xRGBQueue, s.queue.bind Fifo.pop with
    | some q, some (c, f) =>
      { s with
        rgbPWM := obey s.rgbPWM (some c)
        queues := s.queues.update q fun _ => f
        tasks := s.tasks.update t fun _ => .ticking }
    | _, _ => { s with tasks := s.tasks.update t fun _ => .ticking }
  | some .ticking =>
    { s with rgbPWM := s.rgbPWM.tick.1, tasks := s.tasks.update t fun _ => .testing }
  | none => s

/-! ### Interleavings -/

/-- An operation on the object. -/
inductive Op
  | start
  | stop
  | set (c : Command)
  | destroy
  deriving DecidableEq, Repr

/-- An operation, or a step of the task with the given handle. -/
inductive Act
  | op (o : Op)
  | goOn (t : ℕ)
  deriving DecidableEq, Repr

/-- The operation an act is, if it is one. -/
def Act.op? : Act → Option Op
  | .op o => some o
  | .goOn _ => none

/-- What an operation does. -/
def apply (s : LedSystem) : Op → LedSystem
  | .start => s.start
  | .stop => s.stop
  | .set c => s.set c
  | .destroy => s.destroy

/-- What an act does. -/
def step (s : LedSystem) : Act → LedSystem
  | .op o => s.apply o
  | .goOn t => s.goOn t

/-- The object's handle leads to a queue that has not been deleted. -/
def HasQueue (s : LedSystem) : Prop := ∃ q, s.xRGBQueue = some q ∧ s.queues.Live q

/-- A live task that takes a step does so on an object that has not been destroyed, and where it
tests or receives, the queue has not been deleted. -/
def Sound (s : LedSystem) : Act → Prop
  | .op _ => True
  | .goOn t => s.tasks.Live t → s.alive = true ∧
      (s.tasks.get t = some .testing ∨ s.tasks.get t = some .receiving → s.HasQueue)

/-- An act is safe: it is sound, and at most one task is live after it. -/
def Safe (s : LedSystem) (a : Act) : Prop := s.Sound a ∧ (s.step a).tasks.AtMostOne

end LedSystem

/-! ### The protocol -/

open LedSystem (Op Act)

/-- How an agent is being used: no task of it is live, one is, or it has been destroyed. -/
inductive Use
  | idle
  | running
  | gone
  deriving DecidableEq, Repr

/-- The use of an agent after an operation. -/
def Use.next : Use → Op → Use
  | .idle, .start => .running
  | .running, .stop => .idle
  | _, .destroy => .gone
  | u, _ => u

/-- An agent is started only when no task of it is live and it has not been destroyed, and it is
destroyed only when no task of it is live. -/
def Use.Allowed : Use → Op → Prop
  | .running, .start => False
  | .gone, .start => False
  | .running, .destroy => False
  | _, _ => True

namespace LedSystem

/-- The system is where the protocol has it. -/
def Matches (s : LedSystem) : Use → Prop
  | .idle => s.alive = true ∧ s.xHandle = none ∧ s.tasks.Vacant
  | .running => s.alive = true ∧ s.HasQueue ∧ ∃ t, s.xHandle = some t ∧ s.tasks.Only t
  | .gone => s.alive = false ∧ s.xHandle = none ∧ s.tasks.Vacant

theorem matches_init (pRgb pPrevRgb : Rgb16) : (init pRgb pPrevRgb).Matches .idle :=
  ⟨rfl, rfl, HandleTable.vacant_empty⟩

/-- Wherever the protocol has the system, at most one task is live. -/
theorem Matches.atMostOne {s : LedSystem} {u : Use} (h : s.Matches u) : s.tasks.AtMostOne := by
  cases u with
  | idle => exact h.2.2.atMostOne
  | running =>
      obtain ⟨-, -, t, -, ht⟩ := h
      exact ht.atMostOne
  | gone => exact h.2.2.atMostOne

/-! ### The operations and the protocol -/

theorem stop_of_none {s : LedSystem} (h : s.xHandle = none) : s.stop = s := by
  rw [stop, h]

/-- A command leaves the handles, and what is live, as they are. -/
theorem set_frame (s : LedSystem) (c : Command) :
    (s.set c).alive = s.alive ∧ (s.set c).xHandle = s.xHandle ∧ (s.set c).tasks = s.tasks ∧
      ((s.set c).HasQueue ↔ s.HasQueue) := by
  unfold set
  cases hq : s.xRGBQueue with
  | none => exact ⟨rfl, rfl, rfl, Iff.rfl⟩
  | some q => exact ⟨rfl, rfl, rfl, by simp [HasQueue, hq]⟩

/-- The destructor leaves the tasks, and the handle of one, as they are. -/
theorem destroy_frame (s : LedSystem) :
    s.destroy.alive = false ∧ s.destroy.xHandle = s.xHandle ∧ s.destroy.tasks = s.tasks := by
  unfold destroy
  cases s.xRGBQueue with
  | none => exact ⟨rfl, rfl, rfl⟩
  | some q => exact ⟨rfl, rfl, rfl⟩

/-- An object without a task of it can be destroyed. -/
theorem matches_destroy {s : LedSystem} (hhandle : s.xHandle = none) (hvacant : s.tasks.Vacant) :
    s.destroy.Matches .gone := by
  obtain ⟨hgone, hkept, htasks⟩ := destroy_frame s
  exact ⟨hgone, hkept.trans hhandle, htasks ▸ hvacant⟩

theorem Matches.set {s : LedSystem} {u : Use} (h : s.Matches u) (c : Command) :
    (s.set c).Matches u := by
  obtain ⟨halive, hhandle, htasks, hqueue⟩ := set_frame s c
  cases u with
  | idle => exact ⟨halive.trans h.1, hhandle.trans h.2.1, htasks ▸ h.2.2⟩
  | gone => exact ⟨halive.trans h.1, hhandle.trans h.2.1, htasks ▸ h.2.2⟩
  | running =>
      obtain ⟨hs, hq, t, ht, honly⟩ := h
      exact ⟨halive.trans hs, hqueue.2 hq, t, hhandle.trans ht, htasks ▸ honly⟩

/-- **An allowed operation follows the protocol.** -/
theorem matches_op {s : LedSystem} {u : Use} {o : Op} (h : s.Matches u) (ho : u.Allowed o) :
    (s.apply o).Matches (u.next o) := by
  cases u with
  | idle =>
      obtain ⟨halive, hhandle, hvacant⟩ := h
      cases o with
      | start =>
          refine ⟨halive, ⟨_, rfl, ?_⟩, s.tasks.next, rfl, HandleTable.only_alloc hvacant _⟩
          exact HandleTable.live_alloc.2 (Or.inl rfl)
      | stop =>
          rw [apply, stop_of_none hhandle]
          exact ⟨halive, hhandle, hvacant⟩
      | set c => exact Matches.set (u := .idle) ⟨halive, hhandle, hvacant⟩ c
      | destroy => exact matches_destroy hhandle hvacant
  | running =>
      cases o with
      | start => exact ho.elim
      | destroy => exact ho.elim
      | set c => exact Matches.set (u := .running) h c
      | stop =>
          obtain ⟨halive, -, t, ht, honly⟩ := h
          have hstop : s.stop = { s with tasks := s.tasks.free t, xHandle := none } := by
            rw [stop, ht]
          rw [apply, hstop]
          exact ⟨halive, rfl, HandleTable.vacant_free honly⟩
  | gone =>
      obtain ⟨halive, hhandle, hvacant⟩ := h
      cases o with
      | start => exact ho.elim
      | stop =>
          rw [apply, stop_of_none hhandle]
          exact ⟨halive, hhandle, hvacant⟩
      | set c => exact Matches.set (u := .gone) ⟨halive, hhandle, hvacant⟩ c
      | destroy => exact matches_destroy hhandle hvacant

/-! ### The tasks and the protocol -/

/-- A task's step leaves the object's handles, and what is live, as they are. -/
theorem goOn_frame (s : LedSystem) (t : ℕ) :
    (s.goOn t).alive = s.alive ∧ (s.goOn t).xHandle = s.xHandle ∧
      (∀ h, (s.goOn t).tasks.Live h ↔ s.tasks.Live h) ∧ ((s.goOn t).HasQueue ↔ s.HasQueue) := by
  unfold goOn
  split
  · exact ⟨rfl, rfl, fun _ => HandleTable.live_update, Iff.rfl⟩
  · exact ⟨rfl, rfl, fun _ => HandleTable.live_update, Iff.rfl⟩
  · split
    · rename_i q c f hq _
      exact ⟨rfl, rfl, fun _ => HandleTable.live_update, by simp [HasQueue, hq]⟩
    · exact ⟨rfl, rfl, fun _ => HandleTable.live_update, Iff.rfl⟩
  · exact ⟨rfl, rfl, fun _ => HandleTable.live_update, Iff.rfl⟩
  · exact ⟨rfl, rfl, fun _ => Iff.rfl, Iff.rfl⟩

/-- Scheduling a handle that is not a live task's does nothing. -/
theorem goOn_of_not_live {s : LedSystem} {t : ℕ} (h : ¬ s.tasks.Live t) : s.goOn t = s := by
  have hnone : s.tasks.get t = none := not_not.1 h
  rw [goOn, hnone]

/-- **A step of a task is sound and does not leave the protocol's state.** -/
theorem matches_goOn {s : LedSystem} {u : Use} (h : s.Matches u) (t : ℕ) :
    s.Sound (.goOn t) ∧ (s.goOn t).Matches u := by
  cases u with
  | idle => exact ⟨fun hlive => absurd hlive (h.2.2 t), (goOn_of_not_live (h.2.2 t)).symm ▸ h⟩
  | gone => exact ⟨fun hlive => absurd hlive (h.2.2 t), (goOn_of_not_live (h.2.2 t)).symm ▸ h⟩
  | running =>
      obtain ⟨halive, hhandle, htasks, hqueue⟩ := goOn_frame s t
      obtain ⟨hs, hq, t₀, ht₀, honly⟩ := h
      refine ⟨fun _ => ⟨hs, fun _ => hq⟩, halive.trans hs, hqueue.2 hq, t₀, hhandle.trans ht₀, ?_⟩
      exact fun t' => (htasks t').trans (honly t')

/-! ### All interleavings -/

/-- An operation that is not allowed is unsafe, or the next step of a task is. -/
theorem exists_unsafe_of_not_allowed {s : LedSystem} {u : Use} {o : Op} (h : s.Matches u)
    (ho : ¬ u.Allowed o) :
    ∃ acts : List Act, acts.filterMap Act.op? = [o] ∧ ¬ Along step Safe s acts := by
  cases u with
  | idle => cases o <;> exact absurd trivial ho
  | running =>
      obtain ⟨-, -, t, -, honly⟩ := h
      cases o with
      | stop => exact absurd trivial ho
      | set c => exact absurd trivial ho
      | start =>
          -- the new task is a second one
          exact ⟨[.op .start], rfl, fun hs => HandleTable.not_atMostOne_alloc honly.live _ hs.1.2⟩
      | destroy =>
          -- the task goes on without the object
          obtain ⟨hgone, -, htasks⟩ := destroy_frame s
          refine ⟨[.op .destroy, .goOn t], rfl, fun hs => ?_⟩
          have hlive : s.destroy.tasks.Live t := htasks.symm ▸ honly.live
          have halive : s.destroy.alive = true := (hs.2.1.1 hlive).1
          exact Bool.noConfusion (hgone.symm.trans halive)
  | gone =>
      cases o with
      | stop => exact absurd trivial ho
      | set c => exact absurd trivial ho
      | destroy => exact absurd trivial ho
      | start =>
          -- the new task has no object
          refine ⟨[.op .start, .goOn s.tasks.next], rfl, fun hs => ?_⟩
          have hlive : s.start.tasks.Live s.tasks.next := HandleTable.live_alloc.2 (Or.inl rfl)
          have halive : s.start.alive = true := (hs.2.1.1 hlive).1
          exact Bool.noConfusion (h.1.symm.trans halive)

end LedSystem

/-- How an agent may be used. -/
def agentProtocol : Protocol LedSystem Act Op Use where
  step := LedSystem.step
  Safe := LedSystem.Safe
  op? := Act.op?
  op := Act.op
  next := Use.next
  Allowed := Use.Allowed
  Matches := LedSystem.Matches
  op?_op := fun _ => rfl
  follows_op := by
    rintro s u (o' | t) o hop h ho
    · cases hop
      have hnext := LedSystem.matches_op h ho
      exact ⟨⟨trivial, hnext.atMostOne⟩, hnext⟩
    · cases hop
  follows_own := by
    rintro s u (o | t) hop h
    · cases hop
    · obtain ⟨hsound, hnext⟩ := LedSystem.matches_goOn h t
      exact ⟨⟨hsound, hnext.atMostOne⟩, hnext⟩
  unsafe_of_not_allowed := fun _ _ _ h ho => LedSystem.exists_unsafe_of_not_allowed h ho

theorem agentProtocol_init (pRgb pPrevRgb : Rgb16) :
    agentProtocol.Matches (.init pRgb pPrevRgb) .idle :=
  LedSystem.matches_init pRgb pPrevRgb

/-- **Every interleaving is safe** — at most one task is live in every state it reaches, and no
task runs on a destroyed object or uses a deleted queue — exactly when the agent is never started
while a task of it is live or after its destruction, and never destroyed while a task of it is
live. -/
theorem agent_safe_iff (pRgb pPrevRgb : Rgb16) (os : List Op) :
    (∀ acts : List Act, acts.filterMap Act.op? = os →
        Along LedSystem.step LedSystem.Safe (.init pRgb pPrevRgb) acts) ↔
      Along Use.next Use.Allowed .idle os :=
  agentProtocol.safe_iff (agentProtocol_init pRgb pPrevRgb) os

/-- The main task's early return: its service LED is started, told that the link is down and that
it failed, and destroyed, and then its task goes on. -/
theorem early_return_unsafe :
    ¬ ∀ (pRgb pPrevRgb : Rgb16) (acts : List Act),
      Along LedSystem.step LedSystem.Safe (.init pRgb pPrevRgb) acts := by
  intro h
  obtain ⟨-, -, -, -, ⟨hsound, -⟩, -⟩ := h .black .black
    [.op .start, .op (.set (ConnectionObserver.command .linkDown)),
      .op (.set (ConnectionObserver.command .linkFailed)), .op .destroy, .goOn 0]
  have hlive : some TaskPc.entering ≠ none := Option.some_ne_none _
  exact Bool.noConfusion (hsound hlive).1

/-! ### The service LED of the main task -/

/-- What an event of the main task does with the agent of the service LED, if anything. -/
def MainEvent.serviceOp? : MainEvent → Option Op
  | .report e => some (.set (ConnectionObserver.command e))
  | .serviceSet c => some (.set c)
  | _ => none

/-- The operations on the service LED's agent in the first `n` steps of the main task, which owns
it: the start, the commands, and the destructor when the task has returned. -/
def serviceOps (w : Radio) (n : ℕ) : List Op :=
  .start :: (mainTask w n).log.filterMap MainEvent.serviceOp? ++
    if (mainTask w n).pc = .returned then [.destroy] else []

/-- Only a radio that fails to initialise makes the main task return. -/
theorem mainTask_returned_iff (w : Radio) (n : ℕ) : (mainTask w n).pc = .returned ↔ w.init ≠ 0 := by
  induction n with
  | zero =>
      by_cases h : w.init = 0
      · simp [mainTask, MainTask.start, h]
      · simp [mainTask, MainTask.start, h]
  | succ n ih =>
      rw [← ih, mainTask_succ]
      unfold MainTask.step
      split
      · split <;> simp_all [MainTask.attempt]
      · split <;> simp_all
      · split <;> simp_all [MainTask.attempt]
      · rfl

/-- Commands are allowed at any time, and change nothing about the use of an agent. -/
theorem along_serviceOp (u : Use) (es : List MainEvent) :
    Along Use.next Use.Allowed u (es.filterMap MainEvent.serviceOp?) ∧
      run Use.next u (es.filterMap MainEvent.serviceOp?) = u := by
  induction es with
  | nil => exact ⟨trivial, rfl⟩
  | cons e es ih =>
      cases he : e.serviceOp? with
      | none => rwa [List.filterMap_cons_none he]
      | some o =>
          have hset : u.Allowed o ∧ u.next o = u := by
            cases e <;> simp [MainEvent.serviceOp?] at he
            · cases u <;> exact he ▸ ⟨trivial, rfl⟩
            · cases u <;> exact he ▸ ⟨trivial, rfl⟩
          rw [List.filterMap_cons_some he, run_cons, hset.2]
          exact ⟨⟨hset.1, hset.2.symm ▸ ih.1⟩, ih.2⟩

/-- **The main task and its service LED**: however long it runs, and however the tasks are
interleaved, its use of the agent is safe exactly when the radio initialises. -/
theorem service_safe_iff (pRgb pPrevRgb : Rgb16) (w : Radio) (n : ℕ) :
    (∀ acts : List Act, acts.filterMap Act.op? = serviceOps w n →
        Along LedSystem.step LedSystem.Safe (.init pRgb pPrevRgb) acts) ↔ w.init = 0 := by
  refine (agentProtocol.safe_iff (agentProtocol_init pRgb pPrevRgb) (serviceOps w n)).trans ?_
  obtain ⟨hsets, hrun⟩ := along_serviceOp .running (mainTask w n).log
  have hstart : Along agentProtocol.next agentProtocol.Allowed .idle (serviceOps w n) ↔
      Along Use.next Use.Allowed .running
        (if (mainTask w n).pc = .returned then [Op.destroy] else []) := by
    show True ∧ Along Use.next Use.Allowed .running (_ ++ _) ↔ _
    rw [true_and, along_append, hrun]
    exact and_iff_right hsets
  rw [hstart]
  by_cases h : w.init = 0
  · have hpc : (mainTask w n).pc ≠ .returned := fun hpc => (mainTask_returned_iff w n).1 hpc h
    rw [if_neg hpc]
    exact iff_of_true trivial h
  · rw [if_pos ((mainTask_returned_iff w n).2 h)]
    exact iff_of_false (fun hs => hs.1) h

/-! ### The running task -/

/-- A command queued for a running task, or half a round of its loop. -/
def LedTask.move (l : LedTask) : Option Command → LedTask
  | some c => l.set c.mode c.r c.g c.b
  | none => l.step

/-- Where a task goes on to, by whether it finds a command waiting. -/
def TaskPc.next (found : Bool) : TaskPc → TaskPc
  | .entering => .testing
  | .testing => if found then .receiving else .ticking
  | .receiving => .ticking
  | .ticking => .testing

theorem TaskPc.next_ne_entering (found : Bool) (pc : TaskPc) : pc.next found ≠ .entering := by
  cases pc <;> cases found <;> decide

/-- What a task has in hand at a point of its round: each of its steps brings two, and each half
round costs three. -/
def TaskPc.pace : TaskPc → ℕ
  | .entering => 0
  | .testing => 2
  | .receiving => 4
  | .ticking => 3

namespace LedSystem

/-- The running task without the kernel: its agent with the queue itself, as it is when the task
enters its loop if it has not done so, and whether the task is about to tick. -/
def ledTask (s : LedSystem) (t : ℕ) : LedTask where
  agent := ⟨if s.tasks.get t = some .entering then runStart s.rgbPWM else s.rgbPWM, s.queue⟩
  inRound := decide (s.tasks.get t = some .ticking)

/-- The task with handle `t` serves the agent: it is the only one, and the queue exists. -/
structure Serving (s : LedSystem) (t : ℕ) : Prop where
  only : s.tasks.Only t
  hasQueue : s.HasQueue

/-- An act that neither creates nor deletes anything. -/
def Act.Keeps : Act → Prop
  | .op (.set _) => True
  | .op _ => False
  | .goOn _ => True

/-- The command an act queues, if it queues one. -/
def Act.command? : Act → Option Command
  | .op (.set c) => some c
  | _ => none

/-- **What an act is to the running task**: a command queued, half a round, or nothing.  Testing a
queue in which a command is waiting is nothing, since the command is still there. -/
def moves (s : LedSystem) : Act → List (Option Command)
  | .op (.set c) => [some c]
  | .op _ => []
  | .goOn t =>
    match s.tasks.get t with
    | none => []
    | some .entering => []
    | some .testing => if 0 < (s.queue.getD .empty).items.length then [] else [none]
    | some .receiving => [none]
    | some .ticking => [none]

theorem Serving.get_of_ne {s : LedSystem} {t t' : ℕ} (h : s.Serving t) (hne : t' ≠ t) :
    s.tasks.get t' = none :=
  not_not.1 fun hlive => hne ((h.only t').1 hlive)

theorem queue_of_hasQueue {s : LedSystem} (h : s.HasQueue) :
    ∃ q f, s.xRGBQueue = some q ∧ s.queues.get q = some f ∧ s.queue = some f := by
  obtain ⟨q, hq, hlive⟩ := h
  obtain ⟨f, hf⟩ := Option.ne_none_iff_exists'.1 hlive
  exact ⟨q, f, hq, hf, by rw [queue, hq, Option.bind_some, hf]⟩

theorem queue_ledTask {s : LedSystem} {f : Fifo Command 10} (h : s.queue = some f) (t : ℕ) :
    (s.ledTask t).agent.queue = f := by
  rw [ledTask, RGBLEDAgent.queue, h]
  rfl

/-- Queueing a command does to the running task what it does without the kernel. -/
theorem ledTask_set {s : LedSystem} {t : ℕ} (h : s.Serving t) (c : Command) :
    (s.set c).Serving t ∧ (s.set c).ledTask t = (s.ledTask t).move (some c) := by
  obtain ⟨-, -, htasks, hqueue⟩ := set_frame s c
  obtain ⟨q, f, hq, hf, hsq⟩ := queue_of_hasQueue h.hasQueue
  have hset : s.set c = { s with queues := s.queues.update q fun f => f.push c } := by
    rw [set, hq]
  refine ⟨⟨htasks ▸ h.only, hqueue.2 h.hasQueue⟩, ?_⟩
  have hpushed : (s.set c).queue = some (f.push c) := by
    rw [hset, queue, hq, Option.bind_some, HandleTable.get_update_self, hf]
    rfl
  rw [ledTask, ledTask, hpushed, hsq, hset]
  rfl

/-- Entering the loop is invisible. -/
theorem ledTask_of_entering {s : LedSystem} {t : ℕ} (hpc : s.tasks.get t = some .entering) :
    (s.goOn t).ledTask t = run LedTask.move (s.ledTask t) (s.moves (.goOn t)) := by
  have hgo : s.goOn t = { s with
      rgbPWM := runStart s.rgbPWM
      tasks := s.tasks.update t fun _ => .testing } := by
    simp only [goOn, hpc]
  have hmoves : s.moves (.goOn t) = [] := by simp only [moves, hpc]
  rw [hmoves, run_nil, hgo]
  simp [ledTask, HandleTable.get_update_self, hpc, queue]

/-- Testing an empty queue is half a round; testing one in which a command is waiting is
invisible. -/
theorem ledTask_of_testing {s : LedSystem} {t : ℕ} (hpc : s.tasks.get t = some .testing)
    (hq : s.HasQueue) :
    (s.goOn t).ledTask t = run LedTask.move (s.ledTask t) (s.moves (.goOn t)) := by
  obtain ⟨q, f, -, -, hsq⟩ := queue_of_hasQueue hq
  have hbetween : (s.ledTask t).inRound = false := by simp [ledTask, hpc]
  cases hpop : f.pop with
  | none =>
      have hitems := Fifo.items_of_pop_none hpop
      have hgo : s.goOn t = { s with tasks := s.tasks.update t fun _ => .ticking } := by
        simp only [goOn, hpc, hsq, Option.getD_some, hitems]
        rfl
      have hmoves : s.moves (.goOn t) = [none] := by simp [moves, hpc, hsq, hitems]
      rw [hmoves, run_cons, run_nil, LedTask.move, LedTask.step_of_between hbetween,
        LedTask.poll_of_none (queue_ledTask hsq t ▸ hpop), hgo]
      simp [ledTask, HandleTable.get_update_self, hpc, queue]
  | some p =>
      have hitems := Fifo.items_of_pop_some hpop
      have hgo : s.goOn t = { s with tasks := s.tasks.update t fun _ => .receiving } := by
        simp only [goOn, hpc, hsq, Option.getD_some, hitems]
        simp
      have hmoves : s.moves (.goOn t) = [] := by simp [moves, hpc, hsq, hitems]
      rw [hmoves, run_nil, hgo]
      simp [ledTask, HandleTable.get_update_self, hpc, queue]

/-- Receiving is half a round, whether a command is there or not. -/
theorem ledTask_of_receiving {s : LedSystem} {t : ℕ} (hpc : s.tasks.get t = some .receiving)
    (hq : s.HasQueue) :
    (s.goOn t).ledTask t = run LedTask.move (s.ledTask t) (s.moves (.goOn t)) := by
  obtain ⟨q, f, hhandle, hf, hsq⟩ := queue_of_hasQueue hq
  have hbetween : (s.ledTask t).inRound = false := by simp [ledTask, hpc]
  have hmoves : s.moves (.goOn t) = [none] := by simp only [moves, hpc]
  rw [hmoves, run_cons, run_nil, LedTask.move, LedTask.step_of_between hbetween]
  cases hpop : f.pop with
  | none =>
      have hgo : s.goOn t = { s with tasks := s.tasks.update t fun _ => .ticking } := by
        simp only [goOn, hpc, hsq, hhandle, Option.bind_some, hpop]
      rw [LedTask.poll_of_none (queue_ledTask hsq t ▸ hpop), hgo]
      simp [ledTask, HandleTable.get_update_self, hpc, queue]
  | some p =>
      have hgo : s.goOn t = { s with
          rgbPWM := obey s.rgbPWM (some p.1)
          queues := s.queues.update q fun _ => p.2
          tasks := s.tasks.update t fun _ => .ticking } := by
        simp only [goOn, hpc, hsq, hhandle, Option.bind_some, hpop]
      rw [LedTask.poll_of_some (queue_ledTask hsq t ▸ hpop), hgo]
      simp [ledTask, HandleTable.get_update_self, hpc, queue, hhandle, hf]

/-- Ticking is the other half of a round. -/
theorem ledTask_of_ticking {s : LedSystem} {t : ℕ} (hpc : s.tasks.get t = some .ticking) :
    (s.goOn t).ledTask t = run LedTask.move (s.ledTask t) (s.moves (.goOn t)) := by
  have hgo : s.goOn t = { s with
      rgbPWM := s.rgbPWM.tick.1
      tasks := s.tasks.update t fun _ => .testing } := by
    simp only [goOn, hpc]
  have hin : (s.ledTask t).inRound = true := by simp [ledTask, hpc]
  have hmoves : s.moves (.goOn t) = [none] := by simp only [moves, hpc]
  rw [hmoves, run_cons, run_nil, LedTask.move, LedTask.step_of_inRound hin, hgo]
  simp [ledTask, HandleTable.get_update_self, hpc, queue]

/-- A step of a task is to the one that serves what `moves` says. -/
theorem ledTask_goOn {s : LedSystem} {t : ℕ} (h : s.Serving t) (t' : ℕ) :
    (s.goOn t').Serving t ∧
      (s.goOn t').ledTask t = run LedTask.move (s.ledTask t) (s.moves (.goOn t')) := by
  by_cases heq : t' = t
  · rw [heq]
    obtain ⟨-, -, htasks, hqueue⟩ := goOn_frame s t
    refine ⟨⟨fun h' => (htasks h').trans (h.only h'), hqueue.2 h.hasQueue⟩, ?_⟩
    obtain ⟨pc, hpc⟩ := Option.ne_none_iff_exists'.1 h.only.live
    cases pc with
    | entering => exact ledTask_of_entering hpc
    | testing => exact ledTask_of_testing hpc h.hasQueue
    | receiving => exact ledTask_of_receiving hpc h.hasQueue
    | ticking => exact ledTask_of_ticking hpc
  · -- another handle is not a task's
    have hdead := h.get_of_ne heq
    have hmoves : s.moves (.goOn t') = [] := by simp only [moves, hdead]
    rw [goOn_of_not_live (not_not.2 hdead), hmoves]
    exact ⟨h, rfl⟩

/-- **The step lemma**: an act that creates and deletes nothing is to the running task what `moves`
says. -/
theorem ledTask_step {s : LedSystem} {t : ℕ} (h : s.Serving t) {a : Act} (ha : a.Keeps) :
    (s.step a).Serving t ∧ (s.step a).ledTask t = run LedTask.move (s.ledTask t) (s.moves a) := by
  cases a with
  | goOn t' => exact ledTask_goOn h t'
  | op o =>
      cases o with
      | set c => exact ledTask_set h c
      | start => exact ha.elim
      | stop => exact ha.elim
      | destroy => exact ha.elim

/-- **The agent refines its running task**: in any interleaving of its task with commands, it does
what the task does without the kernel. -/
theorem ledTask_run {s : LedSystem} {t : ℕ} (h : s.Serving t) {acts : List Act}
    (hacts : ∀ a ∈ acts, a.Keeps) :
    (run step s acts).Serving t ∧
      (run step s acts).ledTask t = run LedTask.move (s.ledTask t) (outputs step moves s acts) := by
  induction acts generalizing s with
  | nil => exact ⟨h, rfl⟩
  | cons a acts ih =>
      obtain ⟨hserving, hmove⟩ := ledTask_step h (hacts a List.mem_cons_self)
      rw [outputs, run_append, ← hmove]
      exact ih hserving fun b hb => hacts b (List.mem_cons_of_mem a hb)

/-! ### What the running task is given to do -/

theorem moves_goOn (s : LedSystem) (t : ℕ) :
    s.moves (.goOn t) = [] ∨ s.moves (.goOn t) = [none] := by
  simp only [moves]
  split
  · exact Or.inl rfl
  · exact Or.inl rfl
  · split
    · exact Or.inl rfl
    · exact Or.inr rfl
  · exact Or.inr rfl
  · exact Or.inr rfl

/-- The commands are those that are queued, in that order. -/
theorem reduceOption_moves (s : LedSystem) (acts : List Act) :
    (outputs step moves s acts).reduceOption = acts.filterMap Act.command? := by
  induction acts generalizing s with
  | nil => rfl
  | cons a acts ih =>
      have ha : (s.moves a).reduceOption = a.command?.toList := by
        cases a with
        | op o => cases o <;> rfl
        | goOn t =>
            rcases moves_goOn s t with hnone | hhalf
            · rw [hnone]; rfl
            · rw [hhalf]; rfl
      rw [outputs, List.reduceOption_append, ih, ha]
      cases hc : a.command? with
      | none => rw [List.filterMap_cons_none hc]; rfl
      | some c => rw [List.filterMap_cons_some hc]; rfl

theorem pc_goOn (s : LedSystem) (t : ℕ) :
    (s.goOn t).tasks.get t
      = (s.tasks.get t).map (TaskPc.next (0 < (s.queue.getD .empty).items.length)) := by
  cases hpc : s.tasks.get t with
  | none => rw [goOn_of_not_live (not_not.2 hpc), hpc]; rfl
  | some pc =>
      cases pc with
      | receiving =>
          simp only [goOn, hpc]
          split <;> simp [HandleTable.get_update_self, hpc, TaskPc.next]
      | _ => simp [goOn, hpc, HandleTable.get_update_self, TaskPc.next]

def pace (s : LedSystem) (t : ℕ) : ℕ := (s.tasks.get t).elim 0 TaskPc.pace

theorem pace_le (s : LedSystem) (t : ℕ) : s.pace t ≤ 4 := by
  unfold pace
  cases s.tasks.get t with
  | none => exact Nat.zero_le 4
  | some pc => cases pc <;> decide

theorem pace_goOn {s : LedSystem} {t : ℕ} (h : s.tasks.Live t) :
    (s.moves (.goOn t)).count none ≤ 1 ∧
      2 + s.pace t ≤ 3 * (s.moves (.goOn t)).count none + (s.goOn t).pace t := by
  obtain ⟨pc, hpc⟩ := Option.ne_none_iff_exists'.1 h
  rw [pace, pace, pc_goOn, hpc]
  cases pc with
  | testing =>
      by_cases hfound : 0 < (s.queue.getD .empty).items.length
      · simp [moves, hpc, hfound, TaskPc.next, TaskPc.pace]
      · simp [moves, hpc, hfound, TaskPc.next, TaskPc.pace]
  | _ => simp [moves, hpc, TaskPc.next, TaskPc.pace]

/-- An act that is not a step of the task is no half round, and leaves it where it is. -/
theorem pace_of_ne {s : LedSystem} {t : ℕ} (h : s.Serving t) {a : Act} (ha : a.Keeps)
    (hne : a ≠ .goOn t) : (s.moves a).count none = 0 ∧ (s.step a).pace t = s.pace t := by
  cases a with
  | goOn t' =>
      have hdead := h.get_of_ne fun heq => hne (congrArg Act.goOn heq)
      rw [step, goOn_of_not_live (not_not.2 hdead)]
      simp [moves, hdead]
  | op o =>
      cases o with
      | set c => exact ⟨rfl, by rw [step, apply, pace, (set_frame s c).2.2.1, pace]⟩
      | start => exact ha.elim
      | stop => exact ha.elim
      | destroy => exact ha.elim

/-- **How many half rounds the running task makes**: one in each of its steps at most, and, as a
round takes three steps at most, at least two in each three of them, up to what it has in hand. -/
theorem count_moves {s : LedSystem} {t : ℕ} (h : s.Serving t) {acts : List Act}
    (hacts : ∀ a ∈ acts, a.Keeps) :
    (outputs step moves s acts).count none ≤ acts.count (.goOn t) ∧
      2 * acts.count (.goOn t) + s.pace t
        ≤ 3 * (outputs step moves s acts).count none + (run step s acts).pace t := by
  induction acts generalizing s with
  | nil => exact ⟨Nat.le_refl 0, Nat.le_refl _⟩
  | cons a acts ih =>
      have hkeeps := hacts a List.mem_cons_self
      obtain ⟨hle, hpace⟩ := ih (ledTask_step h hkeeps).1 fun b hb =>
        hacts b (List.mem_cons_of_mem a hb)
      rw [outputs, List.count_append, run_cons]
      by_cases ha : a = .goOn t
      · subst ha
        obtain ⟨hle₁, hpace₁⟩ := pace_goOn h.only.live
        rw [List.count_cons_self]
        rw [step] at hle hpace ⊢
        omega
      · obtain ⟨hnone, hsame⟩ := pace_of_ne h hkeeps ha
        rw [List.count_cons_of_ne ha, hnone, Nat.zero_add]
        rw [hsame] at hpace
        exact ⟨hle, hpace⟩

/-- An agent that is started while no task of it is live is served by the new task. -/
theorem serving_start {s : LedSystem} (h : s.tasks.Vacant) :
    s.start.Serving s.tasks.next ∧
      s.start.ledTask s.tasks.next = ⟨⟨runStart s.rgbPWM, some .empty⟩, false⟩ := by
  have hpc : s.start.tasks.get s.tasks.next = some .entering := Function.update_self ..
  have hqueue : s.start.queue = some .empty := Function.update_self ..
  refine ⟨⟨HandleTable.only_alloc h _, _, rfl, HandleTable.live_alloc.2 (Or.inl rfl)⟩, ?_⟩
  rw [ledTask, hpc, hqueue]
  rfl

/-- **A started agent refines its task**: whatever commands are queued for it, and however they
are interleaved with its task, it is where the task without the kernel is after the moves that the
acts are to it.  Their commands are those that were queued, in that order; and there is at most one
half round for each step of the task, and at least two for each three of them but the first two. -/
theorem started_refines (pRgb pPrevRgb : Rgb16) {acts : List Act} (hacts : ∀ a ∈ acts, a.Keeps) :
    let s := (init pRgb pPrevRgb).start
    let ms := outputs step moves s acts
    (run step s acts).ledTask 0 = run LedTask.move (.enter pRgb pPrevRgb) ms ∧
      ms.reduceOption = acts.filterMap Act.command? ∧
      ms.count none ≤ acts.count (.goOn 0) ∧ 2 * acts.count (.goOn 0) ≤ 3 * ms.count none + 4 := by
  intro s ms
  obtain ⟨hserving, htask⟩ := serving_start (s := init pRgb pPrevRgb) HandleTable.vacant_empty
  obtain ⟨hle, hpace⟩ := count_moves hserving hacts
  refine ⟨?_, reduceOption_moves s acts, hle, ?_⟩
  · exact (ledTask_run hserving hacts).2.trans (congrArg (run LedTask.move · ms) htask)
  · exact (Nat.le_add_right ..).trans (hpace.trans (Nat.add_le_add_left (pace_le _ _) _))

/-- Green, queued before the task has tested its queue for the first time: entering the loop and
testing the queue are nothing, receiving and ticking half a round each. -/
theorem started_refines_green :
    let acts : List Act := [.goOn 0, .op (.set ⟨.on, 0, 0xFF, 0⟩), .goOn 0, .goOn 0, .goOn 0]
    (run step (init .black .black).start acts).ledTask 0
      = run LedTask.move (.enter .black .black) [some ⟨.on, 0, 0xFF, 0⟩, none, none] := by
  intro acts
  have hacts : ∀ a ∈ acts, a.Keeps := by simp [acts, Act.Keeps]
  have hmoves : outputs step moves (init .black .black).start acts
      = [some ⟨.on, 0, 0xFF, 0⟩, none, none] := by
    decide +kernel
  rw [← hmoves]
  exact (started_refines .black .black hacts).1

end LedSystem

end TwinThing
