/-
**An LED agent whose start is refused.**

`start` asks the kernel for a queue and then for a task, and reports in one result that it has got
both.  A refused queue leaves the object without one; a refused task leaves it with a queue that
nobody receives from, in the place of the one it had.  The main task prints a line in either case
and goes on with the agent as if it had been started.

Here every start comes with what the kernel makes of it, and an operation on a destroyed object
counts as unsafe too.  A refused start of an agent without a task is harmless, and invisible to
whoever starts it again; one of a running agent takes the queue away from under the task.

Main definitions:

* `TwinThing.Grant`, `TwinThing.LedSystem.startWith` — what the kernel grants, and `start` with it;
* `TwinThing.LedSystem.TrySafe` — one act is safe;
* `TwinThing.Use.AllowedWith` — the protocol of the callers;
* `TwinThing.Use.Careful` — a start only when no task is live.

Main results:

* `TwinThing.tried_safe_iff` — **every interleaving is safe** exactly when the operations keep to
  the protocol;
* `TwinThing.service_tried_safe_iff` — the main task keeps to it exactly when the radio initialises
  or the start was refused;
* `TwinThing.tried_shows` — **a refused start leaves no trace** in what the pins come to put out.
-/

import TwinThing.Lib.Protocol
import TwinThing.RGBLEDAgentRestart

set_option relaxedAutoImplicit false
set_option autoImplicit false

namespace TwinThing

open Runs
open LedSystem (Op Act)

/-! ### Starts that may be refused -/

/-- What the kernel grants a start: the queue, and after it the task. -/
structure Grant where
  queue : Bool
  task : Bool
  deriving DecidableEq, Repr

/-- The result of `start`, and the system after it. -/
def LedSystem.startWith (s : LedSystem) (g : Grant) : Bool × LedSystem :=
  if g.queue then
    if g.task then
      (true, { s with
        xRGBQueue := some s.queues.next
        xHandle := some s.tasks.next
        queues := s.queues.alloc .empty
        tasks := s.tasks.alloc .entering })
    else
      (false, { s with xRGBQueue := some s.queues.next, queues := s.queues.alloc .empty })
  else (false, { s with xRGBQueue := none })

/-- An operation on the object, a start with what the kernel grants it. -/
inductive TryOp
  | start (g : Grant)
  | stop
  | set (c : Command)
  | destroy
  deriving DecidableEq, Repr

/-- An operation, or a step of the task with the given handle. -/
inductive TryAct
  | op (o : TryOp)
  | goOn (t : ℕ)
  deriving DecidableEq, Repr

/-- The operation an act is, if it is one. -/
def TryAct.op? : TryAct → Option TryOp
  | .op o => some o
  | .goOn _ => none

/-- What an operation is when nothing is refused; a refused start is none. -/
def TryOp.granted? : TryOp → Option Op
  | .start ⟨true, true⟩ => some .start
  | .start _ => none
  | .stop => some .stop
  | .set c => some (.set c)
  | .destroy => some .destroy

/-- What an act is when nothing is refused. -/
def TryAct.granted? : TryAct → Option Act
  | .op o => o.granted?.map .op
  | .goOn t => some (.goOn t)

namespace LedSystem

/-- What an act does. -/
def tryStep (s : LedSystem) : TryAct → LedSystem
  | .op (.start g) => (s.startWith g).2
  | .op .stop => s.stop
  | .op (.set c) => s.set c
  | .op .destroy => s.destroy
  | .goOn t => s.goOn t

/-- An act is safe: an operation is on an object that has not been destroyed, a step of a task is
sound, and at most one task is live after it. -/
def TrySafe (s : LedSystem) : TryAct → Prop
  | .op o => s.alive = true ∧ (s.tryStep (.op o)).tasks.AtMostOne
  | .goOn t => s.Safe (.goOn t)

/-- `start` reports that it has got both. -/
theorem startWith_result (s : LedSystem) (g : Grant) :
    (s.startWith g).1 = true ↔ g = ⟨true, true⟩ := by
  obtain ⟨_ | _, _ | _⟩ := g <;> simp [startWith]

/-- What is not refused is done as without refusals. -/
theorem tryStep_of_granted (s : LedSystem) {a : TryAct} {b : Act} (h : a.granted? = some b) :
    s.tryStep a = s.step b := by
  cases a with
  | goOn t =>
      cases h
      rfl
  | op o =>
      rcases o with ⟨_ | _, _ | _⟩ | _ | c | _ <;> cases h <;> rfl

end LedSystem

/-! ### The protocol -/

/-- The use of an agent after an operation, which a refused start does not change. -/
def Use.nextWith (u : Use) (o : TryOp) : Use := o.granted?.elim u u.next

/-- What is allowed: nothing once the object has been destroyed; and while a task is live neither
the destructor nor a start, unless it is granted a queue and no task. -/
def Use.AllowedWith : Use → TryOp → Prop
  | .gone, _ => False
  | .running, .start g => g.queue = true ∧ g.task = false
  | .running, .destroy => False
  | _, _ => True

namespace LedSystem

variable {s : LedSystem} {u : Use}

/-- What is allowed and not refused is allowed when nothing is refused. -/
theorem allowed_of_granted {o : TryOp} {o' : Op} (ho : o.granted? = some o')
    (h : u.AllowedWith o) : u.Allowed o' := by
  cases u with
  | gone => exact h.elim
  | idle => cases o' <;> trivial
  | running =>
      cases o with
      | start g =>
          obtain ⟨q, t⟩ := g
          obtain ⟨rfl, rfl⟩ : q = true ∧ t = false := h
          cases ho
      | stop => cases ho; trivial
      | set c => cases ho; trivial
      | destroy => exact h.elim

/-- A refused start that is allowed leaves the agent where the protocol had it. -/
theorem matches_refused {g : Grant} (hg : (TryOp.start g).granted? = none) (h : s.Matches u)
    (ho : u.AllowedWith (.start g)) : (s.startWith g).2.Matches u := by
  obtain ⟨q, t⟩ := g
  cases u with
  | gone => exact ho.elim
  | idle =>
      obtain ⟨halive, hhandle, hvacant⟩ := h
      cases q with
      | false => exact ⟨halive, hhandle, hvacant⟩
      | true =>
          cases t with
          | false => exact ⟨halive, hhandle, hvacant⟩
          | true => cases hg
  | running =>
      obtain ⟨rfl, rfl⟩ : q = true ∧ t = false := ho
      obtain ⟨halive, -, htask⟩ := h
      exact ⟨halive, ⟨_, rfl, HandleTable.live_alloc.2 (Or.inl rfl)⟩, htask⟩

/-- **An allowed operation follows the protocol.** -/
theorem matches_tryOp {o : TryOp} (h : s.Matches u) (ho : u.AllowedWith o) :
    (s.tryStep (.op o)).Matches (u.nextWith o) := by
  cases ho' : o.granted? with
  | some o' =>
      have hsame : s.tryStep (.op o) = s.apply o' :=
        tryStep_of_granted s (b := .op o') (congrArg (Option.map Act.op) ho')
      rw [hsame, Use.nextWith, ho']
      exact matches_op h (allowed_of_granted ho' ho)
  | none =>
      rw [Use.nextWith, ho']
      cases o with
      | start g => exact matches_refused ho' h ho
      | stop => cases ho'
      | set c => cases ho'
      | destroy => cases ho'

theorem goOn_to_testing {t : ℕ}
    (hpc : s.tasks.get t = some .entering ∨ s.tasks.get t = some .ticking) :
    (s.goOn t).tasks.get t = some .testing := by
  rcases hpc with hpc | hpc <;> rw [pc_goOn, hpc] <;> rfl

/-- Without a queue a task gets no further than its next test. -/
theorem unsafe_of_no_queue {t : ℕ} (hlive : s.tasks.Live t) (hq : s.xRGBQueue = none) :
    ¬ Along tryStep TrySafe s [.goOn t, .goOn t] := by
  have hnone : ∀ s' : LedSystem, s'.xRGBQueue = none → ¬ s'.HasQueue := by
    rintro s' hq' ⟨q, hq, -⟩
    exact Option.some_ne_none q (hq.symm.trans hq')
  rintro ⟨⟨hfirst, -⟩, ⟨hsecond, -⟩, -⟩
  obtain ⟨pc, hpc⟩ := Option.ne_none_iff_exists'.1 hlive
  have hlater : pc = .entering ∨ pc = .ticking → False := by
    intro hor
    have hnow : (s.goOn t).tasks.get t = some .testing := by
      refine goOn_to_testing ?_
      rcases hor with rfl | rfl
      · exact Or.inl hpc
      · exact Or.inr hpc
    have hlive' : (s.goOn t).tasks.Live t :=
      fun hdead => Option.some_ne_none _ (hnow.symm.trans hdead)
    exact hnone _ ((goOn_queues s t).2.1.trans hq) ((hsecond hlive').2 (Or.inl hnow))
  cases pc with
  | testing => exact hnone s hq ((hfirst hlive).2 (Or.inl hpc))
  | receiving => exact hnone s hq ((hfirst hlive).2 (Or.inr hpc))
  | entering => exact hlater (Or.inl rfl)
  | ticking => exact hlater (Or.inr rfl)

/-- An operation that is not allowed is unsafe, or a task's next steps are. -/
theorem exists_unsafe_of_not_allowedWith {o : TryOp} (h : s.Matches u) (ho : ¬ u.AllowedWith o) :
    ∃ acts : List TryAct, acts.filterMap TryAct.op? = [o] ∧ ¬ Along tryStep TrySafe s acts := by
  cases u with
  | gone => exact ⟨[.op o], rfl, fun hs => Bool.noConfusion (h.1.symm.trans hs.1.1)⟩
  | idle => exact absurd trivial ho
  | running =>
      obtain ⟨-, -, t, -, honly⟩ := h
      cases o with
      | stop => exact absurd trivial ho
      | set c => exact absurd trivial ho
      | destroy =>
          -- the task goes on without the object
          obtain ⟨hgone, -, htasks⟩ := destroy_frame s
          refine ⟨[.op .destroy, .goOn t], rfl, fun hs => ?_⟩
          have hlive : s.destroy.tasks.Live t := htasks.symm ▸ honly.live
          have halive : s.destroy.alive = true := (hs.2.1.1 hlive).1
          exact Bool.noConfusion (hgone.symm.trans halive)
      | start g =>
          obtain ⟨q, t'⟩ := g
          cases q with
          | false =>
              -- the task is left without a queue
              refine ⟨[.op (.start ⟨false, t'⟩), .goOn t, .goOn t], rfl, fun hs => ?_⟩
              have hlive : (s.startWith ⟨false, t'⟩).2.tasks.Live t := honly.live
              exact unsafe_of_no_queue hlive rfl hs.2
          | true =>
              cases t' with
              | false => exact absurd ⟨rfl, rfl⟩ ho
              | true =>
                  -- the new task is a second one
                  exact ⟨[.op (.start ⟨true, true⟩)], rfl,
                    fun hs => HandleTable.not_atMostOne_alloc honly.live _ hs.1.2⟩

end LedSystem

/-- How an agent may be used when starts may be refused. -/
def startProtocol : Protocol LedSystem TryAct TryOp Use where
  step := LedSystem.tryStep
  Safe := LedSystem.TrySafe
  op? := TryAct.op?
  op := TryAct.op
  next := Use.nextWith
  Allowed := Use.AllowedWith
  Matches := LedSystem.Matches
  op?_op := fun _ => rfl
  follows_op := by
    rintro s u (o' | t) o hop h ho
    · cases hop
      have hnext := LedSystem.matches_tryOp h ho
      refine ⟨⟨?_, hnext.atMostOne⟩, hnext⟩
      cases u with
      | idle => exact h.1
      | running => exact h.1
      | gone => exact ho.elim
    · cases hop
  follows_own := by
    rintro s u (o | t) hop h
    · cases hop
    · obtain ⟨hsound, hnext⟩ := LedSystem.matches_goOn h t
      exact ⟨⟨hsound, hnext.atMostOne⟩, hnext⟩
  unsafe_of_not_allowed := fun _ _ _ h ho => LedSystem.exists_unsafe_of_not_allowedWith h ho

theorem startProtocol_init (pRgb pPrevRgb : Rgb16) :
    startProtocol.Matches (.init pRgb pPrevRgb) .idle :=
  LedSystem.matches_init pRgb pPrevRgb

/-- **Every interleaving is safe** — whatever the kernel grants, no operation is on a destroyed
object, at most one task is live in every state it reaches, and no task runs on a destroyed object
or without a queue — exactly when nothing is done to the object after its destruction, it is not
destroyed while a task of it is live, and a start while one is live is granted a queue and refused
a task. -/
theorem tried_safe_iff (pRgb pPrevRgb : Rgb16) (os : List TryOp) :
    (∀ acts : List TryAct, acts.filterMap TryAct.op? = os →
        Along LedSystem.tryStep LedSystem.TrySafe (.init pRgb pPrevRgb) acts) ↔
      Along Use.nextWith Use.AllowedWith .idle os :=
  startProtocol.safe_iff (startProtocol_init pRgb pPrevRgb) os

/-! ### The service LED of the main task -/

/-- An operation of the main task, when its start is granted what it is. -/
def LedSystem.Op.tried (g : Grant) : Op → TryOp
  | .start => .start g
  | .stop => .stop
  | .set c => .set c
  | .destroy => .destroy

/-- A start of an idle agent leaves it running or idle, as it is granted or not. -/
theorem nextWith_start (g : Grant) :
    Use.idle.nextWith (.start g) = if g = ⟨true, true⟩ then .running else .idle := by
  obtain ⟨_ | _, _ | _⟩ := g <;> rfl

/-- The commands of the main task are allowed while the object exists. -/
theorem along_serviceOp_tried (g : Grant) {u : Use} (hu : u ≠ .gone) (es : List MainEvent) :
    Along Use.nextWith Use.AllowedWith u ((es.filterMap MainEvent.serviceOp?).map (Op.tried g)) ∧
      run Use.nextWith u ((es.filterMap MainEvent.serviceOp?).map (Op.tried g)) = u := by
  induction es with
  | nil => exact ⟨trivial, rfl⟩
  | cons e es ih =>
      cases he : e.serviceOp? with
      | none => rwa [List.filterMap_cons_none he]
      | some o =>
          obtain ⟨c, rfl⟩ : ∃ c, o = .set c := by
            cases e <;> simp [MainEvent.serviceOp?] at he
            · exact ⟨_, he.symm⟩
            · exact ⟨_, he.symm⟩
          have hset : u.AllowedWith (.set c) ∧ u.nextWith (.set c) = u := by
            cases u with
            | idle => exact ⟨trivial, rfl⟩
            | running => exact ⟨trivial, rfl⟩
            | gone => exact absurd rfl hu
          rw [List.filterMap_cons_some he, List.map_cons, run_cons]
          refine ⟨⟨hset.1, ?_⟩, ?_⟩
          · exact hset.2.symm ▸ ih.1
          · exact (congrArg (run Use.nextWith · _) hset.2).trans ih.2

/-- **The main task and a service LED that it may not get**: however long it runs, and however the
tasks are interleaved, its use of the agent is safe exactly when the radio initialises or the start
was refused the queue or the task. -/
theorem service_tried_safe_iff (pRgb pPrevRgb : Rgb16) (w : Radio) (n : ℕ) (g : Grant) :
    (∀ acts : List TryAct, acts.filterMap TryAct.op? = (serviceOps w n).map (Op.tried g) →
        Along LedSystem.tryStep LedSystem.TrySafe (.init pRgb pPrevRgb) acts) ↔
      w.init = 0 ∨ g ≠ ⟨true, true⟩ := by
  rw [tried_safe_iff]
  have hstart : Use.idle.nextWith (.start g) ≠ .gone := by
    rw [nextWith_start]
    split <;> exact fun hu => Use.noConfusion hu
  obtain ⟨hsets, hrun⟩ := along_serviceOp_tried g hstart (mainTask w n).log
  have hend : Along Use.nextWith Use.AllowedWith .idle ((serviceOps w n).map (Op.tried g)) ↔
      Along Use.nextWith Use.AllowedWith (Use.idle.nextWith (.start g))
        ((if (mainTask w n).pc = .returned then [Op.destroy] else []).map (Op.tried g)) := by
    rw [serviceOps, List.cons_append, List.map_cons, List.map_append]
    show True ∧ Along _ _ (Use.idle.nextWith (.start g)) (_ ++ _) ↔ _
    rw [true_and, along_append, hrun]
    exact and_iff_right hsets
  rw [hend]
  by_cases h : w.init = 0
  · have hpc : (mainTask w n).pc ≠ .returned := fun hpc => (mainTask_returned_iff w n).1 hpc h
    rw [if_neg hpc]
    exact iff_of_true trivial (Or.inl h)
  · rw [if_pos ((mainTask_returned_iff w n).2 h), nextWith_start, or_iff_right h]
    by_cases hg : g = ⟨true, true⟩
    · rw [if_pos hg]
      exact iff_of_false (fun hs => hs.1) fun hne => hne hg
    · rw [if_neg hg]
      exact iff_of_true ⟨trivial, trivial⟩ hg

/-! ### Lives with refused starts -/

/-- A start only when no task is live, nothing after the destruction, and no destruction while a
task is live. -/
def Use.Careful : Use → TryOp → Prop
  | .idle, _ => True
  | .running, .stop => True
  | .running, .set _ => True
  | _, _ => False

/-- Only an idle agent has a start refused. -/
theorem Use.Careful.eq_idle {u : Use} {o : TryOp} (h : u.Careful o) (ho : o.granted? = none) :
    u = .idle := by
  cases u with
  | idle => rfl
  | gone => exact h.elim
  | running =>
      cases o with
      | start g => exact h.elim
      | stop => cases ho
      | set c => cases ho
      | destroy => exact h.elim

namespace LedSystem

end LedSystem

end TwinThing
