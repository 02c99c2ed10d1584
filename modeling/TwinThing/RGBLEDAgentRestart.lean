/-
**Stopping an LED agent and starting it again.**

`stop` deletes the task of an agent wherever it is in its loop, and leaves the queue with whatever
is still in it; a second `start` creates another queue and another task on the same driver, which
may have been left in the middle of a blink and goes on putting out what it did until the new task
ticks.  This module follows an agent through any number of lives: in every interleaving that keeps
to the protocol, what the pins of a running agent come to put out depends on the commands since its
last start and on nothing before it, and the queues of its earlier lives are never deleted.

Main definitions:

* `TwinThing.sinceStart` — the commands since the last start;
* `TwinThing.LedSystem.Takes` — a command to a running agent finds room in its queue;
* `TwinThing.LedSystem.Renewed` — a running agent settles on what it was told since its start, and
  its driver is tended;
* `TwinThing.LedSystem.Leaked` — which of the queues it created exist.

Main results:

* `TwinThing.LedSystem.renewed_step`, `TwinThing.LedSystem.leaked_step` — every act of the protocol
  keeps that;
* `TwinThing.restarted_shows` — **a restarted agent is as good as new**;
* `TwinThing.restarts_leak` — **every start but the last leaks a queue**.
-/

import TwinThing.RGBLEDAgentLife

set_option relaxedAutoImplicit false
set_option autoImplicit false

namespace TwinThing

open Runs
open LedSystem (Op Act)

/-! ### Lives of an agent -/

/-- The commands since the last start. -/
def sinceStart (acts : List Act) : List Command :=
  acts.foldl (fun cs a =>
    match a with
    | .op .start => []
    | .op (.set c) => cs ++ [c]
    | _ => cs) []

@[simp] theorem sinceStart_start (acts : List Act) : sinceStart (acts ++ [.op .start]) = [] := by
  simp [sinceStart]

@[simp] theorem sinceStart_set (acts : List Act) (c : Command) :
    sinceStart (acts ++ [.op (.set c)]) = sinceStart acts ++ [c] := by
  simp [sinceStart]

theorem sinceStart_of_keeps {acts : List Act} {a : Act}
    (h : a = .op .stop ∨ a = .op .destroy ∨ ∃ t, a = .goOn t) :
    sinceStart (acts ++ [a]) = sinceStart acts := by
  rcases h with rfl | rfl | ⟨t, rfl⟩ <;> simp [sinceStart]

/-- The use of an agent after some acts. -/
def useAfter (acts : List Act) : Use := run Use.next .idle (acts.filterMap Act.op?)

/-- Only an idle agent may be started. -/
theorem Use.eq_idle {u : Use} (h : u.Allowed .start) : u = .idle := by
  cases u with
  | idle => rfl
  | running => exact h.elim
  | gone => exact h.elim

/-- The display an agent has when its task enters the loop. -/
def freshDisplay : RGBMode × Rgb16 := (.off, squares 0xFF 0xFF 0xFF)

/-- What the commands since the last start make of the display. -/
def renewedDisplay (acts : List Act) : RGBMode × Rgb16 :=
  (sinceStart acts).foldl display freshDisplay

theorem renewedDisplay_set (acts : List Act) (c : Command) :
    renewedDisplay (acts ++ [.op (.set c)]) = display (renewedDisplay acts) c := by
  rw [renewedDisplay, sinceStart_set, List.foldl_append]
  rfl

namespace LedSystem

/-- A command finds room in the queue, if a task is there to take it. -/
def Takes (s : LedSystem) : Act → Prop
  | .op (.set _) => ∀ t, s.tasks.Live t → ¬ (s.queue.getD .empty).Full
  | _ => True

/-- The agent is where the protocol has it, its driver is tended, and while it is running, its task
settles on what it was told since the last start. -/
structure Renewed (s : LedSystem) (acts : List Act) : Prop where
  follows : s.Matches (useAfter acts)
  tended : s.rgbPWM.Tended
  settled : useAfter acts = .running → ∃ t, s.Serving t ∧ (s.ledTask t).Inv ∧
    (s.ledTask t).settled = renewedDisplay acts

/-! ### What each act does -/

/-- A fresh task, whatever the driver was doing before. -/
theorem fresh_task (d : RGBpwm) :
    (⟨⟨runStart d, some .empty⟩, false⟩ : LedTask).Inv ∧
      (⟨⟨runStart d, some .empty⟩, false⟩ : LedTask).settled = freshDisplay := by
  have hoff : (runStart d).xMode = .off := rfl
  refine ⟨⟨rfl, fun hm => ?_, fun _ hm => ?_⟩, ?_⟩
  · exact RGBMode.noConfusion (hoff.symm.trans hm)
  · exact RGBMode.noConfusion (hoff.symm.trans hm)
  · rw [LedTask.settled, Mailbox.settled_of_empty display rfl]
    exact RGBpwm.steady_of_ne fun hm => RGBMode.noConfusion (hoff.symm.trans hm)

/-- The operations leave the driver to the task. -/
theorem rgbPWM_apply (s : LedSystem) (o : Op) : (s.apply o).rgbPWM = s.rgbPWM := by
  cases o with
  | start => rfl
  | stop => simp only [apply, stop]; split <;> rfl
  | set c => simp only [apply, set]; split <;> rfl
  | destroy => simp only [apply, destroy]; split <;> rfl

theorem tended_goOn {s : LedSystem} (h : s.rgbPWM.Tended) (t : ℕ) : (s.goOn t).rgbPWM.Tended := by
  unfold goOn
  split
  · exact tended_runStart h
  · exact h
  · split
    · rename_i c _ _ _
      exact tended_obey h (some c)
    · exact h
  · exact (RGBpwm.displayed_tick h).tended
  · exact h

theorem useAfter_op (acts : List Act) (o : Op) :
    useAfter (acts ++ [.op o]) = (useAfter acts).next o := by
  rw [useAfter, List.filterMap_append]
  exact run_concat ..

theorem useAfter_goOn (acts : List Act) (t : ℕ) : useAfter (acts ++ [.goOn t]) = useAfter acts := by
  rw [useAfter, List.filterMap_append]
  exact congrArg (run Use.next .idle) (List.append_nil _)

/-- Starting an agent makes it new. -/
theorem renewed_start {s : LedSystem} {acts : List Act} (h : s.Renewed acts)
    (ho : (useAfter acts).Allowed .start) : s.start.Renewed (acts ++ [.op .start]) := by
  have hmatches := matches_op h.follows ho
  rw [← useAfter_op] at hmatches
  refine ⟨hmatches, h.tended, fun _ => ?_⟩
  have hvacant : s.tasks.Vacant := by
    have hidle := h.follows
    rw [Use.eq_idle ho] at hidle
    exact hidle.2.2
  obtain ⟨hserving, htask⟩ := serving_start hvacant
  obtain ⟨hinv, hsettled⟩ := fresh_task s.rgbPWM
  refine ⟨s.tasks.next, hserving, htask.symm ▸ hinv, ?_⟩
  rw [htask, hsettled, renewedDisplay, sinceStart_start]
  rfl

/-- A command is one more thing it was told. -/
theorem renewed_set {s : LedSystem} {acts : List Act} (h : s.Renewed acts) {c : Command}
    (hroom : s.Takes (.op (.set c))) : (s.set c).Renewed (acts ++ [.op (.set c)]) := by
  have hsame : (useAfter acts).next (.set c) = useAfter acts := by cases useAfter acts <;> rfl
  have huse : useAfter (acts ++ [.op (.set c)]) = useAfter acts := (useAfter_op _ _).trans hsame
  refine ⟨huse.symm ▸ h.follows.set c, (rgbPWM_apply s (.set c)).symm ▸ h.tended, fun hu => ?_⟩
  obtain ⟨t, hserving, hinv, hsettled⟩ := h.settled (huse ▸ hu)
  obtain ⟨hserving', hmove⟩ := ledTask_set hserving c
  have hnot : ¬ (s.ledTask t).agent.queue.Full := hroom t hserving.only.live
  refine ⟨t, hserving', ?_, ?_⟩
  · rw [hmove]
    exact LedTask.inv_set hinv ..
  · rw [hmove, renewedDisplay_set, ← hsettled]
    exact LedTask.settled_set_of_not_full hinv hnot ..

/-- A step of a task changes nothing that matters. -/
theorem renewed_goOn {s : LedSystem} {acts : List Act} (h : s.Renewed acts) (t : ℕ) :
    (s.goOn t).Renewed (acts ++ [.goOn t]) := by
  have hsame : renewedDisplay (acts ++ [.goOn t]) = renewedDisplay acts := by
    rw [renewedDisplay, sinceStart_of_keeps (Or.inr (Or.inr ⟨t, rfl⟩)), renewedDisplay]
  have huse := useAfter_goOn acts t
  refine ⟨huse.symm ▸ (matches_goOn h.follows t).2, tended_goOn h.tended t, fun hu => ?_⟩
  obtain ⟨t₀, hserving, hinv, hsettled⟩ := h.settled (huse ▸ hu)
  obtain ⟨hserving', hmove⟩ := ledTask_goOn hserving t
  refine ⟨t₀, hserving', ?_⟩
  rw [hmove, hsame]
  rcases moves_goOn s t with hnone | hhalf
  · rw [hnone]
    exact ⟨hinv, hsettled⟩
  · rw [hhalf]
    exact ⟨LedTask.inv_step hinv, (LedTask.settled_step hinv).trans hsettled⟩

/-- After a stop or a destruction no task is left. -/
theorem renewed_end {s : LedSystem} {acts : List Act} (h : s.Renewed acts) {o : Op}
    (ho : (useAfter acts).Allowed o) (hend : o = .stop ∨ o = .destroy) :
    (s.apply o).Renewed (acts ++ [.op o]) := by
  have hmatches := matches_op h.follows ho
  rw [← useAfter_op] at hmatches
  refine ⟨hmatches, (rgbPWM_apply s o).symm ▸ h.tended, fun hu => ?_⟩
  rw [useAfter_op] at hu
  rcases hend with rfl | rfl <;> cases huse : useAfter acts <;> rw [huse] at hu <;> cases hu

/-- **The step lemma**: every act that keeps to the protocol, and whose command if it is one finds
room, keeps a running agent settling on what it was told since its start. -/
theorem renewed_step {s : LedSystem} {acts : List Act} (h : s.Renewed acts) {a : Act}
    (ha : ∀ o, a = .op o → (useAfter acts).Allowed o) (hroom : s.Takes a) :
    (s.step a).Renewed (acts ++ [a]) := by
  cases a with
  | goOn t => exact renewed_goOn h t
  | op o =>
      cases o with
      | start => exact renewed_start h (ha _ rfl)
      | set c => exact renewed_set h hroom
      | stop => exact renewed_end h (ha _ rfl) (Or.inl rfl)
      | destroy => exact renewed_end h (ha _ rfl) (Or.inr rfl)

theorem renewed_init (pRgb pPrevRgb : Rgb16) : (init pRgb pPrevRgb).Renewed [] :=
  ⟨matches_init pRgb pPrevRgb, (RGBpwm.displayed_setup pRgb pPrevRgb).tended,
    fun hu => Use.noConfusion hu⟩

/-- What the step lemma says of a run. -/
theorem renewed_run (pRgb pPrevRgb : Rgb16) {acts : List Act}
    (hops : Along Use.next Use.Allowed .idle (acts.filterMap Act.op?))
    (hroom : Along step Takes (init pRgb pPrevRgb) acts) :
    (run step (init pRgb pPrevRgb) acts).Renewed acts := by
  induction acts using List.reverseRecOn with
  | nil => exact renewed_init pRgb pPrevRgb
  | append_singleton acts a ih =>
      rw [List.filterMap_append] at hops
      obtain ⟨hpre, hlast⟩ := along_append.1 hops
      obtain ⟨hroompre, hroomlast⟩ := along_append.1 hroom
      rw [run_concat]
      refine renewed_step (ih hpre hroompre) ?_ hroomlast.1
      rintro o rfl
      exact hlast.1

/-- A live task is the one that serves. -/
theorem Renewed.serving {s : LedSystem} {acts : List Act} (h : s.Renewed acts) {t : ℕ}
    (hlive : s.tasks.Live t) :
    s.Serving t ∧ (s.ledTask t).Inv ∧ (s.ledTask t).settled = renewedDisplay acts := by
  have huse : useAfter acts = .running := by
    have hmatches := h.follows
    cases hu : useAfter acts with
    | running => rfl
    | idle => rw [hu] at hmatches; exact absurd hlive (hmatches.2.2 t)
    | gone => rw [hu] at hmatches; exact absurd hlive (hmatches.2.2 t)
  obtain ⟨t₀, hserving, hinv, hsettled⟩ := h.settled huse
  obtain rfl : t = t₀ := (hserving.only t).1 hlive
  exact ⟨hserving, hinv, hsettled⟩

/-! ### The driver itself -/

/-- Once it has entered its loop, the running task's driver is the agent's. -/
theorem rgbPWM_ledTask {s : LedSystem} {t : ℕ} (h : s.tasks.get t ≠ some .entering) :
    (s.ledTask t).agent.rgbPWM = s.rgbPWM :=
  if_neg h

theorem tended_ledTask {s : LedSystem} (h : s.rgbPWM.Tended) (t : ℕ) :
    (s.ledTask t).agent.rgbPWM.Tended := by
  by_cases hpc : s.tasks.get t = some .entering
  · rw [ledTask, if_pos hpc]
    exact tended_runStart h
  · rw [rgbPWM_ledTask hpc]
    exact h

/-- A task that has taken a step has entered its loop. -/
theorem rgbPWM_ledTask_goOn (s : LedSystem) (t : ℕ) :
    ((s.goOn t).ledTask t).agent.rgbPWM = (s.goOn t).rgbPWM := by
  refine rgbPWM_ledTask ?_
  rw [pc_goOn]
  intro hpc
  obtain ⟨pc, -, hnext⟩ := Option.map_eq_some_iff.1 hpc
  exact TaskPc.next_ne_entering _ pc hnext

/-- A task that takes some steps alone makes some half rounds: two in three steps, but the first
two. -/
theorem ledTask_replicate {s : LedSystem} {t : ℕ} (h : s.Serving t) (k : ℕ) :
    ∃ j, 2 * k ≤ 3 * j + 4 ∧
      (run step s (List.replicate k (.goOn t))).ledTask t = LedTask.step^[j] (s.ledTask t) := by
  have hkeeps : ∀ a ∈ List.replicate k (Act.goOn t), a.Keeps := by
    intro a ha
    rw [List.eq_of_mem_replicate ha]
    exact trivial
  obtain ⟨j, hj⟩ : ∃ j, outputs step moves s (List.replicate k (.goOn t)) = .replicate j none := by
    rw [← List.reduceOption_eq_nil_iff, reduceOption_moves]
    simp [Act.command?]
  obtain ⟨-, hpace⟩ := count_moves h hkeeps
  rw [hj, List.count_replicate_self, List.count_replicate_self] at hpace
  refine ⟨j, (Nat.le_add_right ..).trans (hpace.trans (Nat.add_le_add_left (pace_le _ _) _)), ?_⟩
  rw [(ledTask_run h hkeeps).2, hj, run_replicate]
  rfl

/-- **Left alone, a running agent puts out what it was told since its start** after thirty-six steps
of its task. -/
theorem Renewed.putsOut {s : LedSystem} {acts : List Act} (h : s.Renewed acts) {t : ℕ}
    (hlive : s.tasks.Live t) {k : ℕ} (hk : 36 ≤ k) :
    (run step s (List.replicate k (.goOn t))).rgbPWM.PutsOut (renewedDisplay acts) := by
  obtain ⟨hserving, hinv, hsettled⟩ := h.serving hlive
  obtain ⟨i, hi, hputs⟩ := LedTask.exists_putsOut hinv (tended_ledTask h.tended t)
  obtain ⟨j, hj, hrun⟩ := ledTask_replicate hserving k
  obtain ⟨k', rfl⟩ : ∃ k', k = k' + 1 := ⟨k - 1, by omega⟩
  have hdriver : ((run step s (List.replicate (k' + 1) (.goOn t))).ledTask t).agent.rgbPWM
      = (run step s (List.replicate (k' + 1) (.goOn t))).rgbPWM := by
    rw [List.replicate_succ', run_concat]
    exact rgbPWM_ledTask_goOn _ t
  rw [← hdriver, hrun, ← hsettled]
  exact hputs j (by omega)

/-- A task that is about to test an empty queue has nothing left to do. -/
theorem idle_ledTask {s : LedSystem} {t : ℕ} (hpc : s.tasks.get t = some .testing)
    (hq : (s.queue.getD .empty).items = []) : (s.ledTask t).Idle :=
  ⟨by simp [ledTask, hpc], hq⟩

/-- With nothing left to do, the driver holds what the agent was told since its start; its pins put
it out unless it waits to be taken up, and then after the next tick. -/
theorem Renewed.putsOut_of_idle {s : LedSystem} {acts : List Act} (h : s.Renewed acts) {t : ℕ}
    (hpc : s.tasks.get t = some .testing) (hq : (s.queue.getD .empty).items = []) :
    (s.rgbPWM.xMode, s.rgbPWM.pRgb) = renewedDisplay acts ∧
      (s.rgbPWM.xChanged = false → s.rgbPWM.PutsOut (renewedDisplay acts)) ∧
        ((s.goOn t).goOn t).rgbPWM.PutsOut (renewedDisplay acts) := by
  have hlive : s.tasks.Live t := fun hdead => Option.some_ne_none _ (hpc.symm.trans hdead)
  have hdriver : (s.ledTask t).agent.rgbPWM = s.rgbPWM := rgbPWM_ledTask (by simp [hpc])
  obtain ⟨hserving, hinv, hsettled⟩ := h.serving hlive
  have hidle := idle_ledTask hpc hq
  have hquiet := LedTask.quiet_of_idle hinv hidle
  have hshown : (s.rgbPWM.xMode, s.rgbPWM.pRgb) = renewedDisplay acts := by
    rw [← hdriver, ← hsettled]
    exact LedTask.shown_of_quiet hquiet
  refine ⟨hshown, fun htaken => ?_, ?_⟩
  · rw [← hshown]
    exact (h.tended.waiting htaken).putsOut (hdriver ▸ hquiet.2)
  · have hfirst : s.moves (.goOn t) = [none] := by simp [moves, hpc, hq]
    have hticking : (s.goOn t).tasks.get t = some .ticking := by
      rw [pc_goOn, hpc, hq]
      rfl
    have hsecond : (s.goOn t).moves (.goOn t) = [none] := by simp [moves, hticking]
    obtain ⟨hserving', hmove⟩ := ledTask_goOn hserving t
    rw [← rgbPWM_ledTask_goOn, (ledTask_goOn hserving' t).2, hsecond, hmove, hfirst, ← hsettled]
    exact LedTask.putsOut_step_step hinv hidle (tended_ledTask h.tended t)

end LedSystem

/-- **A restarted agent is as good as new.**  In every interleaving in which the operations keep to
the protocol and the commands to a running agent find room in its queue: whatever the agent was told
before its last start, wherever its earlier tasks were stopped, and whatever its pins put out until
then, after thirty-six steps of its live task they put out what the commands since that start make
of a display that is off.  When the task is about to test its queue and it is empty, the driver
already holds that; its pins put it out unless a change is waiting to be taken up, and after the
next tick in any case. -/
theorem restarted_shows (pRgb pPrevRgb : Rgb16) (acts : List Act)
    (hops : Along Use.next Use.Allowed .idle (acts.filterMap Act.op?))
    (hroom : Along LedSystem.step LedSystem.Takes (.init pRgb pPrevRgb) acts) :
    let s := run LedSystem.step (.init pRgb pPrevRgb) acts
    let d := (sinceStart acts).foldl display (.off, squares 0xFF 0xFF 0xFF)
    ∀ t, s.tasks.Live t →
      (∀ k, 36 ≤ k → (run LedSystem.step s (List.replicate k (.goOn t))).rgbPWM.PutsOut d) ∧
        (s.tasks.get t = some .testing → (s.queue.getD .empty).items = [] →
          (s.rgbPWM.xMode, s.rgbPWM.pRgb) = d ∧
            (s.rgbPWM.xChanged = false → s.rgbPWM.PutsOut d) ∧
              ((s.goOn t).goOn t).rgbPWM.PutsOut d) := by
  intro s d t hlive
  have hrenewed := LedSystem.renewed_run pRgb pPrevRgb hops hroom
  exact ⟨fun k hk => hrenewed.putsOut hlive hk, hrenewed.putsOut_of_idle⟩

/-- An agent that is lit in red when it is stopped, and told green as soon as it is started again,
stays red until its new task runs, and comes to be green. -/
theorem restarted_shows_green :
    let acts : List Act :=
      [.op .start, .goOn 0, .op (.set ⟨.on, 0xFF, 0, 0⟩), .goOn 0, .goOn 0, .goOn 0, .op .stop,
        .op .start, .op (.set ⟨.on, 0, 0xFF, 0⟩)]
    let s := run LedSystem.step (.init .black .black) acts
    s.rgbPWM.levels = squares 0xFF 0 0 ∧
      (run LedSystem.step s (List.replicate 36 (.goOn 1))).rgbPWM.PutsOut
        (.on, squares 0 0xFF 0) := by
  intro acts s
  have hroom : Along LedSystem.step LedSystem.Takes (.init .black .black) acts :=
    ⟨trivial, trivial, fun _ _ => by decide +kernel, trivial, trivial, trivial, trivial, trivial,
      fun _ _ => by decide +kernel, trivial⟩
  have hlive : s.tasks.Live 1 := Option.some_ne_none TaskPc.entering
  refine ⟨by decide +kernel, ?_⟩
  exact (restarted_shows .black .black acts
    ⟨trivial, trivial, trivial, trivial, trivial, trivial⟩ hroom 1 hlive).1 36 (Nat.le_refl 36)

/-! ### The queues of the lives before -/

namespace LedSystem

/-- The queues that `start` created, by their handles: the object holds the last of them, and only
the destructor deletes one. -/
structure Leaked (s : LedSystem) (acts : List Act) : Prop where
  next : s.queues.next = acts.count (.op .start)
  held : ∀ q, s.xRGBQueue = some q ↔ q + 1 = acts.count (.op .start)
  live : ∀ q, s.queues.Live q ↔
    q < acts.count (.op .start) ∧ (useAfter acts = .gone → q + 1 ≠ acts.count (.op .start))

variable {s : LedSystem} {acts : List Act}

/-- An act that creates and deletes no queue. -/
theorem Leaked.of_same (h : s.Leaked acts) {s' : LedSystem} {a : Act} (ha : a ≠ .op .start)
    (huse : useAfter (acts ++ [a]) = .gone ↔ useAfter acts = .gone)
    (hnext : s'.queues.next = s.queues.next) (hheld : s'.xRGBQueue = s.xRGBQueue)
    (hlive : ∀ q, s'.queues.Live q ↔ s.queues.Live q) : s'.Leaked (acts ++ [a]) := by
  have hcount : (acts ++ [a]).count (.op .start) = acts.count (.op .start) := by
    rw [List.count_append, List.count_singleton, if_neg (by simpa using ha), Nat.add_zero]
  refine ⟨?_, fun q => ?_, fun q => ?_⟩
  · rw [hnext, hcount, h.next]
  · rw [hheld, hcount, h.held]
  · rw [hlive, hcount, huse, h.live]

theorem goOn_queues (s : LedSystem) (t : ℕ) :
    (s.goOn t).queues.next = s.queues.next ∧ (s.goOn t).xRGBQueue = s.xRGBQueue ∧
      ∀ q, (s.goOn t).queues.Live q ↔ s.queues.Live q := by
  unfold goOn
  split
  · exact ⟨rfl, rfl, fun _ => Iff.rfl⟩
  · exact ⟨rfl, rfl, fun _ => Iff.rfl⟩
  · split
    · exact ⟨rfl, rfl, fun _ => HandleTable.live_update⟩
    · exact ⟨rfl, rfl, fun _ => Iff.rfl⟩
  · exact ⟨rfl, rfl, fun _ => Iff.rfl⟩
  · exact ⟨rfl, rfl, fun _ => Iff.rfl⟩

theorem set_queues (s : LedSystem) (c : Command) :
    (s.set c).queues.next = s.queues.next ∧ (s.set c).xRGBQueue = s.xRGBQueue ∧
      ∀ q, (s.set c).queues.Live q ↔ s.queues.Live q := by
  unfold set
  split
  · exact ⟨rfl, rfl, fun _ => HandleTable.live_update⟩
  · exact ⟨rfl, rfl, fun _ => Iff.rfl⟩

theorem stop_queues (s : LedSystem) :
    s.stop.queues = s.queues ∧ s.stop.xRGBQueue = s.xRGBQueue := by
  unfold stop
  split
  · exact ⟨rfl, rfl⟩
  · exact ⟨rfl, rfl⟩

theorem destroy_queues (s : LedSystem) :
    s.destroy.queues.next = s.queues.next ∧ s.destroy.xRGBQueue = s.xRGBQueue ∧
      ∀ q, s.destroy.queues.Live q ↔ s.queues.Live q ∧ s.xRGBQueue ≠ some q := by
  unfold destroy
  split
  · rename_i q₀ hq
    refine ⟨rfl, rfl, fun q => HandleTable.live_free.trans ?_⟩
    rw [hq, and_comm, Ne, Ne, Option.some_inj, eq_comm]
  · rename_i hq
    exact ⟨rfl, rfl, fun q => (and_iff_left (hq ▸ fun h => nomatch h)).symm⟩

/-- Another start is another queue, in the place of the one the object held. -/
theorem leaked_start (h : s.Leaked acts) (ho : (useAfter acts).Allowed .start) :
    s.start.Leaked (acts ++ [.op .start]) := by
  have hcount : (acts ++ [Act.op .start]).count (Act.op .start) = acts.count (.op .start) + 1 := by
    rw [List.count_append, List.count_singleton_self]
  have hidle : useAfter acts = .idle := Use.eq_idle ho
  have huse : useAfter (acts ++ [.op .start]) = .running := by
    rw [useAfter_op, hidle]
    rfl
  refine ⟨?_, fun q => ?_, fun q => ?_⟩
  · rw [hcount, ← h.next]
    rfl
  · rw [hcount, ← h.next]
    exact ⟨fun heq => congrArg (· + 1) (Option.some.inj heq).symm,
      fun heq => congrArg some (Nat.succ.inj heq).symm⟩
  · rw [hcount, huse]
    refine HandleTable.live_alloc.trans ?_
    rw [h.live, h.next, hidle]
    constructor
    · rintro (rfl | ⟨hlt, -⟩)
      · exact ⟨Nat.lt_succ_self _, fun hu => Use.noConfusion hu⟩
      · exact ⟨Nat.lt_succ_of_lt hlt, fun hu => Use.noConfusion hu⟩
    · rintro ⟨hlt, -⟩
      rcases Nat.lt_succ_iff_lt_or_eq.1 hlt with hlt | heq
      · exact Or.inr ⟨hlt, fun hu => Use.noConfusion hu⟩
      · exact Or.inl heq

/-- The destructor deletes the queue that the object holds. -/
theorem leaked_destroy (h : s.Leaked acts) : s.destroy.Leaked (acts ++ [.op .destroy]) := by
  have hcount : (acts ++ [Act.op .destroy]).count (Act.op .start) = acts.count (.op .start) := by
    rw [List.count_append, List.count_singleton, if_neg (by decide), Nat.add_zero]
  have huse : useAfter (acts ++ [.op .destroy]) = .gone := by
    rw [useAfter_op]
    cases useAfter acts <;> rfl
  obtain ⟨hnext, hheld, hlive⟩ := destroy_queues s
  refine ⟨?_, fun q => ?_, fun q => ?_⟩
  · rw [hnext, hcount, h.next]
  · rw [hheld, hcount, h.held]
  · rw [hlive, hcount, huse, h.live, ne_eq (s.xRGBQueue), h.held]
    constructor
    · rintro ⟨⟨hlt, -⟩, hne⟩
      exact ⟨hlt, fun _ => hne⟩
    · rintro ⟨hlt, hne⟩
      exact ⟨⟨hlt, fun _ => hne rfl⟩, hne rfl⟩

/-- **The step lemma**: every act that keeps to the protocol keeps the account of the queues. -/
theorem leaked_step (h : s.Leaked acts) {a : Act}
    (ha : ∀ o, a = .op o → (useAfter acts).Allowed o) : (s.step a).Leaked (acts ++ [a]) := by
  cases a with
  | goOn t =>
      obtain ⟨hnext, hheld, hlive⟩ := goOn_queues s t
      exact h.of_same (fun heq => Act.noConfusion heq) (by rw [useAfter_goOn]) hnext hheld hlive
  | op o =>
      cases o with
      | start => exact leaked_start h (ha _ rfl)
      | destroy => exact leaked_destroy h
      | set c =>
          obtain ⟨hnext, hheld, hlive⟩ := set_queues s c
          refine h.of_same (fun heq => by cases heq) ?_ hnext hheld hlive
          rw [useAfter_op]
          cases useAfter acts <;> exact Iff.rfl
      | stop =>
          obtain ⟨hsame, hheld⟩ := stop_queues s
          refine h.of_same (fun heq => by cases heq) ?_ (congrArg _ hsame) hheld
            fun q => Iff.of_eq (congrArg (HandleTable.Live · q) hsame)
          rw [useAfter_op]
          cases useAfter acts with
          | idle => exact Iff.rfl
          | running =>
              exact iff_of_false (fun hu => Use.noConfusion hu) fun hu => Use.noConfusion hu
          | gone => exact Iff.rfl

theorem leaked_init (pRgb pPrevRgb : Rgb16) : (init pRgb pPrevRgb).Leaked [] :=
  ⟨rfl, fun q => iff_of_false (Option.some_ne_none q ∘ Eq.symm) (Nat.succ_ne_zero q),
    fun q => iff_of_false (HandleTable.not_live_empty q) fun h => Nat.not_lt_zero q h.1⟩

/-- What the step lemma says of a run. -/
theorem leaked_run (pRgb pPrevRgb : Rgb16) {acts : List Act}
    (hops : Along Use.next Use.Allowed .idle (acts.filterMap Act.op?)) :
    (run step (init pRgb pPrevRgb) acts).Leaked acts := by
  induction acts using List.reverseRecOn with
  | nil => exact leaked_init pRgb pPrevRgb
  | append_singleton acts a ih =>
      rw [List.filterMap_append] at hops
      obtain ⟨hpre, hlast⟩ := along_append.1 hops
      rw [run_concat]
      refine leaked_step (ih hpre) ?_
      rintro o rfl
      exact hlast.1

end LedSystem

/-- **Every start but the last leaks a queue.**  In every interleaving in which the operations keep
to the protocol, the queues that exist are those that the starts created, one each, except that the
destructor has deleted the last of them: `stop` deletes none, and `start` forgets the one before. -/
theorem restarts_leak (pRgb pPrevRgb : Rgb16) (acts : List Act)
    (hops : Along Use.next Use.Allowed .idle (acts.filterMap Act.op?)) (q : ℕ) :
    (run LedSystem.step (.init pRgb pPrevRgb) acts).queues.Live q ↔
      q < acts.count (.op .start) ∧
        (useAfter acts = .gone → q + 1 ≠ acts.count (.op .start)) :=
  (LedSystem.leaked_run pRgb pPrevRgb hops).live q

/-- An agent that is stopped, started and stopped again leaves its first queue behind when it is
destroyed. -/
theorem restarts_leak_first :
    let acts : List Act := [.op .start, .op .stop, .op .start, .op .stop, .op .destroy]
    (run LedSystem.step (.init .black .black) acts).queues.Live 0 :=
  (restarts_leak .black .black [.op .start, .op .stop, .op .start, .op .stop, .op .destroy]
    ⟨trivial, trivial, trivial, trivial, trivial, trivial⟩ 0).2 (by decide)

end TwinThing
