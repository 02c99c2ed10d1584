/-
**The supervision of the Wi-Fi link in `main_task`.**

The main task reports the link down, initialises the radio, and tries to join the access point
until an attempt succeeds; then it polls the link once in each round of an endless loop, and when
the link has gone it reports that, tries to join again, and reports a join.  Both loops of attempts
are guarded by the same variable `r`, which the second one does not reset.

The task is modelled as a machine with a control point for each loop.  What the radio answers is
taken from three sequences, and the calls that matter are kept in a log.

Main definitions:

* `TwinThing.Radio` — what the radio answers;
* `TwinThing.MainTask`, `TwinThing.mainTask` — the task, and the task after some steps;
* `TwinThing.JoinsAreReal` — every join reported in a log was a join.

Main results:

* `TwinThing.joinsAreReal_iff` — **exactly when every reported join is real**: when the link is
  never found down after it has been joined.
-/

import TwinThing.ConnectionObserver
import Mathlib.Data.Nat.Find

set_option relaxedAutoImplicit false
set_option autoImplicit false

namespace TwinThing

/-! ### The task -/

/-- What the radio answers: to the initialisation, to each attempt to join, and to each poll of
the link. -/
structure Radio where
  init : ℤ
  connect : ℕ → ℤ
  link : ℕ → ℤ

/-- The calls of the task that are kept: its reports to the connection observer, its attempts and
polls with their answers, and the commands it gives the two LEDs. -/
inductive MainEvent
  | report (e : ConnectionObserver.Event)
  | connect (r : ℤ)
  | linkStatus (v : ℤ)
  | lampSet (c : Command)
  | serviceSet (c : Command)
  deriving DecidableEq, Repr

/-- The control points of the task: its three loops, and having returned. -/
inductive Pc
  | joining
  | supervising
  | rejoining
  | returned
  deriving DecidableEq, Repr

/-- The task: its control point, its variable `r`, how many answers of either kind it has taken,
and its log. -/
structure MainTask where
  pc : Pc
  r : ℤ
  tries : ℕ
  polls : ℕ
  log : List MainEvent
  deriving DecidableEq, Repr

namespace MainTask

/-- The task as it enters its first loop, or as it returns when the radio fails to initialise. -/
def start (w : Radio) : MainTask :=
  if w.init ≠ 0 then ⟨.returned, -1, 0, 0, [.report .linkDown, .report .linkFailed]⟩
  else ⟨.joining, -1, 0, 0, [.report .linkDown]⟩

/-- An attempt to join, the body of both loops of attempts. -/
def attempt (w : Radio) (s : MainTask) : MainTask :=
  { s with
    r := w.connect s.tries
    tries := s.tries + 1
    log := s.log ++ [.connect (w.connect s.tries)] }

/-- One step of the task. -/
def step (w : Radio) (s : MainTask) : MainTask :=
  match s.pc with
  | .joining =>
    if s.r < 0 then s.attempt w
    else { s with
      pc := .supervising
      log := s.log ++ [.report .apJoined, .lampSet ⟨.on, 0xFF, 0xFF, 0xFF⟩,
        .serviceSet ⟨.on, 0xFF, 0x00, 0x00⟩] }
  | .supervising =>
    if w.link s.polls < 0 then { s with
      pc := .rejoining
      polls := s.polls + 1
      log := s.log ++ [.linkStatus (w.link s.polls), .report .linkDown] }
    else { s with polls := s.polls + 1, log := s.log ++ [.linkStatus (w.link s.polls)] }
  | .rejoining =>
    -- here `r` still holds what the last attempt returned
    if s.r < 0 then s.attempt w
    else { s with pc := .supervising, log := s.log ++ [.report .apJoined] }
  | .returned => s

end MainTask

/-- The task after `n` steps. -/
def mainTask (w : Radio) (n : ℕ) : MainTask := (MainTask.step w)^[n] (.start w)

theorem mainTask_succ (w : Radio) (n : ℕ) : mainTask w (n + 1) = (mainTask w n).step w :=
  Function.iterate_succ_apply' ..

/-! ### Joins in a log -/

/-- What has been logged since the most recent report that the link is down. -/
def sinceLinkDown (log : List MainEvent) : List MainEvent :=
  (log.reverse.takeWhile fun e => e ≠ .report .linkDown).reverse

/-- The outcome of an attempt, if the event is one. -/
def MainEvent.outcome : MainEvent → Option ℤ
  | .connect r => some r
  | _ => none

/-- The outcome of the last attempt since the link was reported down, if there was one. -/
def lastAttempt (log : List MainEvent) : Option ℤ :=
  ((sinceLinkDown log).filterMap MainEvent.outcome).getLast?

/-- **Every join reported was a join**: before each report that the access point was joined, and
after the most recent report that the link was down, there was an attempt to join, and the last
one succeeded. -/
def JoinsAreReal (log : List MainEvent) : Prop :=
  Runs.Throughout (fun pre e => e = .report .apJoined → lastAttempt pre = some 0) log

@[simp] theorem lastAttempt_linkDown (log : List MainEvent) :
    lastAttempt (log ++ [.report .linkDown]) = none := by
  simp [lastAttempt, sinceLinkDown]

@[simp] theorem lastAttempt_connect (log : List MainEvent) (r : ℤ) :
    lastAttempt (log ++ [.connect r]) = some r := by
  simp [lastAttempt, sinceLinkDown, MainEvent.outcome]

/-- An event that is not a join report keeps a log right. -/
theorem JoinsAreReal.concat {log : List MainEvent} (h : JoinsAreReal log) {e : MainEvent}
    (he : e ≠ .report .apJoined) : JoinsAreReal (log ++ [e]) :=
  Runs.throughout_concat.2 ⟨h, fun heq => absurd heq he⟩

theorem JoinsAreReal.append {log : List MainEvent} (h : JoinsAreReal log) (es : List MainEvent)
    (hes : .report .apJoined ∉ es) : JoinsAreReal (log ++ es) := by
  induction es using List.reverseRecOn with
  | nil => simpa using h
  | append_singleton es e ih =>
      rw [← List.append_assoc]
      simp only [List.mem_append, List.mem_singleton, not_or] at hes
      exact (ih hes.1).concat (Ne.symm hes.2)

theorem joinsAreReal_of_notMem {log : List MainEvent} (h : .report .apJoined ∉ log) :
    JoinsAreReal log :=
  JoinsAreReal.append Runs.throughout_nil log h

/-! ### Runs in which the link holds -/

/-- The link is never found down after it has been joined: the radio fails to initialise, or the
access point is never joined, or no poll of the link is negative. -/
def LinkHolds (w : Radio) : Prop :=
  w.init ≠ 0 ∨ (∀ k, w.connect k ≠ 0) ∨ ∀ k, 0 ≤ w.link k

/-- What holds of the task as long as the link does: every join it reported was real, its second
loop has not been entered, and where it reports the next join the last attempt was a success. -/
structure MainTask.Inv (w : Radio) (s : MainTask) : Prop where
  real : JoinsAreReal s.log
  pc_ne : s.pc ≠ .rejoining
  running : s.pc ≠ .returned → w.init = 0
  joining : s.pc = .joining → 0 ≤ s.r → lastAttempt s.log = some 0 ∧ ∃ k, w.connect k = 0
  joined : s.pc = .supervising → ∃ k, w.connect k = 0

namespace MainTask

theorem start_of_init {w : Radio} (h : w.init = 0) :
    start w = ⟨.joining, -1, 0, 0, [.report .linkDown]⟩ :=
  if_neg (not_not.2 h)

theorem inv_start (w : Radio) : (start w).Inv w := by
  by_cases h : w.init = 0
  · rw [start_of_init h]
    exact ⟨joinsAreReal_of_notMem (by simp), by simp, fun _ => h, by simp, by simp⟩
  · rw [start, if_pos h]
    exact ⟨joinsAreReal_of_notMem (by simp), by simp, by simp, by simp, by simp⟩

/-- A step of the task keeps what holds while the link does. -/
theorem inv_step {w : Radio} (hconn : ∀ k, w.connect k ≤ 0) (hw : LinkHolds w) {s : MainTask}
    (h : s.Inv w) : (s.step w).Inv w := by
  cases hpc : s.pc with
  | returned =>
      have hs : s.step w = s := by simp only [step, hpc]
      rwa [hs]
  | rejoining => exact absurd hpc h.pc_ne
  | joining =>
      by_cases hr : s.r < 0
      · have hs : s.step w = s.attempt w := by simp only [step, hpc, if_pos hr]
        rw [hs]
        refine ⟨h.real.concat (by simp), h.pc_ne, h.running, fun _ hr' => ?_, fun hsup => ?_⟩
        · -- an attempt that is not a failure is a success, and it is the last one
          have hzero : w.connect s.tries = 0 := Int.le_antisymm (hconn _) hr'
          exact ⟨by rw [attempt, lastAttempt_connect, hzero], s.tries, hzero⟩
        · exact absurd (hpc.symm.trans hsup) (by simp)
      · obtain ⟨hlast, hk⟩ := h.joining hpc (Int.not_lt.1 hr)
        simp only [step, hpc, if_neg hr]
        refine ⟨?_, by simp, fun _ => h.running (by simp [hpc]), by simp, fun _ => hk⟩
        have hjoin : JoinsAreReal (s.log ++ [.report .apJoined]) :=
          Runs.throughout_concat.2 ⟨h.real, fun _ => hlast⟩
        have hsets := hjoin.append
          [.lampSet ⟨.on, 0xFF, 0xFF, 0xFF⟩, .serviceSet ⟨.on, 0xFF, 0x00, 0x00⟩] (by simp)
        rwa [List.append_assoc] at hsets
  | supervising =>
      obtain ⟨k, hk⟩ := h.joined hpc
      have hinit : w.init = 0 := h.running (by simp [hpc])
      -- the task has initialised and joined, so the link holds because no poll is negative
      have hlink : 0 ≤ w.link s.polls := by
        rcases hw with hw | hw | hw
        · exact absurd hinit hw
        · exact absurd hk (hw k)
        · exact hw s.polls
      simp only [step, hpc, if_neg (Int.not_lt.2 hlink)]
      exact ⟨h.real.concat (by simp), by simp, fun _ => hinit, by simp, fun _ => ⟨k, hk⟩⟩

end MainTask

theorem inv_mainTask {w : Radio} (hconn : ∀ k, w.connect k ≤ 0) (hw : LinkHolds w) (n : ℕ) :
    (mainTask w n).Inv w := by
  induction n with
  | zero => exact MainTask.inv_start w
  | succ n ih =>
      rw [mainTask_succ]
      exact MainTask.inv_step hconn hw ih

/-! ### Runs in which the link is lost -/

/-- As long as no attempt has succeeded the task is in its first loop. -/
theorem mainTask_joining {w : Radio} (hinit : w.init = 0) {n : ℕ} (hn : ∀ m < n, w.connect m < 0) :
    (mainTask w n).pc = .joining ∧ (mainTask w n).r < 0 ∧ (mainTask w n).tries = n ∧
      (mainTask w n).polls = 0 := by
  induction n with
  | zero =>
      have hstart : mainTask w 0 = ⟨.joining, -1, 0, 0, [.report .linkDown]⟩ :=
        MainTask.start_of_init hinit
      simp [hstart]
  | succ n ih =>
      obtain ⟨hpc, hr, htries, hpolls⟩ := ih fun m hm => hn m (by omega)
      rw [mainTask_succ]
      simp only [MainTask.step, hpc, if_pos hr, MainTask.attempt, htries, hpolls]
      exact ⟨trivial, hn n (by omega), trivial, trivial⟩

/-- After the first success it is in its supervision loop, with `r` zero. -/
theorem mainTask_joined {w : Radio} (hinit : w.init = 0) {k : ℕ} (hk : w.connect k = 0)
    (hlt : ∀ m < k, w.connect m < 0) :
    (mainTask w (k + 2)).pc = .supervising ∧ (mainTask w (k + 2)).r = 0 ∧
      (mainTask w (k + 2)).polls = 0 := by
  obtain ⟨hpc, hr, htries, hpolls⟩ := mainTask_joining hinit hlt
  have hattempt : mainTask w (k + 1) = (mainTask w k).attempt w := by
    rw [mainTask_succ]
    simp only [MainTask.step, hpc, if_pos hr]
  have hzero : ((mainTask w k).attempt w).r = 0 := by rw [MainTask.attempt, htries, hk]
  rw [mainTask_succ, hattempt]
  simp only [MainTask.step, MainTask.attempt, hpc, htries, hk, hpolls]
  simp

/-- There it stays, and `r` with it, until a poll is negative. -/
theorem mainTask_supervising {w : Radio} {k : ℕ}
    (hk : (mainTask w k).pc = .supervising ∧ (mainTask w k).r = 0 ∧ (mainTask w k).polls = 0)
    {n : ℕ} (hn : ∀ m < n, 0 ≤ w.link m) :
    (mainTask w (k + n)).pc = .supervising ∧ (mainTask w (k + n)).r = 0 ∧
      (mainTask w (k + n)).polls = n := by
  induction n with
  | zero => exact hk
  | succ n ih =>
      obtain ⟨hpc, hr, hpolls⟩ := ih fun m hm => hn m (by omega)
      have hlink : ¬ w.link n < 0 := Int.not_lt.2 (hn n (by omega))
      rw [← Nat.add_assoc, mainTask_succ]
      simp only [MainTask.step, hpc, hpolls, if_neg hlink, hr]
      simp

/-- **The loss of the link is followed by a report of a join**, and by no attempt. -/
theorem log_after_loss {w : Radio} {n : ℕ} (hpc : (mainTask w n).pc = .supervising)
    (hr : (mainTask w n).r = 0) (hlink : w.link (mainTask w n).polls < 0) :
    (mainTask w (n + 2)).log
      = ((mainTask w n).log ++ [.linkStatus (w.link (mainTask w n).polls)]) ++ [.report .linkDown]
        ++ [.report .apJoined] := by
  rw [mainTask_succ, mainTask_succ]
  simp only [MainTask.step, hpc, if_pos hlink, hr]
  simp

theorem not_joinsAreReal_of_loss {log : List MainEvent} :
    ¬ JoinsAreReal (log ++ [.report .linkDown] ++ [.report .apJoined]) := by
  intro h
  have hlast := (Runs.throughout_concat.1 h).2 rfl
  simp at hlast

/-- A task that loses the link after joining reports a join that was none. -/
theorem exists_unreal_join {w : Radio} (hconn : ∀ k, w.connect k ≤ 0) (hw : ¬ LinkHolds w) :
    ∃ n, ¬ JoinsAreReal (mainTask w n).log := by
  simp only [LinkHolds, not_or, not_not, not_forall, Int.not_le] at hw
  obtain ⟨hinit, hjoin, hloss⟩ := hw
  have hfail : ∀ m < Nat.find hjoin, w.connect m < 0 := by
    intro m hm
    have hne := Nat.find_min hjoin hm
    have hle := hconn m
    omega
  have hup : ∀ m < Nat.find hloss, 0 ≤ w.link m := fun m hm => Int.not_lt.1 (Nat.find_min hloss hm)
  have hjoined := mainTask_joined hinit (Nat.find_spec hjoin) hfail
  obtain ⟨hpc, hr, hpolls⟩ := mainTask_supervising hjoined hup
  refine ⟨Nat.find hjoin + 2 + Nat.find hloss + 2, ?_⟩
  rw [log_after_loss hpc hr (hpolls.symm ▸ Nat.find_spec hloss)]
  exact not_joinsAreReal_of_loss

/-- **Exactly when every join that is reported was a join.**  Attempts answer zero on success and
a negative number on failure.  The reports of the task are right, however long it runs, exactly
when the link is never found down after it has been joined. -/
theorem joinsAreReal_iff (w : Radio) (hconn : ∀ k, w.connect k ≤ 0) :
    (∀ n, JoinsAreReal (mainTask w n).log) ↔ LinkHolds w := by
  constructor
  · intro h
    by_contra hw
    obtain ⟨n, hn⟩ := exists_unreal_join hconn hw
    exact hn (h n)
  · intro hw n
    exact (inv_mainTask hconn hw n).real

/-- A radio that joins at the second attempt and then keeps the link. -/
theorem joinsAreReal_iff_steady :
    (∀ n, JoinsAreReal (mainTask ⟨0, fun k => if k = 0 then -1 else 0, fun _ => 3⟩ n).log)
      ↔ LinkHolds ⟨0, fun k => if k = 0 then -1 else 0, fun _ => 3⟩ :=
  joinsAreReal_iff ⟨0, fun k => if k = 0 then -1 else 0, fun _ => 3⟩ (by
    intro k
    dsimp only
    split
    · decide
    · decide)

/-- A radio that joins at once and loses the link before the second poll: the fifth step reports
a join that was never attempted. -/
theorem lost_link_joins_unreal :
    ¬ ∀ n, JoinsAreReal (mainTask ⟨0, fun _ => 0, fun k => if k = 0 then 3 else -1⟩ n).log := by
  intro h
  have hlast := h 5 [.report .linkDown, .connect 0, .report .apJoined,
    .lampSet ⟨.on, 0xFF, 0xFF, 0xFF⟩, .serviceSet ⟨.on, 0xFF, 0x00, 0x00⟩, .linkStatus 3,
    .linkStatus (-1), .report .linkDown] (.report .apJoined) [] (by decide) rfl
  exact absurd hlast (by decide)

end TwinThing
