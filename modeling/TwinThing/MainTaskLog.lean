/-
**What the main task ever does, in closed form.**

The log of the main task is determined by the radio: it reports the link down, and either returns
at once, or tries to join for ever, or stops trying at the first answer that is not negative.  From
then on it only polls: the radio is never asked to join again, and each poll that finds the link
down is followed by two reports, of the loss and of a join.

Main definitions:

* `TwinThing.attempts`, `TwinThing.pollLog` — what attempts and a poll leave in the log;
* `TwinThing.fullLog` — the log after a number of polls.

Main results:

* `TwinThing.MainTask.following_step` — each step of the task follows the closed form;
* `TwinThing.exists_supervising` — the task gets to every number of polls;
* `TwinThing.mainTask_log` — **the log in closed form**, for every radio.
-/

import TwinThing.MainTask

set_option relaxedAutoImplicit false
set_option autoImplicit false

namespace TwinThing

/-! ### The closed form -/

/-- The first `n` attempts to join. -/
def attempts (w : Radio) (n : ℕ) : List MainEvent :=
  (List.range n).map fun i => .connect (w.connect i)

/-- The log from the start to the supervision loop, if attempt `k` is the first to succeed. -/
def joinLog (w : Radio) (k : ℕ) : List MainEvent :=
  .report .linkDown :: attempts w (k + 1) ++ [.report .apJoined, .lampSet ⟨.on, 0xFF, 0xFF, 0xFF⟩,
    .serviceSet ⟨.on, 0xFF, 0x00, 0x00⟩]

/-- What one poll of the link leaves. -/
def pollLog (v : ℤ) : List MainEvent :=
  .linkStatus v :: if v < 0 then [.report .linkDown, .report .apJoined] else []

/-- The log after `j` polls. -/
def fullLog (w : Radio) (k j : ℕ) : List MainEvent :=
  joinLog w k ++ (List.range j).flatMap fun i => pollLog (w.link i)

theorem attempts_succ (w : Radio) (n : ℕ) :
    attempts w (n + 1) = attempts w n ++ [.connect (w.connect n)] := by
  rw [attempts, List.range_succ, List.map_append]
  rfl

theorem attempts_prefix (w : Radio) {m n : ℕ} (h : m ≤ n) : attempts w m <+: attempts w n := by
  induction n with
  | zero => rw [Nat.le_zero.1 h]
  | succ n ih =>
      rcases Nat.le_succ_iff.1 h with h | rfl
      · rw [attempts_succ]
        exact (ih h).trans (List.prefix_append _ _)
      · exact List.prefix_refl _

theorem fullLog_succ (w : Radio) (k j : ℕ) :
    fullLog w k (j + 1) = fullLog w k j ++ pollLog (w.link j) := by
  rw [fullLog, List.range_succ, List.flatMap_append, ← List.append_assoc, ← fullLog]
  exact congrArg (fullLog w k j ++ ·) (List.append_nil _)

theorem fullLog_zero (w : Radio) (k : ℕ) : fullLog w k 0 = joinLog w k := List.append_nil _

/-! ### Following it -/

/-- Attempt `k` is the first that does not fail. -/
structure FirstJoin (w : Radio) (k : ℕ) : Prop where
  joins : 0 ≤ w.connect k
  fails : ∀ m < k, w.connect m < 0

namespace MainTask

/-- Where the task is in the closed form, at each of its control points. -/
inductive Following (w : Radio) (k : ℕ) (s : MainTask) : Prop
  | trying (hpc : s.pc = .joining) (hr : s.r < 0) (htries : s.tries ≤ k) (hpolls : s.polls = 0)
      (hlog : s.log = .report .linkDown :: attempts w s.tries)
  | joined (hpc : s.pc = .joining) (hr : 0 ≤ s.r) (hpolls : s.polls = 0)
      (hlog : s.log = .report .linkDown :: attempts w (k + 1))
  | polling (hpc : s.pc = .supervising) (hr : 0 ≤ s.r) (hlog : s.log = fullLog w k s.polls)
  | lost (hpc : s.pc = .rejoining) (hr : 0 ≤ s.r)
      (hlog : s.log ++ [.report .apJoined] = fullLog w k s.polls)

variable {w : Radio} {k : ℕ} {s : MainTask}

theorem following_start (hinit : w.init = 0) : (start w).Following w k := by
  rw [start_of_init hinit]
  exact .trying rfl (by decide) (Nat.zero_le k) rfl rfl

/-- An attempt follows the closed form. -/
theorem following_attempt (hk : FirstJoin w k) (hpc : s.pc = .joining) (htries : s.tries ≤ k)
    (hpolls : s.polls = 0) (hlog : s.log = .report .linkDown :: attempts w s.tries) :
    (s.attempt w).Following w k := by
  have hlog' : (s.attempt w).log = .report .linkDown :: attempts w (s.tries + 1) := by
    rw [attempt, hlog, attempts_succ]
    rfl
  rcases Nat.lt_or_eq_of_le htries with hlt | heq
  · exact .trying hpc (hk.fails s.tries hlt) hlt hpolls hlog'
  · rw [heq] at hlog'
    refine .joined hpc ?_ hpolls hlog'
    rw [attempt, heq]
    exact hk.joins

/-- A poll follows the closed form. -/
theorem following_poll (hpc : s.pc = .supervising) (hr : 0 ≤ s.r)
    (hlog : s.log = fullLog w k s.polls) : (s.step w).Following w k := by
  by_cases hlink : w.link s.polls < 0
  · simp only [step, hpc, if_pos hlink]
    refine .lost rfl hr ?_
    rw [hlog, fullLog_succ, pollLog, if_pos hlink, List.append_assoc]
    rfl
  · simp only [step, hpc, if_neg hlink]
    refine .polling rfl hr ?_
    rw [hlog, fullLog_succ, pollLog, if_neg hlink]

/-- **Each step follows the closed form.** -/
theorem following_step (hk : FirstJoin w k) (h : s.Following w k) : (s.step w).Following w k := by
  cases h with
  | trying hpc hr htries hpolls hlog =>
      have hstep : s.step w = s.attempt w := by simp only [step, hpc, if_pos hr]
      rw [hstep]
      exact following_attempt hk hpc htries hpolls hlog
  | joined hpc hr hpolls hlog =>
      simp only [step, hpc, if_neg (Int.not_lt.2 hr)]
      refine .polling rfl hr ?_
      rw [hlog, hpolls, fullLog_zero]
      rfl
  | polling hpc hr hlog => exact following_poll hpc hr hlog
  | lost hpc hr hlog =>
      simp only [step, hpc, if_neg (Int.not_lt.2 hr)]
      exact .polling rfl hr hlog

/-- In the supervision loop the log is a full one. -/
theorem Following.log_of_supervising (h : s.Following w k) (hpc : s.pc = .supervising) :
    s.log = fullLog w k s.polls := by
  cases h with
  | trying hpc' => exact absurd (hpc'.symm.trans hpc) (by simp)
  | joined hpc' => exact absurd (hpc'.symm.trans hpc) (by simp)
  | polling _ _ hlog => exact hlog
  | lost hpc' => exact absurd (hpc'.symm.trans hpc) (by simp)

/-- In the second loop of attempts `r` still holds the first success. -/
theorem Following.r_of_rejoining (h : s.Following w k) (hpc : s.pc = .rejoining) : 0 ≤ s.r := by
  cases h with
  | trying hpc' => exact absurd (hpc'.symm.trans hpc) (by simp)
  | joined hpc' => exact absurd (hpc'.symm.trans hpc) (by simp)
  | polling hpc' => exact absurd (hpc'.symm.trans hpc) (by simp)
  | lost _ hr => exact hr

/-- A log that follows the closed form is the beginning of a full log. -/
theorem Following.prefix_fullLog (h : s.Following w k) : s.log <+: fullLog w k s.polls := by
  cases h with
  | trying hpc hr htries hpolls hlog =>
      have hpre : attempts w s.tries <+: attempts w (k + 1) := attempts_prefix w (by omega)
      rw [hlog, hpolls, fullLog_zero, joinLog]
      exact (List.cons_prefix_cons.2 ⟨rfl, hpre⟩).trans (List.prefix_append _ _)
  | joined hpc hr hpolls hlog =>
      rw [hlog, hpolls, fullLog_zero]
      exact List.prefix_append _ _
  | polling hpc hr hlog =>
      rw [hlog]
  | lost hpc hr hlog =>
      rw [← hlog]
      exact List.prefix_append _ _

end MainTask

theorem following_mainTask {w : Radio} {k : ℕ} (hinit : w.init = 0) (hk : FirstJoin w k) (n : ℕ) :
    (mainTask w n).Following w k := by
  induction n with
  | zero => exact MainTask.following_start hinit
  | succ n ih =>
      rw [mainTask_succ]
      exact MainTask.following_step hk ih

/-! ### Getting on -/

/-- The task enters its supervision loop. -/
theorem exists_supervising_zero {w : Radio} {k : ℕ} (hinit : w.init = 0) (hk : FirstJoin w k) :
    ∃ n, (mainTask w n).pc = .supervising ∧ (mainTask w n).polls = 0 := by
  obtain ⟨hpc, hr, htries, hpolls⟩ := mainTask_joining hinit hk.fails
  refine ⟨k + 1 + 1, ?_⟩
  have hattempt : mainTask w (k + 1) = (mainTask w k).attempt w := by
    rw [mainTask_succ]
    simp only [MainTask.step, hpc, if_pos hr]
  rw [mainTask_succ, hattempt]
  simp [MainTask.step, MainTask.attempt, hpc, htries, hpolls, Int.not_lt.2 hk.joins]

/-- There it makes one poll after the other. -/
theorem exists_supervising {w : Radio} {k : ℕ} (hinit : w.init = 0) (hk : FirstJoin w k) (j : ℕ) :
    ∃ n, (mainTask w n).pc = .supervising ∧ (mainTask w n).polls = j := by
  induction j with
  | zero => exact exists_supervising_zero hinit hk
  | succ j ih =>
      obtain ⟨n, hpc, hpolls⟩ := ih
      by_cases hlink : w.link j < 0
      · -- one step finds the link down, the next one reports a join
        have hlost : (mainTask w (n + 1)).pc = .rejoining ∧
            (mainTask w (n + 1)).polls = j + 1 := by
          rw [mainTask_succ]
          simp [MainTask.step, hpc, hpolls, hlink]
        have hr : ¬ (mainTask w (n + 1)).r < 0 :=
          Int.not_lt.2 ((following_mainTask hinit hk (n + 1)).r_of_rejoining hlost.1)
        refine ⟨n + 1 + 1, ?_⟩
        rw [mainTask_succ]
        simp [MainTask.step, hlost.1, hlost.2, hr]
      · refine ⟨n + 1, ?_⟩
        rw [mainTask_succ]
        simp [MainTask.step, hpc, hpolls, hlink]

/-! ### The log -/

/-- The task returns at once. -/
theorem mainTask_of_init_ne {w : Radio} (h : w.init ≠ 0) (n : ℕ) :
    mainTask w n = ⟨.returned, -1, 0, 0, [.report .linkDown, .report .linkFailed]⟩ := by
  induction n with
  | zero => exact if_pos h
  | succ n ih =>
      rw [mainTask_succ, ih]
      rfl

/-- The task never joins. -/
theorem log_of_never {w : Radio} (hinit : w.init = 0) (h : ∀ m, w.connect m < 0) (n : ℕ) :
    (mainTask w n).log = .report .linkDown :: attempts w n := by
  induction n with
  | zero =>
      have hstart : mainTask w 0 = ⟨.joining, -1, 0, 0, [.report .linkDown]⟩ :=
        MainTask.start_of_init hinit
      rw [hstart]
      rfl
  | succ n ih =>
      obtain ⟨hpc, hr, htries, -⟩ := mainTask_joining hinit fun m (_ : m < n) => h m
      rw [mainTask_succ, attempts_succ]
      simp only [MainTask.step, hpc, if_pos hr, MainTask.attempt, ih, htries]
      rfl

/-- **The log of the main task in closed form.**  If the radio fails to initialise, the task reports
that and returns.  If no attempt to join succeeds, it goes on trying.  Otherwise there is no other
attempt after the first that does not fail: the log is always the beginning of the reports of the
start-up followed by what the polls leave, and the task gets to every poll. -/
theorem mainTask_log (w : Radio) :
    (w.init ≠ 0 → ∀ n, (mainTask w n).log = [.report .linkDown, .report .linkFailed]) ∧
    (w.init = 0 → (∀ m, w.connect m < 0) →
      ∀ n, (mainTask w n).log = .report .linkDown :: attempts w n) ∧
    (w.init = 0 → ∀ k, FirstJoin w k →
      (∀ n, (mainTask w n).log <+: fullLog w k (mainTask w n).polls) ∧
      ∀ j, ∃ n, (mainTask w n).log = fullLog w k j) := by
  refine ⟨fun h n => by rw [mainTask_of_init_ne h n], log_of_never, fun hinit k hk => ?_⟩
  refine ⟨fun n => ?_, fun j => ?_⟩
  · exact (following_mainTask hinit hk n).prefix_fullLog
  · obtain ⟨n, hpc, hpolls⟩ := exists_supervising hinit hk j
    exact ⟨n, hpolls ▸ (following_mainTask hinit hk n).log_of_supervising hpc⟩

end TwinThing
