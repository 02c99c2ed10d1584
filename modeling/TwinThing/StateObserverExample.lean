/-
**The lamp and the twin's state, under two writers.**

The observer of the twin's state shows it on a lamp: it reads the state, and sends a command to
the lamp's agent.  Two tasks write the state, the twin with its remote updates and the switch with
its presses, and each runs the observer itself after it has written.  Reading the state and
sending the command are two steps, between which the other writer may do all of its own.

Main definitions:

* `TwinThing.notifyState`, `TwinThing.stateDisplay` — the observer, and the display of a state;
* `TwinThing.LampSystem`, `TwinThing.lampStep` — two writers, the state and the lamp;
* `TwinThing.AgreesWhenQuiescent` — in every quiescent state the lamp holds the mode and the colour
  of the state;
* `TwinThing.SendCurrent` — a send that leaves nobody writing carries the state as it is.

Main results:

* `TwinThing.LampSystem.lamp_send_read`, `TwinThing.settled_notifyState` — a notification that
  nothing comes between is right;
* `TwinThing.settlesOnState_step` — what one step keeps;
* `TwinThing.lamp_agrees_iff` — **exactly when the lamp agrees with the state**: when every send
  that leaves nobody writing carries the state as it is then.
-/

import TwinThing.RGBLEDAgentPins
import TwinThing.RGBSwitchObs

set_option relaxedAutoImplicit false
set_option autoImplicit false

namespace TwinThing

/-! ### The observer -/

/-- The command that shows a state. -/
def stateCommand (s : StateExample) : Command where
  mode := if s.on then .on else .off
  r := s.rgb.r
  g := s.rgb.g
  b := s.rgb.b

/-- The observer, when nothing comes between its reading the state and its sending the command. -/
def notifyState (s : StateExample) (lamp : LedTask) : LedTask :=
  lamp.set (stateCommand s).mode (stateCommand s).r (stateCommand s).g (stateCommand s).b

/-- What the lamp should show of a state. -/
def stateDisplay (s : StateExample) : RGBMode × Rgb16 :=
  (if s.on then .on else .off, squares s.rgb.r s.rgb.g s.rgb.b)

theorem stateCommand_mode_ne_once (s : StateExample) : (stateCommand s).mode ≠ .once := by
  unfold stateCommand
  split
  · simp
  · simp

theorem display_stateCommand (d : RGBMode × Rgb16) (s : StateExample) :
    display d (stateCommand s) = stateDisplay s :=
  display_of_ne (stateCommand_mode_ne_once s) d

/-! ### Two writers -/

/-- Where a writer is: ready for its next setter call, about to run the observer, or in it, with
the state read and not yet sent. -/
inductive Stage
  | ready
  | dirty
  | read (c : Command)
  deriving DecidableEq, Repr

/-- A writer: the setter calls its operation has still to make, and where it is. -/
structure Writer where
  calls : List Setter
  stage : Stage
  deriving DecidableEq, Repr

/-- The writer is not in the middle of an operation. -/
def Writer.Quiet (w : Writer) : Prop := w.calls = [] ∧ w.stage = .ready

instance (w : Writer) : Decidable w.Quiet := inferInstanceAs (Decidable (_ ∧ _))

/-- The two writers. -/
inductive Who
  | twin
  | switch
  deriving DecidableEq, Repr

/-- The state and its writers, the observer of the switch, and the task of the lamp. -/
structure LampSystem where
  state : StateExample
  obs : RGBSwitchObs
  writers : Who → Writer
  lamp : LedTask

/-- A step: a writer begins an operation, makes a setter call, reads the state or sends a command;
or the task of the lamp goes on. -/
inductive LampAct
  | update (json : List (String × Json))
  | press (kind : Press)
  | write (w : Who)
  | read (w : Who)
  | send (w : Who)
  | loop

namespace LampSystem

/-- The system as `main_task` leaves it: the lamp has been sent white, and nobody is writing. -/
def start (pRgb pPrevRgb : Rgb16) : LampSystem where
  state := .init
  obs := .init
  writers := fun _ => ⟨[], .ready⟩
  lamp := (LedTask.enter pRgb pPrevRgb).set .on 0xFF 0xFF 0xFF

/-- Nobody is in the middle of an operation. -/
def Quiet (s : LampSystem) : Prop := ∀ w, (s.writers w).Quiet

/-- Nobody is, and the lamp has nothing left to do. -/
def Quiescent (s : LampSystem) : Prop := s.Quiet ∧ s.lamp.Idle

/-- A writer goes on to another point. -/
def setWriter (s : LampSystem) (w : Who) (calls : List Setter) (stage : Stage) : LampSystem :=
  { s with writers := Function.update s.writers w ⟨calls, stage⟩ }

/-- The twin begins a remote update. -/
def update (s : LampSystem) (json : List (String × Json)) : LampSystem :=
  if (s.writers .twin).Quiet then s.setWriter .twin (updateSetters json) .ready else s

/-- The switch begins to handle a press. -/
def press (s : LampSystem) (kind : Press) : LampSystem :=
  if (s.writers .switch).Quiet then
    match kind.handle s.obs with
    | some (obs, calls) => { s with obs := obs }.setWriter .switch calls .ready
    | none => s
  else s

/-- A writer makes its next setter call, either after the observer has run for the one before, or
in the same transaction. -/
def write (s : LampSystem) (w : Who) : LampSystem :=
  match (s.writers w).calls, (s.writers w).stage with
  | c :: calls, .ready => { s with state := c.run s.state }.setWriter w calls .dirty
  | c :: calls, .dirty => { s with state := c.run s.state }.setWriter w calls .dirty
  | _, _ => s

/-- The first half of the observer. -/
def read (s : LampSystem) (w : Who) : LampSystem :=
  if (s.writers w).stage = .dirty then
    s.setWriter w (s.writers w).calls (.read (stateCommand s.state))
  else s

/-- The second half. -/
def send (s : LampSystem) (w : Who) : LampSystem :=
  match (s.writers w).stage with
  | .read c =>
    { s with lamp := s.lamp.set c.mode c.r c.g c.b }.setWriter w (s.writers w).calls .ready
  | _ => s

end LampSystem

/-- One step of the system; what cannot happen where a writer is leaves everything as it is. -/
def lampStep (s : LampSystem) : LampAct → LampSystem
  | .update json => s.update json
  | .press kind => s.press kind
  | .write w => s.write w
  | .read w => s.read w
  | .send w => s.send w
  | .loop => { s with lamp := s.lamp.step }

/-- The lamp's driver holds the mode and the colour of the state. -/
def LampSystem.Agrees (s : LampSystem) : Prop := s.lamp.shown = stateDisplay s.state

/-- The state has been changed. -/
def LampSystem.Changed (s : LampSystem) : Prop := s.state.dirty ≠ []

instance (s : LampSystem) : Decidable s.Agrees := inferInstanceAs (Decidable (_ = _))

instance (s : LampSystem) : Decidable s.Changed := inferInstanceAs (Decidable (_ ≠ _))

/-- **The lamp agrees with the state when all is quiet**: wherever a run has got to, once the lamp
has been left alone for long enough, the system is not quiescent, or the state was never changed,
or the lamp's driver holds the mode and the colour of the state, which its pins put out then, by
`TwinThing.LampSystem.inv_run`. -/
def AgreesWhenQuiescent (s : LampSystem) (acts : List LampAct) : Prop :=
  ∀ pre k, pre <+: acts →
    let t := Runs.run lampStep s (pre ++ List.replicate k .loop)
    t.Quiescent → t.Changed → t.Agrees

/-! ### What a writer's steps do -/

namespace LampSystem

variable {s : LampSystem} {w : Who}

@[simp] theorem setWriter_self (calls : List Setter) (stage : Stage) :
    (s.setWriter w calls stage).writers w = ⟨calls, stage⟩ := Function.update_self ..

theorem setWriter_of_ne {v : Who} (h : v ≠ w) (calls : List Setter) (stage : Stage) :
    (s.setWriter w calls stage).writers v = s.writers v := Function.update_of_ne h ..

/-- A writer that is not ready is in the middle of an operation. -/
theorem not_quiet_setWriter {stage : Stage} (h : stage ≠ .ready) (calls : List Setter) :
    ¬ (s.setWriter w calls stage).Quiet := by
  intro hq
  have hw := (hq w).2
  rw [setWriter_self] at hw
  exact h hw

theorem write_cases (s : LampSystem) (w : Who) :
    s.write w = s ∨ ∃ c calls,
      s.write w = { s with state := Setter.run s.state c }.setWriter w calls .dirty := by
  unfold write
  split
  · exact Or.inr ⟨_, _, rfl⟩
  · exact Or.inr ⟨_, _, rfl⟩
  · exact Or.inl rfl

theorem update_cases (s : LampSystem) (json : List (String × Json)) :
    s.update json = s ∨ (s.writers .twin).Quiet ∧
      s.update json = s.setWriter .twin (updateSetters json) .ready := by
  unfold update
  split
  · exact Or.inr ⟨‹_›, rfl⟩
  · exact Or.inl rfl

theorem press_cases (s : LampSystem) (kind : Press) :
    s.press kind = s ∨ (s.writers .switch).Quiet ∧
      ∃ obs calls, s.press kind = { s with obs := obs }.setWriter .switch calls .ready := by
  unfold press
  split
  · split
    · exact Or.inr ⟨‹_›, _, _, rfl⟩
    · exact Or.inl rfl
  · exact Or.inl rfl

theorem read_cases (s : LampSystem) (w : Who) :
    s.read w = s ∨ (s.writers w).stage = .dirty ∧
      s.read w = s.setWriter w (s.writers w).calls (.read (stateCommand s.state)) := by
  unfold read
  split
  · exact Or.inr ⟨‹_›, rfl⟩
  · exact Or.inl rfl

theorem send_of_read {c : Command} (h : (s.writers w).stage = .read c) :
    s.send w = { s with lamp := s.lamp.set c.mode c.r c.g c.b }.setWriter w
      (s.writers w).calls .ready := by
  unfold send
  rw [h]

theorem send_of_ne (h : ∀ c, (s.writers w).stage ≠ .read c) : s.send w = s := by
  unfold send
  split
  · exact absurd ‹_› (h _)
  · rfl

/-- **Reading and sending with nothing in between is running the observer.** -/
theorem lamp_send_read (h : (s.writers w).stage = .dirty) :
    ((s.read w).send w).lamp = notifyState s.state s.lamp := by
  have hread : s.read w = s.setWriter w (s.writers w).calls (.read (stateCommand s.state)) :=
    if_pos h
  have hstage : ((s.read w).writers w).stage = .read (stateCommand s.state) := by
    rw [hread, setWriter_self]
  rw [send_of_read hstage, hread]
  rfl

/-- A quiet writer that begins and has nothing to do is as quiet as before. -/
theorem quiet_of_setWriter {calls : List Setter} (hw : (s.writers w).Quiet)
    (h : (s.setWriter w calls .ready).Quiet) : s.Quiet := by
  intro v
  by_cases hv : v = w
  · rwa [hv]
  · have hquiet := h v
    rwa [setWriter_of_ne hv] at hquiet

theorem quiet_setWriter_iff (calls : List Setter) :
    (s.setWriter w calls .ready).Quiet ↔ calls = [] ∧ ∀ v ≠ w, (s.writers v).Quiet := by
  constructor
  · intro hq
    refine ⟨by simpa using (hq w).1, ?_⟩
    intro v hv
    have hquiet := hq v
    rwa [setWriter_of_ne hv] at hquiet
  · rintro ⟨hcalls, hothers⟩ v
    by_cases hv : v = w
    · subst hv
      rw [setWriter_self]
      exact ⟨hcalls, rfl⟩
    · rw [setWriter_of_ne hv]
      exact hothers v hv

/-! ### What holds in every run -/

/-- The lamp's task is well, its pins follow its driver, a writer on its way to the observer has
changed the state, and what it has read there is not a one-shot blink. -/
structure Inv (s : LampSystem) : Prop where
  lamp : s.lamp.Inv
  pinned : s.lamp.Pinned
  changed : ∀ w, (s.writers w).stage ≠ .ready → s.Changed
  steady : ∀ w c, (s.writers w).stage = .read c → c.mode ≠ .once

theorem inv_start (pRgb pPrevRgb : Rgb16) : (start pRgb pPrevRgb).Inv where
  lamp := LedTask.inv_set (LedTask.inv_enter pRgb pPrevRgb) ..
  pinned := LedTask.pinned_set (LedTask.pinned_enter pRgb pPrevRgb) ..
  changed := fun _ h => absurd rfl h
  steady := by
    intro w c h
    cases h

theorem inv_setWriter (h : s.Inv) (w : Who) (calls : List Setter) {stage : Stage}
    (hchanged : stage ≠ .ready → s.Changed) (hsteady : ∀ c, stage = .read c → c.mode ≠ .once) :
    (s.setWriter w calls stage).Inv where
  lamp := h.lamp
  pinned := h.pinned
  changed := by
    intro v hv
    by_cases hvw : v = w
    · subst hvw
      rw [setWriter_self] at hv
      exact hchanged hv
    · rw [setWriter_of_ne hvw] at hv
      exact h.changed v hv
  steady := by
    intro v c hv
    by_cases hvw : v = w
    · subst hvw
      rw [setWriter_self] at hv
      exact hsteady c hv
    · rw [setWriter_of_ne hvw] at hv
      exact h.steady v c hv

theorem changed_run (s : StateExample) (c : Setter) : (c.run s).dirty ≠ [] := by
  cases c <;> simp [Setter.run, StateExample.setOn, StateExample.setRGB, StateExample.setDirty]

theorem inv_step (h : s.Inv) (a : LampAct) : (lampStep s a).Inv := by
  cases a with
  | update json =>
      rcases s.update_cases json with heq | ⟨-, heq⟩
      · rwa [lampStep, heq]
      · rw [lampStep, heq]
        exact inv_setWriter h _ _ (by simp) (by simp)
  | press kind =>
      rcases s.press_cases kind with heq | ⟨-, obs, calls, heq⟩
      · rwa [lampStep, heq]
      · rw [lampStep, heq]
        exact inv_setWriter (s := { s with obs := obs }) ⟨h.lamp, h.pinned, h.changed, h.steady⟩
          _ _ (by simp) (by simp)
  | write w =>
      rcases s.write_cases w with heq | ⟨c, calls, heq⟩
      · rwa [lampStep, heq]
      · rw [lampStep, heq]
        have hrun : ({ s with state := c.run s.state } : LampSystem).Inv :=
          ⟨h.lamp, h.pinned, fun _ _ => changed_run s.state c, h.steady⟩
        exact inv_setWriter hrun _ _ (fun _ => changed_run s.state c) (by simp)
  | read w =>
      rcases s.read_cases w with heq | ⟨hdirty, heq⟩
      · rwa [lampStep, heq]
      · rw [lampStep, heq]
        refine inv_setWriter h _ _ (fun _ => h.changed w (by simp [hdirty])) ?_
        rintro c hc
        cases hc
        exact stateCommand_mode_ne_once s.state
  | send w =>
      by_cases hread : ∃ c, (s.writers w).stage = .read c
      · obtain ⟨c, hc⟩ := hread
        rw [lampStep, send_of_read hc]
        have hset : ({ s with lamp := s.lamp.set c.mode c.r c.g c.b } : LampSystem).Inv :=
          ⟨LedTask.inv_set h.lamp .., LedTask.pinned_set h.pinned .., h.changed, h.steady⟩
        exact inv_setWriter hset _ _ (by simp) (by simp)
      · rwa [lampStep, send_of_ne (not_exists.1 hread)]
  | loop =>
      exact ⟨LedTask.inv_step h.lamp, LedTask.pinned_step h.lamp h.pinned, h.changed, h.steady⟩

theorem inv_run (pRgb pPrevRgb : Rgb16) (acts : List LampAct) :
    (Runs.run lampStep (start pRgb pPrevRgb) acts).Inv :=
  Runs.run_invariant lampStep Inv (fun _ a h => inv_step h a) (inv_start pRgb pPrevRgb) acts

/-- Leaving the lamp alone changes nothing but the lamp. -/
theorem run_loops (s : LampSystem) (k : ℕ) :
    Runs.run lampStep s (List.replicate k .loop) = { s with lamp := LedTask.step^[k] s.lamp } := by
  induction k generalizing s with
  | zero => rfl
  | succ k ih => rw [List.replicate_succ, Runs.run_cons, ih, Function.iterate_succ_apply]; rfl

end LampSystem

/-! ### When the lamp agrees with the state -/

/-- After the writer's send nobody is in the middle of an operation. -/
def LeavesQuiet (s : LampSystem) (w : Who) : Prop :=
  (s.writers w).calls = [] ∧ ∀ v ≠ w, (s.writers v).Quiet

/-- **A send that leaves nobody writing carries the state as it is**; or it finds the queue full,
and the lamp is going to settle on that state anyway. -/
def SendCurrent (s : LampSystem) : LampAct → Prop
  | .send w => ∀ c, (s.writers w).stage = .read c → LeavesQuiet s w →
      if s.lamp.agent.queue.Full then s.lamp.settled = stateDisplay s.state
      else c = stateCommand s.state
  | _ => True

/-- Nobody is writing, and the lamp is going to settle on the state. -/
def SettlesOnState (s : LampSystem) : Prop :=
  s.Quiet → s.Changed → s.lamp.settled = stateDisplay s.state

/-- A command shows what the lamp should show exactly when it is the command for the state. -/
theorem command_display_iff (c : Command) (s : StateExample) :
    (c.mode, c.colour) = stateDisplay s ↔ c = stateCommand s := by
  obtain ⟨m, r, g, b⟩ := c
  simp only [stateDisplay, Command.colour, Prod.mk.injEq, squares_inj, stateCommand,
    Command.mk.injEq]

/-- Beginning an operation does not change what the lamp settles on. -/
theorem SettlesOnState.begin {s : LampSystem} (h : SettlesOnState s) {w : Who}
    (hw : (s.writers w).Quiet) (obs : RGBSwitchObs) (calls : List Setter) :
    SettlesOnState ({ s with obs := obs }.setWriter w calls .ready) :=
  fun hq => h (LampSystem.quiet_of_setWriter (s := { s with obs := obs }) hw hq)

theorem settlesOnState_setWriter (s : LampSystem) (w : Who) (calls : List Setter) {stage : Stage}
    (h : stage ≠ .ready) : SettlesOnState (s.setWriter w calls stage) :=
  fun hq => absurd hq (LampSystem.not_quiet_setWriter h calls)

/-- A send keeps the lamp settling on the state exactly when it carries it, if nobody is left
writing. -/
theorem settlesOnState_send {s : LampSystem} (h : s.Inv) {w : Who} {c : Command}
    (hc : (s.writers w).stage = .read c) :
    SendCurrent s (.send w) ↔ SettlesOnState (s.send w) := by
  have hchanged : s.Changed := h.changed w (by simp [hc])
  have hcond : SendCurrent s (.send w) ↔ (LeavesQuiet s w →
      if s.lamp.agent.queue.Full then s.lamp.settled = stateDisplay s.state
      else c = stateCommand s.state) := by
    simp only [SendCurrent, hc, Stage.read.injEq, forall_eq']
  rw [hcond, LampSystem.send_of_read hc, SettlesOnState, LampSystem.quiet_setWriter_iff]
  refine imp_congr Iff.rfl ?_
  by_cases hfull : s.lamp.agent.queue.Full
  · -- the command is dropped
    rw [if_pos hfull]
    have hsettled := LedTask.settled_set_of_full h.lamp hfull c.mode c.r c.g c.b
    exact ⟨fun hs _ => hsettled.trans hs, fun hs => hsettled.symm.trans (hs hchanged)⟩
  · -- the command is the last one the lamp will show
    rw [if_neg hfull, ← command_display_iff]
    have hsettled : (s.lamp.set c.mode c.r c.g c.b).settled = (c.mode, c.colour) :=
      (LedTask.settled_set_of_not_full h.lamp hfull ..).trans (display_of_ne (h.steady w c hc) _)
    exact ⟨fun hs _ => hsettled.trans hs, fun hs => hsettled.symm.trans (hs hchanged)⟩

/-- The step lemma: as long as the lamp settles on the state, a step keeps it so exactly when it
meets `TwinThing.SendCurrent`. -/
theorem settlesOnState_step {s : LampSystem} (h : s.Inv) (hJ : SettlesOnState s) (a : LampAct) :
    SendCurrent s a ↔ SettlesOnState (lampStep s a) := by
  cases a with
  | update json =>
      refine iff_of_true trivial ?_
      rcases s.update_cases json with heq | ⟨htwin, heq⟩
      · rwa [lampStep, heq]
      · rw [lampStep, heq]
        exact hJ.begin htwin s.obs _
  | press kind =>
      refine iff_of_true trivial ?_
      rcases s.press_cases kind with heq | ⟨hswitch, obs, calls, heq⟩
      · rwa [lampStep, heq]
      · rw [lampStep, heq]
        exact hJ.begin hswitch obs calls
  | write w =>
      refine iff_of_true trivial ?_
      rcases s.write_cases w with heq | ⟨c, calls, heq⟩
      · rwa [lampStep, heq]
      · rw [lampStep, heq]
        exact settlesOnState_setWriter _ w calls (by simp)
  | read w =>
      refine iff_of_true trivial ?_
      rcases s.read_cases w with heq | ⟨-, heq⟩
      · rwa [lampStep, heq]
      · rw [lampStep, heq]
        exact settlesOnState_setWriter s w _ (by simp)
  | send w =>
      by_cases hread : ∃ c, (s.writers w).stage = .read c
      · obtain ⟨c, hc⟩ := hread
        exact settlesOnState_send h hc
      · have hne := not_exists.1 hread
        rw [lampStep, LampSystem.send_of_ne hne]
        exact iff_of_true (fun c hc => absurd hc (hne c)) hJ
  | loop =>
      refine iff_of_true trivial ?_
      intro hq hchanged
      exact (LedTask.settled_step h.lamp).trans (hJ hq hchanged)

/-- A notification that nothing comes between, with room in the queue, makes the lamp settle on the
state, whatever was sent before. -/
theorem settled_notifyState {t : LedTask} (h : t.Inv) (hq : ¬ t.agent.queue.Full)
    (s : StateExample) : (notifyState s t).settled = stateDisplay s :=
  (LedTask.settled_set_of_not_full h hq ..).trans (display_stateCommand _ s)

/-- **Exactly when the lamp agrees with the state.**  In a run of two writers and the lamp the lamp
holds the state's mode and colour in every quiescent state after a change, if and only if every send
that leaves nobody writing carries the state as it is then. -/
theorem lamp_agrees_iff (pRgb pPrevRgb : Rgb16) (acts : List LampAct) :
    AgreesWhenQuiescent (.start pRgb pPrevRgb) acts ↔
      Runs.Along lampStep SendCurrent (.start pRgb pPrevRgb) acts := by
  have hstart : SettlesOnState (.start pRgb pPrevRgb) := fun _ hchanged => absurd rfl hchanged
  have hinv (pre : List LampAct) := LampSystem.inv_run pRgb pPrevRgb pre
  rw [← shown_iff_along LampSystem.lamp .loop
    (fun pre d => (Runs.run lampStep (.start pRgb pPrevRgb) pre).Quiet →
      (Runs.run lampStep (.start pRgb pPrevRgb) pre).Changed →
        d = stateDisplay (Runs.run lampStep (.start pRgb pPrevRgb) pre).state)
    (fun _ => rfl) (fun pre => (hinv pre).lamp) hstart (fun pre a hJ => by
      rw [Runs.run_concat]
      exact settlesOnState_step (hinv pre) hJ a)]
  -- while only the lamp goes on, neither the writers nor the state change
  simp only [AgreesWhenQuiescent, Runs.run_append, LampSystem.run_loops]
  constructor
  · intro h pre k hpre hidle hq hchanged
    exact h pre k hpre ⟨hq, hidle⟩ hchanged
  · intro h pre k hpre hquiescent hchanged
    exact h pre k hpre hquiescent.2 hquiescent.1 hchanged

/-- The twin switches the light off and reads the state; before it sends it, a press switches the
light on in the first colour, and the switch sends that. -/
def overtaken : List LampAct :=
  [.update [("on", .boolean false)], .write .twin, .read .twin,
    .press .short, .write .switch, .read .switch, .send .switch, .write .switch, .read .switch,
    .send .switch, .send .twin]

/-- The old state is sent last, and the lamp ends up dark while the state is on. -/
theorem overtaken_disagrees : ¬ AgreesWhenQuiescent (.start .black .black) overtaken := by
  intro h
  have hwriters : ∀ w, ((Runs.run lampStep (.start .black .black)
      (overtaken ++ List.replicate 8 .loop)).writers w).Quiet := by
    intro w
    cases w <;> decide +kernel
  have hidle : (Runs.run lampStep (.start .black .black)
      (overtaken ++ List.replicate 8 .loop)).lamp.inRound = false ∧
    (Runs.run lampStep (.start .black .black)
      (overtaken ++ List.replicate 8 .loop)).lamp.agent.queue.items = [] := by decide +kernel
  have hshown := h overtaken 8 (List.prefix_refl _) ⟨hwriters, hidle⟩ (by decide +kernel)
  exact absurd hshown (by decide +kernel)

end TwinThing
