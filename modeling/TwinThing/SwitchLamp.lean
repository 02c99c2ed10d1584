/-
**From the switch to the lamp.**

An edge at the pin of the switch interrupts whatever is running.  The handler classifies the hold
that the edge ends; a press takes the state along the rainbow; each setter it calls runs the
observer of the state, which sends the lamp a command; and the task of the lamp takes the commands
out of its queue, one in each round.  Here the four are put together, with no other writer, to say
what the lamp's pins put out for the edges.

Main definitions:

* `TwinThing.cycleDisplay` — the mode and the colour for a number of presses;
* `TwinThing.Undisturbed` — a press finds room for its two commands, and no remote update changes
  anything;
* `TwinThing.Cycle` — what holds after `n` presses, wherever writer and lamp are;
* `TwinThing.holds` — how long the switch was held, by its edges;
* `TwinThing.SwitchLamp` — the switch, the state and the lamp.

Main results:

* `TwinThing.cycle_step` — what one step keeps;
* `TwinThing.presses_show` — **the lamp shows the last press**, whatever its task did in between;
* `TwinThing.reports_singles` — what the switch reports is the presses among its holds;
* `TwinThing.edges_show` — **the lamp shows the number of holds that were presses**.
-/

import TwinThing.StateObserverExample
import TwinThing.SwitchMgrMerged

set_option relaxedAutoImplicit false
set_option autoImplicit false

namespace TwinThing

open Runs
open RGBSwitchObs (pRainbow settersAt)

/-! ### The cycle of colours -/

/-- The colour after the press of a phase, which the last one leaves as it is. -/
def cycleColour (k : ℕ) : Rgb8 := (pRainbow[min (k % 8) 6]?).getD ⟨0, 0, 0⟩

/-- **What the lamp should show** after the press with `k` presses before it. -/
def cycleDisplay (k : ℕ) : RGBMode × Rgb16 :=
  (if k % 8 = 7 then .off else .on, squares (cycleColour k).r (cycleColour k).g (cycleColour k).b)

/-- The state is what the press with `k` presses before it leaves. -/
structure AtPress (k : ℕ) (s : StateExample) : Prop where
  changed : s.dirty ≠ []
  on : s.on = decide (k % 8 ≠ 7)
  rgb : s.rgb = cycleColour k

theorem AtPress.display {k : ℕ} {s : StateExample} (h : AtPress k s) :
    stateDisplay s = cycleDisplay k := by
  rw [stateDisplay, cycleDisplay, h.on, h.rgb]
  by_cases hk : k % 8 = 7
  · simp [hk]
  · simp [hk]

theorem length_settersAt (k : ℕ) : (settersAt k).length ≤ 2 := by
  unfold settersAt
  split <;> split <;> simp

theorem changed_run_settersAt (s : StateExample) (k : ℕ) :
    (run Setter.run s (settersAt k)).dirty ≠ [] := by
  unfold settersAt
  cases pRainbow[k]? with
  | some c =>
      rw [run_concat]
      exact LampSystem.changed_run _ _
  | none =>
      rw [run_concat]
      exact LampSystem.changed_run _ _

theorem rgb_run_settersAt (s : StateExample) {k : ℕ} (hk : k < 8) :
    (run Setter.run s (settersAt k)).rgb = if k = 7 then s.rgb else cycleColour k := by
  by_cases h7 : k = 7
  · subst h7
    rfl
  · obtain ⟨c, hc⟩ : ∃ c, pRainbow[k]? = some c :=
      ⟨_, List.getElem?_eq_getElem (show k < 7 by omega)⟩
    have hmin : min (k % 8) 6 = k := by omega
    rw [if_neg h7, (run_settersAt s k).1 c hc, cycleColour, hmin, hc]
    rfl

/-- A press takes the state one step along the cycle; the first one, from wherever it is. -/
theorem atPress_run {n : ℕ} {s : StateExample} (h : 0 < n → AtPress (n - 1) s) :
    AtPress n (run Setter.run s (settersAt (n % 8))) := by
  have hlt : n % 8 < 8 := Nat.mod_lt _ (by decide)
  obtain ⟨-, hfirst, hlast⟩ := run_settersAt s (n % 8)
  refine ⟨changed_run_settersAt s _, ?_, ?_⟩
  · by_cases h0 : n % 8 = 0
    · rw [hfirst h0, h0]
      rfl
    · by_cases h7 : n % 8 = 7
      · rw [hlast h7, h7]
        rfl
      · -- in between the press before has left it on
        have hprev : (n - 1) % 8 ≠ 7 := by omega
        rw [run_setters_on, settersAt_onWrite (by omega) (by omega), List.getLast?_nil,
          Option.getD_none, (h (by omega)).on]
        simp [hprev, h7]
  · rw [rgb_run_settersAt s hlt]
    split
    · have hmin : min ((n - 1) % 8) 6 = min (n % 8) 6 := by omega
      rw [(h (by omega)).rgb, cycleColour, hmin, cycleColour]
    · rw [cycleColour, Nat.mod_mod, cycleColour]

/-! ### The writer and the lamp -/

/-- The setter calls of a writer that have not yet been shown to the lamp. -/
def Writer.pending (w : Writer) : ℕ := w.calls.length + if w.stage = .ready then 0 else 1

/-- The step changes nothing but by a press, which finds room for two commands. -/
def Undisturbed (s : LampSystem) : LampAct → Prop
  | .update json => updateSetters json = []
  | .press _ => s.lamp.agent.queue.items.length + 2 ≤ 10
  | _ => True

/-- The presses a step begins. -/
def taken (s : LampSystem) : LampAct → List Press
  | .press kind => if (s.writers .switch).Quiet then [kind] else []
  | _ => []

/-- **What holds after `n` presses**: once the writer has made the calls it has left, the state is
what the last press leaves; the lamp settles on the state as it is whenever the writer is ready,
and there is room in the queue for everything it has still to send. -/
structure Cycle (n : ℕ) (s : LampSystem) : Prop where
  inv : s.Inv
  phase : s.obs.phase = n % 8
  twin : s.writers .twin = ⟨[], .ready⟩
  room : s.lamp.agent.queue.items.length + (s.writers .switch).pending ≤ 10
  current : ∀ c, (s.writers .switch).stage = .read c → c = stateCommand s.state
  settled : (s.writers .switch).stage = .ready → s.Changed → s.lamp.settled = stateDisplay s.state
  reaches : 0 < n → AtPress (n - 1) (run Setter.run s.state (s.writers .switch).calls)

/-! ### One step -/

theorem cycle_start (pRgb pPrevRgb : Rgb16) : Cycle 0 (.start pRgb pPrevRgb) where
  inv := LampSystem.inv_start pRgb pPrevRgb
  phase := rfl
  twin := rfl
  room := (by decide : 1 + 0 ≤ 10)
  current := by
    intro c hc
    cases hc
  settled := fun _ hchanged => absurd rfl hchanged
  reaches := fun h => absurd h (Nat.lt_irrefl 0)

/-- What a setter call of a writer does, unless it does nothing. -/
theorem write_inversion (s : LampSystem) (w : Who) :
    s.write w = s ∨ ∃ c calls, (s.writers w).calls = c :: calls ∧
      s.write w = { s with state := Setter.run s.state c }.setWriter w calls .dirty := by
  unfold LampSystem.write
  split
  · exact Or.inr ⟨_, _, ‹_›, rfl⟩
  · exact Or.inr ⟨_, _, ‹_›, rfl⟩
  · exact Or.inl rfl

/-- A press that is taken. -/
theorem press_of_quiet {s : LampSystem} (h : (s.writers .switch).Quiet) (kind : Press) :
    ∃ obs, s.press kind = { s with obs := obs }.setWriter .switch (settersAt s.obs.phase) .ready ∧
      obs.phase = (s.obs.phase + 1) % 8 := by
  obtain ⟨obs, hpress, hphase⟩ := s.obs.handleShortPress_spec
  have hhandle : kind.handle s.obs = some (obs, settersAt s.obs.phase) := by
    cases kind <;> exact hpress
  refine ⟨obs, ?_, hphase⟩
  rw [LampSystem.press, if_pos h, hhandle]

/-- The task of the lamp takes commands out and puts none in. -/
theorem length_step_le (t : LedTask) :
    t.step.agent.queue.items.length ≤ t.agent.queue.items.length := by
  cases hr : t.inRound with
  | true => rw [LedTask.step_of_inRound hr]; rfl
  | false =>
      rw [LedTask.step_of_between hr]
      cases hq : t.agent.queue.pop with
      | none => rw [LedTask.poll_of_none hq]
      | some p =>
          rw [LedTask.poll_of_some hq, Fifo.items_of_pop_some hq]
          exact Nat.le_succ _

section Step

variable {n : ℕ} {s : LampSystem}

/-- The twin, which has nothing to write, leaves everything as it is. -/
theorem cycle_twin (h : Cycle n s) : s.write .twin = s ∧ s.read .twin = s ∧ s.send .twin = s := by
  refine ⟨?_, ?_, ?_⟩
  · rw [LampSystem.write, h.twin]
  · rw [LampSystem.read, h.twin]
    exact if_neg (by simp)
  · exact LampSystem.send_of_ne (by simp [h.twin])

theorem cycle_update (h : Cycle n s) {json : List (String × Json)} (hj : updateSetters json = []) :
    s.update json = s := by
  rcases s.update_cases json with heq | ⟨-, heq⟩
  · exact heq
  · rw [heq, hj, LampSystem.setWriter, ← h.twin, Function.update_eq_self]

theorem cycle_press (h : Cycle n s) (hroom : s.lamp.agent.queue.items.length + 2 ≤ 10)
    (kind : Press) : Cycle (n + (taken s (.press kind)).length) (s.press kind) := by
  by_cases hq : (s.writers .switch).Quiet
  · obtain ⟨obs, heq, hphase⟩ := press_of_quiet hq kind
    have hinv := LampSystem.inv_step h.inv (.press kind)
    rw [taken, if_pos hq]
    rw [lampStep, heq] at hinv
    rw [heq]
    refine ⟨hinv, ?_, ?_, ?_, ?_, ?_, ?_⟩
    · exact hphase.trans (by rw [h.phase]; simp)
    · rw [LampSystem.setWriter_of_ne (by simp)]
      exact h.twin
    · have hlen := length_settersAt s.obs.phase
      rw [LampSystem.setWriter_self]
      simp only [Writer.pending, if_true]
      exact Nat.le_trans (Nat.add_le_add_left hlen _) hroom
    · intro c hc
      rw [LampSystem.setWriter_self] at hc
      cases hc
    · exact fun _ hchanged => h.settled hq.2 hchanged
    · intro _
      rw [LampSystem.setWriter_self, h.phase]
      refine atPress_run fun hn => ?_
      have hreaches := h.reaches hn
      rwa [hq.1] at hreaches
  · rw [taken, if_neg hq, LampSystem.press, if_neg hq]
    exact h

theorem cycle_write (h : Cycle n s) : Cycle n (s.write .switch) := by
  rcases write_inversion s .switch with heq | ⟨c, calls, hcalls, heq⟩
  · rwa [heq]
  · have hinv := LampSystem.inv_step h.inv (.write .switch)
    rw [lampStep, heq] at hinv
    rw [heq]
    refine ⟨hinv, h.phase, ?_, ?_, ?_, ?_, ?_⟩
    · rw [LampSystem.setWriter_of_ne (by simp)]
      exact h.twin
    · have hroom := h.room
      rw [Writer.pending, hcalls, List.length_cons] at hroom
      rw [LampSystem.setWriter_self]
      simp only [Writer.pending]
      exact Nat.le_trans (Nat.add_le_add_left (Nat.le_add_right _ _) _) hroom
    · intro c hc
      rw [LampSystem.setWriter_self] at hc
      cases hc
    · intro hstage
      rw [LampSystem.setWriter_self] at hstage
      cases hstage
    · intro hn
      rw [LampSystem.setWriter_self]
      have hreaches := h.reaches hn
      rwa [hcalls] at hreaches

theorem cycle_read (h : Cycle n s) : Cycle n (s.read .switch) := by
  rcases s.read_cases .switch with heq | ⟨hdirty, heq⟩
  · rwa [heq]
  · have hinv := LampSystem.inv_step h.inv (.read .switch)
    rw [lampStep, heq] at hinv
    rw [heq]
    refine ⟨hinv, h.phase, ?_, ?_, ?_, ?_, ?_⟩
    · rw [LampSystem.setWriter_of_ne (by simp)]
      exact h.twin
    · have hroom := h.room
      rw [Writer.pending, hdirty] at hroom
      rw [LampSystem.setWriter_self]
      exact hroom
    · intro c hc
      rw [LampSystem.setWriter_self] at hc
      exact (Stage.read.inj hc).symm
    · intro hstage
      rw [LampSystem.setWriter_self] at hstage
      cases hstage
    · intro hn
      rw [LampSystem.setWriter_self]
      exact h.reaches hn

theorem cycle_send (h : Cycle n s) : Cycle n (s.send .switch) := by
  by_cases hread : ∃ c, (s.writers .switch).stage = .read c
  · obtain ⟨c, hc⟩ := hread
    have hroom := h.room
    rw [Writer.pending, hc] at hroom
    have hfull : ¬ s.lamp.agent.queue.Full := by
      unfold Fifo.Full
      simp only [reduceCtorEq, if_false] at hroom
      omega
    have hinv := LampSystem.inv_step h.inv (.send .switch)
    rw [lampStep, LampSystem.send_of_read hc] at hinv
    rw [LampSystem.send_of_read hc]
    refine ⟨hinv, h.phase, ?_, ?_, ?_, ?_, ?_⟩
    · rw [LampSystem.setWriter_of_ne (by simp)]
      exact h.twin
    · have hlen : (s.lamp.set c.mode c.r c.g c.b).agent.queue.items.length
          = s.lamp.agent.queue.items.length + 1 := by
        rw [LedTask.set, RGBLEDAgent.queue_set h.inv.lamp.started,
          Fifo.items_push_of_not_full hfull, List.length_append]
        rfl
      rw [LampSystem.setWriter_self]
      simp only [Writer.pending, reduceCtorEq, if_false, if_true] at hroom ⊢
      exact hlen ▸ (by omega)
    · intro c hc
      rw [LampSystem.setWriter_self] at hc
      cases hc
    · intro _ _
      rw [h.current c hc]
      exact settled_notifyState h.inv.lamp hfull s.state
    · intro hn
      rw [LampSystem.setWriter_self]
      exact h.reaches hn
  · rwa [LampSystem.send_of_ne (not_exists.1 hread)]

theorem cycle_loop (h : Cycle n s) : Cycle n { s with lamp := s.lamp.step } where
  inv := LampSystem.inv_step h.inv .loop
  phase := h.phase
  twin := h.twin
  room := Nat.le_trans (Nat.add_le_add_right (length_step_le s.lamp) _) h.room
  current := h.current
  settled := fun hready hchanged =>
    (LedTask.settled_step h.inv.lamp).trans (h.settled hready hchanged)
  reaches := h.reaches

/-- **The step lemma**: a step that does not disturb the cycle keeps it, and takes it on by the
press it begins, if it begins one. -/
theorem cycle_step (h : Cycle n s) {a : LampAct} (ha : Undisturbed s a) :
    Cycle (n + (taken s a).length) (lampStep s a) := by
  obtain ⟨hwrite, hread, hsend⟩ := cycle_twin h
  cases a with
  | update json => rw [lampStep, cycle_update h ha]; exact h
  | press kind => exact cycle_press h ha kind
  | write w =>
      cases w with
      | twin => rw [lampStep, hwrite]; exact h
      | switch => exact cycle_write h
  | read w =>
      cases w with
      | twin => rw [lampStep, hread]; exact h
      | switch => exact cycle_read h
  | send w =>
      cases w with
      | twin => rw [lampStep, hsend]; exact h
      | switch => exact cycle_send h
  | loop => exact cycle_loop h

end Step

/-! ### What the lamp shows of the presses -/

/-- **The run lemma**: the presses taken in a run that nothing disturbs. -/
theorem cycle_run (pRgb pPrevRgb : Rgb16) {acts : List LampAct}
    (h : Along lampStep Undisturbed (.start pRgb pPrevRgb) acts) :
    Cycle (outputs lampStep taken (.start pRgb pPrevRgb) acts).length
      (run lampStep (.start pRgb pPrevRgb) acts) := by
  induction acts using List.reverseRecOn with
  | nil => exact cycle_start pRgb pPrevRgb
  | append_singleton acts a ih =>
      obtain ⟨hpre, ha⟩ := along_append.1 h
      rw [outputs_concat, List.length_append, run_concat]
      exact cycle_step (ih hpre) ha.1

/-- After at least one press, when all is quiet, the driver holds what the last of them stands for,
and its pins put that out. -/
theorem Cycle.putsOut {n : ℕ} {s : LampSystem} (h : Cycle n s) (hq : s.Quiescent) (hn : 0 < n) :
    s.lamp.agent.rgbPWM.PutsOut (cycleDisplay (n - 1)) := by
  obtain ⟨hcalls, hready⟩ := hq.1 .switch
  have hreaches := h.reaches hn
  rw [hcalls] at hreaches
  have hshown : s.lamp.shown = cycleDisplay (n - 1) := by
    rw [LedTask.shown_of_idle h.inv.lamp hq.2, ← hreaches.display]
    exact (ledConsumer.device_of_idle hq.2).trans (h.settled hready hreaches.changed)
  exact (h.inv.pinned.shows hshown).2 hq.2.1

/-- **The lamp shows the last press.**  In every interleaving of presses with the steps of the
switch's writer and of the lamp's task, in which every press finds at most eight commands waiting
and no remote update changes anything: once all is quiet after the `n`-th press the lamp's pins put
out the mode and colour that press stands for. -/
theorem presses_show (pRgb pPrevRgb : Rgb16) (acts : List LampAct)
    (h : Along lampStep Undisturbed (.start pRgb pPrevRgb) acts) (n : ℕ)
    (hn : (outputs lampStep taken (.start pRgb pPrevRgb) acts).length = n + 1)
    (hq : (run lampStep (.start pRgb pPrevRgb) acts).Quiescent) :
    (run lampStep (.start pRgb pPrevRgb) acts).lamp.agent.rgbPWM.PutsOut (cycleDisplay n) := by
  have hcycle := cycle_run pRgb pPrevRgb h
  rw [hn] at hcycle
  exact hcycle.putsOut hq (Nat.succ_pos n)

instance (s : LampSystem) : (a : LampAct) → Decidable (Undisturbed s a)
  | .update json => inferInstanceAs (Decidable (updateSetters json = []))
  | .press _ => inferInstanceAs (Decidable (_ ≤ _))
  | .write _ => isTrue trivial
  | .read _ => isTrue trivial
  | .send _ => isTrue trivial
  | .loop => isTrue trivial

/-- The switch handles a press while the lamp's task goes on. -/
def handled (kind : Press) (calls : ℕ) : List LampAct :=
  .press kind ::
    (List.replicate calls [.write .switch, .loop, .read .switch, .send .switch]).flatten

/-- After a short and a long press the lamp has gone idle in the second colour. -/
theorem presses_show_second :
    let acts := handled .short 2 ++ handled .long 1 ++ List.replicate 13 .loop
    (run lampStep (.start .black .black) acts).lamp.agent.rgbPWM.PutsOut (cycleDisplay 1) := by
  intro acts
  have hquiet : ∀ w, ((run lampStep (.start .black .black) acts).writers w).Quiet := by
    intro w
    cases w <;> decide +kernel
  exact presses_show .black .black acts (by decide +kernel) 1 (by decide +kernel)
    ⟨hquiet, by decide +kernel, by decide +kernel⟩

/-! ### From edges to presses -/

/-- How long the switch was held, for each rising edge and the falling edge before it. -/
def holds : List PinEdge → List ℕ
  | ⟨.fall, t₁⟩ :: ⟨.rise, t₂⟩ :: es => (t₂ - t₁) :: holds es
  | _ => []

/-- What comes after a hold is physical again. -/
theorem Physical.tail_tail {e : PinEdge} {t : ℕ} {es : List PinEdge}
    (h : Physical (e :: ⟨.rise, t⟩ :: es)) : Physical es where
  follows := by
    rintro pre d post rfl
    have hd : Follows (e :: ⟨.rise, t⟩ :: pre) d := h.follows _ d post rfl
    cases pre with
    | nil => exact hd.1
    | cons c pre =>
        rw [Follows, List.getLast?_cons_cons, List.getLast?_cons_cons] at hd
        exact hd
  inRange := fun d hd => h.inRange d (List.mem_cons_of_mem _ (List.mem_cons_of_mem _ hd))

/-- **What the switch reports is the presses among its holds.** -/
theorem reports_singles (bits : EdgeBits) {m : SwitchMgr} (h : m.pObs = true) {es : List PinEdge}
    (hphys : Physical es) (x : UInt32) :
    (m.store x).reports bits (es.map .single) = (holds es).flatMap (classify m.xGP) := by
  induction es using holds.induct generalizing x with
  | case1 t₁ t₂ es ih =>
      have hfollows : Follows [⟨.fall, t₁⟩] ⟨.rise, t₂⟩ := hphys.follows [_] _ es rfl
      have hle : t₁ ≤ t₂ := hfollows.2
      have hlt : t₂ < 2 ^ 32 := (hphys.inRange ⟨.rise, t₂⟩ (by simp)).2
      rw [List.map_cons, List.map_cons, SwitchMgr.reports_cons, SwitchMgr.deliver_single_fall,
        SwitchMgr.reports_cons, SwitchMgr.deliver_single_rise bits m _ h, ih hphys.tail_tail,
        toNat_clock_sub hle, Nat.mod_eq_of_lt (by omega)]
      rfl
  | case2 es hnot =>
      -- the switch was not touched, or is still held
      match es with
      | [] => rfl
      | [⟨.fall, t₁⟩] =>
          rw [List.map_cons, SwitchMgr.reports_cons, SwitchMgr.deliver_single_fall]
          rfl
      | ⟨.rise, t₁⟩ :: _ => exact absurd (hphys.follows [] _ _ rfl) (by simp [Follows])
      | ⟨.fall, t₁⟩ :: ⟨.rise, t₂⟩ :: es => exact absurd rfl (hnot t₁ t₂ es)
      | ⟨.fall, t₁⟩ :: ⟨.fall, t₂⟩ :: es =>
          exact absurd (hphys.follows [⟨.fall, t₁⟩] ⟨.fall, t₂⟩ es rfl)
            (by simp [Follows, Edge.other])

theorem length_classify (gp : UInt8) (hold : ℕ) :
    (classify gp hold).length = if IsPress hold then 1 else 0 := by
  by_cases h : IsPress hold
  · obtain ⟨h5, h2000⟩ := h
    rw [if_pos ⟨h5, h2000⟩, classify]
    split
    · rfl
    · rw [if_pos (by omega)]
      rfl
  · rw [if_neg h, classify_of_not h]
    rfl

/-- The holds that are presses are as many as the reports. -/
theorem length_flatMap_classify (gp : UInt8) (hs : List ℕ) :
    (hs.flatMap (classify gp)).length = hs.countP fun hold => IsPress hold := by
  induction hs with
  | nil => rfl
  | cons hold hs ih =>
      rw [List.flatMap_cons, List.length_append, ih, length_classify, List.countP_cons,
        Nat.add_comm]
      simp only [decide_eq_true_eq]

/-! ### The switch, the state and the lamp -/

/-- The manager of the switch, whose observer writes the state. -/
structure SwitchLamp where
  switch : SwitchMgr
  lamp : LampSystem

/-- An edge at the pin of the switch, or a step of the system behind it. -/
inductive SwitchLampAct
  | edge (e : PinEdge)
  | lamp (a : LampAct)

/-- An edge begins the press it ends, if it ends one. -/
def switchLampStep (bits : EdgeBits) (p : SwitchLamp) : SwitchLampAct → SwitchLamp
  | .edge e =>
    let q := p.switch.deliver bits (.single e)
    ⟨q.1, run lampStep p.lamp (q.2.map fun n => .press n.press)⟩
  | .lamp a => { p with lamp := lampStep p.lamp a }

/-- The edges of a run. -/
def pinEdges (acts : List SwitchLampAct) : List PinEdge :=
  acts.filterMap fun
    | .edge e => some e
    | .lamp _ => none

/-- An edge comes when the handler has finished with the one before it, and finds room for the two
commands of a press; the system behind the switch is disturbed by nothing else. -/
def Handled (p : SwitchLamp) : SwitchLampAct → Prop
  | .edge _ => (p.lamp.writers .switch).Quiet ∧ p.lamp.lamp.agent.queue.items.length + 2 ≤ 10
  | .lamp (.press _) => False
  | .lamp a => Undisturbed p.lamp a

theorem pinEdges_edge (acts : List SwitchLampAct) (e : PinEdge) :
    pinEdges (acts ++ [.edge e]) = pinEdges acts ++ [e] := by
  simp [pinEdges]

theorem pinEdges_lamp (acts : List SwitchLampAct) (a : LampAct) :
    pinEdges (acts ++ [.lamp a]) = pinEdges acts := by
  simp [pinEdges]

section Edges

variable (bits : EdgeBits) (m : SwitchMgr)

/-- The manager of the switch sees the edges, whatever happens behind it. -/
theorem switch_run (l : LampSystem) (acts : List SwitchLampAct) :
    (run (switchLampStep bits) ⟨m, l⟩ acts).switch
      = m.delivered bits ((pinEdges acts).map .single) := by
  induction acts using List.reverseRecOn with
  | nil => rfl
  | append_singleton acts a ih =>
      rw [run_concat]
      cases a with
      | edge e =>
          rw [switchLampStep, ih, pinEdges_edge, List.map_append, List.map_singleton]
          exact (run_concat (fun m d => (SwitchMgr.deliver bits m d).1) m ..).symm
      | lamp a => rw [switchLampStep, ih, pinEdges_lamp]

/-- An edge reports one press or none. -/
theorem report_cases (h : m.pObs = true) (x : UInt32) (e : PinEdge) :
    ((m.store x).deliver bits (.single e)).2 = [] ∨
      ∃ n, ((m.store x).deliver bits (.single e)).2 = [n] := by
  obtain ⟨edge, t⟩ := e
  cases edge with
  | fall => exact Or.inl (by rw [SwitchMgr.deliver_single_fall])
  | rise =>
      rw [SwitchMgr.deliver_single_rise bits m x h]
      have hlen := length_classify m.xGP (clock t - x).toNat
      split at hlen
      · exact Or.inr (List.length_eq_one_iff.1 hlen)
      · exact Or.inl (List.length_eq_zero_iff.1 hlen)

/-- What an edge that is handled does to the cycle. -/
theorem cycle_edge (h : m.pObs = true) {n : ℕ} {p : SwitchLamp} (hp : Cycle n p.lamp)
    {e : PinEdge} (he : Handled p (.edge e)) {x : UInt32} (hx : p.switch = m.store x) :
    Cycle (n + (p.switch.deliver bits (.single e)).2.length)
      (switchLampStep bits p (.edge e)).lamp := by
  rw [switchLampStep]
  rw [hx]
  rcases report_cases bits m h x e with hnone | ⟨r, hone⟩
  · rw [hnone]
    exact hp
  · have hpress := cycle_press hp he.2 r.press
    rw [taken, if_pos he.1] at hpress
    rw [hone]
    exact hpress

/-- A step behind the switch disturbs nothing and begins no press. -/
theorem undisturbed_of_handled {p : SwitchLamp} {a : LampAct} (h : Handled p (.lamp a)) :
    Undisturbed p.lamp a ∧ taken p.lamp a = [] := by
  cases a with
  | press kind => cases h
  | _ => exact ⟨h, rfl⟩

/-- **The run lemma**: what holds after the presses taken holds after the presses reported. -/
theorem cycle_edges (h : m.pObs = true) (pRgb pPrevRgb : Rgb16) {acts : List SwitchLampAct}
    (hacts : Along (switchLampStep bits) Handled ⟨m, .start pRgb pPrevRgb⟩ acts) :
    Cycle (m.reports bits ((pinEdges acts).map .single)).length
      (run (switchLampStep bits) ⟨m, .start pRgb pPrevRgb⟩ acts).lamp := by
  induction acts using List.reverseRecOn with
  | nil => exact cycle_start pRgb pPrevRgb
  | append_singleton acts a ih =>
      obtain ⟨hpre, ha⟩ := along_append.1 hacts
      rw [run_concat]
      cases a with
      | edge e =>
          have hswitch := switch_run bits m (.start pRgb pPrevRgb) acts
          obtain ⟨x, hx⟩ := SwitchMgr.exists_delivered_eq bits m h ((pinEdges acts).map .single)
          have hcycle := cycle_edge bits m h (ih hpre) ha.1 (hswitch.trans hx)
          rw [hswitch] at hcycle
          rw [pinEdges_edge, List.map_append, List.map_singleton, SwitchMgr.reports_concat,
            List.length_append]
          exact hcycle
      | lamp a =>
          obtain ⟨hund, hnone⟩ := undisturbed_of_handled ha.1
          have hcycle := cycle_step (ih hpre) hund
          rw [hnone] at hcycle
          rw [pinEdges_lamp]
          exact hcycle

end Edges

/-- **The lamp shows the number of holds that were presses.**  For a switch whose manager has its
observer, whatever its uninitialised field holds: in every interleaving of its edges with the steps
of the system behind it in which no edge comes before the handler has finished with the one before
it, and finds at most eight commands waiting, and in which no remote update changes anything, once
all is quiet after `n + 1` holds of more than five and less than two thousand milliseconds the
lamp's pins put out the `n`-th step of the cycle. -/
theorem edges_show (bits : EdgeBits) (m : SwitchMgr) (hobs : m.pObs = true) (pRgb pPrevRgb : Rgb16)
    (acts : List SwitchLampAct) (hphys : Physical (pinEdges acts))
    (h : Along (switchLampStep bits) Handled ⟨m, .start pRgb pPrevRgb⟩ acts) (n : ℕ)
    (hn : ((holds (pinEdges acts)).countP fun hold => IsPress hold) = n + 1)
    (hq : (run (switchLampStep bits) ⟨m, .start pRgb pPrevRgb⟩ acts).lamp.Quiescent) :
    (run (switchLampStep bits) ⟨m, .start pRgb pPrevRgb⟩ acts).lamp.lamp.agent.rgbPWM.PutsOut
      (cycleDisplay n) := by
  have hcycle := cycle_edges bits m hobs pRgb pPrevRgb h
  have hreports : m.reports bits ((pinEdges acts).map .single)
      = (holds (pinEdges acts)).flatMap (classify m.xGP) :=
    reports_singles bits hobs hphys m.xFallingTime
  rw [hreports, length_flatMap_classify, hn] at hcycle
  exact hcycle.putsOut hq (Nat.succ_pos n)

instance (p : SwitchLamp) : (a : SwitchLampAct) → Decidable (Handled p a)
  | .edge _ => inferInstanceAs (Decidable (_ ∧ _))
  | .lamp (.update json) => inferInstanceAs (Decidable (updateSetters json = []))
  | .lamp (.press _) => isFalse id
  | .lamp (.write _) => isTrue trivial
  | .lamp (.read _) => isTrue trivial
  | .lamp (.send _) => isTrue trivial
  | .lamp .loop => isTrue trivial

/-- A hold, and some steps of the writer and of the lamp's task after it. -/
def held (t₁ t₂ calls : ℕ) : List SwitchLampAct :=
  [.edge ⟨.fall, t₁⟩, .edge ⟨.rise, t₂⟩] ++
    (List.replicate calls [.lamp (.write .switch), .lamp .loop, .lamp (.read .switch),
      .lamp (.send .switch)]).flatten

/-- A short press, a bounce of three milliseconds, and a long press. -/
def bouncing : List SwitchLampAct :=
  held 3000 3100 2 ++ held 4000 4003 0 ++ held 5000 5900 1 ++ List.replicate 13 (.lamp .loop)

theorem physical_bouncing : Physical (pinEdges bouncing) := by
  have h₁ : Physical [⟨.fall, 3000⟩] := physical_nil.concat rfl (by decide)
  have h₂ : Physical [⟨.fall, 3000⟩, ⟨.rise, 3100⟩] := h₁.concat ⟨rfl, by decide⟩ (by decide)
  have h₃ : Physical [⟨.fall, 3000⟩, ⟨.rise, 3100⟩, ⟨.fall, 4000⟩] :=
    h₂.concat ⟨rfl, by decide⟩ (by decide)
  have h₄ : Physical [⟨.fall, 3000⟩, ⟨.rise, 3100⟩, ⟨.fall, 4000⟩, ⟨.rise, 4003⟩] :=
    h₃.concat ⟨rfl, by decide⟩ (by decide)
  have h₅ : Physical [⟨.fall, 3000⟩, ⟨.rise, 3100⟩, ⟨.fall, 4000⟩, ⟨.rise, 4003⟩,
      ⟨.fall, 5000⟩] := h₄.concat ⟨rfl, by decide⟩ (by decide)
  exact h₅.concat ⟨rfl, by decide⟩ (by decide)

/-- The bounce does not count, and the lamp has gone idle in the second colour. -/
theorem edges_show_bouncing :
    (run (switchLampStep .pico) ⟨(SwitchMgr.init 14 7).setObserver true, .start .black .black⟩
      bouncing).lamp.lamp.agent.rgbPWM.PutsOut (cycleDisplay 1) := by
  have hquiet : ∀ w, ((run (switchLampStep .pico) ⟨(SwitchMgr.init 14 7).setObserver true,
      .start .black .black⟩ bouncing).lamp.writers w).Quiet := by
    intro w
    cases w <;> decide +kernel
  exact edges_show .pico ((SwitchMgr.init 14 7).setObserver true) rfl .black .black bouncing
    physical_bouncing (by decide +kernel) 1 (by decide +kernel)
    ⟨hquiet, by decide +kernel, by decide +kernel⟩

end TwinThing
